import McLoving.Lifecycle.Coherence

/-!
# Retries

A retry supersedes an attempt by a new one in its place.
-/

namespace McLoving.Store

open Option Table AList

variable {s mid : Store} {a c : Uuid} {x y : Rows} {child : AttemptRow}

/-- The new attempt of a retry. -/
structure Succeeds (s : Store) (a c : Uuid) (x : Rows) (child : AttemptRow) : Prop where
  fresh : s.attempts.lookup c = none
  nodeId : child.nodeId = x.attempt.nodeId
  ordinal : child.ordinal = x.attempt.ordinal + 1
  retryOf : child.retryOf = some a
  status : child.status = .queued
  fence : child.fence = 0

/-- The store with a new attempt. -/
def withAttempt (s : Store) (c : Uuid) (child : AttemptRow) : Store :=
  { s with attempts := s.attempts.insert c child }

namespace Succeeds

variable (hsucc : s.Succeeds a c x child) (htouch : s.Touches mid a x y)
include hsucc htouch

theorem fresh_mid : mid.attempts.lookup c = none := by
  rw [htouch.attempts]
  split
  · next heq =>
      have hattempt := htouch.holds.attempt
      rw [← heq, hsucc.fresh] at hattempt
      cases hattempt
  · exact hsucc.fresh

/-- An attempt that was there stays under its identifier. -/
theorem lookup_of_mid {a' : Uuid} {r : AttemptRow} (hr : mid.attempts.lookup a' = some r) :
    (mid.withAttempt c child).attempts.lookup a' = some r := by
  have hne : a' ≠ c := by
    rintro rfl
    rw [hsucc.fresh_mid htouch] at hr
    cases hr
  exact (lookup_insert_ne hne).trans hr

/-- The retried attempt is superseded, and no other. -/
theorem superseded_iff {a' : Uuid} :
    (mid.withAttempt c child).Superseded a' ↔ s.Superseded a' ∨ a' = a := by
  constructor
  · rintro ⟨k, r, hr, hretry⟩
    rcases lookup_insert_cases hr with ⟨-, rfl⟩ | ⟨-, hr⟩
    · exact .inr (mem_unique hretry hsucc.retryOf)
    · exact .inl (htouch.rewrites.superseded_iff.mp ⟨k, r, hr, hretry⟩)
  · rintro (hsup | rfl)
    · obtain ⟨k, r, hr, hretry⟩ := htouch.rewrites.superseded_iff.mpr hsup
      exact ⟨k, r, hsucc.lookup_of_mid htouch hr, hretry⟩
    · exact ⟨c, child, lookup_insert _, hsucc.retryOf⟩

theorem not_superseded (hco : s.Coherent) : ¬ (mid.withAttempt c child).Superseded c := by
  rw [hsucc.superseded_iff htouch]
  rintro (⟨k, r, hr, hretry⟩ | rfl)
  · obtain ⟨q, hq, -⟩ := hco.retryOf hr hretry
    rw [hsucc.fresh] at hq
    cases hq
  · have hattempt := htouch.holds.attempt
    rw [hsucc.fresh] at hattempt
    cases hattempt

end Succeeds

/-- A retry keeps coherence: the node waits again, and the old attempt is closed or parked. -/
theorem Coherent.supersede (hco : s.Coherent) (htouch : s.Touches mid a x y)
    (hsucc : s.Succeeds a c x child) (hcur : ¬ s.Superseded a) (hstamp : x.build.dagMode = true →
      y.build.cancellationRequestedAt = x.build.cancellationRequestedAt)
    (hfence : x.attempt.fence ≤ y.attempt.fence) (hretried : y.attempt.status.IsRetried)
    (hwaits : Phase y.build.dagMode y.node .queued)
    (hverdict : y.build.dagMode = false → y.build.status = .queued)
    (heffects : mid.effects = s.effects) : (mid.withAttempt c child).Coherent := by
  have hrw := htouch.rewrites
  have hwired := hco.toWired.rewrite hrw
  have hsup {a' : Uuid} : (mid.withAttempt c child).Superseded a' ↔ s.Superseded a' ∨ a' = a :=
    hsucc.superseded_iff htouch
  have hold {a' : Uuid} {r : AttemptRow} (hr : mid.attempts.lookup a' = some r) :
      (mid.withAttempt c child).attempts.lookup a' = some r := hsucc.lookup_of_mid htouch hr
  have hy := htouch.holds_after
  have hnodeId : y.attempt.nodeId = x.attempt.nodeId := congrArg (·.1) htouch.attempt_identity
  -- Seen from the store before: an attempt other than the retried one has its old row.
  have hother {a' : Uuid} {r : AttemptRow} (hr : mid.attempts.lookup a' = some r) (ha : a' ≠ a) :
      s.attempts.lookup a' = some r := by
    rwa [htouch.attempts, if_neg ha] at hr
  -- A current attempt that is neither the retried nor the new one is on another node.
  have hfar {a' : Uuid} {r : AttemptRow} (hr : mid.attempts.lookup a' = some r)
      (ha : ¬ (mid.withAttempt c child).Superseded a') :
      a' ≠ a ∧ ¬ s.Superseded a' ∧ r.nodeId ≠ x.attempt.nodeId := by
    rw [hsup, not_or] at ha
    exact ⟨ha.2, ha.1, fun heq =>
      ha.2 (hco.current (hother hr ha.2) htouch.holds.attempt heq ha.1 hcur)⟩
  refine ⟨⟨?node, hwired.build, hwired.dependency, ?retryOf, hwired.single⟩, ?attempted, ?current,
    ?retried, ?ok, ?fence, ?effect⟩
  case node =>
    intro a' r hr
    rcases lookup_insert_cases hr with ⟨-, rfl⟩ | ⟨-, hr⟩
    · exact ⟨y.node, by rw [hsucc.nodeId, ← hnodeId]; exact hy.node⟩
    · exact hwired.node hr
  case retryOf =>
    intro a' r p hr hp
    rcases lookup_insert_cases hr with ⟨-, rfl⟩ | ⟨-, hr⟩
    · obtain rfl := mem_unique hsucc.retryOf hp
      have hordinal : y.attempt.ordinal = x.attempt.ordinal :=
        congrArg (·.2.1) htouch.attempt_identity
      exact ⟨y.attempt, hold hy.attempt, by rw [hnodeId, hsucc.nodeId],
        by rw [hordinal]; exact hsucc.ordinal⟩
    · obtain ⟨q, hq, hnode, hord⟩ := hwired.retryOf hr hp
      exact ⟨q, hold hq, hnode, hord⟩
  case current =>
    intro a₁ r₁ a₂ r₂ hr₁ hr₂ hnode h₁ h₂
    rcases lookup_insert_cases hr₁ with ⟨rfl, rfl⟩ | ⟨-, hq₁⟩ <;>
      rcases lookup_insert_cases hr₂ with ⟨rfl, rfl⟩ | ⟨-, hq₂⟩
    · rfl
    · exact absurd (hnode.symm.trans hsucc.nodeId) (hfar hq₂ h₂).2.2
    · exact absurd (hnode.trans hsucc.nodeId) (hfar hq₁ h₁).2.2
    · obtain ⟨hne₁, hcur₁, -⟩ := hfar hq₁ h₁
      obtain ⟨hne₂, hcur₂, -⟩ := hfar hq₂ h₂
      exact hco.current (hother hq₁ hne₁) (hother hq₂ hne₂) hnode hcur₁ hcur₂
  case retried =>
    intro a' r hr hr_sup
    rcases lookup_insert_cases hr with ⟨rfl, -⟩ | ⟨-, hr⟩
    · exact absurd hr_sup (hsucc.not_superseded htouch hco)
    · by_cases ha : a' = a
      · subst ha
        obtain rfl := mem_unique hy.attempt hr
        exact hretried
      · exact hco.retried (hother hr ha) ((hsup.mp hr_sup).resolve_right ha)
  case ok =>
    intro a' r n' b' hr hn' hb' hr_cur
    rcases lookup_insert_cases hr with ⟨rfl, rfl⟩ | ⟨-, hr⟩
    · have hn : y.node = n' := by
        rw [hsucc.nodeId, ← hnodeId] at hn'
        exact mem_unique hy.node hn'
      subst hn
      obtain rfl := mem_unique hy.build hb'
      refine ⟨hsucc.status ▸ hwaits, fun hne _ => absurd hsucc.status hne, fun _ _ hlive => ?_,
        fun hdag => ?_⟩
      · simp [hsucc.status, AttemptStatus.isLive] at hlive
      · rw [hsucc.status]
        exact hverdict hdag
    · obtain ⟨hne, hcur', hnode⟩ := hfar hr hr_cur
      exact hco.ok_other htouch hstamp (z := ⟨b', n', r⟩) ⟨hr, hn', hb'⟩ hne hnode hcur'
  case fence =>
    intro a' r hr
    rcases lookup_insert_cases hr with ⟨-, rfl⟩ | ⟨-, hr⟩
    · exact hsucc.fence ▸ Int.le_refl 0
    · by_cases ha : a' = a
      · subst ha
        obtain rfl := mem_unique hy.attempt hr
        exact Int.le_trans (hco.fence htouch.holds.attempt) hfence
      · exact hco.fence (hother hr ha)
  case effect =>
    intro id e he
    obtain ⟨r, hr, hpos, hle⟩ := hco.effect (heffects ▸ he : s.effects.lookup id = some e)
    by_cases ha : id.attemptId = a
    · obtain rfl := mem_unique htouch.holds.attempt (ha ▸ hr)
      exact ⟨y.attempt, hold (ha ▸ hy.attempt), hpos, Int.le_trans hle hfence⟩
    · exact ⟨r, hold (by rw [htouch.attempts, if_neg ha]; exact hr), hpos, hle⟩
  case attempted =>
    intro id n' hn'
    by_cases hid : id = x.attempt.nodeId
    · exact ⟨c, child, lookup_insert _, hsucc.nodeId.trans hid.symm,
        hsucc.not_superseded htouch hco⟩
    · obtain ⟨n, hn, -⟩ := hrw.symm.node hn'
      obtain ⟨a', r, hr, hnode, hcur'⟩ := hco.attempted hn
      have ha : a' ≠ a := by
        rintro rfl
        obtain rfl := mem_unique hr htouch.holds.attempt
        exact hid hnode.symm
      refine ⟨a', r, hold (by rw [htouch.attempts, if_neg ha]; exact hr), hnode, ?_⟩
      rw [hsup, not_or]
      exact ⟨hcur', ha⟩

end McLoving.Store
