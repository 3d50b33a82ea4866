import McLoving.Lifecycle.Move
import McLoving.Dag.Acyclic
import McLoving.Store.Operations

/-!
# Coherent stores

The rows of a store refer to one another, every node has at most one current attempt, and each
current attempt is in a phase with its node.
-/

namespace McLoving.Store

open Option

/-! ## Coherence -/

/-- Some attempt retries the given one. -/
def Superseded (s : Store) (a : Uuid) : Prop :=
  ∃ child row, s.attempts.lookup child = some row ∧ row.retryOf = some a

/-- The rows refer to one another. -/
structure Wired (s : Store) : Prop where
  node : ∀ {a r}, s.attempts.lookup a = some r → ∃ n, s.nodes.lookup r.nodeId = some n
  build : ∀ {id n}, s.nodes.lookup id = some n → ∃ b, s.builds.lookup n.buildId = some b
  /-- Dependencies join nodes of one DAG build. -/
  dependency : ∀ {d}, d ∈ s.dependencies → ∃ parent child b,
    s.nodes.lookup d.parentNodeId = some parent ∧ parent.buildId = d.buildId ∧
    s.nodes.lookup d.childNodeId = some child ∧ child.buildId = d.buildId ∧
    s.builds.lookup d.buildId = some b ∧ b.dagMode = true
  /-- A retry belongs to the node of the attempt it retries and comes next. -/
  retryOf : ∀ {a r p}, s.attempts.lookup a = some r → r.retryOf = some p →
    ∃ q, s.attempts.lookup p = some q ∧ q.nodeId = r.nodeId ∧ r.ordinal = q.ordinal + 1
  /-- A build that is not a DAG has one node. -/
  single : ∀ {id n id' n' b}, s.nodes.lookup id = some n → s.nodes.lookup id' = some n' →
    n.buildId = n'.buildId → s.builds.lookup n.buildId = some b → b.dagMode = false → id = id'

/-- The rows refer to one another, every node has exactly one current attempt, and the current
attempt is in a phase with its node. -/
structure Coherent (s : Store) : Prop extends Wired s where
  attempted : ∀ {id n}, s.nodes.lookup id = some n →
    ∃ a r, s.attempts.lookup a = some r ∧ r.nodeId = id ∧ ¬ s.Superseded a
  current : ∀ {a r a' r'}, s.attempts.lookup a = some r → s.attempts.lookup a' = some r' →
    r.nodeId = r'.nodeId → ¬ s.Superseded a → ¬ s.Superseded a' → a = a'
  retried : ∀ {a r}, s.attempts.lookup a = some r → s.Superseded a → r.status.IsRetried
  ok : ∀ {a r n b}, s.attempts.lookup a = some r → s.nodes.lookup r.nodeId = some n →
    s.builds.lookup n.buildId = some b → ¬ s.Superseded a → AttemptOk b n r
  fence : ∀ {a r}, s.attempts.lookup a = some r → 0 ≤ r.fence
  effect : ∀ {id e}, s.effects.lookup id = some e →
    ∃ r, s.attempts.lookup id.attemptId = some r ∧ 0 < id.fence ∧ id.fence ≤ r.fence

variable {s s' : Store}

variable {a : Uuid} {x y : Rows}

theorem Rewrites.superseded_iff (hrw : s.Rewrites s') : s'.Superseded a ↔ s.Superseded a := by
  constructor
  · rintro ⟨c, row, hrow, hretry⟩
    obtain ⟨row', hrow', hid⟩ := hrw.symm.attempt hrow
    refine ⟨c, row', hrow', ?_⟩
    rw [← hretry]
    exact congrArg (·.2.2) hid
  · rintro ⟨c, row, hrow, hretry⟩
    obtain ⟨row', hrow', hid⟩ := hrw.attempt hrow
    refine ⟨c, row', hrow', ?_⟩
    rw [← hretry]
    exact congrArg (·.2.2) hid

theorem Wired.rewrite (hwired : s.Wired) (hrw : s.Rewrites s') : s'.Wired where
  node {a r'} hr' := by
    obtain ⟨r, hr, hid⟩ := hrw.symm.attempt hr'
    obtain ⟨n, hn⟩ := hwired.node hr
    obtain ⟨n', hn', -⟩ := hrw.node hn
    have hnode : r'.nodeId = r.nodeId := (congrArg (·.1) hid).symm
    exact ⟨n', by rw [hnode]; exact hn'⟩
  build {id n'} hn' := by
    obtain ⟨n, hn, hid⟩ := hrw.symm.node hn'
    obtain ⟨b, hb⟩ := hwired.build hn
    obtain ⟨b', hb', -⟩ := hrw.build hb
    have hbuild : n'.buildId = n.buildId := (congrArg (·.1) hid).symm
    exact ⟨b', by rw [hbuild]; exact hb'⟩
  dependency {d} hd := by
    rw [hrw.dependencies] at hd
    obtain ⟨parent, child, b, hparent, hpb, hchild, hcb, hb, hdag⟩ := hwired.dependency hd
    obtain ⟨parent', hparent', hpid⟩ := hrw.node hparent
    obtain ⟨child', hchild', hcid⟩ := hrw.node hchild
    obtain ⟨b', hb', hbid⟩ := hrw.build hb
    exact ⟨parent', child', b', hparent', (congrArg (·.1) hpid).trans hpb, hchild',
      (congrArg (·.1) hcid).trans hcb, hb', (congrArg (·.1) hbid).trans hdag⟩
  retryOf {a r' p} hr' hretry := by
    obtain ⟨r, hr, hid⟩ := hrw.symm.attempt hr'
    obtain ⟨q, hq, hnode, hord⟩ := hwired.retryOf hr ((congrArg (·.2.2) hid).trans hretry)
    obtain ⟨q', hq', hqid⟩ := hrw.attempt hq
    simp only [AttemptRow.identity, Prod.mk.injEq] at hid hqid
    exact ⟨q', hq', by rw [hqid.1, hnode, hid.1], by rw [hqid.2.1, ← hid.2.1]; exact hord⟩
  single {id n id' n' b} hn hn' hbuild hb hdag := by
    obtain ⟨m, hm, hid⟩ := hrw.symm.node hn
    obtain ⟨m', hm', hid'⟩ := hrw.symm.node hn'
    have hm_build : m.buildId = n.buildId := congrArg (·.1) hid
    have hm'_build : m'.buildId = n'.buildId := congrArg (·.1) hid'
    obtain ⟨c, hc, hcid⟩ := hrw.symm.build hb
    refine hwired.single hm hm' (by rw [hm_build, hm'_build, hbuild]) (hm_build ▸ hc) ?_
    exact (congrArg (·.1) hcid).trans hdag

/-- What a rewriting of rows must do to keep a store coherent: current attempts stay in a phase,
retried ones stay closed or parked, and fences do not decrease. -/
structure KeepsPhases (s s' : Store) : Prop where
  ok : ∀ {a r n b r' n' b'}, s.attempts.lookup a = some r → s.nodes.lookup r.nodeId = some n →
    s.builds.lookup n.buildId = some b → s'.attempts.lookup a = some r' →
    s'.nodes.lookup r.nodeId = some n' → s'.builds.lookup n.buildId = some b' →
    ¬ s.Superseded a → AttemptOk b n r → AttemptOk b' n' r'
  retried : ∀ {a r r'}, s.attempts.lookup a = some r → s'.attempts.lookup a = some r' →
    s.Superseded a → r.status.IsRetried → r'.status.IsRetried
  fence : ∀ {a r r'}, s.attempts.lookup a = some r → s'.attempts.lookup a = some r' →
    r.fence ≤ r'.fence
  effects : ∀ {id e}, s'.effects.lookup id = some e → ∃ e', s.effects.lookup id = some e'

theorem Coherent.rewrite (hco : s.Coherent) (hrw : s.Rewrites s') (hkeep : s.KeepsPhases s') :
    s'.Coherent where
  toWired := hco.toWired.rewrite hrw
  attempted {id n'} hn' := by
    obtain ⟨n, hn, -⟩ := hrw.symm.node hn'
    obtain ⟨a, r, hr, hnode, hcur⟩ := hco.attempted hn
    obtain ⟨r', hr', hid⟩ := hrw.attempt hr
    exact ⟨a, r', hr', (congrArg (·.1) hid).trans hnode, fun h => hcur (hrw.superseded_iff.mp h)⟩
  current {a r a' r'} hr hr' hnode hcur hcur' := by
    obtain ⟨q, hq, hid⟩ := hrw.symm.attempt hr
    obtain ⟨q', hq', hid'⟩ := hrw.symm.attempt hr'
    rw [hrw.superseded_iff] at hcur hcur'
    refine hco.current hq hq' ?_ hcur hcur'
    rw [show q.nodeId = r.nodeId from congrArg (·.1) hid, hnode]
    exact (congrArg (·.1) hid').symm
  retried {a r'} hr' hsup := by
    obtain ⟨r, hr, -⟩ := hrw.symm.attempt hr'
    rw [hrw.superseded_iff] at hsup
    exact hkeep.retried hr hr' hsup (hco.retried hr hsup)
  ok {a r' n' b'} hr' hn' hb' hcur := by
    obtain ⟨r, hr, hid⟩ := hrw.symm.attempt hr'
    have hnode : r'.nodeId = r.nodeId := (congrArg (·.1) hid).symm
    rw [hnode] at hn'
    obtain ⟨n, hn, hnid⟩ := hrw.symm.node hn'
    have hbuild : n'.buildId = n.buildId := (congrArg (·.1) hnid).symm
    rw [hbuild] at hb'
    obtain ⟨b, hb, -⟩ := hrw.symm.build hb'
    rw [hrw.superseded_iff] at hcur
    exact hkeep.ok hr hn hb hr' hn' hb' hcur (hco.ok hr hn hb hcur)
  fence {a r'} hr' := by
    obtain ⟨r, hr, -⟩ := hrw.symm.attempt hr'
    exact Int.le_trans (hco.fence hr) (hkeep.fence hr hr')
  effect {id e'} he' := by
    obtain ⟨e, he⟩ := hkeep.effects he'
    obtain ⟨r, hr, hpos, hle⟩ := hco.effect he
    obtain ⟨r', hr', -⟩ := hrw.attempt hr
    exact ⟨r', hr', hpos, Int.le_trans hle (hkeep.fence hr hr')⟩

/-- An attempt that is queued, leased or successful has not been retried. -/
theorem Coherent.not_superseded (hco : s.Coherent) {r : AttemptRow}
    (hr : s.attempts.lookup a = some r) (hstatus : ¬ r.status.IsRetried) : ¬ s.Superseded a :=
  fun hsup => hstatus (hco.retried hr hsup)

/-- The rows of an attempt, its node and its build. -/
structure Holds (s : Store) (a : Uuid) (x : Rows) : Prop where
  attempt : s.attempts.lookup a = some x.attempt
  node : s.nodes.lookup x.attempt.nodeId = some x.node
  build : s.builds.lookup x.node.buildId = some x.build

theorem Wired.exists_holds (hwired : s.Wired) {r : AttemptRow} (hr : s.attempts.lookup a = some r) :
    ∃ n b, s.Holds a ⟨b, n, r⟩ := by
  obtain ⟨n, hn⟩ := hwired.node hr
  obtain ⟨b, hb⟩ := hwired.build hn
  exact ⟨n, b, hr, hn, hb⟩

theorem Holds.unique (hx : s.Holds a x) (hy : s.Holds a y) : x = y := by
  obtain ⟨b, n, r⟩ := x
  obtain ⟨b', n', r'⟩ := y
  obtain rfl := mem_unique hx.attempt hy.attempt
  obtain rfl := mem_unique hx.node hy.node
  obtain rfl := mem_unique hx.build hy.build
  rfl

/-- The attempt's rows become the given ones; every other build, node and attempt stays. -/
structure Touches (s s' : Store) (a : Uuid) (x y : Rows) : Prop where
  holds : s.Holds a x
  attempts : ∀ a', s'.attempts.lookup a' =
    if a' = a then some y.attempt else s.attempts.lookup a'
  nodes : ∀ id, s'.nodes.lookup id =
    if id = x.attempt.nodeId then some y.node else s.nodes.lookup id
  builds : ∀ b, s'.builds.lookup b =
    if b = x.node.buildId then some y.build else s.builds.lookup b
  dependencies : s'.dependencies = s.dependencies
  attempt_identity : y.attempt.identity = x.attempt.identity
  node_identity : y.node.identity = x.node.identity
  build_identity : y.build.identity = x.build.identity

namespace Touches

variable {a : Uuid} {x y : Rows}

/-- Replacing one row by a row of the same identity keeps all identities. -/
private theorem map_ite_eq {κ α β : Type} [DecidableEq κ] {f : α → β} {t : Table κ α} {k k' : κ}
    {row row' : α} (hrow : t.lookup k = some row) (hf : f row' = f row) :
    (if k' = k then some row' else t.lookup k').map f = (t.lookup k').map f := by
  split
  · next heq => rw [heq, hrow, map_some, map_some, hf]
  · rfl

theorem rewrites (htouch : s.Touches s' a x y) : s.Rewrites s' where
  builds b := by rw [htouch.builds, map_ite_eq htouch.holds.build htouch.build_identity]
  nodes n := by rw [htouch.nodes, map_ite_eq htouch.holds.node htouch.node_identity]
  attempts a' := by rw [htouch.attempts, map_ite_eq htouch.holds.attempt htouch.attempt_identity]
  dependencies := htouch.dependencies

theorem holds_after (htouch : s.Touches s' a x y) : s'.Holds a y := by
  have hnode : y.attempt.nodeId = x.attempt.nodeId := congrArg (·.1) htouch.attempt_identity
  have hbuild : y.node.buildId = x.node.buildId := congrArg (·.1) htouch.node_identity
  refine ⟨?_, ?_, ?_⟩
  · rw [htouch.attempts, if_pos rfl]
  · rw [htouch.nodes, if_pos hnode]
  · rw [htouch.builds, if_pos hbuild]

/-- The rows of an attempt of another node, before the change: its node is the same, its build has
the same mode, and the same stop request if the changed build keeps its own. -/
theorem other (htouch : s.Touches s' a x y) {a' : Uuid} {z : Rows} (hz : s'.Holds a' z)
    (ha : a' ≠ a) (hnode : z.attempt.nodeId ≠ x.attempt.nodeId) :
    ∃ b, s.Holds a' ⟨b, z.node, z.attempt⟩ ∧
      ((z.node.buildId = x.node.buildId ∧ z.build = y.build ∧ b = x.build) ∨
        (z.node.buildId ≠ x.node.buildId ∧ b = z.build)) := by
  have hattempt := hz.attempt
  rw [htouch.attempts, if_neg ha] at hattempt
  have hn := hz.node
  rw [htouch.nodes, if_neg hnode] at hn
  have hb := hz.build
  rw [htouch.builds] at hb
  by_cases hbuild : z.node.buildId = x.node.buildId
  · rw [if_pos hbuild] at hb
    exact ⟨x.build, ⟨hattempt, hn, hbuild ▸ htouch.holds.build⟩,
      .inl ⟨hbuild, (Option.some.inj hb).symm, rfl⟩⟩
  · rw [if_neg hbuild] at hb
    exact ⟨z.build, ⟨hattempt, hn, hb⟩, .inr ⟨hbuild, rfl⟩⟩

end Touches

/-- The rows of a current attempt of another node still fit together after a change that keeps the
stop request of a DAG build. -/
theorem Coherent.ok_other (hco : s.Coherent) {a' : Uuid} {z : Rows} (htouch : s.Touches s' a x y)
    (hstamp : x.build.dagMode = true →
      y.build.cancellationRequestedAt = x.build.cancellationRequestedAt) (hz : s'.Holds a' z)
    (ha : a' ≠ a) (hnode : z.attempt.nodeId ≠ x.attempt.nodeId) (hcur : ¬ s.Superseded a') :
    z.Ok := by
  obtain ⟨b, hold, ⟨hbuild, hzb, rfl⟩ | ⟨-, rfl⟩⟩ := htouch.other hz ha hnode
  · have hok := hco.ok hold.attempt hold.node hold.build hcur
    have hdag : z.build.dagMode = x.build.dagMode :=
      hzb ▸ (congrArg (·.1) htouch.build_identity : y.build.dagMode = x.build.dagMode)
    refine ⟨hdag ▸ hok.phase, hok.fenced, fun hd hne => ?_, fun hd => ?_⟩
    · rw [hdag] at hd
      rw [hzb, hstamp hd] at hne
      exact hok.stopped hd hne
    · rw [hdag] at hd
      exact absurd (hco.single hold.node htouch.holds.node hbuild hold.build hd) hnode
  · exact hco.ok hold.attempt hold.node hold.build hcur

/-- A change of one current attempt's rows keeps coherence if the rows still fit together. -/
theorem Coherent.touch (hco : s.Coherent) (htouch : s.Touches s' a x y) (hcur : ¬ s.Superseded a)
    (hstamp : x.build.dagMode = true →
      y.build.cancellationRequestedAt = x.build.cancellationRequestedAt)
    (hfence : x.attempt.fence ≤ y.attempt.fence) (hok : x.Ok → y.Ok)
    (heffects : s'.effects = s.effects) : s'.Coherent := by
  have hrw := htouch.rewrites
  refine hco.rewrite hrw ⟨?_, ?_, ?_, fun he => ⟨_, heffects ▸ he⟩⟩
  · intro a' r n b r' n' b' hr hn hb hr' hn' hb' hcur' hrows
    obtain ⟨r₀, hr₀, hid⟩ := hrw.symm.attempt hr'
    have hnode : r'.nodeId = r.nodeId := by
      obtain rfl := mem_unique hr₀ hr
      exact (congrArg (·.1) hid).symm
    obtain ⟨n₀, hn₀, hnid⟩ := hrw.symm.node hn'
    have hbuild : n'.buildId = n.buildId := by
      obtain rfl := mem_unique hn₀ hn
      exact (congrArg (·.1) hnid).symm
    have hz : s'.Holds a' ⟨b', n', r'⟩ := ⟨hr', hnode ▸ hn', hbuild ▸ hb'⟩
    by_cases ha : a' = a
    · subst ha
      have hx := hco.ok htouch.holds.attempt htouch.holds.node htouch.holds.build hcur
      have hy := htouch.holds_after
      obtain rfl := mem_unique hy.attempt hz.attempt
      obtain rfl := mem_unique hy.node hz.node
      obtain rfl := mem_unique hy.build hz.build
      exact hok hx
    · refine hco.ok_other htouch hstamp hz ha (fun heq => ha ?_) hcur'
      exact hco.current hr htouch.holds.attempt (hnode.symm.trans heq) hcur' hcur
  · intro a' r r' hr hr' hsup hretried
    have ha : a' ≠ a := fun heq => hcur (heq ▸ hsup)
    rw [htouch.attempts, if_neg ha, hr] at hr'
    exact Option.some.inj hr' ▸ hretried
  · intro a' r r' hr hr'
    rw [htouch.attempts] at hr'
    split at hr'
    · next heq =>
        subst heq
        obtain rfl := mem_unique hr htouch.holds.attempt
        exact Option.some.inj hr' ▸ hfence
    · rw [hr] at hr'
      exact Option.some.inj hr' ▸ Int.le_refl _

end McLoving.Store
