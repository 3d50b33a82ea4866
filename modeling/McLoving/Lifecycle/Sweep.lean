import McLoving.Lifecycle.Change

/-!
# Every change keeps the store coherent

One lemma for each kind of change, and the sweeps over a DAG build: stopping, skipping and fencing
the peers of a node, and the rounds of the readiness loop.
-/

namespace McLoving.Store

open Option

variable {s s' : Store} {own : Prop}

/-- A store whose rows are the same up to lease deadlines and workspace columns is coherent too. -/
theorem Coherent.frame (hco : s.Coherent) (hframe : s.Frame s') : s'.Coherent := by
  have hattempt {a : Uuid} {r r' : AttemptRow} (hr : s.attempts.lookup a = some r)
      (hr' : s'.attempts.lookup a = some r') :
      r' = { r with leaseExpiresAt := r'.leaseExpiresAt } := by
    obtain ⟨q, hq, htruth⟩ := hframe.attempt hr'
    obtain rfl := mem_unique hq hr
    exact htruth
  refine hco.rewrite hframe.rewrites ⟨?_, ?_, ?_, fun he => ⟨_, hframe.effects ▸ he⟩⟩
  · intro a r n b r' n' b' hr hn hb hr' hn' hb' _ hok
    rw [hframe.nodes, hn] at hn'
    obtain rfl := some.inj hn'
    obtain ⟨c, hc, hid, hstatus, hstamp⟩ := hframe.build hb'
    obtain rfl := mem_unique hc hb
    have hdag : b'.dagMode = c.dagMode := congrArg (·.1) hid
    rw [hattempt hr hr']
    exact ⟨hdag ▸ hok.phase, hok.fenced, hdag ▸ hstamp ▸ hok.stopped, hdag ▸ hstatus ▸ hok.verdict⟩
  · intro a r r' hr hr' _ hretried
    rw [hattempt hr hr']
    exact hretried
  · intro a r r' hr hr'
    rw [hattempt hr hr']

/-- Coherence does not depend on events, pipelines, epochs and what else the frame leaves out. -/
theorem Coherent.of_eq (hco : s.Coherent) (hbuilds : s'.builds = s.builds)
    (hnodes : s'.nodes = s.nodes) (hattempts : s'.attempts = s.attempts)
    (hdependencies : s'.dependencies = s.dependencies)
    (heffects : ∀ {id e}, s'.effects.lookup id = some e →
      ∃ r, s.attempts.lookup id.attemptId = some r ∧ 0 < id.fence ∧ id.fence ≤ r.fence) :
    s'.Coherent := by
  obtain ⟨_, _, _, _, _, _, _, _, _, _, _, _, _, _, _, _, _, _⟩ := s
  obtain ⟨_, _, _, _, _, _, _, _, _, _, _, _, _, _, _, _, _, _⟩ := s'
  subst hbuilds hnodes hattempts hdependencies
  exact ⟨⟨hco.node, hco.build, hco.dependency, hco.retryOf, hco.single⟩, hco.attempted, hco.current,
    hco.retried, hco.ok, hco.fence, heffects⟩

/-- A write to the ledger keeps coherence: a new effect belongs to an attempt under a lease. -/
theorem Coherent.ledger (hco : s.Coherent) (hledger : s.WritesLedger s') : s'.Coherent := by
  have hs := hledger.rest
  refine hco.of_eq ?_ ?_ ?_ ?_ ?_
  · rw [hs]
  · rw [hs]
  · rw [hs]
  · rw [hs]
  · intro id e' he'
    rcases hlook : s.effects.lookup id with _ | e
    · obtain ⟨-, -, -, r, hr, hexec, hfence⟩ := hledger.fresh he' hlook
      obtain ⟨n, hn⟩ := hco.node hr
      obtain ⟨b, hb⟩ := hco.build hn
      have hcur : ¬ s.Superseded id.attemptId := fun hsup => by
        have hretried := hco.retried hr hsup
        rcases hretried with h | h | h <;> simp [h, AttemptStatus.isExecuting] at hexec
      have hpos := (hco.ok hr hn hb hcur).fenced
        (fun h => by simp [h, AttemptStatus.isExecuting] at hexec)
        (fun h => by simp [h, AttemptStatus.isExecuting] at hexec)
      exact ⟨r, hr, hfence ▸ hpos, hfence ▸ Int.le_refl _⟩
    · exact hco.effect hlook

theorem Coherent.sweep (hco : s.Coherent) {buildId : Uuid} {b : BuildRow}
    (hbuild : s.builds.lookup buildId = some b) (hdag : b.dagMode = true)
    (hsweep : s.Sweeps s' buildId) : s'.Coherent := by
  refine hco.rewrite hsweep.rewrites ⟨?_, ?_, ?_, fun he => ⟨_, hsweep.effects ▸ he⟩⟩
  · intro a r n c r' n' c' hr hn hc hr' hn' hc' hcur hok
    obtain ⟨m, q, hm, hq, hswept, houtside⟩ := hsweep.swept hr hn hcur
    obtain rfl := mem_unique hm hn'
    obtain rfl := mem_unique hq hr'
    rw [hsweep.builds, hc] at hc'
    obtain rfl := some.inj hc'
    by_cases hn_build : n.buildId = buildId
    · obtain rfl := mem_unique hc (hn_build ▸ hbuild)
      exact hswept.ok hdag hok
    · obtain ⟨rfl, rfl⟩ := houtside hn_build
      exact hok
  · intro a r r' hr hr' hsup hretried
    obtain rfl := mem_unique (hsweep.superseded hr hsup) hr'
    exact hretried
  · intro a r r' hr hr'
    by_cases hsup : s.Superseded a
    · obtain rfl := mem_unique (hsweep.superseded hr hsup) hr'
      exact Int.le_refl _
    · obtain ⟨n, hn⟩ := hco.node hr
      obtain ⟨m, q, -, hq, hswept, -⟩ := hsweep.swept hr hn hsup
      obtain rfl := mem_unique hq hr'
      exact hswept.fence_eq ▸ Int.le_refl _

variable {b b' : BuildRow}

/-- Rewriting one build's row keeps the identities. -/
theorem Rebuilds.rewrites {buildId : Uuid} (hre : s.Rebuilds s' buildId b b') : s.Rewrites s' where
  builds id := by
    rw [hre.builds]
    split
    · next heq => rw [heq, hre.build, map_some, map_some, hre.identity]
    · rfl
  nodes n := by rw [hre.nodes]
  attempts a := by rw [hre.attempts]
  dependencies := hre.dependencies

theorem Coherent.mark (hco : s.Coherent) {buildId : Uuid}
    (hre : s.Rebuilds s' buildId b b') (hdag : b.dagMode = true)
    (hmark : BuildMark s buildId b b') : s'.Coherent := by
  refine hco.rewrite hre.rewrites ⟨?_, ?_, ?_, fun he => ⟨_, hre.effects ▸ he⟩⟩
  · intro a r n c r' n' c' hr hn hc hr' hn' hc' hcur hok
    rw [hre.attempts, hr] at hr'
    obtain rfl := some.inj hr'
    rw [hre.nodes, hn] at hn'
    obtain rfl := some.inj hn'
    rw [hre.builds] at hc'
    split at hc'
    · next heq =>
        obtain rfl := some.inj hc'
        obtain rfl := mem_unique hre.build (heq ▸ hc)
        have hdag' : b'.dagMode = b.dagMode := congrArg (·.1) hre.identity
        refine ⟨hdag' ▸ hok.phase, hok.fenced, fun _ hne hlive => ?_, fun hsolo => ?_⟩
        · exact hmark.stopped hr hn heq hlive (hok.stopped hdag) hne
        · simp [hdag', hdag] at hsolo
    · rw [hc] at hc'
      obtain rfl := some.inj hc'
      exact hok
  · intro a r r' hr hr' _ hretried
    rw [hre.attempts, hr] at hr'
    exact some.inj hr' ▸ hretried
  · intro a r r' hr hr'
    rw [hre.attempts, hr] at hr'
    exact some.inj hr' ▸ Int.le_refl _

section Admission

variable {buildId : Uuid} {build : BuildRow} {newNodes : List (Uuid × NodeRow)}
  {newAttempts : List (Uuid × AttemptRow)} {newDependencies : List DependencyRow}
  (hnew : s.Admits s' buildId build newNodes newAttempts newDependencies)
include hnew

/-- A row of a store before an admission is the same after it. -/
theorem Admits.node_old {id : Uuid} {n n' : NodeRow} (hn : s.nodes.lookup id = some n)
    (hn' : s'.nodes.lookup id = some n') : n' = n :=
  mem_unique hn' ((hnew.nodes id n).mpr (.inl hn))

theorem Admits.build_old {id : Uuid} (hb : s.builds.lookup id = some b)
    (hb' : s'.builds.lookup id = some b') : b' = b :=
  mem_unique hb' ((hnew.builds id b).mpr (.inl hb))

theorem Admits.build_new {id : Uuid} {n : NodeRow} {b : BuildRow} (hn : (id, n) ∈ newNodes)
    (hb : s'.builds.lookup n.buildId = some b) : b = build := by
  rw [(hnew.node hn).1] at hb
  exact mem_unique hb ((hnew.builds _ _).mpr (.inr ⟨rfl, rfl⟩))

theorem Admits.superseded_iff {a : Uuid} : s'.Superseded a ↔ s.Superseded a := by
  constructor
  · rintro ⟨c, r, hr, hretry⟩
    rcases (hnew.attempts c r).mp hr with hr | hmem
    · exact ⟨c, r, hr, hretry⟩
    · rw [(hnew.attempt hmem).2.1] at hretry
      cases hretry
  · rintro ⟨c, r, hr, hretry⟩
    exact ⟨c, r, (hnew.attempts c r).mpr (.inl hr), hretry⟩

theorem Admits.not_superseded_new (hco : s.Coherent) {a : Uuid} {r : AttemptRow}
    (hmem : (a, r) ∈ newAttempts) : ¬ s'.Superseded a := by
  rw [hnew.superseded_iff]
  rintro ⟨c, q, hq, hretry⟩
  obtain ⟨p, hp, -⟩ := hco.retryOf hq hretry
  rw [(hnew.attempt hmem).1] at hp
  cases hp

theorem Wired.enter (hwired : s.Wired) : s'.Wired := by
  refine ⟨?_, ?_, ?_, ?_, ?_⟩
  · intro a r hr
    rcases (hnew.attempts a r).mp hr with hr | hmem
    · obtain ⟨n, hn⟩ := hwired.node hr
      exact ⟨n, (hnew.nodes _ n).mpr (.inl hn)⟩
    · obtain ⟨-, -, -, n, hn⟩ := hnew.attempt hmem
      exact ⟨n, (hnew.nodes _ n).mpr (.inr hn)⟩
  · intro id n hn
    rcases (hnew.nodes id n).mp hn with hn | hmem
    · obtain ⟨b, hb⟩ := hwired.build hn
      exact ⟨b, (hnew.builds _ b).mpr (.inl hb)⟩
    · exact ⟨build, (hnew.builds _ _).mpr (.inr ⟨(hnew.node hmem).1, rfl⟩)⟩
  · intro d hd
    rw [hnew.dependencies] at hd
    rcases List.mem_append.mp hd with hd | hd
    · obtain ⟨parent, child, b, hparent, hpb, hchild, hcb, hb, hdag⟩ := hwired.dependency hd
      exact ⟨parent, child, b, (hnew.nodes _ _).mpr (.inl hparent), hpb,
        (hnew.nodes _ _).mpr (.inl hchild), hcb, (hnew.builds _ _).mpr (.inl hb), hdag⟩
    · obtain ⟨hb, hdag, ⟨parent, hparent⟩, child, hchild⟩ := hnew.dependency hd
      exact ⟨parent, child, build, (hnew.nodes _ _).mpr (.inr hparent),
        (hnew.node hparent).1.trans hb.symm, (hnew.nodes _ _).mpr (.inr hchild),
        (hnew.node hchild).1.trans hb.symm, (hnew.builds _ _).mpr (.inr ⟨hb, rfl⟩), hdag⟩
  · intro a r p hr hretry
    rcases (hnew.attempts a r).mp hr with hr | hmem
    · obtain ⟨q, hq, hnode, hord⟩ := hwired.retryOf hr hretry
      exact ⟨q, (hnew.attempts _ _).mpr (.inl hq), hnode, hord⟩
    · rw [(hnew.attempt hmem).2.1] at hretry
      cases hretry
  · intro id n id' n' b hn hn' hbuild hb hdag
    rcases (hnew.nodes id n).mp hn with hn | hmem <;>
      rcases (hnew.nodes id' n').mp hn' with hn' | hmem'
    · obtain ⟨c, hc⟩ := hwired.build hn
      exact hwired.single hn hn' hbuild hc (hnew.build_old hc hb ▸ hdag)
    · obtain ⟨c, hc⟩ := hwired.build hn
      rw [hbuild, (hnew.node hmem').1, hnew.fresh] at hc
      cases hc
    · obtain ⟨c, hc⟩ := hwired.build hn'
      rw [← hbuild, (hnew.node hmem).1, hnew.fresh] at hc
      cases hc
    · exact hnew.single (hnew.build_new hmem hb ▸ hdag) hmem hmem'

theorem Coherent.enter (hco : s.Coherent) : s'.Coherent := by
  refine ⟨hco.toWired.enter hnew, ?_, ?_, ?_, ?_, ?_, ?_⟩
  · intro id n hn
    rcases (hnew.nodes id n).mp hn with hn | hmem
    · obtain ⟨a, r, hr, hnode, hcur⟩ := hco.attempted hn
      exact ⟨a, r, (hnew.attempts _ _).mpr (.inl hr), hnode,
        fun h => hcur (hnew.superseded_iff.mp h)⟩
    · obtain ⟨a, r, hr, hnode⟩ := hnew.attempted hmem
      exact ⟨a, r, (hnew.attempts _ _).mpr (.inr hr), hnode, hnew.not_superseded_new hco hr⟩
  · intro a r a' r' hr hr' hnode hcur hcur'
    rw [hnew.superseded_iff] at hcur hcur'
    rcases (hnew.attempts a r).mp hr with hr | hmem <;>
      rcases (hnew.attempts a' r').mp hr' with hr' | hmem'
    · exact hco.current hr hr' hnode hcur hcur'
    · obtain ⟨n, hn⟩ := hco.node hr
      rw [hnode, (hnew.attempt hmem').2.2.1] at hn
      cases hn
    · obtain ⟨n, hn⟩ := hco.node hr'
      rw [← hnode, (hnew.attempt hmem).2.2.1] at hn
      cases hn
    · exact hnew.attempt_unique hmem hmem' hnode
  · intro a r hr hsup
    rcases (hnew.attempts a r).mp hr with hr | hmem
    · exact hco.retried hr (hnew.superseded_iff.mp hsup)
    · exact absurd hsup (hnew.not_superseded_new hco hmem)
  · intro a r n b hr hn hb hcur
    rcases (hnew.attempts a r).mp hr with hr | hmem
    · obtain ⟨m, hm⟩ := hco.node hr
      obtain ⟨c, hc⟩ := hco.build hm
      obtain rfl := hnew.node_old hm hn
      obtain rfl := hnew.build_old hc hb
      exact hco.ok hr hm hc (fun h => hcur (hnew.superseded_iff.mpr h))
    · obtain ⟨-, hfirst, hfresh, -⟩ := hnew.attempt hmem
      have hnode : (r.nodeId, n) ∈ newNodes := by
        rcases (hnew.nodes _ _).mp hn with hn | hnew
        · rw [hfresh] at hn
          cases hn
        · exact hnew
      obtain ⟨-, hstatus, hlogical, hstamp⟩ := hnew.node hnode
      obtain rfl := hnew.build_new hnode hb
      have hqueued : r.status = .queued := by rw [hfirst]; rfl
      refine ⟨?_, fun hne => absurd hqueued hne, fun _ _ hlive => ?_, fun _ => ?_⟩
      · rw [hqueued]
        cases hdag : b.dagMode with
        | true => exact ⟨hstatus.imp_right And.left, hlogical, hstamp⟩
        | false =>
          refine ⟨hlogical, hstamp, hstatus.resolve_right fun hblocked => ?_⟩
          simp [hdag] at hblocked
      · simp [hqueued, AttemptStatus.isLive] at hlive
      · rw [hqueued]
        exact hnew.status
  · intro a r hr
    rcases (hnew.attempts a r).mp hr with hr | hmem
    · exact hco.fence hr
    · rw [(hnew.attempt hmem).2.1]
      exact Int.le_refl 0
  · intro id e he
    rw [hnew.effects] at he
    obtain ⟨r, hr, hpos, hle⟩ := hco.effect he
    exact ⟨r, (hnew.attempts _ _).mpr (.inl hr), hpos, hle⟩

end Admission

/-- Every change keeps coherence. -/
theorem Change.coherent (hchange : Change own s s') (hco : s.Coherent) : s'.Coherent := by
  cases hchange with
  | frame hframe => exact hco.frame hframe
  | pipelines hadvance =>
    rw [hadvance.rest]
    exact hco.of_eq rfl rfl rfl rfl hco.effect
  | ledger hledger => exact hco.ledger hledger
  | move htouch hrest hcur hmove =>
    obtain ⟨hstamp, hfence⟩ := hmove.stamp_and_fence
    exact hco.touch htouch hcur hstamp hfence (hmove.ok (hco.fence htouch.holds.attempt))
      hrest.effects
  | renew htouch hrest hcur hsucc hrenew _ hs =>
    have hok := hco.ok htouch.holds.attempt htouch.holds.node htouch.holds.build hcur
    obtain ⟨hstamp, hfence, hretried, hwaits, hverdict⟩ := hrenew.spec hok
    have hnew := hco.supersede htouch hsucc hcur hstamp hfence hretried hwaits hverdict
      hrest.effects
    rw [hs]
    exact hnew.of_eq rfl rfl rfl rfl hnew.effect
  | sweep hbuild hdag hsweep => exact hco.sweep hbuild hdag hsweep
  | mark hre hdag hmark => exact hco.mark hre hdag hmark
  | epoch _ hs =>
    rw [hs]
    exact hco.of_eq rfl rfl rfl rfl hco.effect
  | enter hnew => exact hco.enter hnew

end McLoving.Store

namespace McLoving.Store

variable {s : Store} {own : Prop} {buildId : Uuid} {b : BuildRow}

/-- A row that does not enter `queued` or `blocked` passes the readiness trigger unchanged. -/
theorem translateRetryReadiness_eq (now : Timestamp) (id : Uuid) {old new : NodeRow}
    (hstatus : old.status = new.status ∨ (new.status ≠ .queued ∧ new.status ≠ .blocked)) :
    s.translateRetryReadiness now id old new = new :=
  if_pos hstatus

/-- A row that enters `queued` or `blocked` waits after the readiness trigger, in one of the two. -/
theorem translateRetryReadiness_waits (now : Timestamp) (id : Uuid) (old new : NodeRow)
    (hstatus : new.status = .queued ∨ new.status = .blocked) :
    ((s.translateRetryReadiness now id old new).status = .queued ∨
      (s.translateRetryReadiness now id old new).status = .blocked) ∧
    (s.translateRetryReadiness now id old new).logicalOutcome = new.logicalOutcome ∧
    (s.translateRetryReadiness now id old new).cancellationRequestedAt =
      new.cancellationRequestedAt := by
  unfold translateRetryReadiness
  split
  · exact ⟨hstatus, rfl, rfl⟩
  · split
    · exact ⟨.inr rfl, rfl, rfl⟩
    · next hready => exact ⟨.inl (hstatus.resolve_right fun h => hready (.inl h)), rfl, rfl⟩

variable {r : AttemptRow}

/-- Stopping a stopped attempt changes nothing. -/
private theorem cancelling_eq (hstatus : r.status = .cancelling) :
    { r with status := .cancelling } = r := by
  rw [← hstatus]

/-- What is stopped of an attempt under a lease. -/
private theorem stops_of_isLive (hlive : r.status.isLive = true)
    (hstatus : r.status ≠ .cancelling) :
    r.status = .offered ∨ r.status = .accepted ∨ r.status = .running ∨ r.status = .finalizing := by
  cases hfrom : r.status <;> simp_all [AttemptStatus.isLive]

/-- What withdrawing a node that has not started does to it and its attempt. -/
private theorem swept_withdrawn {n n' : NodeRow} {r' : AttemptRow} {summary : Json}
    {expiry : Option Timestamp} (hphase : DagPhase n r.status)
    (hunstarted : n.status = .blocked ∨ n.status = .queued ∨ n.status = .offered)
    (hn' : n' = { n with status := .aborted, logicalOutcome := some .aborted })
    (hr' : r' = if r.status = .queued ∨ r.status = .offered then r.closed .aborted summary expiry
      else r) : Swept n r n' r' := by
  by_cases hstatus : r.status = .queued ∨ r.status = .offered
  · rw [if_pos hstatus] at hr'
    exact .drop hstatus hn' hr'
  · rw [if_neg hstatus] at hr'
    have hoffered : n.status = .offered := by
      rcases hunstarted with h | h | h
      · exact absurd (.inl (hphase.queued_of_waiting (.inl h))) hstatus
      · exact absurd (.inl (hphase.queued_of_waiting (.inr h))) hstatus
      · exact h
    have hstopped : r.status = .finalizing ∨ r.status = .cancelling := by
      cases hfrom : r.status <;> simp_all [DagPhase]
    exact .outlive hstopped hoffered hn' hr'

section Sweeps

variable (hco : s.Coherent) (hb : s.builds.lookup buildId = some b) (hdag : b.dagMode = true)

include hco hb hdag

theorem Coherent.dagPhase {a : Uuid} {n : NodeRow}
    (hr : s.attempts.lookup a = some r) (hn : s.nodes.lookup r.nodeId = some n)
    (hbuild : n.buildId = buildId) (hcur : ¬ s.Superseded a) : DagPhase n r.status := by
  have hphase := (hco.ok hr hn (hbuild ▸ hb) hcur).phase
  rwa [hdag] at hphase

/-- A rewriting of nodes and attempts is a sweep if it leaves closed and parked attempts and the
other builds alone, and moves every current attempt of the build with its node. -/
theorem Coherent.sweeps {s' : Store} (hrest : s.SameRest s') (hbuilds : s'.builds = s.builds)
    (hevents : s'.events = s.events) (hrw : s.Rewrites s')
    (hretried : ∀ {a r}, s.attempts.lookup a = some r → r.status.IsRetried →
      s'.attempts.lookup a = some r)
    (houtside : ∀ {a r n}, s.attempts.lookup a = some r → s.nodes.lookup r.nodeId = some n →
      n.buildId ≠ buildId → s'.nodes.lookup r.nodeId = some n ∧ s'.attempts.lookup a = some r)
    (hswept : ∀ {a r n}, s.attempts.lookup a = some r → s.nodes.lookup r.nodeId = some n →
      n.buildId = buildId → DagPhase n r.status → ∃ n' r', s'.nodes.lookup r.nodeId = some n' ∧
        s'.attempts.lookup a = some r' ∧ Swept n r n' r') : s.Sweeps s' buildId where
  toSameRest := hrest
  builds := hbuilds
  events := hevents
  rewrites := hrw
  superseded hr hsup := hretried hr (hco.retried hr hsup)
  swept {a r n} hr hn hcur := by
    by_cases hbuild : n.buildId = buildId
    · obtain ⟨n', r', hn', hr', hmove⟩ :=
        hswept hr hn hbuild (hco.dagPhase hb hdag hr hn hbuild hcur)
      exact ⟨n', r', hn', hr', hmove, fun hne => absurd hbuild hne⟩
    · obtain ⟨hn', hr'⟩ := houtside hr hn hbuild
      exact ⟨n, r, hn', hr', .keep rfl rfl, fun _ => ⟨rfl, rfl⟩⟩

theorem Coherent.sweeps_stopActiveNodes (now : Timestamp) (except : Option Uuid) :
    s.Sweeps (s.stopActiveNodes now buildId except) buildId := by
  refine hco.sweeps hb hdag ⟨rfl, rfl, rfl, rfl, rfl⟩ rfl rfl ?rewrites ?retried ?outside ?swept
  case rewrites =>
    refine (rewrites_updateNodes _ _ _ ?_).trans (rewrites_updateAttemptsJoin _ _ ?_) <;>
      exact fun _ => rfl
  case retried =>
    rintro a r hr (h | h | h) <;> simp [stopActiveNodes, hr, h]
  case outside =>
    intro a r n hr hn hbuild
    simp [stopActiveNodes, hr, hn, hbuild]
  case swept =>
    intro a r n hr hn hbuild hphase
    by_cases hexcept : some r.nodeId = except
    · refine ⟨n, r, ?_, ?_, .keep rfl rfl⟩ <;> simp [stopActiveNodes, hr, hn, hexcept]
    by_cases hactive : n.status = .offered ∨ n.status = .running
    · have hlive := hphase.isLive_of_active hactive
      refine ⟨{ n with cancellationRequestedAt := some now }, { r with status := .cancelling }, ?_,
        ?_, .stop hlive hactive rfl rfl⟩
      · simp [stopActiveNodes, hn, hbuild, hexcept, hactive, translateRetryReadiness]
      · by_cases hstatus : r.status = .cancelling
        · rw [cancelling_eq hstatus]
          simp [stopActiveNodes, hr, hstatus]
        · have hstops := stops_of_isLive hlive hstatus
          simp [stopActiveNodes, hr, hn, hbuild, hexcept, hactive, translateRetryReadiness, hstops,
            or_assoc]
    · refine ⟨n, r, ?_, ?_, .keep rfl rfl⟩ <;> simp [stopActiveNodes, hr, hn, hactive]

theorem Coherent.sweeps_markUnstartedSkipped (now : Timestamp) (excludePost : Bool) :
    s.Sweeps (s.markUnstartedSkipped now buildId excludePost) buildId := by
  refine hco.sweeps hb hdag ⟨rfl, rfl, rfl, rfl, rfl⟩ rfl rfl ?rewrites ?retried ?outside ?swept
  case rewrites =>
    refine (rewrites_updateAttemptsJoin _ _ ?_).trans (rewrites_updateNodes _ _ _ ?_) <;>
      exact fun _ => rfl
  case retried =>
    rintro a r hr (h | h | h) <;> simp [markUnstartedSkipped, hr, h]
  case outside =>
    intro a r n hr hn hbuild
    simp [markUnstartedSkipped, hr, hn, hbuild]
  case swept =>
    intro a r n hr hn hbuild hphase
    by_cases hskips : (n.status = .blocked ∨ n.status = .queued) ∧
        (excludePost = false ∨ n.nodeKind ≠ .post)
    · obtain ⟨hwaits, hkind⟩ := hskips
      have hqueued := hphase.queued_of_waiting hwaits
      have hlogical : n.logicalOutcome = none := (hqueued ▸ hphase).2.1
      refine ⟨{ n with status := .skipped, logicalOutcome := some .skipped },
        r.closed .aborted (reasonSummary "fail_fast_skipped") r.leaseExpiresAt, ?_, ?_,
        .skip hqueued rfl rfl⟩
      · simp [markUnstartedSkipped, hn, hbuild, hwaits, hkind, hlogical, translateRetryReadiness]
      · simp [markUnstartedSkipped, hr, hn, hbuild, hwaits, hkind, hqueued, AttemptRow.closed,
          TerminalOutcome.attemptStatus]
    · refine ⟨n, r, ?_, ?_, .keep rfl rfl⟩
      · simp [markUnstartedSkipped, hn]
        tauto
      · simp [markUnstartedSkipped, hr, hn]
        tauto

theorem Coherent.sweeps_skipImpossibleNodes (now : Timestamp) :
    s.Sweeps (s.skipImpossibleNodes now buildId) buildId := by
  by_cases hany : s.nodes.any (s.isSkippable buildId) = true
  · have heq : s.skipImpossibleNodes now buildId = (s.updateNodes now (s.isSkippable buildId)
        fun n => { n with status := .skipped, logicalOutcome := some .skipped }).updateAttemptsJoin
          (fun _ a n => n.buildId = buildId && n.status = .skipped && a.status = .queued)
          fun a => { a with status := .aborted,
                            terminalSummary := some (reasonSummary "dependency_not_succeeded") } :=
      if_pos hany
    rw [heq]
    refine hco.sweeps hb hdag ⟨rfl, rfl, rfl, rfl, rfl⟩ rfl rfl ?rewrites ?retried ?outside ?swept
    case rewrites =>
      refine (rewrites_updateNodes _ _ _ ?_).trans (rewrites_updateAttemptsJoin _ _ ?_) <;>
        exact fun _ => rfl
    case retried =>
      rintro a r hr (h | h | h) <;> simp [hr, h]
    case outside =>
      intro a r n hr hn hbuild
      simp [isSkippable, hr, hn, hbuild]
    case swept =>
      intro a r n hr hn hbuild hphase
      by_cases hskips : s.isSkippable buildId r.nodeId n = true
      · have hblocked : n.status = .blocked := by
          simp only [isSkippable, Bool.and_eq_true, decide_eq_true_eq] at hskips
          tauto
        have hqueued := hphase.queued_of_waiting (.inl hblocked)
        refine ⟨{ n with status := .skipped, logicalOutcome := some .skipped },
          r.closed .aborted (reasonSummary "dependency_not_succeeded") r.leaseExpiresAt, ?_, ?_,
          .skip hqueued rfl rfl⟩
        · simp [hn, hskips, translateRetryReadiness]
        · simp [hr, hn, hskips, hbuild, hqueued, translateRetryReadiness, AttemptRow.closed,
            TerminalOutcome.attemptStatus]
      · refine ⟨n, r, ?_, ?_, .keep rfl rfl⟩
        · simp [hn, hskips]
        · -- A skipped node has no queued attempt.
          have hnot : ¬ (n.status = .skipped ∧ r.status = .queued) := by
            rintro ⟨hskipped, hqueued⟩
            rw [hqueued] at hphase
            rcases hphase.1 with h | h <;> simp [hskipped] at h
          simp [hr, hn, hskips]
          tauto
  · have heq : s.skipImpossibleNodes now buildId = s.updateNodes now (s.isSkippable buildId)
        fun n => { n with status := .skipped, logicalOutcome := some .skipped } := if_neg hany
    rw [Bool.not_eq_true, Table.any_eq_false] at hany
    have hnode {id : Uuid} {n : NodeRow} (hn : s.nodes.lookup id = some n) :
        (s.skipImpossibleNodes now buildId).nodes.lookup id = some n := by
      simp [heq, hn, hany id n hn]
    have hattempts : (s.skipImpossibleNodes now buildId).attempts = s.attempts := by rw [heq]; rfl
    refine hco.sweeps hb hdag ?rest ?builds ?events ?rewrites (fun hr _ => hattempts ▸ hr)
      (fun hr hn _ => ⟨hnode hn, hattempts ▸ hr⟩)
      fun hr hn _ _ => ⟨_, _, hnode hn, hattempts ▸ hr, .keep rfl rfl⟩
    case rewrites =>
      rw [heq]
      exact rewrites_updateNodes _ _ _ fun _ => rfl
    all_goals rw [heq]
    · exact ⟨rfl, rfl, rfl, rfl, rfl⟩
    all_goals rfl

theorem Coherent.sweeps_queueReadyNodes (now : Timestamp) :
    s.Sweeps (s.queueReadyNodes now buildId) buildId := by
  refine hco.sweeps hb hdag ⟨rfl, rfl, rfl, rfl, rfl⟩ rfl rfl ?rewrites (fun hr _ => hr) ?outside
    ?swept
  case rewrites => exact rewrites_updateNodes _ _ _ fun _ => rfl
  case outside =>
    intro a r n hr hn hbuild
    simp [queueReadyNodes, isReadiable, hr, hn, hbuild]
  case swept =>
    intro a r n hr hn hbuild hphase
    by_cases hready : s.isReadiable buildId r.nodeId n = true
    · have hboth : n.status = .blocked ∧ s.dependenciesReady r.nodeId = true := by
        simp only [isReadiable, Bool.and_eq_true, decide_eq_true_eq] at hready
        tauto
      refine ⟨{ n with status := .queued, queuedAt := now }, r, ?_, hr, .ready hboth.1 rfl rfl⟩
      simp [queueReadyNodes, hn, hready, translateRetryReadiness, hboth]
    · refine ⟨n, r, ?_, hr, .keep rfl rfl⟩
      simp [queueReadyNodes, hn, hready]

theorem Coherent.sweeps_fenceUnstartedDagWork (now : Timestamp) (completed : Uuid) :
    s.Sweeps (s.fenceUnstartedDagWork now buildId completed) buildId := by
  refine hco.sweeps hb hdag ⟨rfl, rfl, rfl, rfl, rfl⟩ rfl rfl ?rewrites ?retried ?outside ?swept
  case rewrites =>
    refine (((rewrites_updateAttemptsJoin _ _ ?_).trans (rewrites_updateNodes _ _ _ ?_)).trans
      (rewrites_updateNodes _ _ _ ?_)).trans (rewrites_updateAttemptsJoin _ _ ?_) <;>
      exact fun _ => rfl
  case retried =>
    rintro a r hr (h | h | h) <;> simp [fenceUnstartedDagWork, hr, h]
  case outside =>
    intro a r n hr hn hbuild
    simp [fenceUnstartedDagWork, hr, hn, hbuild]
  case swept =>
    intro a r n hr hn hbuild hphase
    by_cases hcompleted : r.nodeId = completed
    · refine ⟨n, r, ?_, ?_, .keep rfl rfl⟩ <;> simp [fenceUnstartedDagWork, hr, hn, hcompleted]
    by_cases hunstarted : n.status = .blocked ∨ n.status = .queued ∨ n.status = .offered
    · have hlogical := hphase.logicalOutcome_of_unstarted hunstarted
      refine ⟨{ n with status := .aborted, logicalOutcome := some .aborted },
        if r.status = .queued ∨ r.status = .offered then
          r.closed .aborted (reasonSummary "pipeline_operational_generation_fenced") none else r,
        ?_, ?_, swept_withdrawn hphase hunstarted rfl rfl⟩
      · simp [fenceUnstartedDagWork, hn, hbuild, hcompleted, hunstarted, hlogical, or_assoc,
          translateRetryReadiness]
      · by_cases hstatus : r.status = .queued ∨ r.status = .offered
        · simp [fenceUnstartedDagWork, hr, hn, hbuild, hcompleted, hstatus, AttemptRow.closed,
            TerminalOutcome.attemptStatus]
        · simp [fenceUnstartedDagWork, hr, hn, hbuild, hcompleted, hstatus, hunstarted, hlogical,
            or_assoc, translateRetryReadiness]
    by_cases hrunning : n.status = .running
    · have hlive := hphase.isLive_of_active (.inr hrunning)
      refine ⟨{ n with cancellationRequestedAt := some now }, { r with status := .cancelling }, ?_,
        ?_, .stop hlive (.inr hrunning) rfl rfl⟩
      · simp [fenceUnstartedDagWork, hn, hbuild, hcompleted, hrunning, translateRetryReadiness]
      · by_cases hstatus : r.status = .cancelling
        · rw [cancelling_eq hstatus]
          simp [fenceUnstartedDagWork, hr, hstatus]
        · have hstops : r.status = .accepted ∨ r.status = .running ∨ r.status = .finalizing := by
            cases hfrom : r.status <;> simp_all [AttemptStatus.isLive, DagPhase]
          have hleased : ¬ (r.status = .queued ∨ r.status = .offered) := by
            rcases hstops with h | h | h <;> simp [h]
          simp [fenceUnstartedDagWork, hr, hn, hbuild, hcompleted, hrunning, hstops, hleased,
            or_assoc, translateRetryReadiness]
    · have hleased : ¬ (r.status = .queued ∨ r.status = .offered) := by
        rintro (h | h) <;> rw [h] at hphase <;> simp_all [DagPhase]
      refine ⟨n, r, ?_, ?_, .keep rfl rfl⟩
      · simp [fenceUnstartedDagWork, hn, hrunning, or_assoc, hunstarted]
      · simp [fenceUnstartedDagWork, hr, hn, hrunning, or_assoc, hunstarted, hleased]

/-- What the cancellation of a DAG build does to its nodes and attempts. -/
def cancelSweep (s : Store) (now : Timestamp) (buildId : Uuid) : Store :=
  let s := s.updateAttemptsJoin
    (fun _ a n => n.buildId = buildId && (n.status = .blocked || n.status = .queued) &&
      a.status = .queued)
    fun a => { a with status := .aborted,
                      terminalSummary := some (reasonSummary "dag_cancelled_before_execution") }
  let s := s.updateNodes now
    (fun _ n => n.buildId = buildId && (n.status = .blocked || n.status = .queued) &&
      n.logicalOutcome = none)
    fun n => { n with status := .aborted, logicalOutcome := some .aborted }
  s.stopActiveNodes now buildId none

/-- The cancellation of a DAG build drops what waits and stops what is active. -/
theorem Coherent.sweeps_cancelSweep (now : Timestamp) :
    s.Sweeps (s.cancelSweep now buildId) buildId := by
  refine hco.sweeps hb hdag ⟨rfl, rfl, rfl, rfl, rfl⟩ rfl rfl ?rewrites ?retried ?outside ?swept
  case rewrites =>
    refine (((rewrites_updateAttemptsJoin _ _ ?_).trans (rewrites_updateNodes _ _ _ ?_)).trans
      (rewrites_updateNodes _ _ _ ?_)).trans (rewrites_updateAttemptsJoin _ _ ?_) <;>
      exact fun _ => rfl
  case retried =>
    rintro a r hr (h | h | h) <;> simp [cancelSweep, stopActiveNodes, hr, h]
  case outside =>
    intro a r n hr hn hbuild
    simp [cancelSweep, stopActiveNodes, hr, hn, hbuild]
  case swept =>
    intro a r n hr hn hbuild hphase
    by_cases hwaits : n.status = .blocked ∨ n.status = .queued
    · have hqueued := hphase.queued_of_waiting hwaits
      have hlogical : n.logicalOutcome = none := (hqueued ▸ hphase).2.1
      refine ⟨{ n with status := .aborted, logicalOutcome := some .aborted },
        r.closed .aborted (reasonSummary "dag_cancelled_before_execution") r.leaseExpiresAt, ?_, ?_,
        .drop (.inl hqueued) rfl rfl⟩
      · simp [cancelSweep, stopActiveNodes, hn, hbuild, hwaits, hlogical, translateRetryReadiness]
      · simp [cancelSweep, stopActiveNodes, hr, hn, hbuild, hwaits, hqueued, AttemptRow.closed,
          TerminalOutcome.attemptStatus]
    by_cases hactive : n.status = .offered ∨ n.status = .running
    · have hlive := hphase.isLive_of_active hactive
      refine ⟨{ n with cancellationRequestedAt := some now }, { r with status := .cancelling }, ?_,
        ?_, .stop hlive hactive rfl rfl⟩
      · simp [cancelSweep, stopActiveNodes, hn, hbuild, hwaits, hactive, translateRetryReadiness]
      · by_cases hstatus : r.status = .cancelling
        · rw [cancelling_eq hstatus]
          simp [cancelSweep, stopActiveNodes, hr, hstatus]
        · have hstops := stops_of_isLive hlive hstatus
          simp [cancelSweep, stopActiveNodes, hr, hn, hbuild, hwaits, hactive,
            translateRetryReadiness, hstops, or_assoc]
    · refine ⟨n, r, ?_, ?_, .keep rfl rfl⟩ <;>
        simp [cancelSweep, stopActiveNodes, hr, hn, hwaits, hactive]

/-- What the failure of an orphaned build does to its nodes and attempts. -/
def orphanSweep (s : Store) (now : Timestamp) (buildId : Uuid) (agentId : String) : Store :=
  let s := s.updateAttemptsJoin
    (fun _ a n => n.buildId = buildId && (a.status = .queued || a.status = .offered) &&
      (n.status = .blocked || n.status = .queued || n.status = .offered))
    fun a => { a with status := .aborted, terminalSummary := some (agentGoneSummary agentId),
                      leaseExpiresAt := none }
  s.updateNodes now
    (fun _ n => n.buildId = buildId &&
      (n.status = .blocked || n.status = .queued || n.status = .offered) &&
      n.logicalOutcome = none)
    fun n => { n with status := .aborted, logicalOutcome := some .aborted }

/-- The failure of an orphaned build withdraws what has not started. -/
theorem Coherent.sweeps_orphanSweep (now : Timestamp) (agentId : String) :
    s.Sweeps (s.orphanSweep now buildId agentId) buildId := by
  refine hco.sweeps hb hdag ⟨rfl, rfl, rfl, rfl, rfl⟩ rfl rfl ?rewrites ?retried ?outside ?swept
  case rewrites =>
    refine (rewrites_updateAttemptsJoin _ _ ?_).trans (rewrites_updateNodes _ _ _ ?_) <;>
      exact fun _ => rfl
  case retried =>
    rintro a r hr (h | h | h) <;> simp [orphanSweep, hr, h]
  case outside =>
    intro a r n hr hn hbuild
    simp [orphanSweep, hr, hn, hbuild]
  case swept =>
    intro a r n hr hn hbuild hphase
    by_cases hunstarted : n.status = .blocked ∨ n.status = .queued ∨ n.status = .offered
    · have hlogical := hphase.logicalOutcome_of_unstarted hunstarted
      refine ⟨{ n with status := .aborted, logicalOutcome := some .aborted },
        if r.status = .queued ∨ r.status = .offered then
          r.closed .aborted (agentGoneSummary agentId) none else r,
        ?_, ?_, swept_withdrawn hphase hunstarted rfl rfl⟩
      · simp [orphanSweep, hn, hbuild, hunstarted, hlogical, or_assoc, translateRetryReadiness]
      · by_cases hstatus : r.status = .queued ∨ r.status = .offered <;>
          simp [orphanSweep, hr, hn, hbuild, hstatus, hunstarted, or_assoc, AttemptRow.closed,
            TerminalOutcome.attemptStatus]
    · refine ⟨n, r, ?_, ?_, .keep rfl rfl⟩ <;> simp [orphanSweep, hr, hn, hunstarted, or_assoc]

end Sweeps

end McLoving.Store
