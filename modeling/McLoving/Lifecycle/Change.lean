import McLoving.Lifecycle.Supersede

/-!
# The changes a call is made of

A Store call rewrites several rows in one transaction; this file lists the changes that such a
transaction is put together from, each with the condition under which a call makes it.
-/

namespace McLoving

open Option Table

/-- The columns of a build that scheduling and closing depend on. -/
def BuildRow.truth (b : BuildRow) :
    (Bool × Uuid × Option Uuid × Option ℤ × Option Uuid × String × Option ℤ × Option Digest ×
      Digest × Option Json) × BuildStatus × Option Timestamp :=
  (b.identity, b.status, b.cancellationRequestedAt)

/-- An attempt without the deadline of its lease. -/
def AttemptRow.truth (r : AttemptRow) : AttemptRow :=
  { r with leaseExpiresAt := none }

/-- The deadline of a lease is all that two attempts of one truth may differ in. -/
theorem AttemptRow.eq_of_truth_eq {r r' : AttemptRow} (htruth : r'.truth = r.truth) :
    r' = { r with leaseExpiresAt := r'.leaseExpiresAt } := by
  obtain ⟨⟩ := r
  obtain ⟨⟩ := r'
  simp_all [truth]

/-- How a retry moves the rows of the attempt it supersedes. -/
inductive Renewal (s : Store) (a : Uuid) (x y : Rows) : Prop where
  | auto {summary : Json} {expiry : Option Timestamp}
      (hopen : x.attempt.status.isOpen = true) (hdag : x.build.dagMode = true)
      (hunstamped : x.Unstamped) (hlogical : x.node.logicalOutcome = none)
      (hclean : s.hasUnabandonedNonIdempotentEffect a = false)
      (hattempt : y.attempt = x.attempt.closed .failed summary expiry) (hbuild : y.build = x.build)
      (hwaits : Phase y.build.dagMode y.node .queued)
  | retry (hstatus : x.attempt.status = .failed ∨ x.attempt.status = .reconciliationRequired)
      (hunstamped : x.build.cancellationRequestedAt = none)
      (hclean : ∀ id e, s.effects.lookup id = some e → id.attemptId = a →
        e.effectClass ≠ .nonIdempotent)
      (hattempt : y.attempt = x.attempt)
      (hbuild : y.build = { x.build with status := .queued, cancellationRequestedAt := none })
      (hwaits : Phase y.build.dagMode y.node .queued)
  | reopen (hdag : x.build.dagMode = true)
      (hskipped : x.node.status = .skipped) (hqueued : x.build.status = .queued)
      (hattempt : y.attempt = x.attempt) (hbuild : y.build = x.build)
      (hwaits : Phase y.build.dagMode y.node .queued)

/-- A retry closes or leaves the old attempt, and its node waits. -/
theorem Renewal.spec {s : Store} {a : Uuid} {x y : Rows} (hrenew : Renewal s a x y) (hok : x.Ok) :
    (x.build.dagMode = true → y.build.cancellationRequestedAt = x.build.cancellationRequestedAt) ∧
    x.attempt.fence ≤ y.attempt.fence ∧ y.attempt.status.IsRetried ∧
    Phase y.build.dagMode y.node .queued ∧ (y.build.dagMode = false → y.build.status = .queued) := by
  cases hrenew with
  | auto _ hdag _ _ _ hattempt hbuild hwaits =>
    rw [hattempt]
    refine ⟨fun _ => by rw [hbuild], Int.le_refl _, .inl rfl, hwaits, fun hsolo => ?_⟩
    simp [hbuild, hdag] at hsolo
  | retry hstatus hunstamped _ hattempt hbuild hwaits =>
    rw [hattempt]
    refine ⟨fun _ => by rw [hbuild, hunstamped], Int.le_refl _, ?_, hwaits, fun _ => by rw [hbuild]⟩
    rcases hstatus with hstatus | hstatus
    · exact .inl hstatus
    · exact .inr (.inl hstatus)
  | reopen hdag _ hqueued hattempt hbuild hwaits =>
    rw [hattempt]
    refine ⟨fun _ => by rw [hbuild], Int.le_refl _, .inr (.inr ?_), hwaits,
      fun _ => by rw [hbuild, hqueued]⟩
    have hphase := hok.phase
    rw [hdag] at hphase
    cases hfrom : x.attempt.status <;> simp_all [Phase, DagPhase]

/-- How the row of a DAG build changes while its nodes stay as they are. -/
inductive BuildMark (s : Store) (buildId : Uuid) (b b' : BuildRow) : Prop where
  | derive (hstamp : b'.cancellationRequestedAt = b.cancellationRequestedAt)
      (hstatus : b'.status =
        if s.countNodes buildId (fun row => !row.status.isTerminal) = 0 then
          s.derivedVerdict buildId b
        else s.derivedProgress buildId)
  | stamp {now : Timestamp} (hstatus : b.status = .queued ∨ b.status = .running)
      (hunstamped : b.cancellationRequestedAt = none)
      (hstopped : ∀ {a r n}, s.attempts.lookup a = some r → s.nodes.lookup r.nodeId = some n →
        n.buildId = buildId → r.status.isLive = true → n.cancellationRequestedAt ≠ none)
      (hb : b' = { b with cancellationRequestedAt := some now })
  | fail (hb : b' = if b.status = .queued ∨ b.status = .running then { b with status := .failed }
        else b)

/-- After a mark the stop request of a DAG build has reached every node under a lease. -/
theorem BuildMark.stopped {s : Store} {buildId a : Uuid}
    {b b' : BuildRow} {r : AttemptRow} {n : NodeRow} (hmark : BuildMark s buildId b b')
    (hr : s.attempts.lookup a = some r) (hn : s.nodes.lookup r.nodeId = some n)
    (hbuild : n.buildId = buildId) (hlive : r.status.isLive = true)
    (hbefore : b.cancellationRequestedAt ≠ none → r.status.isLive = true →
      n.cancellationRequestedAt ≠ none) (hne : b'.cancellationRequestedAt ≠ none) :
    n.cancellationRequestedAt ≠ none := by
  cases hmark with
  | derive hstamp => exact hbefore (hstamp ▸ hne) hlive
  | stamp _ _ hstopped => exact hstopped hr hn hbuild hlive
  | fail hb =>
    refine hbefore (fun hnone => hne ?_) hlive
    rw [hb]
    split <;> exact hnone

/-- The row of an effect whose outcome is left open. -/
def EffectRow.doubted (e : EffectRow) : EffectRow :=
  if e.status = .prepared ∨ e.status = .applied then { e with status := .uncertain } else e

/-- A write to an effect, with the authority under which a call makes it: the executing lease of the
effect's fence, an attempt that is open, or the certainty that nothing was dispatched. -/
inductive EffectWrite (s : Store) (id : EffectId) (e e' : EffectRow) : Prop where
  | keep (he : e' = e)
  | advance {status : EffectStatus} {r : AttemptRow}
      (hr : s.attempts.lookup id.attemptId = some r) (hopen : r.status.isOpen = true)
      (hvalid : validEffectTransition e.status status = true)
      (hcommitted : e.dispatchCommittedAt ≠ none → status ≠ .abandoned ∧ status ≠ .releasePending)
      (hevidence : e.hasEvidence = true → status ≠ .abandoned)
      (he : e' = { e with status })
  | commit {now : Timestamp} {x : Rows} (hx : s.Holds id.attemptId x)
      (hexec : x.attempt.status.isExecuting = true) (hfence : x.attempt.fence = id.fence)
      (hprepared : e.status = .prepared) (hevidence : e.hasEvidence = false)
      (hfresh : e.dispatchCommittedAt = none →
        x.attempt.status ≠ .cancelling ∧ Store.cancellationStamped x.node x.build = false)
      (he : e' = { e with dispatchCommittedAt := e.dispatchCommittedAt.or (some now) })
  | evidence {kind : EffectEvidenceKind} {receipt : Receipt} {r : AttemptRow}
      (hr : s.attempts.lookup id.attemptId = some r) (hopen : r.status.isOpen = true)
      (haccepts : e.acceptsEvidence kind = true) (hnone : e.receiptOf kind = none)
      (he : e' = e.withReceipt receipt kind)
  | release {status : EffectStatus} (hundispatched : Store.isUndispatched e = true)
      (hfrom : e.status = .prepared ∨ e.status = .uncertain ∨ e.status = .releasePending)
      (hstatus : status = .abandoned ∨ status = .releasePending) (he : e' = { e with status })

namespace Store

/-- The effects, the restore epochs and the pipelines stay. -/
structure SameRest (s s' : Store) : Prop where
  effects : s'.effects = s.effects
  restoreEpoch : s'.restoreEpoch = s.restoreEpoch
  restoreEpochs : s'.restoreEpochs = s.restoreEpochs
  pipelines : s'.pipelines = s.pipelines
  pipelineStates : s'.pipelineStates = s.pipelineStates

/-- A build that is pinned to an agent stays with it. -/
def KeepsPins (s s' : Store) : Prop :=
  ∀ id b b' agent, s.builds.lookup id = some b → s'.builds.lookup id = some b' →
    b.workspaceAffinityAgentId = some agent → b'.workspaceAffinityAgentId = some agent

theorem KeepsPins.of_eq {s s' : Store} (hbuilds : s'.builds = s.builds) : s.KeepsPins s' := by
  intro id b b' agent hb hb' hpin
  rw [hbuilds, hb] at hb'
  exact some.inj hb' ▸ hpin

theorem KeepsPins.of_modify {s s' : Store} {buildId : Uuid} {f : BuildRow → BuildRow}
    (hbuilds : s'.builds = s.builds.modify buildId f)
    (hf : ∀ b agent, s.builds.lookup buildId = some b → b.workspaceAffinityAgentId = some agent →
      (f b).workspaceAffinityAgentId = some agent) : s.KeepsPins s' := by
  intro id b b' agent hb hb' hpin
  rw [hbuilds, lookup_modify] at hb'
  split at hb'
  · next hid =>
    subst hid
    rw [hb, map_some] at hb'
    exact some.inj hb' ▸ hf b agent hb hpin
  · rw [hb] at hb'
    exact some.inj hb' ▸ hpin

/-- Nothing changes but lease deadlines, sessions, logs, notifications, workspaces, first pins,
recovery points, dead letters and the reports of all this. -/
structure Frame (s s' : Store) : Prop extends SameRest s s' where
  nodes : s'.nodes = s.nodes
  dependencies : s'.dependencies = s.dependencies
  builds : ∀ b, (s'.builds.lookup b).map BuildRow.truth = (s.builds.lookup b).map BuildRow.truth
  pins : s.KeepsPins s'
  attempts : ∀ a, (s'.attempts.lookup a).map AttemptRow.truth =
    (s.attempts.lookup a).map AttemptRow.truth
  events : ∃ new, s'.events = new ++ s.events ∧ Quiet new

namespace Frame

variable {s s' : Store} (hframe : s.Frame s')
include hframe

theorem attempt {a : Uuid} {r' : AttemptRow} (hr' : s'.attempts.lookup a = some r') :
    ∃ r, s.attempts.lookup a = some r ∧ r' = { r with leaseExpiresAt := r'.leaseExpiresAt } := by
  obtain ⟨r, hr, htruth⟩ := exists_of_map_eq (hframe.attempts a).symm hr'
  exact ⟨r, hr, AttemptRow.eq_of_truth_eq htruth.symm⟩

theorem build {id : Uuid} {b' : BuildRow} (hb' : s'.builds.lookup id = some b') :
    ∃ b, s.builds.lookup id = some b ∧ b'.identity = b.identity ∧ b'.status = b.status ∧
      b'.cancellationRequestedAt = b.cancellationRequestedAt := by
  obtain ⟨b, hb, htruth⟩ := exists_of_map_eq (hframe.builds id).symm hb'
  simp only [BuildRow.truth, Prod.mk.injEq] at htruth
  exact ⟨b, hb, htruth.1.symm, htruth.2.1.symm, htruth.2.2.symm⟩

theorem rewrites : s.Rewrites s' := by
  refine ⟨fun b => ?_, fun n => by rw [hframe.nodes], fun a => ?_, hframe.dependencies⟩
  · have htruth := congrArg (Option.map (·.1)) (hframe.builds b)
    simpa [map_map, Function.comp_def, BuildRow.truth] using htruth
  · have htruth := congrArg (Option.map AttemptRow.identity) (hframe.attempts a)
    rw [map_map, map_map] at htruth
    exact htruth

end Frame

/-- Pipelines are written: a pipeline keeps the state of its generation or starts a later one. -/
structure AdvancesPipelines (s s' : Store) : Prop where
  rest : s' = { s with pipelines := s'.pipelines, pipelineRevisions := s'.pipelineRevisions,
                       pipelineStates := s'.pipelineStates }
  advance : ∀ p row, s.pipelines.lookup p = some row → ∃ row', s'.pipelines.lookup p = some row' ∧
      ((row'.operationalGeneration = row.operationalGeneration ∧
          s'.pipelineStates.lookup (p, row.operationalGeneration) =
            s.pipelineStates.lookup (p, row.operationalGeneration)) ∨
        row.operationalGeneration < row'.operationalGeneration)

/-- The effect ledger is written. -/
structure WritesLedger (s s' : Store) : Prop where
  rest : s' = { s with effects := s'.effects }
  written : ∀ {id e}, s.effects.lookup id = some e →
    ∃ e', s'.effects.lookup id = some e' ∧ EffectWrite s id e e'
  fresh : ∀ {id e'}, s'.effects.lookup id = some e' → s.effects.lookup id = none →
    e'.status = .prepared ∧ e'.dispatchCommittedAt = none ∧ e'.hasEvidence = false ∧
      ∃ r, s.attempts.lookup id.attemptId = some r ∧ r.status.isExecuting = true ∧
        r.fence = id.fence

/-- No effect is written but that open ones become uncertain. -/
def Doubts (s s' : Store) : Prop :=
  ∀ id, s'.effects.lookup id = s.effects.lookup id ∨
    s'.effects.lookup id = (s.effects.lookup id).map EffectRow.doubted

/-- The nodes of one DAG build and their attempts are swept. -/
structure Sweeps (s s' : Store) (buildId : Uuid) : Prop extends SameRest s s' where
  builds : s'.builds = s.builds
  events : s'.events = s.events
  rewrites : s.Rewrites s'
  superseded : ∀ {a r}, s.attempts.lookup a = some r → s.Superseded a →
    s'.attempts.lookup a = some r
  swept : ∀ {a r n}, s.attempts.lookup a = some r → s.nodes.lookup r.nodeId = some n →
    ¬ s.Superseded a → ∃ n' r', s'.nodes.lookup r.nodeId = some n' ∧
      s'.attempts.lookup a = some r' ∧ Swept n r n' r' ∧
      (n.buildId ≠ buildId → n' = n ∧ r' = r)

/-- One build's row is rewritten. -/
structure Rebuilds (s s' : Store) (buildId : Uuid) (b b' : BuildRow) : Prop
    extends SameRest s s' where
  build : s.builds.lookup buildId = some b
  identity : b'.identity = b.identity
  pin : b'.workspaceAffinityAgentId = b.workspaceAffinityAgentId
  builds : ∀ id, s'.builds.lookup id = if id = buildId then some b' else s.builds.lookup id
  nodes : s'.nodes = s.nodes
  attempts : s'.attempts = s.attempts
  dependencies : s'.dependencies = s.dependencies
  events : ∃ new, s'.events = new ++ s.events ∧ Quiet new

/-- A build is admitted with its nodes, their first attempts and their dependencies. -/
structure Admits (s s' : Store) (buildId : Uuid) (build : BuildRow)
    (newNodes : List (Uuid × NodeRow)) (newAttempts : List (Uuid × AttemptRow))
    (newDependencies : List DependencyRow) : Prop extends SameRest s s' where
  fresh : s.builds.lookup buildId = none
  builds : ∀ b row, s'.builds.lookup b = some row ↔
    s.builds.lookup b = some row ∨ (b = buildId ∧ row = build)
  nodes : ∀ id n, s'.nodes.lookup id = some n ↔ s.nodes.lookup id = some n ∨ (id, n) ∈ newNodes
  attempts : ∀ a r, s'.attempts.lookup a = some r ↔
    s.attempts.lookup a = some r ∨ (a, r) ∈ newAttempts
  dependencies : s'.dependencies = s.dependencies ++ newDependencies
  events : ∃ new, s'.events = new ++ s.events ∧ Quiet new
  status : build.status = .queued
  unstamped : build.cancellationRequestedAt = none
  pipeline : ∃ p row, build.pipelineId = some p ∧ s.pipelines.lookup p = some row ∧
    build.pipelineOperationalGeneration = some row.operationalGeneration
  node : ∀ {id n}, (id, n) ∈ newNodes → n.buildId = buildId ∧
    (n.status = .queued ∨ (n.status = .blocked ∧ build.dagMode = true)) ∧
    n.logicalOutcome = none ∧ n.cancellationRequestedAt = none
  attempt : ∀ {a r}, (a, r) ∈ newAttempts → s.attempts.lookup a = none ∧
    r = firstAttempt r.nodeId ∧ s.nodes.lookup r.nodeId = none ∧ ∃ n, (r.nodeId, n) ∈ newNodes
  attempted : ∀ {id n}, (id, n) ∈ newNodes → ∃ a r, (a, r) ∈ newAttempts ∧ r.nodeId = id
  attempt_unique : ∀ {a r a' r'}, (a, r) ∈ newAttempts → (a', r') ∈ newAttempts →
    r.nodeId = r'.nodeId → a = a'
  single : build.dagMode = false → ∀ {id n id' n'}, (id, n) ∈ newNodes → (id', n') ∈ newNodes →
    id = id'
  dependency : ∀ {d}, d ∈ newDependencies → d.buildId = buildId ∧ build.dagMode = true ∧
    (∃ n, (d.parentNodeId, n) ∈ newNodes) ∧ ∃ n, (d.childNodeId, n) ∈ newNodes
  pool : ∀ {id n}, (id, n) ∈ newNodes → TrustPoolAllowed n.requiredTrustPool
  /-- The project's key was not used before. -/
  unkeyed : ∀ {id b}, s.builds.lookup id = some b → b.projectId = build.projectId →
    b.idempotencyKey ≠ build.idempotencyKey
  keys : (newNodes.map fun entry => entry.2.nodeKey).Nodup
  /-- The stored contract lists the keys of the nodes. -/
  contract : ∀ {c}, build.dagContract = some c →
    c.contractKeys.Perm (newNodes.map fun entry => entry.2.nodeKey)
  dag : ∀ {c}, build.dagContract = some c → build.dagMode = true
  /-- A sequential build has the digest of the revision it is bound to. -/
  layout : ∀ {c}, build.dagContract = some c → (c.get "sequential_layout").isSome = true →
    build.pipelineRevisionDigest = some build.pipelineDigest

/-- One change of a transaction.  The proposition `own` says whether effects may be written otherwise
than that they become uncertain. -/
inductive Change (own : Prop) (s s' : Store) : Prop where
  | frame (hframe : s.Frame s')
  | pipelines (hadvance : s.AdvancesPipelines s')
  | ledger (hledger : s.WritesLedger s') (hdoubts : own ∨ s.Doubts s')
  | move {a : Uuid} {x y : Rows} {new : List BuildEvent} (htouch : s.Touches s' a x y)
      (hrest : s.SameRest s') (hcur : ¬ s.Superseded a) (hmove : Move s a x y new)
      (hevents : s'.events = new ++ s.events)
  | renew {mid : Store} {a c : Uuid} {x y : Rows} {child : AttemptRow}
      (htouch : s.Touches mid a x y) (hrest : s.SameRest mid) (hcur : ¬ s.Superseded a)
      (hsucc : s.Succeeds a c x child) (hrenew : Renewal s a x y)
      (hevents : ∃ new, s'.events = new ++ s.events ∧ Quiet new)
      (hs : s' = { mid.withAttempt c child with events := s'.events })
  | sweep {buildId : Uuid} {b : BuildRow} (hbuild : s.builds.lookup buildId = some b)
      (hdag : b.dagMode = true) (hsweep : s.Sweeps s' buildId)
  | mark {buildId : Uuid} {b b' : BuildRow} (hre : s.Rebuilds s' buildId b b')
      (hdag : b.dagMode = true) (hmark : BuildMark s buildId b b')
  | epoch (hkept : ∀ id row, s.restoreEpochs.lookup id = some row →
        s'.restoreEpochs.lookup id = some row)
      (hs : s' = { s with restoreEpoch := s.restoreEpoch + 1, restoreEpochs := s'.restoreEpochs })
  | enter {buildId : Uuid} {build : BuildRow} {newNodes : List (Uuid × NodeRow)}
      {newAttempts : List (Uuid × AttemptRow)} {newDependencies : List DependencyRow}
      (hnew : s.Admits s' buildId build newNodes newAttempts newDependencies)

end Store

end McLoving
