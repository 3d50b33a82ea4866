import McLoving.Lifecycle.Phase

/-!
# Moves of one attempt

Most calls act on one attempt: they rewrite its row, the row of its node and the row of its build
together.  This file lists the moves between phases, with the conditions under which calls make
them.
-/

namespace McLoving

/-- The rows of an attempt, its node and its build. -/
structure Rows where
  build : BuildRow
  node : NodeRow
  attempt : AttemptRow

namespace Rows

/-- The node and its build carry no cancellation request. -/
def Unstamped (x : Rows) : Prop :=
  x.build.cancellationRequestedAt = none ∧ x.node.cancellationRequestedAt = none

/-- The three rows fit together. -/
def Ok (x : Rows) : Prop :=
  AttemptOk x.build x.node x.attempt

end Rows

/-- The events that report an offer. -/
def EventPayload.isOffer : EventPayload → Bool
  | .attemptOffered .. => true
  | _ => false

/-- No offer is reported. -/
def Quiet (new : List BuildEvent) : Prop :=
  ∀ e ∈ new, e.payload.isOffer = false

theorem Quiet.nil : Quiet [] := fun _ hmem => nomatch hmem

variable {buildId : Uuid}

theorem Quiet.single {payload : EventPayload} (hpayload : payload.isOffer = false) :
    Quiet [⟨buildId, payload⟩] := by
  intro e hmem
  rw [List.mem_singleton.mp hmem]
  exact hpayload

/-- The attempt may still be closed: it is under a lease, or it waits for reconciliation. -/
def AttemptStatus.isOpen (status : AttemptStatus) : Bool :=
  status.isLive || status = .reconciliationRequired

/-- An attempt ended with an outcome. -/
def AttemptRow.closed (r : AttemptRow) (outcome : TerminalOutcome) (summary : Json)
    (expiry : Option Timestamp) : AttemptRow :=
  { r with status := outcome.attemptStatus, terminalSummary := some summary,
           leaseExpiresAt := expiry }

/-- A DAG node whose attempt ended with an outcome. -/
def NodeRow.settled (n : NodeRow) (outcome : TerminalOutcome) : NodeRow :=
  { n with status := outcome.nodeStatus, logicalOutcome := some outcome.logicalOutcome,
           cancellationRequestedAt := none }

/-- A build whose node was offered. -/
def BuildRow.started (b : BuildRow) : BuildRow :=
  if b.status = .queued then { b with status := .running } else b

/-- A build whose node was returned to the queue. -/
def BuildRow.requeued (b : BuildRow) : BuildRow :=
  if b.status = .running ∧ b.cancellationRequestedAt = none then { b with status := .queued } else b

section Columns

variable (b : BuildRow)

@[simp]
theorem BuildRow.started_identity : b.started.identity = b.identity := by
  unfold started
  split <;> rfl

@[simp]
theorem BuildRow.started_dagMode : b.started.dagMode = b.dagMode :=
  congrArg (·.1) b.started_identity

@[simp]
theorem BuildRow.started_cancellationRequestedAt :
    b.started.cancellationRequestedAt = b.cancellationRequestedAt := by
  unfold started
  split <;> rfl

@[simp]
theorem BuildRow.requeued_identity : b.requeued.identity = b.identity := by
  unfold requeued
  split <;> rfl

@[simp]
theorem BuildRow.requeued_dagMode : b.requeued.dagMode = b.dagMode :=
  congrArg (·.1) b.requeued_identity

@[simp]
theorem BuildRow.requeued_cancellationRequestedAt :
    b.requeued.cancellationRequestedAt = b.cancellationRequestedAt := by
  unfold requeued
  split <;> rfl

end Columns

/-- The build of the rows has several work nodes that share one agent's workspace, and the node is
one of them. -/
def Store.InSharedWorkspace (s : Store) (x : Rows) : Prop :=
  s.sharesWorkspace x.node.buildId x.build = true ∧ x.build.workspaceNamespace = none ∧
    x.node.nodeKind = .work

/-- Work that shares a workspace may end in success: its build is pinned to the agent that holds the
lease. -/
def Store.Vouched (s : Store) (x : Rows) : Prop :=
  s.InSharedWorkspace x → ∃ agent, x.attempt.leaseOwner = some agent ∧
    x.build.workspaceAffinityAgentId = some agent

/-- One move of an attempt's rows, with the events that report it. -/
inductive Move (s : Store) (a : Uuid) (x y : Rows) (new : List BuildEvent) : Prop where
  | offer {request : ClaimRequest} {expiry : Option Timestamp}
      (hqueued : x.attempt.status = .queued)
      (hclaim : s.isClaimable request x.attempt.nodeId x.node x.build = true)
      (hy : y = ⟨x.build.started, { x.node with status := .offered },
        { x.attempt with status := .offered, fence := x.attempt.fence + 1,
                         leaseOwner := some request.agentId, leaseExpiresAt := expiry,
                         restoreEpoch := s.restoreEpoch }⟩)
      (hnew : new = [⟨x.node.buildId, .attemptOffered a x.attempt.nodeId request.agentId
        request.trustPool request.schedulerId (x.attempt.fence + 1) s.restoreEpoch⟩])
  | start {status : AttemptStatus}
      (hstatus : (x.attempt.status = .offered ∧ status = .accepted) ∨
        (x.attempt.status = .accepted ∧ status = .running))
      (hy : y = ⟨x.build, { x.node with status := .running }, { x.attempt with status }⟩)
      (hnew : Quiet new)
  | recover {phase : RecoveryPhase} {expiry : Option Timestamp}
      (hstatus : recoverableFinalizationStatus x.attempt.status = true)
      (hy : y = ⟨x.build, x.node,
        { x.attempt with status := phase.attemptStatus, leaseExpiresAt := expiry }⟩)
      (hnew : Quiet new)
  | settle {outcome : TerminalOutcome} {summary : Json} {expiry : Option Timestamp}
      (hopen : x.attempt.status.isOpen = true) (hdag : x.build.dagMode = true)
      (hlogical : x.node.logicalOutcome = none) (hvouched : outcome = .succeeded → s.Vouched x)
      (hy : y = ⟨x.build, x.node.settled outcome, x.attempt.closed outcome summary expiry⟩)
      (hnew : Quiet new)
  | keep {outcome : TerminalOutcome} {summary : Json} {expiry : Option Timestamp}
      (hopen : x.attempt.status.isOpen = true) (hdag : x.build.dagMode = true)
      (hlogical : x.node.logicalOutcome ≠ none) (hvouched : outcome = .succeeded → s.Vouched x)
      (hy : y = ⟨x.build, x.node, x.attempt.closed outcome summary expiry⟩)
      (hnew : Quiet new)
  | closeSolo {outcome : TerminalOutcome} {summary : Json} {expiry : Option Timestamp}
      (hopen : x.attempt.status.isOpen = true) (hdag : x.build.dagMode = false)
      (hy : y = ⟨{ x.build with status := outcome.buildStatus },
        { x.node with status := outcome.nodeStatus }, x.attempt.closed outcome summary expiry⟩)
      (hnew : Quiet new)
  | park {owner : Option String}
      (hlive : x.attempt.status.isLive = true)
      (howner : owner = x.attempt.leaseOwner ∨ owner = none)
      (hy : y = ⟨{ x.build with status := .reconciliationRequired },
        { x.node with status := .reconciliationRequired },
        { x.attempt with status := .reconciliationRequired, leaseOwner := owner,
                         leaseExpiresAt := none }⟩)
      (hnew : Quiet new)
  | requeue {n : NodeRow}
      (hlive : x.attempt.status.isLive = true) (hunstamped : x.Unstamped)
      (hclean : ∀ id e, s.effects.lookup id = some e → id.attemptId = a →
        id.fence = x.attempt.fence → e.isProtected = true → e.status = .abandoned)
      (hstatus : n.status = .queued ∨ (n.status = .blocked ∧ x.build.dagMode = true))
      (hlogical : n.logicalOutcome = x.node.logicalOutcome)
      (hstamp : n.cancellationRequestedAt = x.node.cancellationRequestedAt)
      (hy : y = ⟨x.build.requeued, n, { x.attempt with status := .queued, leaseOwner := none,
                                                       leaseExpiresAt := none }⟩)
      (hnew : Quiet new)
  | deadLetter {summary : Json} {status : BuildStatus}
      (hparked : x.attempt.status = .reconciliationRequired)
      (hbuild : status = if x.build.status.isTerminal then x.build.status else .failed)
      (hy : y = ⟨{ x.build with status }, { x.node with status := .failed },
        x.attempt.closed .failed summary x.attempt.leaseExpiresAt⟩)
      (hnew : Quiet new)
  | cancelQueued {now : Timestamp} {summary : Json}
      (hdag : x.build.dagMode = false) (hqueued : x.attempt.status = .queued)
      (hy : y = ⟨{ x.build with status := .aborted, cancellationRequestedAt := some now },
        { x.node with status := .aborted },
        x.attempt.closed .aborted summary x.attempt.leaseExpiresAt⟩)
      (hnew : Quiet new)
  | cancelActive {now : Timestamp}
      (hdag : x.build.dagMode = false) (hlive : x.attempt.status.isLive = true)
      (hy : y = ⟨{ x.build with cancellationRequestedAt := some now }, x.node,
        { x.attempt with status := .cancelling }⟩)
      (hnew : Quiet new)

/-- One move of a peer: what a sweep over a DAG build does to a node and its current attempt. -/
inductive Swept (n : NodeRow) (r : AttemptRow) (n' : NodeRow) (r' : AttemptRow) : Prop where
  | keep (hn : n' = n) (hr : r' = r)
  | ready {queuedAt : Timestamp} (hblocked : n.status = .blocked)
      (hn : n' = { n with status := .queued, queuedAt }) (hr : r' = r)
  | skip {summary : Json} (hqueued : r.status = .queued)
      (hn : n' = { n with status := .skipped, logicalOutcome := some .skipped })
      (hr : r' = r.closed .aborted summary r.leaseExpiresAt)
  | drop {summary : Json} {expiry : Option Timestamp}
      (hstatus : r.status = .queued ∨ r.status = .offered)
      (hn : n' = { n with status := .aborted, logicalOutcome := some .aborted })
      (hr : r' = r.closed .aborted summary expiry)
  | stop {now : Timestamp} (hlive : r.status.isLive = true)
      (hnode : n.status = .offered ∨ n.status = .running)
      (hn : n' = { n with cancellationRequestedAt := some now })
      (hr : r' = { r with status := .cancelling })
  | outlive (hstatus : r.status = .finalizing ∨ r.status = .cancelling) (hnode : n.status = .offered)
      (hn : n' = { n with status := .aborted, logicalOutcome := some .aborted }) (hr : r' = r)

namespace Phase

variable {dag : Bool} {n : NodeRow} {status : AttemptStatus}

/-- Work under a lease can be stopped where it stands. -/
theorem cancelling_of_solo (hphase : Phase false n status) (hlive : status.isLive = true) :
    Phase false n .cancelling := by
  obtain ⟨hlogical, hstamp, hnode⟩ := hphase
  refine ⟨hlogical, hstamp, ?_⟩
  cases status <;> simp_all [AttemptStatus.isLive]

/-- Executing work moves to the phase in which its agent resumes it. -/
theorem recover (hphase : Phase dag n status)
    (hstatus : recoverableFinalizationStatus status = true) (phase : RecoveryPhase) :
    Phase dag n phase.attemptStatus := by
  cases dag <;> cases status <;> cases phase <;>
    simp_all [Phase, DagPhase, SoloPhase, recoverableFinalizationStatus,
      RecoveryPhase.attemptStatus]

theorem park (hphase : Phase dag n status) (hlive : status.isLive = true) :
    Phase dag { n with status := .reconciliationRequired } .reconciliationRequired := by
  cases dag with
  | true =>
    have hlogical : n.logicalOutcome = none ∨ n.Outlived := by
      cases status <;> simp_all [Phase, DagPhase, AttemptStatus.isLive]
      all_goals tauto
    exact ⟨rfl, hlogical⟩
  | false => exact ⟨hphase.1, hphase.2.1, rfl⟩

/-- A node under a lease that was not stopped is not closed. -/
theorem logicalOutcome_of_unstamped (hphase : Phase dag n status) (hlive : status.isLive = true)
    (hstamp : n.cancellationRequestedAt = none) : n.logicalOutcome = none := by
  cases dag <;> cases status <;>
    simp_all [Phase, DagPhase, SoloPhase, NodeRow.Outlived, AttemptStatus.isLive]

/-- A node of an open attempt that was not stopped is not closed. -/
theorem logicalOutcome_of_open (hphase : DagPhase n status) (hopen : status.isOpen = true)
    (hstamp : n.cancellationRequestedAt = none) : n.logicalOutcome = none := by
  cases status <;> simp_all [DagPhase, NodeRow.Outlived, AttemptStatus.isOpen, AttemptStatus.isLive]

/-- A node that is closed already keeps its state when its attempt ends. -/
theorem keep (hphase : DagPhase n status) (hopen : status.isOpen = true)
    (hlogical : n.logicalOutcome ≠ none) (outcome : TerminalOutcome) :
    DagPhase n outcome.attemptStatus := by
  have houtlived : (n.status = .aborted ∨ n.status = .reconciliationRequired) ∧ n.Outlived := by
    cases status <;> simp_all [DagPhase, AttemptStatus.isOpen, AttemptStatus.isLive]
  cases outcome with
  | succeeded => exact .inr houtlived
  | failed => exact .inr houtlived
  | aborted =>
    rcases houtlived with ⟨hstatus | hstatus, houtlived⟩
    · exact .inl ⟨hstatus, houtlived.1⟩
    · exact .inr (.inr ⟨hstatus, houtlived⟩)

end Phase

namespace Move

variable {s : Store} {a : Uuid} {x y : Rows}
  {new : List BuildEvent}

/-- An attempt that is under a lease or parked has been offered. -/
private theorem fence_pos_of_isOpen (hok : x.Ok) (hopen : x.attempt.status.isOpen = true) :
    0 < x.attempt.fence := by
  refine hok.fenced ?_ ?_ <;>
    (intro hstatus; simp [hstatus, AttemptStatus.isOpen, AttemptStatus.isLive] at hopen)

private theorem isOpen_of_isLive {status : AttemptStatus} (hlive : status.isLive = true) :
    status.isOpen = true := by
  simp [AttemptStatus.isOpen, hlive]

/-- Every move leads from a phase to a phase. -/
theorem ok (hmove : Move s a x y new) (hnonneg : 0 ≤ x.attempt.fence) (hok : x.Ok) : y.Ok := by
  cases hmove with
  | offer hqueued hclaim hy =>
    subst hy
    have hwait := Phase.waiting (hqueued ▸ hok.phase)
    have hstamp : x.build.cancellationRequestedAt = none := by
      simp only [Store.isClaimable, Bool.and_eq_true, decide_eq_true_eq] at hclaim
      tauto
    refine ⟨?_, fun _ _ => Int.lt_add_one_of_le hnonneg, fun _ hne => ?_, fun hdag => ?_⟩
    · cases hdag : x.build.dagMode <;> simp [Phase, DagPhase, SoloPhase, hdag, hwait]
    · simp [hstamp] at hne
    · rw [BuildRow.started_dagMode] at hdag
      simp [BuildRow.started, hok.verdict hdag, hqueued, soloStatus]
  | @start status hstatus hy =>
    subst hy
    have hlive : x.attempt.status.isLive = true ∧ status.isLive = true := by
      rcases hstatus with ⟨hfrom, rfl⟩ | ⟨hfrom, rfl⟩ <;> simp [hfrom, AttemptStatus.isLive]
    have hpos := fence_pos_of_isOpen hok (isOpen_of_isLive hlive.1)
    refine ⟨?_, fun _ _ => hpos, fun hdag hne _ => hok.stopped hdag hne hlive.1, fun hdag => ?_⟩
    · have hphase := hok.phase
      rcases hstatus with ⟨hfrom, rfl⟩ | ⟨hfrom, rfl⟩ <;> rw [hfrom] at hphase <;>
        cases hdag : x.build.dagMode <;> simp_all [Phase, DagPhase, SoloPhase]
    · have hverdict := hok.verdict hdag
      rcases hstatus with ⟨hfrom, rfl⟩ | ⟨hfrom, rfl⟩ <;> simp_all [soloStatus]
  | @recover phase _ hstatus hy =>
    subst hy
    have hlive : x.attempt.status.isLive = true := by
      cases hfrom : x.attempt.status <;>
        simp_all [recoverableFinalizationStatus, AttemptStatus.isLive]
    have hpos := fence_pos_of_isOpen hok (isOpen_of_isLive hlive)
    refine ⟨Phase.recover hok.phase hstatus phase, fun _ _ => hpos,
      fun hdag hne _ => hok.stopped hdag hne hlive, fun hdag => ?_⟩
    have hverdict := hok.verdict hdag
    cases hfrom : x.attempt.status <;> cases phase <;>
      simp_all [soloStatus, RecoveryPhase.attemptStatus, recoverableFinalizationStatus]
  | @settle outcome _ _ hopen hdag _ _ hy =>
    have hpos := fence_pos_of_isOpen hok hopen
    subst hy
    refine ⟨?_, fun _ _ => hpos, fun _ _ hlive => ?_, fun hsolo => ?_⟩
    · cases outcome <;> simp [Phase, hdag, DagPhase, AttemptRow.closed, NodeRow.settled,
        TerminalOutcome.attemptStatus, TerminalOutcome.nodeStatus, TerminalOutcome.logicalOutcome]
    · cases outcome <;> simp [AttemptRow.closed, TerminalOutcome.attemptStatus,
        AttemptStatus.isLive] at hlive
    · simp [hdag] at hsolo
  | @keep outcome _ _ hopen hdag hlogical _ hy =>
    have hpos := fence_pos_of_isOpen hok hopen
    subst hy
    have hphase := hok.phase
    rw [hdag] at hphase
    refine ⟨?_, fun _ _ => hpos, fun _ _ hlive => ?_, fun hsolo => ?_⟩
    · rw [hdag]
      exact Phase.keep hphase hopen hlogical outcome
    · cases outcome <;> simp [AttemptRow.closed, TerminalOutcome.attemptStatus,
        AttemptStatus.isLive] at hlive
    · simp [hdag] at hsolo
  | @closeSolo outcome _ _ hopen hdag hy =>
    have hpos := fence_pos_of_isOpen hok hopen
    subst hy
    have hphase := hok.phase
    rw [hdag] at hphase
    refine ⟨?_, fun _ _ => hpos, fun hdag' => ?_, fun _ => ?_⟩
    · rw [hdag]
      refine ⟨hphase.1, hphase.2.1, ?_⟩
      cases outcome <;> rfl
    · simp [hdag] at hdag'
    · cases outcome <;> rfl
  | park hlive _ hy =>
    have hpos := fence_pos_of_isOpen hok (isOpen_of_isLive hlive)
    subst hy
    refine ⟨Phase.park hok.phase hlive, fun _ _ => hpos, fun _ _ hlive' => ?_, fun _ => rfl⟩
    simp [AttemptStatus.isLive] at hlive'
  | requeue hlive hunstamped _ _ hlogical hstamp hy =>
    have hphase := hok.phase
    have hnone := Phase.logicalOutcome_of_unstamped hphase hlive hunstamped.2
    subst hy
    refine ⟨?_, fun hne => absurd rfl hne, fun _ _ hlive' => ?_, fun hdag => ?_⟩
    · rw [hnone] at hlogical
      rw [hunstamped.2] at hstamp
      cases hdag : x.build.dagMode <;> simp_all [Phase, DagPhase, SoloPhase]
    · simp [AttemptStatus.isLive] at hlive'
    · rw [BuildRow.requeued_dagMode] at hdag
      have hrunning : x.build.status = .running := by
        rw [hok.verdict hdag]
        cases hfrom : x.attempt.status <;> simp_all [soloStatus, AttemptStatus.isLive]
      simp [BuildRow.requeued, hrunning, hunstamped.1, soloStatus]
  | deadLetter hparked _ hy =>
    have hopen : x.attempt.status.isOpen = true := by simp [AttemptStatus.isOpen, hparked]
    have hpos := fence_pos_of_isOpen hok hopen
    have hphase := hok.phase
    rw [hparked] at hphase
    subst hy
    refine ⟨?_, fun _ _ => hpos, fun _ _ hlive => ?_, fun hdag => ?_⟩
    · cases hdag : x.build.dagMode <;>
        simp_all [Phase, DagPhase, SoloPhase, AttemptRow.closed, TerminalOutcome.attemptStatus,
          NodeRow.Outlived]
      tauto
    · simp [AttemptRow.closed, TerminalOutcome.attemptStatus, AttemptStatus.isLive] at hlive
    · have hstatus := hok.verdict hdag
      simp_all [soloStatus, BuildStatus.isTerminal, AttemptRow.closed,
        TerminalOutcome.attemptStatus]
  | cancelQueued hdag _ hy =>
    have hphase := hok.phase
    rw [hdag] at hphase
    subst hy
    refine ⟨?_, fun _ hne => absurd rfl hne, fun hdag' => ?_, fun _ => rfl⟩
    · rw [hdag]
      exact ⟨hphase.1, hphase.2.1, rfl⟩
    · simp [hdag] at hdag'
  | cancelActive hdag hlive hy =>
    have hpos := fence_pos_of_isOpen hok (isOpen_of_isLive hlive)
    have hphase := hok.phase
    rw [hdag] at hphase
    have hverdict := hok.verdict hdag
    subst hy
    refine ⟨?_, fun _ _ => hpos, fun hdag' => ?_, fun _ => ?_⟩
    · rw [hdag]
      exact Phase.cancelling_of_solo hphase hlive
    · simp [hdag] at hdag'
    · cases hfrom : x.attempt.status <;> simp_all [soloStatus, AttemptStatus.isLive]

/-- A move keeps the stop request of a DAG build and the fence, or raises the fence. -/
theorem stamp_and_fence (hmove : Move s a x y new) : (x.build.dagMode = true →
      y.build.cancellationRequestedAt = x.build.cancellationRequestedAt) ∧
    x.attempt.fence ≤ y.attempt.fence := by
  cases hmove with
  | offer _ _ hy =>
    subst hy
    exact ⟨fun _ => BuildRow.started_cancellationRequestedAt _, Int.le_add_one (Int.le_refl _)⟩
  | requeue _ _ _ _ _ _ hy =>
    subst hy
    exact ⟨fun _ => BuildRow.requeued_cancellationRequestedAt _, Int.le_refl _⟩
  | cancelQueued hdag _ hy | cancelActive hdag _ hy =>
    subst hy
    exact ⟨fun hdag' => by simp [hdag] at hdag', Int.le_refl _⟩
  | start _ hy | recover _ hy | settle _ _ _ _ hy | keep _ _ _ _ hy | closeSolo _ _ hy | park _ _ hy
  | deadLetter _ _ hy =>
    subst hy
    exact ⟨fun _ => rfl, Int.le_refl _⟩

/-- A move keeps the request to stop a build. -/
theorem stamped (hmove : Move s a x y new) (hstamped : x.build.cancellationRequestedAt ≠ none) :
    y.build.cancellationRequestedAt ≠ none := by
  cases hmove with
  | offer _ _ hy | requeue _ _ _ _ _ _ hy =>
    subst hy
    simpa using hstamped
  | cancelQueued _ _ hy | cancelActive _ _ hy =>
    subst hy
    simp
  | start _ hy | recover _ hy | settle _ _ _ _ hy | keep _ _ _ _ hy | closeSolo _ _ hy | park _ _ hy
  | deadLetter _ _ hy =>
    subst hy
    exact hstamped

end Move

theorem Swept.fence_eq {n n' : NodeRow} {r r' : AttemptRow} (hswept : Swept n r n' r') :
    r'.fence = r.fence := by
  cases hswept <;> simp_all [AttemptRow.closed]

/-- Every move of a peer leads from a phase to a phase. -/
theorem Swept.ok {b : BuildRow} {n n' : NodeRow} {r r' : AttemptRow}
    (hswept : Swept n r n' r') (hdag : b.dagMode = true) (hok : AttemptOk b n r) :
    AttemptOk b n' r' := by
  have hphase := hok.phase
  rw [hdag] at hphase
  have hsolo {P : Prop} (hfalse : b.dagMode = false) : P := by simp [hdag] at hfalse
  cases hswept with
  | keep hn hr =>
    subst hn hr
    exact hok
  | ready hblocked hn hr =>
    subst hn hr
    have hqueued := Phase.queued_of_waiting hok.phase (.inr hblocked)
    rw [hqueued] at hphase
    refine ⟨?_, hok.fenced, hok.stopped, fun h => hsolo h⟩
    rw [hdag, hqueued]
    exact ⟨.inl rfl, hphase.2⟩
  | skip hqueued hn hr =>
    subst hn hr
    rw [hqueued] at hphase
    refine ⟨?_, fun _ hne => absurd rfl hne, fun _ _ hlive => ?_, fun h => hsolo h⟩
    · rw [hdag]
      exact .inr (.inl ⟨rfl, rfl, hphase.2.2⟩)
    · simp [AttemptRow.closed, TerminalOutcome.attemptStatus, AttemptStatus.isLive] at hlive
  | drop _ hn hr =>
    subst hn hr
    refine ⟨?_, fun _ hne => absurd rfl hne, fun _ _ hlive => ?_, fun h => hsolo h⟩
    · rw [hdag]
      exact .inl ⟨rfl, rfl⟩
    · simp [AttemptRow.closed, TerminalOutcome.attemptStatus, AttemptStatus.isLive] at hlive
  | stop hlive hnode hn hr =>
    subst hn hr
    have hlogical : n.logicalOutcome = none := by
      rcases hnode with hnode | hnode <;> cases hfrom : r.status <;>
        simp_all [Phase, DagPhase, AttemptStatus.isLive]
    refine ⟨?_, fun _ _ => hok.fenced ?_ ?_, fun _ _ _ => by simp, fun h => hsolo h⟩
    · rw [hdag]
      refine .inl ⟨hlogical, ?_⟩
      rcases hnode with hnode | hnode
      · exact .inr ⟨hnode, by simp⟩
      · exact .inl hnode
    all_goals (intro hfrom; simp [hfrom, AttemptStatus.isLive] at hlive)
  | outlive hstatus hnode hn hr =>
    subst hn hr
    obtain ⟨-, hstamp⟩ : n.logicalOutcome = none ∧ ¬ n.cancellationRequestedAt = none := by
      rcases hstatus with hstatus | hstatus <;> rw [hstatus] at hphase <;>
        simpa [Phase, DagPhase, hnode] using hphase
    refine ⟨?_, hok.fenced, fun _ _ _ => hstamp, fun h => hsolo h⟩
    rw [hdag]
    rcases hstatus with hstatus | hstatus <;> rw [hstatus] <;> exact .inr ⟨rfl, rfl, hstamp⟩

end McLoving
