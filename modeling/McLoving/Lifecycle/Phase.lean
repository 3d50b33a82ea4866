import McLoving.Store.Scheduler

/-!
# Rewritten rows and phases

Updates never change the columns that say what a row belongs to.  A phase is a combination of the
rows of an attempt and its node that the store can hold.
-/

namespace McLoving

open Table

/-! ## What an update keeps of a row -/

/-- The columns that an admission with the same key is compared with. -/
def BuildRow.binding (b : BuildRow) : String × Option ℤ × Option Digest × Digest × Option Json :=
  (b.idempotencyKey, b.pipelineRevision, b.pipelineRevisionDigest, b.pipelineDigest, b.dagContract)

/-- The columns of a build that no call changes after admission. -/
def BuildRow.identity (b : BuildRow) : Bool × Uuid × Option Uuid × Option ℤ × Option Uuid ×
    String × Option ℤ × Option Digest × Digest × Option Json :=
  (b.dagMode, b.projectId, b.pipelineId, b.pipelineOperationalGeneration, b.workspaceNamespace,
    b.binding)

/-- The columns of a node that no call changes after admission. -/
def NodeRow.identity (n : NodeRow) : Uuid × DagNodeKind × Bool × List String × String × String :=
  (n.buildId, n.nodeKind, n.failFast, n.requiredCapabilities, n.requiredTrustPool, n.nodeKey)

/-- The columns of an attempt that no call changes after its creation. -/
def AttemptRow.identity (r : AttemptRow) : Uuid × ℤ × Option Uuid :=
  (r.nodeId, r.ordinal, r.retryOf)

namespace Store

/-- The second store has the rows of the first with their identities. -/
structure Rewrites (s s' : Store) : Prop where
  builds : ∀ b, (s'.builds.lookup b).map BuildRow.identity =
    (s.builds.lookup b).map BuildRow.identity
  nodes : ∀ n, (s'.nodes.lookup n).map NodeRow.identity = (s.nodes.lookup n).map NodeRow.identity
  attempts : ∀ a, (s'.attempts.lookup a).map AttemptRow.identity =
    (s.attempts.lookup a).map AttemptRow.identity
  dependencies : s'.dependencies = s.dependencies

namespace Rewrites

variable {s s' s'' : Store}

theorem trans (hfst : s.Rewrites s') (hsnd : s'.Rewrites s'') : s.Rewrites s'' where
  builds b := (hsnd.builds b).trans (hfst.builds b)
  nodes n := (hsnd.nodes n).trans (hfst.nodes n)
  attempts a := (hsnd.attempts a).trans (hfst.attempts a)
  dependencies := hsnd.dependencies.trans hfst.dependencies

theorem symm (hrw : s.Rewrites s') : s'.Rewrites s where
  builds b := (hrw.builds b).symm
  nodes n := (hrw.nodes n).symm
  attempts a := (hrw.attempts a).symm
  dependencies := hrw.dependencies.symm

theorem build (hrw : s.Rewrites s') {b : Uuid} {row : BuildRow}
    (hrow : s.builds.lookup b = some row) :
    ∃ row', s'.builds.lookup b = some row' ∧ row'.identity = row.identity :=
  exists_of_map_eq (hrw.builds b) hrow

theorem node (hrw : s.Rewrites s') {n : Uuid} {row : NodeRow} (hrow : s.nodes.lookup n = some row) :
    ∃ row', s'.nodes.lookup n = some row' ∧ row'.identity = row.identity :=
  exists_of_map_eq (hrw.nodes n) hrow

theorem attempt (hrw : s.Rewrites s') {a : Uuid} {row : AttemptRow}
    (hrow : s.attempts.lookup a = some row) :
    ∃ row', s'.attempts.lookup a = some row' ∧ row'.identity = row.identity :=
  exists_of_map_eq (hrw.attempts a) hrow

end Rewrites

/-! ## The single updates rewrite -/

section Updates

variable (s : Store)

private theorem map_map_of_identity {α β : Type} {f : α → β} {g : α → α} (hg : ∀ x, f (g x) = f x)
    (x : Option α) : (x.map g).map f = x.map f := by
  rcases x with _ | x
  · rfl
  · exact congrArg some (hg x)

theorem rewrites_updateAttemptsJoin (p : Uuid → AttemptRow → NodeRow → Bool)
    {f : AttemptRow → AttemptRow} (hf : ∀ row, (f row).identity = row.identity) :
    s.Rewrites (s.updateAttemptsJoin p f) where
  builds _ := rfl
  nodes _ := rfl
  attempts a := by
    rw [updateAttemptsJoin_attempts, lookup_update]
    refine map_map_of_identity (fun row => ?_) _
    split
    · exact hf row
    · rfl
  dependencies := rfl

/-- The readiness trigger keeps the identity of the new row. -/
@[simp]
theorem translateRetryReadiness_identity (now : Timestamp) (id : Uuid) (old new : NodeRow) :
    (s.translateRetryReadiness now id old new).identity = new.identity := by
  unfold translateRetryReadiness
  split
  · rfl
  · split <;> rfl

theorem rewrites_updateNodes (now : Timestamp) (p : Uuid → NodeRow → Bool) {f : NodeRow → NodeRow}
    (hf : ∀ row, (f row).identity = row.identity) : s.Rewrites (s.updateNodes now p f) where
  builds _ := rfl
  nodes n := by
    rw [updateNodes_nodes, lookup_update]
    refine map_map_of_identity (fun row => ?_) _
    split
    · rw [translateRetryReadiness_identity, hf row]
    · rfl
  attempts _ := rfl
  dependencies := rfl

end Updates

end Store

/-- A node that was closed while its attempt was still under a lease.  The attempt may later park
or end without reopening the node. -/
def NodeRow.Outlived (n : NodeRow) : Prop :=
  n.logicalOutcome = some .aborted ∧ n.cancellationRequestedAt ≠ none

/-- The states of a DAG node whose current attempt has the given status. -/
def DagPhase (n : NodeRow) : AttemptStatus → Prop
  | .queued =>
    (n.status = .queued ∨ n.status = .blocked) ∧ n.logicalOutcome = none ∧
      n.cancellationRequestedAt = none
  | .offered =>
    n.status = .offered ∧ n.logicalOutcome = none ∧ n.cancellationRequestedAt = none
  | .accepted | .running =>
    n.status = .running ∧ n.logicalOutcome = none ∧ n.cancellationRequestedAt = none
  | .finalizing | .cancelling =>
    (n.logicalOutcome = none ∧
      (n.status = .running ∨ (n.status = .offered ∧ n.cancellationRequestedAt ≠ none))) ∨
    (n.status = .aborted ∧ n.Outlived)
  | .reconciliationRequired =>
    n.status = .reconciliationRequired ∧ (n.logicalOutcome = none ∨ n.Outlived)
  | .succeeded =>
    (n.status = .succeeded ∧ n.logicalOutcome = some .succeeded ∧
      n.cancellationRequestedAt = none) ∨
    ((n.status = .aborted ∨ n.status = .reconciliationRequired) ∧ n.Outlived)
  | .failed =>
    (n.status = .failed ∧ (n.logicalOutcome = none ∨
      (n.logicalOutcome = some .failed ∧ n.cancellationRequestedAt = none) ∨ n.Outlived)) ∨
    ((n.status = .aborted ∨ n.status = .reconciliationRequired) ∧ n.Outlived)
  | .aborted =>
    (n.status = .aborted ∧ n.logicalOutcome = some .aborted) ∨
    (n.status = .skipped ∧ n.logicalOutcome = some .skipped ∧ n.cancellationRequestedAt = none) ∨
    (n.status = .reconciliationRequired ∧ n.Outlived)

/-- The states of the node of a single-node build whose current attempt has the given status. -/
def SoloPhase (n : NodeRow) (status : AttemptStatus) : Prop :=
  n.logicalOutcome = none ∧ n.cancellationRequestedAt = none ∧
    match status with
    | .queued => n.status = .queued
    | .offered => n.status = .offered
    | .accepted | .running => n.status = .running
    | .finalizing | .cancelling => n.status = .offered ∨ n.status = .running
    | .reconciliationRequired => n.status = .reconciliationRequired
    | .succeeded => n.status = .succeeded
    | .failed => n.status = .failed
    | .aborted => n.status = .aborted

/-- The states of a node whose current attempt has the given status. -/
def Phase (dag : Bool) (n : NodeRow) (status : AttemptStatus) : Prop :=
  match dag with
  | true => DagPhase n status
  | false => SoloPhase n status

/-- The status of a single-node build whose current attempt has the given status. -/
def soloStatus : AttemptStatus → BuildStatus
  | .queued => .queued
  | .offered | .accepted | .running | .finalizing | .cancelling => .running
  | .reconciliationRequired => .reconciliationRequired
  | .succeeded => .succeeded
  | .failed => .failed
  | .aborted => .aborted

/-- What holds of a build, one of its nodes and the node's current attempt. -/
structure AttemptOk (b : BuildRow) (n : NodeRow) (r : AttemptRow) : Prop where
  /-- The two rows are in one of the phases. -/
  phase : Phase b.dagMode n r.status
  /-- Only work that was never offered has the fence zero. -/
  fenced : r.status ≠ .queued → r.status ≠ .aborted → 0 < r.fence
  /-- The stop request of a cancelled DAG has reached every node under a lease. -/
  stopped : b.dagMode = true → b.cancellationRequestedAt ≠ none → r.status.isLive = true →
    n.cancellationRequestedAt ≠ none
  /-- A single-node build reports the progress of its attempt. -/
  verdict : b.dagMode = false → b.status = soloStatus r.status

/-- The statuses of an attempt that has been retried. -/
def AttemptStatus.IsRetried (status : AttemptStatus) : Prop :=
  status = .failed ∨ status = .reconciliationRequired ∨ status = .aborted

namespace Phase

variable {dag : Bool} {n : NodeRow} {status : AttemptStatus}

theorem waiting (hphase : Phase dag n .queued) :
    (n.status = .queued ∨ n.status = .blocked) ∧ n.logicalOutcome = none ∧
      n.cancellationRequestedAt = none := by
  cases dag with
  | true => exact hphase
  | false => exact ⟨.inl hphase.2.2, hphase.1, hphase.2.1⟩

theorem queued_of_waiting (hphase : Phase dag n status)
    (hstatus : n.status = .queued ∨ n.status = .blocked) : status = .queued := by
  rcases hstatus with hstatus | hstatus <;> cases dag <;> cases status <;>
    simp_all [Phase, DagPhase, SoloPhase]

theorem offered (hphase : Phase dag n .offered) :
    n.status = .offered ∧ n.logicalOutcome = none ∧ n.cancellationRequestedAt = none := by
  cases dag with
  | true => exact hphase
  | false => exact ⟨hphase.2.2, hphase.1, hphase.2.1⟩

/-- A node under a lease that was not closed is offered or running. -/
theorem leased (hphase : Phase dag n status) (hlive : status.isLive = true) :
    n.status = .offered ∨ n.status = .running ∨ (n.status = .aborted ∧ n.Outlived) := by
  cases dag <;> cases status <;> simp_all [Phase, DagPhase, SoloPhase, AttemptStatus.isLive]
  all_goals tauto

end Phase

variable {n : NodeRow} {status : AttemptStatus}

theorem DagPhase.queued_of_waiting (hphase : DagPhase n status)
    (hwaits : n.status = .blocked ∨ n.status = .queued) : status = .queued :=
  Phase.queued_of_waiting (show Phase true n status from hphase) hwaits.symm

/-- A node that has not started is not closed. -/
theorem DagPhase.logicalOutcome_of_unstarted (hphase : DagPhase n status)
    (hunstarted : n.status = .blocked ∨ n.status = .queued ∨ n.status = .offered) :
    n.logicalOutcome = none := by
  rcases hunstarted with h | h | h <;> cases status <;> simp_all [DagPhase]

/-- An active node's attempt is under a lease. -/
theorem DagPhase.isLive_of_active (hphase : DagPhase n status)
    (hactive : n.status = .offered ∨ n.status = .running) : status.isLive = true := by
  rcases hactive with hactive | hactive <;> cases status <;>
    simp_all [DagPhase, AttemptStatus.isLive]

end McLoving
