import McLoving.Logs.Redaction
import McLoving.Store.Schema

/-!
# The advance of a DAG build, leases and the effect ledger

When an attempt of a DAG build ends, the build advances: its node is settled or retried, its peers
are fenced, and blocked nodes become ready.  The SQL statements of a transaction appear in their
order; a statement's conditions are read in the state it starts from.

An agent acts on an attempt by presenting the fence and restore epoch it was offered, which the
calls check against the attempt's row.  It records each external effect before it happens, and the
evidence of it afterwards.
-/

namespace McLoving

/-- How long a new outcome waits for an older post that is still in flight. -/
def staleWriteQuietSeconds : ℤ := 35

/-- A terminal summary that only names its reason. -/
def reasonSummary (reason : String) : Json :=
  .obj [("reason", .str reason)]

namespace Store

/-! ## Readiness -/

/-- Whether one dependency edge no longer holds its child back. -/
def dependencyReady (s : Store) (dependency : DependencyRow) : Bool :=
  match s.nodes.lookup dependency.parentNodeId with
  | none => true
  | some parent =>
    match dependency.condition with
    | .succeeded => parent.status = .succeeded
    | .completed => parent.status.isTerminal

/-- Whether every dependency of a node is satisfied. -/
def dependenciesReady (s : Store) (nodeId : Uuid) : Bool :=
  s.dependencies.all fun dependency =>
    dependency.childNodeId ≠ nodeId || s.dependencyReady dependency

/-- Whether some `succeeded` dependency of a node can no longer be satisfied. -/
def dependencyImpossible (s : Store) (nodeId : Uuid) : Bool :=
  s.dependencies.any fun dependency =>
    dependency.childNodeId = nodeId && dependency.condition = .succeeded &&
      (s.nodes.lookup dependency.parentNodeId).any fun parent =>
        parent.status = .failed || parent.status = .aborted || parent.status = .skipped

/-- The trigger `nodes_translate_compatibility_retry_readiness`: a node that enters `queued` or
`blocked` is queued now if its dependencies are satisfied, and blocked otherwise. -/
def translateRetryReadiness (s : Store) (now : Timestamp) (nodeId : Uuid) (old new : NodeRow) :
    NodeRow :=
  if old.status = new.status ∨ (new.status ≠ .queued ∧ new.status ≠ .blocked) then new
  else if new.status = .blocked ∨ s.dependenciesReady nodeId = false then
    { new with status := .blocked, queuedAt := old.queuedAt }
  else { new with queuedAt := now }

/-- `UPDATE nodes SET … WHERE …`, with the readiness trigger. -/
@[simps]
def updateNodes (s : Store) (now : Timestamp) (p : Uuid → NodeRow → Bool)
    (f : NodeRow → NodeRow) : Store :=
  { s with nodes :=
      s.nodes.update p fun id row => s.translateRetryReadiness now id row (f row) }

/-- `UPDATE nodes SET … WHERE id = …`, with the readiness trigger. -/
def modifyNode (s : Store) (now : Timestamp) (nodeId : Uuid) (f : NodeRow → NodeRow) : Store :=
  s.updateNodes now (fun id _ => id = nodeId) f

/-! ## Terminal notifications -/

/-- The delivery row of a target when the build becomes terminal. -/
def terminalDelivery (now : Timestamp) (status : BuildStatus) (target : Json) :
    Option NotificationRow → NotificationRow
  | none =>
    { kind := target.textField "kind", mappingId := target.textField "mapping_id", target,
      buildStatus := status, terminalGeneration := 1, repostRequired := false,
      inFlight := false, state := .pending, attempts := 0, nextAttemptAt := now,
      lastError := none, deliveredAt := none, reconciliationAttempts := 0,
      reconciliationDueAt := none, reconciliationClaim := none,
      reconciliationLeaseUntil := none, reconciliationError := none }
  | some old =>
    { old with
      buildStatus := status, terminalGeneration := old.terminalGeneration + 1,
      state := .pending, attempts := 0,
      nextAttemptAt := if old.inFlight then now + seconds staleWriteQuietSeconds else now,
      inFlight := false, reconciliationAttempts := 0, reconciliationDueAt := none,
      reconciliationClaim := none, reconciliationLeaseUntil := none,
      reconciliationError := none, repostRequired := false, lastError := none,
      deliveredAt := none }

/-- Whether an earlier build holds a post to the same commit status in flight. -/
def earlierStatusInFlight (s : Store) (notifications : Table NotificationId NotificationRow)
    (buildId : Uuid) (build : BuildRow) (row : NotificationRow) : Bool :=
  notifications.any fun other otherRow =>
    other.buildId ≠ buildId && otherRow.kind = some "github_status" && otherRow.inFlight &&
      (["repository", "commit", "context"].all fun key =>
        (row.target.textField key).isSome &&
          otherRow.target.textField key = row.target.textField key) &&
      (s.builds.lookup other.buildId).any fun earlier =>
        earlier.createdAt < build.createdAt ||
          (earlier.createdAt = build.createdAt && other.buildId < buildId)

/-- `record_terminal_notifications`. -/
def recordTerminalNotifications (s : Store) (now : Timestamp) (buildId : Uuid)
    (status : BuildStatus) : Store :=
  match s.builds.lookup buildId with
  | none => s
  | some build =>
    let targets := (build.notifyTargets.asArray.getD []).zipIdx
    let recorded := targets.foldl (fun deliveries (target, index) =>
      deliveries.insert ⟨buildId, index⟩
        (terminalDelivery now status target (deliveries.lookup ⟨buildId, index⟩)))
      s.notifications
    let delayed := recorded.update
      (fun id row => id.buildId = buildId && row.kind = some "github_status" &&
        s.earlierStatusInFlight recorded buildId build row)
      fun _ row => { row with nextAttemptAt := now + seconds staleWriteQuietSeconds }
    { s with notifications := delayed }.appendEvent buildId
      (.dagBuildTerminal status targets.length)

/-! ## The status of the build -/

/-- The number of a build's nodes that satisfy a condition. -/
def countNodes (s : Store) (buildId : Uuid) (p : NodeRow → Bool) : ℕ :=
  s.nodes.count fun _ row => row.buildId = buildId && p row

/-- The terminal status `derive_build_outcome` computes once no node is pending. -/
def derivedVerdict (s : Store) (buildId : Uuid) (build : BuildRow) : BuildStatus :=
  if 0 < s.countNodes buildId fun row => row.logicalOutcome = some .failed then .failed
  else if build.cancellationRequestedAt.isSome ||
      0 < s.countNodes buildId fun row => row.logicalOutcome = some .aborted then .aborted
  else .succeeded

/-- The status `derive_build_outcome` computes while some node is pending. -/
def derivedProgress (s : Store) (buildId : Uuid) : BuildStatus :=
  if 0 < s.countNodes buildId fun row => row.status = .reconciliationRequired then
    .reconciliationRequired
  else if (0 < s.countNodes buildId fun row =>
        row.status = .offered || row.status = .running) ||
      0 < s.countNodes buildId fun row => row.cancellationRequestedAt.isSome then .running
  else .queued

/-- A terminal build's workspace keeps no bytes. -/
def closeWorkspace (build : BuildRow) : BuildRow :=
  { build with
    workspaceSnapshot :=
      if build.workspaceNamespace.isSome then none else build.workspaceSnapshot
    workspaceClosed := build.workspaceNamespace.isSome || build.workspaceClosed }

/-- `derive_build_outcome`.  Its callers have read the build's row before. -/
def deriveBuildOutcome (s : Store) (now : Timestamp) (buildId : Uuid) : Store :=
  match s.builds.lookup buildId with
  | none => s
  | some build =>
    if s.countNodes buildId (fun row => !row.status.isTerminal) = 0 then
      let verdict := s.derivedVerdict buildId build
      let closed := s.modifyBuild buildId fun row => closeWorkspace { row with status := verdict }
      if build.status.isTerminal then closed
      else closed.recordTerminalNotifications now buildId verdict
    else
      s.modifyBuild buildId fun row => { row with status := s.derivedProgress buildId }

/-! ## Peers of a settled node -/

/-- `fence_unstarted_dag_work`: the pipeline is no longer enabled at the build's generation, so
work that has not started is aborted and running work is asked to stop. -/
def fenceUnstartedDagWork (s : Store) (now : Timestamp) (buildId completedNodeId : Uuid) : Store :=
  let s := s.updateAttemptsJoin
    (fun _ a n => n.buildId = buildId && a.nodeId ≠ completedNodeId &&
      (a.status = .queued || a.status = .offered))
    fun a => { a with status := .aborted, leaseExpiresAt := none, terminalSummary :=
                        some (reasonSummary "pipeline_operational_generation_fenced") }
  let s := s.updateNodes now
    (fun id n => n.buildId = buildId && id ≠ completedNodeId &&
      (n.status = .blocked || n.status = .queued || n.status = .offered) &&
      n.logicalOutcome = none)
    fun n => { n with status := .aborted, logicalOutcome := some .aborted }
  let s := s.updateNodes now
    (fun id n => n.buildId = buildId && id ≠ completedNodeId && n.status = .running)
    fun n => { n with cancellationRequestedAt := some now }
  s.updateAttemptsJoin
    (fun _ a n => n.buildId = buildId && a.nodeId ≠ completedNodeId && n.status = .running &&
      (a.status = .accepted || a.status = .running || a.status = .finalizing))
    fun a => { a with status := .cancelling }

/-- The stop request to the offered and running nodes of a build, `except` the given node. -/
def stopActiveNodes (s : Store) (now : Timestamp) (buildId : Uuid) (except : Option Uuid) : Store :=
  let s := s.updateNodes now
    (fun id n => n.buildId = buildId && some id ≠ except &&
      (n.status = .offered || n.status = .running))
    fun n => { n with cancellationRequestedAt := some now }
  s.updateAttemptsJoin
    (fun _ a n => n.buildId = buildId && some a.nodeId ≠ except &&
      (n.status = .offered || n.status = .running) &&
      (a.status = .offered || a.status = .accepted || a.status = .running ||
        a.status = .finalizing))
    fun a => { a with status := .cancelling }

/-- `mark_unstarted_skipped`. -/
def markUnstartedSkipped (s : Store) (now : Timestamp) (buildId : Uuid) (excludePost : Bool) :
    Store :=
  let s := s.updateAttemptsJoin
    (fun _ a n => n.buildId = buildId && (n.status = .blocked || n.status = .queued) &&
      (!excludePost || n.nodeKind ≠ .post) && a.status = .queued)
    fun a => { a with status := .aborted,
                      terminalSummary := some (reasonSummary "fail_fast_skipped") }
  s.updateNodes now
    (fun _ n => n.buildId = buildId && (n.status = .blocked || n.status = .queued) &&
      (!excludePost || n.nodeKind ≠ .post) && n.logicalOutcome = none)
    fun n => { n with status := .skipped, logicalOutcome := some .skipped }

/-! ## The readiness loop -/

/-- The blocked nodes one round of `advance_blocked_nodes` skips. -/
def isSkippable (s : Store) (buildId nodeId : Uuid) (n : NodeRow) : Bool :=
  n.buildId = buildId && n.status = .blocked && n.nodeKind ≠ .post && s.dependencyImpossible nodeId

/-- The blocked nodes one round of `advance_blocked_nodes` queues. -/
def isReadiable (s : Store) (buildId nodeId : Uuid) (n : NodeRow) : Bool :=
  n.buildId = buildId && n.status = .blocked && s.dependenciesReady nodeId

/-- The first half of a round: skip the nodes that can no longer run. -/
def skipImpossibleNodes (s : Store) (now : Timestamp) (buildId : Uuid) : Store :=
  let skipped := s.updateNodes now (s.isSkippable buildId)
    fun n => { n with status := .skipped, logicalOutcome := some .skipped }
  if s.nodes.any (s.isSkippable buildId) then
    skipped.updateAttemptsJoin
      (fun _ a n => n.buildId = buildId && n.status = .skipped && a.status = .queued)
      fun a => { a with status := .aborted,
                        terminalSummary := some (reasonSummary "dependency_not_succeeded") }
  else skipped

/-- The second half of a round: queue the nodes that may run. -/
def queueReadyNodes (s : Store) (now : Timestamp) (buildId : Uuid) : Store :=
  s.updateNodes now (s.isReadiable buildId)
    fun n => { n with status := .queued, queuedAt := now }

/-- Whether a round changes anything. -/
def roundProgresses (s : Store) (now : Timestamp) (buildId : Uuid) : Bool :=
  let skipped := s.skipImpossibleNodes now buildId
  s.nodes.any (s.isSkippable buildId) || skipped.nodes.any (skipped.isReadiable buildId)

/-- `advance_blocked_nodes` for at most the given number of rounds. -/
def advanceBlockedRounds (now : Timestamp) (buildId : Uuid) : ℕ → Store → Store
  | 0, s => s
  | rounds + 1, s =>
    let next := (s.skipImpossibleNodes now buildId).queueReadyNodes now buildId
    if s.roundProgresses now buildId then advanceBlockedRounds now buildId rounds next else next

/-- `advance_blocked_nodes`: a round that changes something unblocks a node, so one more round than
there are blocked nodes reaches the end of the loop. -/
def advanceBlockedNodes (s : Store) (now : Timestamp) (buildId : Uuid) : Store :=
  advanceBlockedRounds now buildId (s.countNodes buildId (fun n => n.status = .blocked) + 1) s

/-! ## The end of an attempt -/

/-- `INSERT INTO attempts`, under its primary key and its unique `(node_id, ordinal)` and
`retry_of`. -/
def insertAttempt (s : Store) (attemptId : Uuid) (row : AttemptRow) : Except StoreError Store :=
  if attemptId ∈ s.attempts ∨
      s.attempts.any (fun _ a => a.nodeId = row.nodeId && a.ordinal = row.ordinal) ∨
      (row.retryOf.isSome ∧ s.attempts.any fun _ a => a.retryOf = row.retryOf) then
    .error .database
  else .ok { s with attempts := s.attempts.insert attemptId row }

/-- A build, one of its nodes and one of that node's attempts. -/
def joinedAttempt (s : Store) (attemptId : Uuid) : Option (AttemptRow × NodeRow × BuildRow) := do
  let attempt ← s.attempts.lookup attemptId
  let node ← s.nodes.lookup attempt.nodeId
  let build ← s.builds.lookup node.buildId
  return (attempt, node, build)

/-- The attempt a retry creates. -/
def retryRow (node : Uuid) (parent : Uuid) (ordinal restoreEpoch : ℤ) : AttemptRow :=
  { nodeId := node, ordinal, status := .queued, retryOf := some parent, fence := 0,
    leaseOwner := none, leaseExpiresAt := none, restoreEpoch, terminalSummary := none }

/-- The automatic retry of `advance_dag_after_attempt`. -/
def scheduleAutomaticRetry (s : Store) (now : Timestamp) (retryId attemptId : Uuid)
    (attempt : AttemptRow) (node : NodeRow) : Except StoreError Store := do
  let ready := s.dependenciesReady attempt.nodeId && node.status ≠ .blocked
  -- A new attempt starts at the default restore epoch of its column.
  let s ← s.insertAttempt retryId (retryRow attempt.nodeId attemptId (attempt.ordinal + 1) 1)
  let s := s.updateNodes now (fun id n => id = attempt.nodeId && n.logicalOutcome = none)
    fun n => { n with status := if ready then .queued else .blocked,
                      cancellationRequestedAt := none,
                      queuedAt := if ready then now else n.queuedAt }
  let s := s.appendEvent node.buildId
    (.dagNodeRetryScheduled attempt.nodeId node.nodeKey retryId (attempt.ordinal + 1)
      node.maxAttempts)
  .ok (s.deriveBuildOutcome now node.buildId)

/-- Whether an attempt has a non-idempotent effect that was not abandoned. -/
def hasUnabandonedNonIdempotentEffect (s : Store) (attemptId : Uuid) : Bool :=
  s.effects.any fun id e =>
    id.attemptId = attemptId && e.effectClass = .nonIdempotent && e.status ≠ .abandoned

/-- Whether `advance_dag_after_attempt` retries instead of settling the node. -/
def retriesAutomatically (s : Store) (attemptId : Uuid) (attempt : AttemptRow) (node : NodeRow)
    (build : BuildRow) (outcome : TerminalOutcome) : Bool :=
  s.buildPipelineEnabled node.buildId && outcome = .failed && attempt.ordinal < node.maxAttempts &&
    !(build.cancellationRequestedAt.isSome || node.cancellationRequestedAt.isSome) &&
    !s.hasUnabandonedNonIdempotentEffect attemptId

/-- What settling a node does to the rest of its build. -/
def settleDagNode (s : Store) (now : Timestamp) (attemptId : Uuid) (attempt : AttemptRow)
    (node : NodeRow) (outcome : TerminalOutcome) : Store :=
  let enabled := s.buildPipelineEnabled node.buildId
  let s := s.modifyNode now attempt.nodeId fun n =>
    { n with status := outcome.nodeStatus, logicalOutcome := some outcome.logicalOutcome,
             cancellationRequestedAt := none }
  if !enabled then
    ((s.fenceUnstartedDagWork now node.buildId attempt.nodeId).deriveBuildOutcome now
      node.buildId).appendEvent node.buildId
        (.dagPipelineGenerationFenced attempt.nodeId node.nodeKey attemptId outcome)
  else
    let s := if outcome = .failed && node.failFast then
        (s.stopActiveNodes now node.buildId (some attempt.nodeId)).markUnstartedSkipped now
          node.buildId true
      else s
    ((s.advanceBlockedNodes now node.buildId).deriveBuildOutcome now node.buildId).appendEvent
      node.buildId (.dagNodeTerminal attempt.nodeId node.nodeKey attemptId outcome node.failFast)

/-- `advance_dag_after_attempt`: answers `false` for a build that is not a DAG. -/
def advanceDagAfterAttempt (s : Store) (now : Timestamp) (retryId attemptId : Uuid)
    (outcome : TerminalOutcome) : Except StoreError (Store × Bool) :=
  match s.joinedAttempt attemptId with
  | none => .error .database
  | some (attempt, node, build) =>
    if !build.dagMode then .ok (s, false)
    else if s.retriesAutomatically attemptId attempt node build outcome then
      match s.scheduleAutomaticRetry now retryId attemptId attempt node with
      | .ok s => .ok (s, true)
      | .error error => .error error
    else if node.logicalOutcome.isSome then .ok (s, true)
    else .ok (s.settleDagNode now attemptId attempt node outcome, true)

/-- `cancel_dag_build`: the build's stop request, or nothing if it already has one. -/
def cancelDagBuild (s : Store) (now : Timestamp) (buildId : Uuid) : Option Store :=
  match s.builds.lookup buildId with
  | none => none
  | some build =>
    if build.dagMode && (build.status = .queued || build.status = .running) &&
        build.cancellationRequestedAt = none then
      let s := s.modifyBuild buildId fun row => { row with cancellationRequestedAt := some now }
      let s := s.updateAttemptsJoin
        (fun _ a n => n.buildId = buildId && (n.status = .blocked || n.status = .queued) &&
          a.status = .queued)
        fun a => { a with status := .aborted, terminalSummary :=
                            some (reasonSummary "dag_cancelled_before_execution") }
      let s := s.updateNodes now
        (fun _ n => n.buildId = buildId && (n.status = .blocked || n.status = .queued) &&
          n.logicalOutcome = none)
        fun n => { n with status := .aborted, logicalOutcome := some .aborted }
      some ((s.stopActiveNodes now buildId none).deriveBuildOutcome now buildId)
    else none

end Store

/-- The authority an agent presents for an attempt. -/
structure LeaseAuthority where
  attemptId : Uuid
  fence : ℤ
  restoreEpoch : ℤ
  agentId : String
  deriving DecidableEq

structure AcceptedOffer where
  cancellationRequested : Bool
  deriving DecidableEq

inductive LeaseRenewalDisposition where
  | renewed (cancellationRequested : Bool)
  | terminalNoOp
  | rejected (cause : String)
  deriving DecidableEq

/-- The local phase a reconnecting agent reports, `None` for any other text. -/
inductive RecoveryPhase where
  | finalizing | cancelling
  deriving DecidableEq

/-- The phase as an attempt status. -/
def RecoveryPhase.attemptStatus : RecoveryPhase → AttemptStatus
  | finalizing => .finalizing
  | cancelling => .cancelling

structure NewLogChunk where
  authority : LeaseAuthority
  sequence : ℤ
  stepOrdinal : ℤ
  stream : String
  content : List UInt8
  deriving DecidableEq

def maxAttemptLogBytes : ℤ := 64 * 1048576
def maxAttemptLogChunks : ℤ := 96
def maxLiveAttemptLogChunks : ℤ := 262144
def liveLogStreamFeature : String := "live-log-stream-v1"

/-- Whether the lease is unexpired. -/
def AttemptRow.leaseLive (attempt : AttemptRow) (now : Timestamp) : Bool :=
  attempt.leaseExpiresAt.any fun expiry => now < expiry

/-- `recoverable_finalization_status`. -/
def recoverableFinalizationStatus : AttemptStatus → Bool
  | .running | .finalizing | .cancelling => true
  | _ => false

namespace Store

/-! ## Agent sessions -/

/-- `open_agent_session`. -/
def openAgentSession (s : Store) (now : Timestamp) (agentId trustPool : String) (sessionEpoch : ℕ)
    (features capabilities : List String) : Except StoreError (Store × Bool) :=
  if (sessionEpoch : ℤ) ≤ i64Max then
    if (s.agentSessions.lookup agentId).all fun row => row.sessionEpoch < (sessionEpoch : ℤ) then
      let row : AgentSessionRow :=
        { trustPool, sessionEpoch, features, capabilities, updatedAt := now }
      .ok ({ s with agentSessions := s.agentSessions.insert agentId row }, true)
    else .ok (s, false)
  else .error .invalidAgentSession

/-- `authorize_agent_session`. -/
def authorizeAgentSession (s : Store) (now : Timestamp) (agentId : String) (sessionEpoch : ℕ) :
    Except StoreError (Store × Bool) :=
  match s.sessionIsCurrent agentId sessionEpoch with
  | .error error => .error error
  | .ok false => .ok (s, false)
  | .ok true =>
    .ok ({ s with agentSessions := s.agentSessions.modify agentId fun row =>
      { row with updatedAt := now } }, true)

/-! ## Authority over an attempt -/

/-- Whether the presented authority is the attempt's: its fence, its restore epoch, which is still
the controller's, and its lease owner. -/
def holdsLease (s : Store) (authority : LeaseAuthority) (attempt : AttemptRow) : Bool :=
  attempt.fence = authority.fence && attempt.restoreEpoch = authority.restoreEpoch &&
    attempt.restoreEpoch = s.restoreEpoch && attempt.leaseOwner = some authority.agentId

/-- Whether the build or the node carries a cancellation request. -/
def cancellationStamped (node : NodeRow) (build : BuildRow) : Bool :=
  build.cancellationRequestedAt.isSome || node.cancellationRequestedAt.isSome

/-- `accept_offer_with_session`. -/
def acceptOffer (s : Store) (now : Timestamp) (authority : LeaseAuthority) (session : Option ℕ) :
    Except StoreError (Store × Option AcceptedOffer) :=
  match s.sessionAdmits authority.agentId session with
  | .error error => .error error
  | .ok false => .ok (s, none)
  | .ok true =>
    match s.joinedAttempt authority.attemptId with
    | none => .ok (s, none)
    | some (attempt, node, build) =>
      if !(s.holdsLease authority attempt && attempt.leaseLive now &&
          (attempt.status = .offered || attempt.status = .accepted ||
            attempt.status = .running || attempt.status = .cancelling)) then .ok (s, none)
      else if !s.buildPipelineEnabled node.buildId then .ok (s, none)
      else
        let offer : AcceptedOffer :=
          ⟨cancellationStamped node build || attempt.status = .cancelling⟩
        if attempt.status ≠ .offered then .ok (s, some offer)
        else
          let s := s.modifyAttempt authority.attemptId fun a => { a with status := .accepted }
          let s := s.modifyNode now attempt.nodeId fun n => { n with status := .running }
          .ok (s.appendEvent node.buildId (.attemptAccepted authority.attemptId attempt.nodeId
            authority.agentId authority.fence authority.restoreEpoch), some offer)

/-- `mark_attempt_running_with_session`. -/
def markAttemptRunning (s : Store) (now : Timestamp) (authority : LeaseAuthority)
    (session : Option ℕ) : Except StoreError (Store × Bool) :=
  match s.sessionAdmits authority.agentId session with
  | .error error => .error error
  | .ok false => .ok (s, false)
  | .ok true =>
    match s.joinedAttempt authority.attemptId with
    | none => .ok (s, false)
    | some (attempt, node, _) =>
      if !(s.holdsLease authority attempt && attempt.leaseLive now &&
          (attempt.status = .accepted || attempt.status = .running)) then .ok (s, false)
      else if !s.buildPipelineEnabled node.buildId then .ok (s, false)
      else if attempt.status = .running then .ok (s, true)
      else
        let s := s.modifyAttempt authority.attemptId fun a => { a with status := .running }
        let s := s.updateNodes now
          (fun id n => id = attempt.nodeId && (n.status = .offered || n.status = .running))
          fun n => { n with status := .running }
        .ok (s.appendEvent node.buildId (.attemptRunning authority.attemptId attempt.nodeId
          authority.fence authority.restoreEpoch), true)

/-- The function `record_lease_renewal_rejection`: names the refusal in the build's events while the
attempt is executing at this fence under this agent and the live epoch. -/
def recordLeaseRenewalRejection (s : Store) (attemptId : Uuid) (fence : ℤ)
    (agentId cause : String) : Store :=
  match s.joinedAttempt attemptId with
  | none => s
  | some (attempt, node, _) =>
    if attempt.fence = fence && attempt.leaseOwner = some agentId &&
        attempt.status.isExecuting && attempt.restoreEpoch = s.restoreEpoch then
      s.appendEvent node.buildId (.attemptLeaseRenewalRejected attemptId fence agentId cause)
    else s

/-- The method `Store::record_lease_renewal_rejection`, which also requires an unexpired lease. -/
def recordLiveLeaseRenewalRejection (s : Store) (now : Timestamp) (attemptId : Uuid) (fence : ℤ)
    (agentId cause : String) : Except StoreError (Store × Unit) :=
  if (s.attempts.lookup attemptId).any fun attempt => attempt.leaseLive now then
    .ok (s.recordLeaseRenewalRejection attemptId fence agentId cause, ())
  else .ok (s, ())

/-- `renew_attempt_lease_with_session`. -/
def renewAttemptLease (s : Store) (now : Timestamp) (authority : LeaseAuthority)
    (session : Option ℕ) (leaseSeconds : ℤ) :
    Except StoreError (Store × LeaseRenewalDisposition) :=
  if leaseSeconds ≤ 0 then .ok (s, .rejected "invalid_lease_window")
  else
    match s.sessionAdmits authority.agentId session with
    | .error error => .error error
    | .ok false =>
      .ok (s.recordLeaseRenewalRejection authority.attemptId authority.fence authority.agentId
        "agent_session_stale", .rejected "agent_session_stale")
    | .ok true =>
      match s.joinedAttempt authority.attemptId with
      | none => .ok (s, .rejected "lease_not_current")
      | some (attempt, node, build) =>
        if attempt.fence = authority.fence && attempt.restoreEpoch = authority.restoreEpoch &&
            attempt.leaseOwner = some authority.agentId && attempt.status.isExecuting &&
            !s.buildPipelineEnabled node.buildId then .ok (s, .renewed true)
        else if s.holdsLease authority attempt && attempt.leaseLive now &&
            attempt.status.isExecuting then
          .ok (s.modifyAttempt authority.attemptId fun a =>
            { a with leaseExpiresAt := some (now + seconds leaseSeconds) },
            .renewed (cancellationStamped node build))
        else if s.holdsLease authority attempt && attempt.status.isTerminal then
          .ok (s, .terminalNoOp)
        else
          .ok (s.recordLeaseRenewalRejection authority.attemptId authority.fence
            authority.agentId "lease_not_current", .rejected "lease_not_current")

/-- `recover_agent_finalization_with_session`. -/
def recoverAgentFinalization (s : Store) (now : Timestamp) (authority : LeaseAuthority)
    (session : Option ℕ) (localPhase : Option RecoveryPhase) (leaseSeconds : ℤ) :
    Except StoreError (Store × Bool) :=
  match localPhase with
  | none => .ok (s, false)
  | some phase =>
    if leaseSeconds ≤ 0 then .ok (s, false)
    else
      match s.sessionAdmits authority.agentId session with
      | .error error => .error error
      | .ok false => .ok (s, false)
      | .ok true =>
        match s.attempts.lookup authority.attemptId with
        | none => .ok (s, false)
        | some attempt =>
          if !s.holdsLease authority attempt then .ok (s, false)
          else if recoverableFinalizationStatus attempt.status then
            .ok (s.modifyAttempt authority.attemptId fun a =>
              { a with status := phase.attemptStatus,
                       leaseExpiresAt := some (now + seconds leaseSeconds) }, true)
          else .ok (s, attempt.status.isTerminal)

/-! ## Log chunks -/

/-- `log_quota_allows`; the sum saturates at the bound of an `i64`. -/
def logQuotaAllows (committed incoming : ℤ) : Bool :=
  0 ≤ committed && 0 ≤ incoming && min (committed + incoming) i64Max ≤ maxAttemptLogBytes

/-- `agent_session_supports` for the live log stream. -/
def sessionStreamsLive (s : Store) (agentId : String) : Option ℕ → Except StoreError Bool
  | none => .ok false
  | some sessionEpoch =>
    if (sessionEpoch : ℤ) ≤ i64Max then
      .ok ((s.agentSessions.lookup agentId).any fun row =>
        row.sessionEpoch == (sessionEpoch : ℤ) && row.features.contains liveLogStreamFeature)
    else .error .invalidAgentSession

/-- Whether a sequence number is within the bound of every session, or of one that streams live. -/
def logSequenceAllowed (s : Store) (agentId : String) (session : Option ℕ) (sequence : ℤ) :
    Except StoreError Bool :=
  if sequence < 0 then .ok false
  else if sequence < maxAttemptLogChunks then .ok true
  else
    match s.sessionStreamsLive agentId session with
    | .error error => .error error
    | .ok live => .ok (live && sequence < maxLiveAttemptLogChunks)

/-- The secrets of the grants to an attempt under a fence, `ORDER BY id`. -/
def grantedSecrets (s : Store) (attemptId : Uuid) (fence : ℤ) : List (List UInt8) :=
  ((s.credentialGrants.select fun _ grant => grant.attemptId = attemptId && grant.fence = fence)
    |>.insertionSort fun left right => left.1 ≤ right.1).map fun grant => grant.2.secretValue

/-- The chunk without the secrets that are granted to its attempt under its fence. -/
def redactChunk [Platform] (s : Store) (chunk : NewLogChunk) : Except StoreError NewLogChunk :=
  match Logs.redactToFixedPoint Platform.buildAutomaton chunk.content
      (s.grantedSecrets chunk.authority.attemptId chunk.authority.fence) with
  | .error error => .error (.invalidSecurityOperation error)
  | .ok content => .ok { chunk with content }

/-- The insertion of a new chunk with the accounting triggers: its position in the build, and the
bytes counted under its fence. -/
def insertLogChunk [Platform] (s : Store) (chunk : NewLogChunk) (buildId : Uuid)
    (build : BuildRow) : Store :=
  let authority := chunk.authority
  let position := build.committedLogPosition + 1
  let row : LogChunkRow :=
    { buildId, buildPosition := position, stepOrdinal := chunk.stepOrdinal,
      stream := chunk.stream, content := chunk.content, digest := Platform.sha256 chunk.content }
  let committed := (s.logAccounting.lookup (authority.attemptId, authority.fence)).getD 0
  { s.modifyBuild buildId fun b => { b with committedLogPosition := position } with
    logChunks := s.logChunks.insert ⟨authority.attemptId, authority.fence, chunk.sequence⟩ row
    logAccounting := s.logAccounting.insert (authority.attemptId, authority.fence)
      (committed + chunk.content.length) }

/-- `append_log_with_session`. -/
def appendLog [Platform] (s : Store) (now : Timestamp) (chunk : NewLogChunk)
    (session : Option ℕ) : Except StoreError (Store × Bool) :=
  let authority := chunk.authority
  match s.logSequenceAllowed authority.agentId session chunk.sequence with
  | .error error => .error error
  | .ok false => .ok (s, false)
  | .ok true =>
    match s.sessionAdmits authority.agentId session with
    | .error error => .error error
    | .ok false => .ok (s, false)
    | .ok true =>
      match s.redactChunk chunk with
      | .error error => .error error
      | .ok redacted =>
        match s.joinedAttempt authority.attemptId with
        | none => .ok (s, false)
        | some (attempt, node, build) =>
          match s.logChunks.lookup ⟨authority.attemptId, authority.fence, chunk.sequence⟩ with
          | some existing =>
            -- The stored chunk answers for the attempt's owner under the live epoch; anyone
            -- else finds no row to insert under.
            .ok (s, attempt.restoreEpoch = authority.restoreEpoch &&
              attempt.restoreEpoch = s.restoreEpoch &&
              attempt.leaseOwner = some authority.agentId &&
              existing.stream = chunk.stream &&
              existing.digest = Platform.sha256 redacted.content &&
              existing.stepOrdinal = chunk.stepOrdinal)
          | none =>
            let committed :=
              (s.logAccounting.lookup (authority.attemptId, authority.fence)).getD 0
            if !logQuotaAllows committed redacted.content.length then .ok (s, false)
            else if !(s.holdsLease authority attempt && attempt.leaseLive now &&
                attempt.status.isExecuting) then .ok (s, false)
            else if (chunk.stream = "stdout" || chunk.stream = "stderr") &&
                0 ≤ chunk.stepOrdinal && chunk.stepOrdinal < 65536 then
              .ok (s.insertLogChunk redacted node.buildId build, true)
            else .error .database

end Store

/-- The payload schema of effects that the controller prepared for the runtime. -/
def controllerEffectSchema : String := "mcloving.controller-effect-prepared/v1"

/-- `valid_effect_transition`. -/
def validEffectTransition : EffectStatus → EffectStatus → Bool
  | .prepared, .prepared | .prepared, .applied | .prepared, .uncertain
  | .prepared, .releasePending | .prepared, .abandoned => true
  | .applied, .applied | .applied, .confirmed | .applied, .uncertain => true
  | .confirmed, .confirmed | .confirmed, .uncertain => true
  | .uncertain, .uncertain | .uncertain, .confirmed => true
  | .releasePending, .releasePending | .releasePending, .abandoned => true
  | .abandoned, .abandoned => true
  | _, _ => false

namespace EffectRow

/-- A runtime effect that the controller prepared. -/
def isControllerPrepared (e : EffectRow) : Bool :=
  e.payload.textField "schema_version" = some controllerEffectSchema

/-- An effect that must not be repeated blindly. -/
def isProtected (e : EffectRow) : Bool :=
  e.effectClass = .nonIdempotent || e.isControllerPrepared

/-- Whether any receipt is stored. -/
def hasEvidence (e : EffectRow) : Bool :=
  e.outcomeReceipt.isSome || e.reconciliationReceipt.isSome || e.observationReceipt.isSome ||
    e.shadowReplayReceipt.isSome

/-- The receipt in a slot. -/
def receiptOf (e : EffectRow) : EffectEvidenceKind → Option Receipt
  | .outcome => e.outcomeReceipt
  | .reconciliationOutcome => e.reconciliationReceipt
  | .observation => e.observationReceipt
  | .shadowReplay => e.shadowReplayReceipt

/-- The row with a receipt stored in a slot. -/
def withReceipt (e : EffectRow) (receipt : Receipt) : EffectEvidenceKind → EffectRow
  | .outcome => { e with outcomeReceipt := some receipt }
  | .reconciliationOutcome => { e with reconciliationReceipt := some receipt }
  | .observation => { e with observationReceipt := some receipt }
  | .shadowReplay => { e with shadowReplayReceipt := some receipt }

/-- The order in which evidence may arrive. -/
def acceptsEvidence (e : EffectRow) : EffectEvidenceKind → Bool
  | .outcome => e.status ≠ .abandoned
  | .reconciliationOutcome =>
    e.outcomeReceipt.isSome && e.observationReceipt.isSome && e.status = .uncertain
  | .observation =>
    e.outcomeReceipt.isSome &&
      (e.status = .applied || e.status = .uncertain || e.status = .confirmed)
  | .shadowReplay => e.observationReceipt.isSome && e.status = .confirmed

/-- Whether the observer reservation named in the payload has expired. -/
def reservationExpired (e : EffectRow) (now : Timestamp) : Bool :=
  match e.payload.get "observer_reservation_expires_at_unix_ms" with
  | some (.num milliseconds) => milliseconds * 1000 ≤ now
  | _ => false

end EffectRow

/-- The text bounds of an effect key. -/
def effectKeyAllowed (effectKey : String) : Bool :=
  !effectKey.isEmpty && effectKey.utf8ByteSize ≤ 256

/-- The text bounds of an agent id that an effect call checks. -/
def effectAgentAllowed (agentId : String) : Bool :=
  !agentId.isEmpty && agentId.utf8ByteSize ≤ 256

namespace Store

/-- Changes one effect. -/
@[simps]
def modifyEffect (s : Store) (id : EffectId) (f : EffectRow → EffectRow) : Store :=
  { s with effects := s.effects.modify id f }

/-- The attempt that a live executing lease authorizes, with its node and build. -/
def executingAttempt (s : Store) (now : Timestamp) (authority : LeaseAuthority) :
    Option (AttemptRow × NodeRow × BuildRow) :=
  (s.joinedAttempt authority.attemptId).filter fun (attempt, _, _) =>
    s.holdsLease authority attempt && attempt.leaseLive now && attempt.status.isExecuting

/-- `checkpoint_effect`. -/
def checkpointEffect [Platform] (s : Store) (now : Timestamp) (authority : LeaseAuthority)
    (effectKey : String) (effectClass : EffectClass) (status : EffectStatus) (payload : Json) :
    Except StoreError (Store × Bool) :=
  if !effectKeyAllowed effectKey then .ok (s, false)
  else
    match s.executingAttempt now authority with
    | none => .ok (s, false)
    | some (_, node, _) =>
      let id : EffectId := ⟨authority.attemptId, authority.fence, effectKey⟩
      match s.effects.lookup id with
      | some existing =>
        if !(existing.effectClass = effectClass && existing.payloadDigest = payload.sha256 &&
            !(status = .abandoned && existing.hasEvidence) &&
            !(existing.dispatchCommittedAt.isSome &&
              (status = .abandoned || status = .releasePending)) &&
            validEffectTransition existing.status status) then .ok (s, false)
        else if existing.status = status then .ok (s, true)
        else if !s.buildPipelineEnabled node.buildId then .ok (s, false)
        else .ok (s.modifyEffect id fun e => { e with status := status }, true)
      | none =>
        if status ≠ .prepared then .ok (s, false)
        else if !s.buildPipelineEnabled node.buildId then .ok (s, false)
        else
          let row : EffectRow :=
            { effectClass, status := .prepared, payload, payloadDigest := payload.sha256,
              dispatchCommittedAt := none, outcomeReceipt := none,
              reconciliationReceipt := none, observationReceipt := none,
              shadowReplayReceipt := none }
          .ok ({ s with effects := s.effects.insert id row }, true)

/-- `commit_effect_dispatch`. -/
def commitEffectDispatch [Platform] (s : Store) (now : Timestamp) (authority : LeaseAuthority)
    (effectKey : String) (effectClass : EffectClass) (payload : Json) :
    Except StoreError (Store × Bool) :=
  if !effectKeyAllowed effectKey then .ok (s, false)
  else
    match s.executingAttempt now authority with
    | none => .ok (s, false)
    | some (attempt, node, build) =>
      if !s.buildPipelineEnabled node.buildId then .ok (s, false)
      else
        let id : EffectId := ⟨authority.attemptId, authority.fence, effectKey⟩
        match s.effects.lookup id with
        | none => .ok (s, false)
        | some e =>
          if e.effectClass = effectClass && e.status = .prepared &&
              e.payloadDigest = payload.sha256 && !e.hasEvidence &&
              (e.dispatchCommittedAt.isSome ||
                (attempt.status ≠ .cancelling && !cancellationStamped node build)) then
            .ok (s.modifyEffect id fun e =>
              { e with dispatchCommittedAt := e.dispatchCommittedAt.or (some now) }, true)
          else .ok (s, false)

/-- Whether an attempt without a lease is open to reconciliation of its effects. -/
def isReconciling (s : Store) (attempt : AttemptRow) : Bool :=
  attempt.status = .reconciliationRequired && attempt.leaseExpiresAt = none &&
    attempt.restoreEpoch ≤ s.restoreEpoch

/-- `append_effect_evidence`. -/
def appendEffectEvidence [Platform] (s : Store) (now : Timestamp) (authority : LeaseAuthority)
    (effectKey : String) (kind : EffectEvidenceKind) (receipt : Json) :
    Except StoreError (Store × Bool) :=
  if !(effectAgentAllowed authority.agentId && effectKeyAllowed effectKey) then .ok (s, false)
  else
    match s.joinedAttempt authority.attemptId with
    | none => .ok (s, false)
    | some (attempt, node, _) =>
      if !(attempt.restoreEpoch = authority.restoreEpoch &&
          ((s.holdsLease authority attempt && attempt.leaseLive now &&
              attempt.status.isExecuting) ||
            (s.isReconciling attempt && authority.fence ≤ attempt.fence))) then .ok (s, false)
      else if attempt.status ≠ .reconciliationRequired &&
          !s.buildPipelineEnabled node.buildId then .ok (s, false)
      else
        let id : EffectId := ⟨authority.attemptId, authority.fence, effectKey⟩
        match s.effects.lookup id with
        | none => .ok (s, false)
        | some e =>
          if !e.acceptsEvidence kind then .ok (s, false)
          else
            match e.receiptOf kind with
            | some existing => .ok (s, existing = ⟨receipt, receipt.sha256⟩)
            | none =>
              .ok (s.modifyEffect id fun e => e.withReceipt ⟨receipt, receipt.sha256⟩ kind, true)

/-- The fences a reconciliation without a lease may decide: the attempt's own within its epoch, and
every earlier one after a restore. -/
def reconcilesFence (s : Store) (attempt : AttemptRow) (fence : ℤ) : Bool :=
  s.isReconciling attempt && ((attempt.restoreEpoch = s.restoreEpoch && fence = attempt.fence) ||
      (attempt.restoreEpoch < s.restoreEpoch && fence ≤ attempt.fence))

/-- `confirm_uncertain_effect`. -/
def confirmUncertainEffect [Platform] (s : Store) (id : EffectId) (effectClass : EffectClass)
    (payload : Json) : Except StoreError (Store × Bool) :=
  if !effectKeyAllowed id.effectKey then .ok (s, false)
  else
    match s.effects.lookup id, s.attempts.lookup id.attemptId with
    | some e, some attempt =>
      if e.effectClass = effectClass && e.payloadDigest = payload.sha256 &&
          (e.status = .uncertain || e.status = .confirmed) &&
          s.reconcilesFence attempt id.fence then
        .ok (s.modifyEffect id fun e => { e with status := .confirmed }, true)
      else .ok (s, false)
    | _, _ => .ok (s, false)

/-- Whether nothing but its preparation is recorded of a runtime effect. -/
def isUndispatched (e : EffectRow) : Bool :=
  !e.hasEvidence && e.dispatchCommittedAt = none && e.isControllerPrepared

/-- `record_undispatched_release_after_authority_loss`. -/
def recordUndispatchedRelease [Platform] (s : Store) (now : Timestamp) (authority : LeaseAuthority)
    (effectKey : String) (effectClass : EffectClass) (payload : Json) (released : Bool) :
    Except StoreError (Store × Bool) :=
  if !(effectAgentAllowed authority.agentId && effectKeyAllowed effectKey) then .ok (s, false)
  else
    let id : EffectId := ⟨authority.attemptId, authority.fence, effectKey⟩
    match s.effects.lookup id, s.joinedAttempt authority.attemptId with
    | some e, some (attempt, node, _) =>
      if e.effectClass = effectClass && e.payloadDigest = payload.sha256 &&
          (e.status = .prepared || e.status = .uncertain || e.status = .releasePending ||
            (released && e.status = .abandoned)) &&
          isUndispatched e &&
          !(s.holdsLease authority attempt && attempt.leaseLive now && attempt.status.isLive &&
            s.buildPipelineEnabled node.buildId) then
        .ok (s.modifyEffect id fun e =>
          { e with status := if released then .abandoned else .releasePending }, true)
      else .ok (s, false)
    | _, _ => .ok (s, false)

/-- `abandon_expired_release_pending_effect`. -/
def abandonExpiredReleasePending [Platform] (s : Store) (now : Timestamp) (id : EffectId)
    (effectClass : EffectClass) (payload : Json) : Except StoreError (Store × Bool) :=
  if !effectKeyAllowed id.effectKey then .ok (s, false)
  else
    match s.effects.lookup id, s.attempts.lookup id.attemptId with
    | some e, some attempt =>
      if e.effectClass = effectClass && e.payloadDigest = payload.sha256 &&
          (e.status = .releasePending || e.status = .abandoned) && isUndispatched e &&
          e.reservationExpired now && s.reconcilesFence attempt id.fence then
        .ok (s.modifyEffect id fun e => { e with status := .abandoned }, true)
      else .ok (s, false)
    | _, _ => .ok (s, false)

end Store

end McLoving
