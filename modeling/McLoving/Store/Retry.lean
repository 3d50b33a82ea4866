import McLoving.Store.Scheduler
import McLoving.Lib.Kahn

/-!
# Cancellation, publication and requested retries

The owner's request to stop a build, the report that a cancelled process has ended, the two calls
that close an attempt with an outcome, and the operator's decision about one that failed or waits
for reconciliation: a new attempt if the budget allows it, a dead letter otherwise.
-/

namespace McLoving

inductive CancellationDecision where
  | accepted
  | alreadyRequested
  | notCancellable (buildStatus : Option BuildStatus)
  deriving DecidableEq

inductive AgentCancellationDisposition where
  | completed | retireStale | reconciliationRequired | dischargeRecovered
  deriving DecidableEq

/-- `validate_audit_actor`. -/
def validateAuditActor (actorSubject : String) : Except StoreError Unit :=
  if canonicalBounded actorSubject 512 then .ok ()
  else .error (.invalidAuditOperation
    "audit actor subject must be non-empty, canonical, and bounded")

/-- The reason an acknowledged end of a process leaves on its attempt. -/
def cancellationReason (recovery : Bool) : AgentCancellationOutcome → String
  | .terminated => if recovery then "agent_recovery_terminated" else "agent_confirmed_cancellation"
  | .alreadyExited =>
    if recovery then "agent_recovery_process_already_exited" else "agent_process_already_exited"
  | .identityMismatch =>
    if recovery then "agent_recovery_stale_process" else "agent_process_identity_mismatch"
  | .reconciliationRequired => ""

/-- The answer to an acknowledged end of a process. -/
def cancellationDisposition : AgentCancellationOutcome → AgentCancellationDisposition
  | .identityMismatch => .retireStale
  | _ => .completed

namespace Store

/-! ## The owner's request -/

/-- The attempts of a build, latest ordinal first. -/
def buildAttempts (s : Store) (buildId : Uuid) : List (Uuid × AttemptRow) :=
  (s.attempts.select fun _ a =>
    (s.nodes.lookup a.nodeId).any fun n => n.buildId = buildId).insertionSort
      fun left right => right.2.ordinal ≤ left.2.ordinal

/-- The cancellation of a single-node build whose latest attempt is given. -/
def cancelSingleBuild (s : Store) (now : Timestamp) (buildId attemptId : Uuid)
    (attempt : AttemptRow) (status : BuildStatus) : Store :=
  if status = .queued then
    let s := s.modifyAttempt attemptId fun a =>
      if a.status = .queued then
        { a with status := .aborted,
                 terminalSummary := some (reasonSummary "cancelled_before_execution") }
      else a
    let s := s.updateNodes now (fun id n => id = attempt.nodeId && n.status = .queued)
      fun n => { n with status := .aborted }
    s.modifyBuild buildId fun b =>
      if b.status = .queued then
        { b with status := .aborted, cancellationRequestedAt := some now }
      else b
  else
    let s := s.modifyBuild buildId fun b => { b with cancellationRequestedAt := some now }
    s.modifyAttempt attemptId fun a =>
      if a.status = .offered ∨ a.status = .accepted ∨ a.status = .running ∨
          a.status = .finalizing then { a with status := .cancelling }
      else a

/-- `request_cancellation_decision_as`. -/
def requestCancellation (s : Store) (now : Timestamp) (projectId buildId : Uuid)
    (actorSubject : String) : Except StoreError (Store × CancellationDecision) :=
  match validateAuditActor actorSubject with
  | .error error => .error error
  | .ok () =>
    match (s.builds.lookup buildId).filter fun b => b.projectId = projectId with
    | none => .ok (s, .notCancellable none)
    | some build =>
      if build.pipelineId = none ∨ build.pipelineOperationalGeneration = none then
        .ok (s, .notCancellable (some build.status))
      else
        match s.lockBuildPipelineTruth buildId with
        | .error error => .error error
        | .ok _ =>
          if build.status ≠ .queued ∧ build.status ≠ .running then
            if build.cancellationRequestedAt.isSome &&
                build.status ≠ .reconciliationRequired then .ok (s, .alreadyRequested)
            else .ok (s, .notCancellable (some build.status))
          else if build.dagMode then
            match s.cancelDagBuild now buildId with
            | none =>
              if build.cancellationRequestedAt.isSome then .ok (s, .alreadyRequested)
              else .ok (s, .notCancellable (some build.status))
            | some cancelled =>
              .ok (cancelled.appendEvent buildId
                (.buildCancellationRequestedDag actorSubject), .accepted)
          else
            match (s.buildAttempts buildId).head? with
            | none => .ok (s, .notCancellable (some build.status))
            | some (attemptId, attempt) =>
              if build.cancellationRequestedAt.isSome then .ok (s, .alreadyRequested)
              else
                let cancelled :=
                  s.cancelSingleBuild now buildId attemptId attempt build.status
                .ok (cancelled.appendEvent buildId
                  (.buildCancellationRequested actorSubject attemptId attempt.nodeId
                    (build.status = .queued)), .accepted)

/-! ## The agent's report -/

/-- `record_recovered_discharge`: names once that a recovered attempt's authority is disowned. -/
def recordRecoveredDischarge (s : Store) (authority : LeaseAuthority) (reason : String) : Store :=
  match s.joinedAttempt authority.attemptId with
  | none => s
  | some (_, node, _) =>
    if s.events.any fun event => event.buildId = node.buildId &&
        match event.payload with
        | .attemptRecoveredDischargeAuthorized attemptId fence agentId _ =>
          attemptId = authority.attemptId && fence = authority.fence && agentId = authority.agentId
        | _ => false then s
    else
      s.appendEvent node.buildId (.attemptRecoveredDischargeAuthorized authority.attemptId
        authority.fence authority.agentId reason)

/-- The number of effects of a fence that a closing decision may not pass over. -/
def countUncertain (s : Store) (attemptId : Uuid) (fence : ℤ) : ℕ :=
  s.effects.count fun id e => id.attemptId = attemptId && id.fence = fence &&
    (e.status = .uncertain || e.status = .releasePending)

/-- The attempt that a report of a cancelled process concerns: the exact lease, held by an agent
whose current session is in the node's trust pool. -/
def cancellationAuthority (s : Store) (authority : LeaseAuthority) (sessionEpoch : ℕ) :
    Option (AttemptRow × NodeRow × BuildRow) :=
  (s.joinedAttempt authority.attemptId).filter fun (attempt, node, _) =>
    s.holdsLease authority attempt &&
      ((s.agentSessions.lookup authority.agentId).any fun session =>
        session.sessionEpoch == (sessionEpoch : ℤ) && session.trustPool = node.requiredTrustPool) &&
      (attempt.status = .accepted || attempt.status = .running || attempt.status = .cancelling ||
        attempt.status = .aborted || attempt.status = .reconciliationRequired)

/-- The disposition of a report about an attempt that has already ended as aborted. -/
def abortedDisposition (attempt : AttemptRow) : AgentCancellationDisposition :=
  match attempt.terminalSummary.bind fun summary => summary.textField "reason" with
  | some "agent_process_identity_mismatch" | some "agent_recovery_stale_process" => .retireStale
  | _ => .completed

/-- A process whose end cannot be verified, or whose effects are open, waits for reconciliation.
The lease owner stays as attribution. -/
def parkCancelled (s : Store) (now : Timestamp) (authority : LeaseAuthority)
    (attempt : AttemptRow) (node : NodeRow) (outcome : AgentCancellationOutcome)
    (uncertain : ℕ) : Store :=
  let s := s.modifyAttempt authority.attemptId fun a =>
    { a with status := .reconciliationRequired, leaseExpiresAt := none }
  (s.parkNode now attempt.nodeId node.buildId).appendEvent node.buildId
    (.attemptCancellationReconciliationRequired authority.attemptId authority.fence
      authority.agentId outcome uncertain)

/-- `complete_agent_cancellation`. -/
def completeAgentCancellation (s : Store) (now : Timestamp) (retryId : Uuid)
    (authority : LeaseAuthority) (sessionEpoch : ℕ) (outcome : AgentCancellationOutcome) :
    Except StoreError (Store × AgentCancellationDisposition) :=
  match s.sessionIsCurrent authority.agentId sessionEpoch with
  | .error error => .error error
  | .ok false => .ok (s, .retireStale)
  | .ok true =>
    match s.cancellationAuthority authority sessionEpoch with
    | none =>
      if outcome = .reconciliationRequired then
        .ok (s.recordRecoveredDischarge authority "fenced_authority_disowned", .dischargeRecovered)
      else .ok (s, .retireStale)
    | some (attempt, node, build) =>
      if attempt.status = .aborted then
        if outcome = .reconciliationRequired then
          .ok (s.recordRecoveredDischarge authority "attempt_already_terminal", .dischargeRecovered)
        else .ok (s, abortedDisposition attempt)
      else if attempt.status = .reconciliationRequired then
        if outcome = .reconciliationRequired &&
            s.attempts.any fun _ a => a.retryOf = some authority.attemptId then
          .ok (s.recordRecoveredDischarge authority "operator_retry_superseded",
            .dischargeRecovered)
        else .ok (s, .reconciliationRequired)
      else
        let uncertain := s.countUncertain authority.attemptId authority.fence
        if outcome = .reconciliationRequired || 0 < uncertain then
          .ok (s.parkCancelled now authority attempt node outcome uncertain,
            .reconciliationRequired)
        else
          -- Without an owner's request the report ends an interrupted execution.
          let recovery := build.cancellationRequestedAt.isNone
          let closed := s.closeAttempt authority.attemptId .aborted
            (reasonSummary (cancellationReason recovery outcome))
          match closed.publishOutcome now retryId authority.attemptId .aborted with
          | .error error => .error error
          | .ok published =>
            .ok (published.appendEvent node.buildId (.attemptCancellationCompleted
              authority.attemptId authority.fence authority.agentId outcome recovery),
              cancellationDisposition outcome)

end Store

/-- The summary of an attempt that was cancelled before its publication. -/
def cancelledSummary (outcome : TerminalOutcome) (summary : Json) : Json :=
  .obj [("reason", .str "cancelled_before_terminal_publication"),
    ("requested_outcome", .str outcome.asStr), ("requested_summary", summary)]

/-- Whether an effect is complete enough for its attempt to close with the outcome. -/
def EffectRow.isIncomplete (e : EffectRow) (outcome : TerminalOutcome) : Bool :=
  e.isControllerPrepared && ((e.status = .abandoned && outcome = .succeeded) ||
      (e.status ≠ .abandoned &&
        (e.status ≠ .confirmed || e.outcomeReceipt.isNone || e.observationReceipt.isNone ||
          e.shadowReplayReceipt.isNone ||
          (e.outcomeReceipt.any (fun r => r.receipt.textField "status" = some "ambiguous") &&
            e.reconciliationReceipt.isNone))))

/-- Whether an effect still has an open outcome. -/
def EffectRow.isUnresolved (e : EffectRow) : Bool :=
  e.status = .uncertain || e.status = .releasePending

namespace Store

/-- The answer to a publication for an attempt that has already ended. -/
def replayedOutcome (attempt : AttemptRow) (outcome : TerminalOutcome) (summary : Json)
    (cancellationAborts : Bool) : Option TerminalOutcome :=
  if cancellationAborts && attempt.status = .aborted &&
      (attempt.terminalSummary.any fun stored =>
        stored.textField "reason" = some "cancelled_before_terminal_publication" &&
          stored.textField "requested_outcome" = some outcome.asStr &&
          stored.get "requested_summary" = some summary) then some .aborted
  else if attempt.status = outcome.attemptStatus && attempt.terminalSummary = some summary then
    some outcome
  else none

/-- A publication over an open effect waits for reconciliation. -/
def parkTerminal (s : Store) (now : Timestamp) (authority : LeaseAuthority)
    (attempt : AttemptRow) (node : NodeRow) (outcome : TerminalOutcome) (uncertain : ℕ) : Store :=
  let s := s.modifyAttempt authority.attemptId fun a =>
    { a with status := .reconciliationRequired, leaseOwner := none, leaseExpiresAt := none }
  (s.parkNode now attempt.nodeId node.buildId).appendEvent node.buildId
    (.attemptTerminalReconciliationRequired authority.attemptId attempt.nodeId authority.fence
      authority.restoreEpoch authority.agentId outcome uncertain)

/-- The success of an affinity stage pins its build. -/
def recordIfSucceeded (s : Store) (buildId nodeId : Uuid) (outcome : TerminalOutcome)
    (agentId : Option String) : Except StoreError Store :=
  match outcome, agentId with
  | .succeeded, some agentId => s.recordSuccessfulAgent buildId nodeId agentId
  | _, _ => .ok s

/-- The closing of an attempt whose effects are resolved. -/
def publishTerminal [Platform] (s : Store) (now : Timestamp) (retryId : Uuid)
    (authority : LeaseAuthority) (attempt : AttemptRow) (node : NodeRow)
    (outcome : TerminalOutcome) (summary : Json) (transfer : Option WorkspaceTransferResult) :
    Except StoreError Store := do
  let s ← s.commitWorkspace node.buildId transfer outcome
  let s := s.closeAttempt authority.attemptId outcome summary
  let s ← s.recordIfSucceeded node.buildId attempt.nodeId outcome (some authority.agentId)
  let s ← s.publishOutcome now retryId authority.attemptId outcome
  return s.appendEvent node.buildId
    (.attemptTerminal authority.attemptId authority.fence authority.restoreEpoch outcome)

/-- `finalize_attempt_with_session`. -/
def finalizeAttempt [Platform] (s : Store) (now : Timestamp) (retryId : Uuid)
    (authority : LeaseAuthority) (session : Option ℕ) (outcome : TerminalOutcome)
    (summary : Json) (cancellationAborts : Bool) :
    Except StoreError (Store × Option TerminalOutcome) :=
  match normalizeTransfer summary with
  | .error error => .error error
  | .ok (summary, transfer) =>
    match s.sessionAdmits authority.agentId session with
    | .error error => .error error
    | .ok false => .ok (s, none)
    | .ok true =>
      match s.joinedAttempt authority.attemptId with
      | none => .ok (s, none)
      | some (attempt, node, _) =>
        if !s.holdsLease authority attempt then .ok (s, none)
        else if attempt.status.isTerminal then
          .ok (s, replayedOutcome attempt outcome summary cancellationAborts)
        else if !(attempt.leaseLive now && attempt.status.isExecuting) then .ok (s, none)
        else
          let cancelled := cancellationAborts &&
            (attempt.status = .cancelling || node.cancellationRequestedAt.isSome)
          let published := if cancelled then .aborted else outcome
          let recorded := if cancelled then cancelledSummary outcome summary else summary
          let uncertain := s.countUncertain authority.attemptId authority.fence
          if 0 < uncertain then
            .ok (s.parkTerminal now authority attempt node published uncertain, none)
          else if s.effects.any fun id e => id.attemptId = authority.attemptId &&
              id.fence = authority.fence && e.isIncomplete published then .ok (s, none)
          else
            match s.publishTerminal now retryId authority attempt node published recorded
                transfer with
            | .error error => .error error
            | .ok closed => .ok (closed, some published)

/-- The text bounds of a reconciling operator. -/
def reconciliationActorAllowed (actor : String) : Bool :=
  !actor.isEmpty && actor.utf8ByteSize ≤ 256

/-- Whether an operator's decision claims output that only the agent can vouch for. -/
def claimsUnverifiedOutput (s : Store) (node : NodeRow) (build : BuildRow)
    (outcome : TerminalOutcome) (summary : Json) : Bool :=
  (build.workspaceNamespace.isSome &&
      (outcome = .succeeded || (summary.get "workspace_transfer").isSome ||
        ((summary.get "requested_summary").bind (·.get "workspace_transfer")).isSome)) ||
    (outcome = .succeeded && node.nodeKind = .work &&
      node.requiredCapabilities.contains workspaceAffinityCapability &&
      1 < s.countNodes node.buildId (fun n => n.nodeKind = .work) &&
      !s.anyWorkNode node.buildId fun _ n =>
        !n.requiredCapabilities.contains workspaceAffinityCapability)

/-- The recorded decision that an exact repetition finds. -/
def hasReconciliationDecision (s : Store) (attemptId : Uuid) (fence : ℤ) (actor : String)
    (outcome : TerminalOutcome) (summary : Json) : Bool :=
  s.events.any fun event =>
    match event.payload with
    | .attemptReconciliationTerminal id f _ a o recorded =>
      id = attemptId && f = fence && a = actor && o = outcome && recorded = summary
    | _ => false

/-- The closing of a reconciled attempt. -/
def publishReconciled (s : Store) (now : Timestamp) (retryId attemptId : Uuid)
    (attempt : AttemptRow) (node : NodeRow) (actor : String) (outcome : TerminalOutcome)
    (summary : Json) : Except StoreError Store := do
  let s := s.modifyAttempt attemptId fun a =>
    { a with status := outcome.attemptStatus, terminalSummary := some summary }
  let s ← s.recordIfSucceeded node.buildId attempt.nodeId outcome attempt.leaseOwner
  let s ← s.publishOutcome now retryId attemptId outcome
  return s.appendEvent node.buildId (.attemptReconciliationTerminal attemptId attempt.fence
    attempt.restoreEpoch actor outcome summary)

/-- `finalize_reconciled_attempt`. -/
def finalizeReconciledAttempt (s : Store) (now : Timestamp) (retryId attemptId : Uuid) (fence : ℤ)
    (actor : String) (outcome : TerminalOutcome) (summary : Json) :
    Except StoreError (Store × Bool) :=
  if !reconciliationActorAllowed actor then .ok (s, false)
  else
    match s.joinedAttempt attemptId with
    | none => .ok (s, s.hasReconciliationDecision attemptId fence actor outcome summary)
    | some (attempt, node, build) =>
      if s.claimsUnverifiedOutput node build outcome summary then .ok (s, false)
      else if s.hasReconciliationDecision attemptId fence actor outcome summary then .ok (s, true)
      else if attempt.fence = fence && attempt.status = .reconciliationRequired &&
          attempt.leaseExpiresAt = none &&
          !(s.attempts.any fun _ child => child.retryOf = some attemptId) &&
          (s.deadLetters.lookup attemptId).isNone &&
          !s.effects.any fun id e => id.attemptId = attemptId &&
            (e.isUnresolved || e.isIncomplete outcome) then
        match s.publishReconciled now retryId attemptId attempt node actor outcome summary with
        | .error error => .error error
        | .ok closed => .ok (closed, true)
      else .ok (s, false)

end Store

inductive RetryDecision where
  | scheduled (attemptId : Uuid) (ordinal : ℤ) (created : Bool)
  | deadLettered
  | ineligible
  deriving DecidableEq

/-- The record of an exhausted attempt, members in key order. -/
def deadLetterPayload (attemptId : Uuid) (ordinal maxAttempts : ℤ) (reason : String) : Json :=
  .obj [("attempt_id", .str (Uuid.toText attemptId)), ("max_attempts", .num maxAttempts),
    ("ordinal", .num ordinal), ("reason", .str reason)]

namespace Store

/-! ## Dead letters -/

/-- `terminalize_dead_lettered_reconciliation`. -/
def terminalizeDeadLettered (s : Store) (now : Timestamp) (attemptId : Uuid)
    (attempt : AttemptRow) (node : NodeRow) (build : BuildRow) (reason : String) : Store :=
  if attempt.status ≠ .reconciliationRequired then s
  else
    let s := s.modifyAttempt attemptId fun a =>
      { a with status := .failed, terminalSummary := some (.obj [("dead_lettered", .bool true),
                 ("reason", .str reason)]) }
    let s := s.modifyNode now attempt.nodeId fun n => { n with status := .failed }
    if build.status.isTerminal then s
    else
      (s.modifyBuild node.buildId fun b => { b with status := .failed }).recordTerminalNotifications
        now node.buildId .failed

/-- Stores the dead letter of an attempt and names it in the build's events. -/
def deadLetter [Platform] (s : Store) (attemptId : Uuid) (attempt : AttemptRow) (node : NodeRow)
    (maxAttempts : ℤ) (reason actorSubject : String) : Store :=
  let payload := deadLetterPayload attemptId attempt.ordinal maxAttempts reason
  let row : DeadLetterRow := { reason, payload, payloadDigest := payload.sha256 }
  { s with deadLetters := s.deadLetters.insert attemptId row }.appendEvent node.buildId
    (.attemptDeadLettered actorSubject attemptId payload)

/-! ## New attempts -/

/-- The latest attempt of a node. -/
def latestAttempt (s : Store) (nodeId : Uuid) : Option (Uuid × AttemptRow) :=
  ((s.attempts.select fun _ a => a.nodeId = nodeId).insertionSort
    fun left right => right.2.ordinal ≤ left.2.ordinal).head?

/-- The nodes below a node in the dependency graph. -/
def descendants (s : Store) (nodeId : Uuid) : List Uuid :=
  Reach.descendants (s.dependencies.map fun dependency =>
    (dependency.parentNodeId, dependency.childNodeId)) nodeId

/-- Whether a skipped node is reopened by a retry above it, or of a fail-fast failure. -/
def isReopened (s : Store) (buildId : Uuid) (below : List Uuid) (nodeId : Uuid) (n : NodeRow) :
    Bool :=
  n.buildId = buildId && n.status = .skipped && n.logicalOutcome = some .skipped &&
    (s.latestAttempt nodeId).any fun (_, latest) =>
      below.contains nodeId || (latest.status = .aborted &&
        (latest.terminalSummary.bind fun summary => summary.textField "reason") =
          some "fail_fast_skipped")

/-- The nodes a retry reopens, in identifier order, with their latest attempts. -/
def reopenedNodes (s : Store) (buildId nodeId : Uuid) : List (Uuid × Uuid × ℤ) :=
  ((s.nodes.select (s.isReopened buildId (s.descendants nodeId))).insertionSort
    fun left right => left.1 ≤ right.1).filterMap fun (id, _) =>
      (s.latestAttempt id).map fun (attemptId, latest) => (id, attemptId, latest.ordinal)

/-- Reopens one skipped node under a new attempt. -/
def reopenNode (s : Store) (now : Timestamp) (newId nodeId previousId : Uuid) (ordinal : ℤ) :
    Except StoreError Store :=
  match s.insertAttempt newId (retryRow nodeId previousId (ordinal + 1) s.restoreEpoch) with
  | .error error => .error error
  | .ok inserted =>
    let hasDependency :=
      s.dependencies.any fun dependency => dependency.childNodeId = nodeId
    .ok (inserted.updateNodes now
      (fun id n => id = nodeId && n.status = .skipped && n.logicalOutcome = some .skipped)
      fun n => { n with status := if hasDependency then .blocked else .queued,
                        logicalOutcome := none, cancellationRequestedAt := none,
                        queuedAt := now })

/-- Reopens the skipped nodes one after another. -/
def reopenNodes (now : Timestamp) (ids : ℕ → Uuid) :
    List (Uuid × Uuid × ℤ) → ℕ → Store → Except StoreError Store
  | [], _, s => .ok s
  | (nodeId, previousId, ordinal) :: rest, index, s =>
    match s.reopenNode now (ids index) nodeId previousId ordinal with
    | .error error => .error error
    | .ok reopened => reopenNodes now ids rest (index + 1) reopened

/-- The new attempt of a DAG node, and the reopening of the nodes skipped with it. -/
def retryDagNode (s : Store) (now : Timestamp) (ids : ℕ → Uuid) (attemptId : Uuid)
    (attempt : AttemptRow) (node : NodeRow) (maxAttempts : ℤ) : Except StoreError Store :=
  let ready := s.dependenciesReady attempt.nodeId
  match s.insertAttempt (ids 0)
      (retryRow attempt.nodeId attemptId (attempt.ordinal + 1) s.restoreEpoch) with
  | .error error => .error error
  | .ok inserted =>
    let retried := inserted.modifyNode now attempt.nodeId fun n =>
      { n with status := if ready then .queued else .blocked, logicalOutcome := none,
               cancellationRequestedAt := none, maxAttempts := max n.maxAttempts maxAttempts,
               queuedAt := if ready then now else n.queuedAt }
    reopenNodes now ids (retried.reopenedNodes node.buildId attempt.nodeId) 1 retried

/-- The new attempt of a single-node build. -/
def retrySingleNode (s : Store) (now : Timestamp) (newId attemptId : Uuid)
    (attempt : AttemptRow) : Except StoreError Store :=
  match s.insertAttempt newId
      (retryRow attempt.nodeId attemptId (attempt.ordinal + 1) s.restoreEpoch) with
  | .error error => .error error
  | .ok inserted =>
    .ok (inserted.modifyNode now attempt.nodeId fun n =>
      { n with status := .queued, queuedAt := now })

/-- The new attempt of a decision within the budget; the build is open again. -/
def createRetry (s : Store) (now : Timestamp) (ids : ℕ → Uuid) (attemptId : Uuid)
    (attempt : AttemptRow) (node : NodeRow) (build : BuildRow) (maxAttempts : ℤ)
    (reason actorSubject : String) : Except StoreError Store :=
  match if build.dagMode then s.retryDagNode now ids attemptId attempt node maxAttempts
    else s.retrySingleNode now (ids 0) attemptId attempt with
  | .error error => .error error
  | .ok retried =>
    .ok ((retried.modifyBuild node.buildId fun b =>
      { b with status := .queued, cancellationRequestedAt := none }).appendEvent node.buildId
        (.attemptRetryScheduled actorSubject (ids 0) attemptId (attempt.ordinal + 1) reason
          build.dagMode))

/-- Whether an attempt was closed by an operator's reconciliation decision. -/
def isReconciliationTerminalized (s : Store) (attemptId buildId : Uuid) : Bool :=
  s.events.any fun event => event.buildId = buildId &&
    match event.payload with
    | .attemptReconciliationTerminal id .. => id = attemptId
    | _ => false

/-- The attempt that retries an attempt. -/
def retryChild (s : Store) (attemptId : Uuid) : Option (Uuid × AttemptRow) :=
  (s.attempts.select fun _ a => a.retryOf = some attemptId).head?

/-- Whether an attempt has a non-idempotent effect, abandoned or not. -/
def hasNonIdempotentEffect (s : Store) (attemptId : Uuid) : Bool :=
  s.effects.any fun id e => id.attemptId = attemptId && e.effectClass = .nonIdempotent

/-- `schedule_retry_as`. -/
def scheduleRetry [Platform] (s : Store) (now : Timestamp) (ids : ℕ → Uuid) (attemptId : Uuid)
    (maxAttempts : ℤ) (reason actorSubject : String) :
    Except StoreError (Store × RetryDecision) :=
  if maxAttempts < 1 || 16 < maxAttempts || reason.isEmpty || reason.utf8ByteSize > 1024 then
    .ok (s, .ineligible)
  else
    match validateAuditActor actorSubject with
    | .error error => .error error
    | .ok () =>
      match s.joinedAttempt attemptId with
      | none => .ok (s, .ineligible)
      | some (attempt, node, build) =>
        if build.workspaceNamespace.isSome || build.cancellationRequestedAt.isSome ||
            s.isReconciliationTerminalized attemptId node.buildId ||
            !(attempt.status = .failed || attempt.status = .reconciliationRequired) then
          .ok (s, .ineligible)
        else
          match s.retryChild attemptId with
          | some (childId, child) => .ok (s, .scheduled childId child.ordinal false)
          | none =>
            if !s.buildPipelineEnabled node.buildId then .ok (s, .ineligible)
            else if s.hasNonIdempotentEffect attemptId then .ok (s, .ineligible)
            else if (s.deadLetters.lookup attemptId).isSome then
              .ok (s.terminalizeDeadLettered now attemptId attempt node build reason, .deadLettered)
            else if maxAttempts ≤ attempt.ordinal then
              let recorded :=
                s.deadLetter attemptId attempt node maxAttempts reason actorSubject
              .ok (recorded.terminalizeDeadLettered now attemptId attempt node build reason,
                .deadLettered)
            else
              match s.createRetry now ids attemptId attempt node build maxAttempts reason
                  actorSubject with
              | .error error => .error error
              | .ok retried =>
                .ok (retried, .scheduled (ids 0) (attempt.ordinal + 1) true)

end Store

end McLoving
