import McLoving.Store.Workspace

/-!
# Claims, expiry and wait diagnostics

The scheduler hands a queued attempt to an agent under a new fence, and resolves leases that have run
out: work returns to the queue, waits for reconciliation or ends.  The report that tells an operator
why an agent gets no work asks the queue by queries of its own.
-/

namespace McLoving

structure ClaimRequest where
  schedulerId : String
  agentId : String
  capabilities : List String
  trustPool : String
  leaseSeconds : ℤ
  fairnessSeed : ℤ
  deriving DecidableEq

structure ClaimedAttempt where
  buildId : Uuid
  nodeId : Uuid
  attemptId : Uuid
  fence : ℤ
  restoreEpoch : ℤ
  agentId : String
  deriving DecidableEq

namespace Store

/-! ## Ending an attempt -/

/-- Publishes the outcome of an ended attempt to its node and build: through the DAG if the build
is one, directly otherwise. -/
def publishOutcome (s : Store) (now : Timestamp) (retryId attemptId : Uuid)
    (outcome : TerminalOutcome) : Except StoreError Store :=
  match s.advanceDagAfterAttempt now retryId attemptId outcome with
  | .error error => .error error
  | .ok (s, true) => .ok s
  | .ok (s, false) =>
    match s.joinedAttempt attemptId with
    | none => .error .database
    | some (attempt, node, _) =>
      let s := s.modifyNode now attempt.nodeId fun n => { n with status := outcome.nodeStatus }
      .ok (s.modifyBuild node.buildId fun b => { b with status := outcome.buildStatus })

/-- Ends an attempt with the given status and summary; its lease no longer expires. -/
def closeAttempt (s : Store) (attemptId : Uuid) (outcome : TerminalOutcome) (summary : Json) :
    Store :=
  s.modifyAttempt attemptId fun a =>
    { a with status := outcome.attemptStatus, terminalSummary := some summary,
             leaseExpiresAt := none }

/-- Parks a node and its build for reconciliation. -/
def parkNode (s : Store) (now : Timestamp) (nodeId buildId : Uuid) : Store :=
  (s.modifyNode now nodeId fun n => { n with status := .reconciliationRequired }).modifyBuild
    buildId fun b => { b with status := .reconciliationRequired }

/-! ## Claims -/

/-- Whether a build that is not pinned yet may start a shared workspace on the claimer: the agent
must be able to run every work node. -/
def pinServes (s : Store) (request : ClaimRequest) (buildId : Uuid) : Bool :=
  (!s.anyWorkNode buildId fun _ wn =>
      !wn.requiredCapabilities.all request.capabilities.contains) &&
    !s.anyWorkNode buildId fun _ wn =>
      wn.requiredCapabilities.contains workspaceAffinityCapability &&
        wn.requiredTrustPool ≠ request.trustPool

/-- The affinity conditions of a claim: the pin, what an unpinned build asks of its first agent,
and the single flight of work that shares a workspace. -/
def affinityAdmits (s : Store) (request : ClaimRequest) (nodeId : Uuid) (n : NodeRow)
    (b : BuildRow) : Bool :=
  (b.workspaceAffinityAgentId = none || b.workspaceAffinityAgentId = some request.agentId ||
      n.nodeKind ≠ .work) &&
    (b.workspaceAffinityAgentId.isSome || b.workspaceNamespace.isSome || n.nodeKind ≠ .work ||
      !n.requiredCapabilities.contains workspaceAffinityCapability ||
      !s.sharesWorkspace n.buildId b || s.pinServes request n.buildId) &&
    (b.workspaceNamespace.isSome || !s.sharesWorkspace n.buildId b ||
      !s.anyWorkNode n.buildId fun id wn =>
        id ≠ nodeId && (wn.status = .offered || wn.status = .running))

/-- The pipeline join of the claim query: the build's project and generation, enabled. -/
def pipelineAdmits (s : Store) (b : BuildRow) : Bool :=
  b.pipelineId.any fun pipelineId =>
    (s.currentPipelineState pipelineId).any fun (definition, state) =>
      definition.projectId = b.projectId &&
        b.pipelineOperationalGeneration = some definition.operationalGeneration &&
        state = .enabled

/-- The conditions of the claim query on a node and its build. -/
def isClaimable (s : Store) (request : ClaimRequest) (nodeId : Uuid) (n : NodeRow)
    (b : BuildRow) : Bool :=
  n.status = .queued && (b.status = .queued || (b.dagMode && b.status = .running)) &&
    b.cancellationRequestedAt = none && n.cancellationRequestedAt = none &&
    n.requiredCapabilities.all request.capabilities.contains &&
    n.requiredTrustPool = request.trustPool && s.pipelineAdmits b &&
    s.affinityAdmits request nodeId n b && s.dependenciesReady nodeId

/-- The candidates of a claim: a queued attempt of a claimable node. -/
def claimCandidates (s : Store) (request : ClaimRequest) : List (Uuid × AttemptRow × NodeRow) :=
  (s.attempts.select fun _ a => a.status = .queued).filterMap fun (attemptId, a) =>
    match s.nodes.lookup a.nodeId with
    | none => none
    | some n =>
      if (s.builds.lookup n.buildId).any (s.isClaimable request a.nodeId n) then
        some (attemptId, a, n)
      else none

/-- The order of candidates: priority, waiting time, seeded hash, identifier. -/
def claimPrecedes [Platform] (request : ClaimRequest) (left right : Uuid × AttemptRow × NodeRow) :
    Bool :=
  let key (candidate : Uuid × AttemptRow × NodeRow) : List ℤ :=
    [-candidate.2.2.priority, candidate.2.2.queuedAt,
      Platform.hashTextExtended candidate.2.1.nodeId request.fairnessSeed, candidate.2.1.nodeId]
  key left ≤ key right

/-- The candidate that a claim takes. -/
def claimCandidate [Platform] (s : Store) (request : ClaimRequest) :
    Option (Uuid × AttemptRow × NodeRow) :=
  ((s.claimCandidates request).insertionSort fun left right =>
    claimPrecedes request left right).head?

/-- Offers an attempt to the claiming agent under a new fence. -/
def offerAttempt (s : Store) (now : Timestamp) (request : ClaimRequest) (attemptId : Uuid)
    (attempt : AttemptRow) (node : NodeRow) : Store :=
  let epoch := s.restoreEpoch
  let s := s.modifyAttempt attemptId fun a =>
    { a with status := .offered, fence := a.fence + 1, leaseOwner := some request.agentId,
             leaseExpiresAt := some (now + seconds request.leaseSeconds), restoreEpoch := epoch }
  let s := s.modifyNode now attempt.nodeId fun n => { n with status := .offered }
  let s := s.modifyBuild node.buildId fun b =>
    if b.status = .queued then { b with status := .running } else b
  s.appendEvent node.buildId (.attemptOffered attemptId attempt.nodeId request.agentId
    request.trustPool request.schedulerId (attempt.fence + 1) epoch)

/-- `claim_next_with_session`.  A claim that finds no candidate rolls back the orphan scan too. -/
def claimNext [Platform] (s : Store) (now : Timestamp) (request : ClaimRequest)
    (session : Option ℕ) : Except StoreError (Store × Option ClaimedAttempt) :=
  if request.leaseSeconds ≤ 0 || (trim request.trustPool).isEmpty then .ok (s, none)
  else
    match s.sessionAdmits request.agentId session with
    | .error error => .error error
    | .ok false => .ok (s, none)
    | .ok true =>
      let scanned := if session.isSome then s.failOrphanedAffinityBuilds now else s
      match scanned.claimCandidate request with
      | none => .ok (s, none)
      | some (attemptId, attempt, node) =>
        if !scanned.buildPipelineEnabled node.buildId then .ok (s, none)
        else
          .ok (scanned.offerAttempt now request attemptId attempt node,
            some ⟨node.buildId, attempt.nodeId, attemptId, attempt.fence + 1,
              scanned.restoreEpoch, request.agentId⟩)

/-! ## Expiry -/

/-- The expired lease that a pass resolves: the oldest expiry, then the least identifier. -/
def expiredAttempt (s : Store) (now : Timestamp) : Option (Uuid × AttemptRow) :=
  ((s.attempts.select fun _ a =>
    a.status.isLive && a.leaseExpiresAt.any fun expiry => expiry ≤ now).insertionSort
      fun left right =>
        [left.2.leaseExpiresAt.getD 0, (left.1 : ℤ)] ≤
          [right.2.leaseExpiresAt.getD 0, (right.1 : ℤ)]).head?

/-- Whether a contained sequential process may have started under the attempt's fence. -/
def sequentialProcessUncertain (s : Store) (attemptId : Uuid) (attempt : AttemptRow)
    (node : NodeRow) (build : BuildRow) : Bool :=
  build.dagMode && (build.dagContract.any fun contract =>
      (contract.get "sequential_layout").isSome) &&
    s.events.any fun event => event.buildId = node.buildId &&
      match event.payload with
      | .attemptRunning id _ fence _ => id = attemptId && fence = attempt.fence
      | _ => false

/-- The protected effects of a fence that are not abandoned. -/
def protectedEffects (s : Store) (attemptId : Uuid) (fence : ℤ) : List (EffectId × EffectRow) :=
  s.effects.select fun id e => id.attemptId = attemptId && id.fence = fence && e.isProtected &&
    e.status ≠ .abandoned

/-- Protected effects whose outcome is open become uncertain. -/
def markEffectsUncertain (s : Store) (p : EffectId → Bool) : Store :=
  let effects := s.effects.update
    (fun id e => p id && e.isProtected && (e.status = .prepared || e.status = .applied))
    fun _ e => { e with status := .uncertain }
  { s with effects }

/-- The end of an expired attempt that was cancelled or fenced. -/
def abortExpired (s : Store) (now : Timestamp) (retryId attemptId : Uuid) (attempt : AttemptRow)
    (node : NodeRow) : Except StoreError Store :=
  let enabled := s.buildPipelineEnabled node.buildId
  let closed := s.closeAttempt attemptId .aborted (reasonSummary
    (if enabled then "cancellation_lease_expired" else "pipeline_operational_generation_fenced"))
  match closed.publishOutcome now retryId attemptId .aborted with
  | .error error => .error error
  | .ok published => .ok (published.appendEvent node.buildId
      (if enabled then .attemptCancellationLeaseExpired attemptId attempt.nodeId attempt.fence
        else .attemptPipelineGenerationFenced attemptId attempt.nodeId attempt.fence))

/-- An expired attempt that may have had an effect waits for reconciliation. -/
def parkExpired (s : Store) (now : Timestamp) (attemptId : Uuid) (attempt : AttemptRow)
    (node : NodeRow) (unresolved confirmed : ℕ) : Store :=
  let s := s.modifyAttempt attemptId fun a =>
    { a with status := .reconciliationRequired, leaseOwner := none, leaseExpiresAt := none }
  (s.parkNode now attempt.nodeId node.buildId).appendEvent node.buildId
    (.attemptLeaseExpiredReconciliationRequired attemptId attempt.nodeId attempt.fence unresolved
      confirmed)

/-- An expired attempt that may run again returns to the queue. -/
def requeueExpired (s : Store) (now : Timestamp) (attemptId : Uuid) (attempt : AttemptRow)
    (node : NodeRow) (unresolved confirmed : ℕ) : Store :=
  let s := s.modifyAttempt attemptId fun a =>
    { a with status := .queued, leaseOwner := none, leaseExpiresAt := none }
  let s := s.modifyNode now attempt.nodeId fun n => { n with status := .queued }
  let s := s.modifyBuild node.buildId fun b =>
    if b.status = .running ∧ b.cancellationRequestedAt = none then { b with status := .queued }
    else b
  s.appendEvent node.buildId
    (.attemptLeaseExpired attemptId attempt.nodeId attempt.fence unresolved confirmed)

/-- `requeue_one_expired`. -/
def requeueOneExpired (s : Store) (now : Timestamp) (retryId : Uuid) :
    Except StoreError (Store × Bool) :=
  match s.expiredAttempt now with
  | none => .ok (s, false)
  | some (attemptId, _) =>
    match s.joinedAttempt attemptId with
    | none => .ok (s, false)
    | some (attempt, node, build) =>
      let effects := s.protectedEffects attemptId attempt.fence
      let confirmed := (effects.filter fun (_, e) => e.status = .confirmed).length
      let unresolved := effects.length - confirmed
      let reconcile := !effects.isEmpty || s.sequentialProcessUncertain attemptId attempt node build
      let marked := s.markEffectsUncertain fun id =>
        id.attemptId = attemptId && id.fence = attempt.fence
      if (cancellationStamped node build || !s.buildPipelineEnabled node.buildId) &&
          !reconcile then
        match marked.abortExpired now retryId attemptId attempt node with
        | .error error => .error error
        | .ok aborted => .ok (aborted, true)
      else if reconcile then
        .ok (marked.parkExpired now attemptId attempt node unresolved confirmed, true)
      else .ok (marked.requeueExpired now attemptId attempt node unresolved confirmed, true)

end Store

namespace Store

end Store

end McLoving
