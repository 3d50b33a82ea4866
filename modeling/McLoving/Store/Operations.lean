import McLoving.Dag.Contract
import McLoving.Lib.History
import McLoving.Store.Retry

/-!
# Admission, restores and the store as a transition system

A build enters the store as one unit; admission is idempotent per project and idempotency key.
Activating a restore raises the controller's restore epoch.  Every Store call is one operation with
its arguments, the database time at which it runs and the identifiers it draws; a drawn identifier
that is in use violates a primary key.  A call that fails leaves the state unchanged.
-/

namespace McLoving

structure NewBuild where
  projectId : Uuid
  pipelineId : Uuid
  pipelineRevision : ℤ
  pipelineOperationalGeneration : ℤ
  idempotencyKey : String
  pipelineDigest : Digest
  nodeKey : String
  requiredCapabilities : List String
  requiredTrustPool : String
  priority : ℤ
  executionSpec : Json
  deriving DecidableEq

structure BuildAdmission where
  buildId : Uuid
  nodeId : Uuid
  attemptId : Uuid
  created : Bool
  deriving DecidableEq

structure DagNodeAdmission where
  nodeId : Uuid
  attemptId : Uuid
  deriving DecidableEq

structure DagAdmission where
  buildId : Uuid
  nodes : List (String × DagNodeAdmission)
  created : Bool
  deriving DecidableEq

/-- The first attempt of a node. -/
def firstAttempt (nodeId : Uuid) : AttemptRow :=
  { nodeId, ordinal := 1, status := .queued, retryOf := none, fence := 0, leaseOwner := none,
    leaseExpiresAt := none, restoreEpoch := 1, terminalSummary := none }

/-- The row of a newly admitted build. -/
def newBuildRow (now : Timestamp) (projectId pipelineId : Uuid) (revision generation : ℤ)
    (revisionDigest : Digest) (idempotencyKey : String) (pipelineDigest : Digest) (priority : ℤ)
    (dagContract : Option Json) (notifyTargets : Json) : BuildRow :=
  { projectId, pipelineId := some pipelineId, pipelineRevision := some revision,
    pipelineOperationalGeneration := some generation,
    pipelineRevisionDigest := some revisionDigest, idempotencyKey, pipelineDigest,
    status := .queued, priority, dagMode := dagContract.isSome, dagContract, notifyTargets,
    createdAt := now, cancellationRequestedAt := none, workspaceNamespace := none,
    workspaceGeneration := 0, workspaceSnapshot := none, workspaceReceipt := none,
    workspaceClosed := false, workspaceAffinityAgentId := none, committedLogPosition := 0 }

namespace Store

/-- The build stored under a project and idempotency key. -/
def buildByKey (s : Store) (projectId : Uuid) (idempotencyKey : String) :
    Option (Uuid × BuildRow) :=
  (s.builds.select fun _ row =>
    row.projectId = projectId && row.idempotencyKey = idempotencyKey).head?

/-- The first attempts of a build's nodes, by node id. -/
def firstAttempts (s : Store) (buildId : Uuid) : List (Uuid × NodeRow × Uuid) :=
  ((s.nodes.select fun _ n => n.buildId = buildId).flatMap fun (nodeId, node) =>
    (s.attempts.select fun _ a => a.nodeId = nodeId && a.ordinal = 1).map fun (attemptId, _) =>
      (nodeId, node, attemptId)).insertionSort fun left right => left.1 ≤ right.1

/-- `existing_admission`. -/
def existingAdmission (s : Store) (input : NewBuild) : Except StoreError (Option BuildAdmission) :=
  match s.buildByKey input.projectId input.idempotencyKey with
  | none => .ok none
  | some (buildId, build) =>
    match s.firstAttempts buildId with
    | [] => .ok none
    | [(nodeId, node, attemptId)] =>
      if build.pipelineId = some input.pipelineId
          ∧ build.pipelineRevision = some input.pipelineRevision
          ∧ build.pipelineOperationalGeneration = some input.pipelineOperationalGeneration
          ∧ build.pipelineDigest = input.pipelineDigest ∧ build.priority = input.priority
          ∧ build.dagMode = false ∧ node.nodeKey = input.nodeKey
          ∧ node.requiredCapabilities = input.requiredCapabilities
          ∧ node.requiredTrustPool = input.requiredTrustPool
          ∧ node.priority = input.priority ∧ node.executionSpec = input.executionSpec then
        .ok (some ⟨buildId, nodeId, attemptId, false⟩)
      else .error (.idempotencyConflict
        "idempotency key already belongs to a different build contract")
    | _ => .error (.idempotencyConflict
        "idempotent single-node build has a different node contract")

/-- `admit_build`. -/
def admitBuild (s : Store) (now : Timestamp) (ids : ℕ → Uuid) (input : NewBuild) :
    Except StoreError (Store × BuildAdmission) :=
  if (trim input.requiredTrustPool).isEmpty || trim input.requiredTrustPool != input.requiredTrustPool
  then .error .invalidTrustPool
  else
    match s.existingAdmission input with
    | .error error => .error error
    | .ok (some existing) => .ok (s, existing)
    | .ok none =>
      match s.lockEnabledPipelineBinding input.projectId input.pipelineId input.pipelineRevision
          input.pipelineOperationalGeneration with
      | .error error => .error error
      | .ok revisionDigest =>
        if (s.buildByKey input.projectId input.idempotencyKey).isSome then
          .error .incompleteAdmission
        else if ids 0 ∈ s.builds ∨ ids 1 ∈ s.nodes ∨ ids 2 ∈ s.attempts then .error .database
        else
          let build := newBuildRow now input.projectId input.pipelineId input.pipelineRevision
            input.pipelineOperationalGeneration revisionDigest input.idempotencyKey
            input.pipelineDigest input.priority none (.arr [])
          let node : NodeRow :=
            { buildId := ids 0, nodeKey := input.nodeKey, status := .queued,
              logicalOutcome := none, requiredCapabilities := input.requiredCapabilities,
              requiredTrustPool := input.requiredTrustPool, priority := input.priority,
              executionSpec := input.executionSpec, nodeKind := .work, failFast := false,
              maxAttempts := 1, cancellationRequestedAt := none, queuedAt := now }
          .ok ({ s with
            builds := s.builds.insert (ids 0) build
            nodes := s.nodes.insert (ids 1) node
            attempts := s.attempts.insert (ids 2) (firstAttempt (ids 1)) }.appendEvent (ids 0)
              (.buildAdmitted (ids 1) (ids 2)), ⟨ids 0, ids 1, ids 2, true⟩)

/-- `existing_dag_admission`. -/
def existingDagAdmission (s : Store) (input : NewDagBuild) (contract : Json) (buildId : Uuid)
    (build : BuildRow) : Except StoreError DagAdmission :=
  if build.pipelineId ≠ some input.pipelineId
      ∨ build.pipelineRevision ≠ some input.pipelineRevision
      ∨ build.pipelineOperationalGeneration ≠ some input.pipelineOperationalGeneration
      ∨ build.dagMode = false ∨ build.pipelineDigest ≠ input.pipelineDigest
      ∨ build.dagContract ≠ some contract
      ∨ ((contract.get "sequential_layout").isSome
          ∧ build.pipelineRevisionDigest ≠ some input.pipelineDigest) then
    .error (.idempotencyConflict "idempotency key already belongs to a different build contract")
  else
    let nodes := ((s.firstAttempts buildId).map fun (nodeId, node, attemptId) =>
      (node.nodeKey, (⟨nodeId, attemptId⟩ : DagNodeAdmission))).insertionSort
        fun left right => left.1 ≤ right.1
    if nodes.length ≠ input.nodes.length
        || input.nodes.any fun node => (nodes.lookup node.nodeKey).isNone then
      .error (.idempotencyConflict "idempotent DAG exists with a different node contract")
    else .ok ⟨buildId, nodes, false⟩

/-- The row of a DAG node at admission. -/
def newNodeRow (now : Timestamp) (buildId : Uuid) (node : NewDagNode) : NodeRow :=
  { buildId, nodeKey := node.nodeKey,
    status := if node.dependencies.isEmpty then .queued else .blocked,
    logicalOutcome := none, requiredCapabilities := node.capabilities,
    requiredTrustPool := node.requiredTrustPool, priority := node.priority,
    executionSpec := node.executionSpec, nodeKind := node.kind, failFast := node.failFast,
    maxAttempts := node.maxAttempts, cancellationRequestedAt := none, queuedAt := now }

/-- The identifiers drawn for the nodes of a DAG, in node order. -/
def drawnNodes (ids : ℕ → Uuid) (nodes : List NewDagNode) : List (NewDagNode × DagNodeAdmission) :=
  nodes.zipIdx.map fun (node, index) => (node, ⟨ids (2 * index + 1), ids (2 * index + 2)⟩)

/-- The dependency edges of a DAG under the drawn identifiers. -/
def drawnDependencies (buildId : Uuid) (drawn : List (NewDagNode × DagNodeAdmission)) :
    List DependencyRow :=
  let nodeId (key : String) : Option Uuid :=
    (drawn.find? fun entry => entry.1.nodeKey == key).map fun entry => entry.2.nodeId
  drawn.flatMap fun (node, admission) =>
    node.dependencies.filterMap fun dependency =>
      (nodeId dependency.nodeKey).map fun parent =>
        ⟨buildId, parent, admission.nodeId, dependency.condition⟩

/-- `admit_dag_contract_transaction`. -/
def admitDagContract [Platform] (s : Store) (now : Timestamp) (ids : ℕ → Uuid)
    (input : NewDagBuild) (contract : Json) (sequential : Bool) :
    Except StoreError (Store × DagAdmission) :=
  match input.checkContract with
  | .error error => .error error
  | .ok () =>
    match s.buildByKey input.projectId input.idempotencyKey with
    | some (buildId, build) =>
      match s.existingDagAdmission input contract buildId build with
      | .error error => .error error
      | .ok admission => .ok (s, admission)
    | none =>
      match s.lockEnabledPipelineBinding input.projectId input.pipelineId
          input.pipelineRevision input.pipelineOperationalGeneration with
      | .error error => .error error
      | .ok revisionDigest =>
        if sequential ∧ revisionDigest ≠ input.pipelineDigest then
          .error (.invalidDag "sequential semantic digest differs from the saved revision")
        else if ids 0 ∈ s.builds then .error .database
        else
          let build := newBuildRow now input.projectId input.pipelineId
            input.pipelineRevision input.pipelineOperationalGeneration revisionDigest
            input.idempotencyKey input.pipelineDigest input.priority (some contract)
            input.notifyTargets
          let drawn := drawnNodes ids input.nodes
          match Table.insertAll (drawn.map fun (node, admission) =>
              (admission.nodeId, newNodeRow now (ids 0) node)) s.nodes,
            Table.insertAll (drawn.map fun (_, admission) =>
              (admission.attemptId, firstAttempt admission.nodeId)) s.attempts with
          | some nodes, some attempts =>
            let admitted := (drawn.map fun (node, admission) =>
              (node.nodeKey, admission)).insertionSort fun left right => left.1 ≤ right.1
            .ok ({ s with
              builds := s.builds.insert (ids 0) build
              nodes := nodes
              attempts := attempts
              dependencies := s.dependencies ++ drawnDependencies (ids 0) drawn
              }.appendEvent (ids 0) (.dagAdmitted input.nodes.length
                (input.nodes.map fun node : NewDagNode => node.dependencies.length).sum),
              ⟨ids 0, admitted, true⟩)
          | _, _ => .error .database

/-- `admit_dag_transaction`, the admission that trigger ingress also uses. -/
def admitDagTransaction [Platform] (s : Store) (now : Timestamp) (ids : ℕ → Uuid)
    (input : NewDagBuild) : Except StoreError (Store × DagAdmission) :=
  s.admitDagContract now ids input input.normalizedContract false

/-- `admit_dag`. -/
def admitDag [Platform] (s : Store) (now : Timestamp) (ids : ℕ → Uuid) (input : NewDagBuild) :
    Except StoreError (Store × DagAdmission) :=
  if triggerDagIdempotencyPrefix.toList.isPrefixOf input.idempotencyKey.toList then
    .error (.invalidDag "trigger DAG idempotency namespace is reserved")
  else s.admitDagTransaction now ids input

/-- `workspace::initialize`. -/
def initializeWorkspace (s : Store) (buildId workspaceNamespace : Uuid) : Except StoreError Store :=
  if s.builds.any fun _ row => row.workspaceNamespace = some workspaceNamespace then
    .error .database
  else
    .ok (s.modifyBuild buildId fun row =>
      if row.workspaceNamespace.isSome then row
      else { row with workspaceNamespace := some workspaceNamespace,
                      workspaceSnapshot := some WorkspaceSnapshot.initial })

/-- `admit_sequential_dag`. -/
def admitSequentialDag [Platform] (s : Store) (now : Timestamp) (ids : ℕ → Uuid)
    (input : SequentialDagBuild) : Except StoreError (Store × DagAdmission) :=
  match s.admitDagContract now ids input.dag input.contract true with
  | .error error => .error error
  | .ok (admitted, admission) =>
    if admission.created && input.workspaceTransfer then
      match admitted.initializeWorkspace admission.buildId
          (ids (2 * input.dag.nodes.length + 1)) with
      | .error error => .error error
      | .ok initialized => .ok (initialized, admission)
    else .ok (admitted, admission)

end Store

structure RestoreActivation where
  restoreEpoch : ℤ
  backupId : String
  sealedLsn : String
  affectedAttempts : ℕ
  deriving DecidableEq

/-- The text bounds of a backup identifier. -/
def backupIdAllowed (backupId : String) : Bool :=
  !backupId.isEmpty && backupId.utf8ByteSize ≤ 256

namespace Store

/-- `seal_recovery_point`, at the write-ahead position that the database reports.  The answer is the
epoch and the position of the seal. -/
def sealRecoveryPoint (s : Store) (backupId durableLsn : String) :
    Except StoreError (Store × ℤ × String) :=
  if !backupIdAllowed backupId then
    .error (.invalidRecoveryOperation "backup id must contain between 1 and 256 bytes")
  else
    let point := (s.recoveryPoints.lookup backupId).getD ⟨s.restoreEpoch, none⟩
    let sealedLsn := point.recoveryLsn.getD durableLsn
    let row : RecoveryPointRow := { point with recoveryLsn := some sealedLsn }
    .ok ({ s with recoveryPoints := s.recoveryPoints.insert backupId row },
      point.restoreEpoch, sealedLsn)

/-- One attempt of the restore sweep. -/
def restoreAttempt (now : Timestamp) (epoch : ℤ) (backupId recoveryLsn : String) (s : Store)
    (attemptId : Uuid) : Store :=
  match s.joinedAttempt attemptId with
  | none => s
  | some (attempt, node, _) =>
    let unsettled := fun (id : EffectId) (e : EffectRow) =>
      decide (id.attemptId = attemptId) && (e.status = .prepared || e.status = .applied)
    let uncertain := s.effects.count unsettled
    let s := s.modifyAttempt attemptId fun a =>
      { a with status := .reconciliationRequired, leaseOwner := none, leaseExpiresAt := none }
    let s := s.parkNode now attempt.nodeId node.buildId
    let effects := s.effects.update unsettled fun _ e => { e with status := .uncertain }
    { s with effects }.appendEvent node.buildId
      (.attemptRestoreReconciliationRequired attemptId attempt.restoreEpoch epoch backupId
        recoveryLsn uncertain)

/-- The attempts under a lease, in identifier order. -/
def leasedAttempts (s : Store) : List Uuid :=
  ((s.attempts.select fun _ a => a.status.isLive).map Prod.fst).insertionSort (· ≤ ·)

/-- `activate_restore_epoch`. -/
def activateRestoreEpoch (s : Store) (now : Timestamp) (backupId reason : String) :
    Except StoreError (Store × Option RestoreActivation) :=
  if !backupIdAllowed backupId || reason.isEmpty || reason.utf8ByteSize > 1024 then
    .error (.invalidRecoveryOperation
      "backup id and restore reason must be non-empty and bounded")
  else
    match s.restoreEpochs.lookup backupId with
    | some existing =>
      .ok (s, some ⟨existing.restoreEpoch, backupId, existing.recoveryLsn,
        existing.affectedAttempts⟩)
    | none =>
      match s.recoveryPoints.lookup backupId with
      | some { restoreEpoch := pointEpoch, recoveryLsn := some recoveryLsn } =>
        if pointEpoch ≠ s.restoreEpoch then
          .error (.invalidRecoveryOperation
            (s!"recovery point belongs to restore epoch {pointEpoch}, current epoch is " ++
              s!"{s.restoreEpoch}"))
        else if s.restoreEpoch + 1 > i64Max then
          .error (.invalidRecoveryOperation "restore epoch overflow")
        else
          let epoch := s.restoreEpoch + 1
          let affected := s.leasedAttempts
          let activated : Store :=
            { s with
              restoreEpoch := epoch
              restoreEpochs := s.restoreEpochs.insert backupId
                ⟨epoch, recoveryLsn, reason, affected.length⟩ }
          .ok (affected.foldl (restoreAttempt now epoch backupId recoveryLsn) activated,
            some ⟨epoch, backupId, recoveryLsn, affected.length⟩)
      | _ => .ok (s, none)

end Store

/-- One Store call. -/
inductive Op where
  | putPipeline (now : Timestamp) (input : PipelineWrite) (expectedRevision : Option ℤ)
      (actorSubject : String)
  | transitionPipeline (input : PipelineOperationalStateTransition)
  | openAgentSession (now : Timestamp) (agentId trustPool : String) (sessionEpoch : ℕ)
      (features capabilities : List String)
  | authorizeAgentSession (now : Timestamp) (agentId : String) (sessionEpoch : ℕ)
  | admitBuild (now : Timestamp) (ids : ℕ → Uuid) (input : NewBuild)
  | admitDag (now : Timestamp) (ids : ℕ → Uuid) (input : NewDagBuild)
  | admitTriggeredDag (now : Timestamp) (ids : ℕ → Uuid) (input : NewDagBuild)
  | admitSequentialDag (now : Timestamp) (ids : ℕ → Uuid) (dag : NewDagBuild)
      (layout : List SequentialStepLayout) (workspaceTransfer : Bool)
  | claimNext (now : Timestamp) (request : ClaimRequest) (session : Option ℕ)
  | acceptOffer (now : Timestamp) (authority : LeaseAuthority) (session : Option ℕ)
  | markAttemptRunning (now : Timestamp) (authority : LeaseAuthority) (session : Option ℕ)
  | renewAttemptLease (now : Timestamp) (authority : LeaseAuthority) (session : Option ℕ)
      (leaseSeconds : ℤ)
  | recordLeaseRenewalRejection (now : Timestamp) (attemptId : Uuid) (fence : ℤ)
      (agentId cause : String)
  | recoverAgentFinalization (now : Timestamp) (authority : LeaseAuthority) (session : Option ℕ)
      (localPhase : Option RecoveryPhase) (leaseSeconds : ℤ)
  | appendLog (now : Timestamp) (chunk : NewLogChunk) (session : Option ℕ)
  | checkpointEffect (now : Timestamp) (authority : LeaseAuthority) (effectKey : String)
      (effectClass : EffectClass) (status : EffectStatus) (payload : Json)
  | commitEffectDispatch (now : Timestamp) (authority : LeaseAuthority) (effectKey : String)
      (effectClass : EffectClass) (payload : Json)
  | appendEffectEvidence (now : Timestamp) (authority : LeaseAuthority) (effectKey : String)
      (kind : EffectEvidenceKind) (receipt : Json)
  | confirmUncertainEffect (id : EffectId) (effectClass : EffectClass) (payload : Json)
  | recordUndispatchedRelease (now : Timestamp) (authority : LeaseAuthority) (effectKey : String)
      (effectClass : EffectClass) (payload : Json) (released : Bool)
  | abandonExpiredReleasePending (now : Timestamp) (id : EffectId) (effectClass : EffectClass)
      (payload : Json)
  | finalizeAttempt (now : Timestamp) (retryId : Uuid) (authority : LeaseAuthority)
      (session : Option ℕ) (outcome : TerminalOutcome) (summary : Json)
      (cancellationAborts : Bool)
  | finalizeReconciledAttempt (now : Timestamp) (retryId attemptId : Uuid) (fence : ℤ)
      (actor : String) (outcome : TerminalOutcome) (summary : Json)
  | requestCancellation (now : Timestamp) (projectId buildId : Uuid) (actorSubject : String)
  | completeAgentCancellation (now : Timestamp) (retryId : Uuid) (authority : LeaseAuthority)
      (sessionEpoch : ℕ) (outcome : AgentCancellationOutcome)
  | requeueOneExpired (now : Timestamp) (retryId : Uuid)
  | scheduleRetry (now : Timestamp) (ids : ℕ → Uuid) (attemptId : Uuid) (maxAttempts : ℤ)
      (reason actorSubject : String)
  | sealRecoveryPoint (backupId durableLsn : String)
  | activateRestoreEpoch (now : Timestamp) (backupId reason : String)

namespace Store

/-- A database without any project work. -/
def initial (organizationId : Uuid) : Store :=
  { organizationId, restoreEpoch := 1, recoveryPoints := ∅, restoreEpochs := ∅, pipelines := ∅,
    pipelineRevisions := ∅, pipelineStates := ∅, agentSessions := ∅, builds := ∅, nodes := ∅,
    dependencies := [], attempts := ∅, effects := ∅, deadLetters := ∅, logChunks := ∅,
    logAccounting := ∅, credentialGrants := ∅, notifications := ∅, events := [] }

/-- The state after a call: its result's, or the old one if it failed. -/
def after {α : Type} (s : Store) : Except StoreError (Store × α) → Store
  | .ok (next, _) => next
  | .error _ => s

/-- The admission of a sequential build, from the parts its constructor validates. -/
def admitSequential [Platform] (s : Store) (now : Timestamp) (ids : ℕ → Uuid) (dag : NewDagBuild)
    (layout : List SequentialStepLayout) (workspaceTransfer : Bool) :
    Except StoreError (Store × DagAdmission) :=
  match SequentialDagBuild.new dag layout with
  | .error error => .error error
  | .ok build =>
    s.admitSequentialDag now ids
      (if workspaceTransfer then build.withWorkspaceTransfer else build)

/-- The state after one Store call. -/
def step [Platform] (s : Store) : Op → Store
  | .putPipeline now input expectedRevision actorSubject =>
    s.after (s.putPipeline now input expectedRevision actorSubject)
  | .transitionPipeline input => s.after (s.transitionPipelineOperationalState input)
  | .openAgentSession now agentId trustPool sessionEpoch features capabilities =>
    s.after (s.openAgentSession now agentId trustPool sessionEpoch features capabilities)
  | .authorizeAgentSession now agentId sessionEpoch =>
    s.after (s.authorizeAgentSession now agentId sessionEpoch)
  | .admitBuild now ids input => s.after (s.admitBuild now ids input)
  | .admitDag now ids input => s.after (s.admitDag now ids input)
  | .admitTriggeredDag now ids input => s.after (s.admitDagTransaction now ids input)
  | .admitSequentialDag now ids dag layout workspaceTransfer =>
    s.after (s.admitSequential now ids dag layout workspaceTransfer)
  | .claimNext now request session => s.after (s.claimNext now request session)
  | .acceptOffer now authority session => s.after (s.acceptOffer now authority session)
  | .markAttemptRunning now authority session =>
    s.after (s.markAttemptRunning now authority session)
  | .renewAttemptLease now authority session leaseSeconds =>
    s.after (s.renewAttemptLease now authority session leaseSeconds)
  | .recordLeaseRenewalRejection now attemptId fence agentId cause =>
    s.after (s.recordLiveLeaseRenewalRejection now attemptId fence agentId cause)
  | .recoverAgentFinalization now authority session localPhase leaseSeconds =>
    s.after (s.recoverAgentFinalization now authority session localPhase leaseSeconds)
  | .appendLog now chunk session => s.after (s.appendLog now chunk session)
  | .checkpointEffect now authority effectKey effectClass status payload =>
    s.after (s.checkpointEffect now authority effectKey effectClass status payload)
  | .commitEffectDispatch now authority effectKey effectClass payload =>
    s.after (s.commitEffectDispatch now authority effectKey effectClass payload)
  | .appendEffectEvidence now authority effectKey kind receipt =>
    s.after (s.appendEffectEvidence now authority effectKey kind receipt)
  | .confirmUncertainEffect id effectClass payload =>
    s.after (s.confirmUncertainEffect id effectClass payload)
  | .recordUndispatchedRelease now authority effectKey effectClass payload released =>
    s.after (s.recordUndispatchedRelease now authority effectKey effectClass payload released)
  | .abandonExpiredReleasePending now id effectClass payload =>
    s.after (s.abandonExpiredReleasePending now id effectClass payload)
  | .finalizeAttempt now retryId authority session outcome summary cancellationAborts =>
    s.after (s.finalizeAttempt now retryId authority session outcome summary cancellationAborts)
  | .finalizeReconciledAttempt now retryId attemptId fence actor outcome summary =>
    s.after (s.finalizeReconciledAttempt now retryId attemptId fence actor outcome summary)
  | .requestCancellation now projectId buildId actorSubject =>
    s.after (s.requestCancellation now projectId buildId actorSubject)
  | .completeAgentCancellation now retryId authority sessionEpoch outcome =>
    s.after (s.completeAgentCancellation now retryId authority sessionEpoch outcome)
  | .requeueOneExpired now retryId => s.after (s.requeueOneExpired now retryId)
  | .scheduleRetry now ids attemptId maxAttempts reason actorSubject =>
    s.after (s.scheduleRetry now ids attemptId maxAttempts reason actorSubject)
  | .sealRecoveryPoint backupId durableLsn => s.after (s.sealRecoveryPoint backupId durableLsn)
  | .activateRestoreEpoch now backupId reason =>
    s.after (s.activateRestoreEpoch now backupId reason)

/-- The states some sequence of Store calls leads to, each call meeting the condition. -/
abbrev RunWhere [Platform] (ok : Store → Op → Prop) : Store → Store → Prop :=
  Transition.Run step ok

/-- The states some sequence of Store calls leads to. -/
abbrev Run [Platform] : Store → Store → Prop :=
  RunWhere fun _ _ => True

/-- The states that an empty database can get to. -/
def Reachable [Platform] (s : Store) : Prop :=
  ∃ organizationId, Run (initial organizationId) s

end Store

end McLoving
