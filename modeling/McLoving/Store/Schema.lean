import McLoving.Domain.Primitives
import McLoving.Lib.Table
import Mathlib.Tactic.Simps.Basic

/-!
# The controller's tables and saved pipelines

One organization's slice of the controller database: the columns that the modelled operations read
or write, as rows in keyed tables, with the event log beside them.  A `Store` is the whole durable
state; every Store call is one transaction on it.  Enabling or disabling a pipeline starts a new
generation, so the binding of an older build goes stale for good.
-/

namespace McLoving

/-! ## Enumerations -/

/-- `builds.status`. -/
inductive BuildStatus where
  | queued | running | reconciliationRequired | succeeded | failed | aborted
  deriving DecidableEq

/-- `nodes.status`. -/
inductive NodeStatus where
  | blocked | queued | offered | running | reconciliationRequired
  | succeeded | failed | aborted | skipped
  deriving DecidableEq

/-- `nodes.logical_outcome`. -/
inductive LogicalOutcome where
  | succeeded | failed | aborted | skipped
  deriving DecidableEq

/-- `attempts.status`. -/
inductive AttemptStatus where
  | queued | offered | accepted | running | finalizing | cancelling | reconciliationRequired
  | succeeded | failed | aborted
  deriving DecidableEq

/-- `TerminalOutcome`: the terminal result accepted from a fenced attempt. -/
inductive TerminalOutcome where
  | succeeded | failed | aborted
  deriving DecidableEq

/-- `nodes.node_kind`. -/
inductive DagNodeKind where
  | work | join | post
  deriving DecidableEq

/-- `node_dependencies.condition`. -/
inductive DependencyCondition where
  | succeeded | completed
  deriving DecidableEq

/-- `attempt_effects.effect_class`. -/
inductive EffectClass where
  | idempotent | externallyIdempotent | nonIdempotent
  deriving DecidableEq

/-- `attempt_effects.status`. -/
inductive EffectStatus where
  | prepared | applied | confirmed | uncertain | releasePending | abandoned
  deriving DecidableEq

/-- `EffectEvidenceKind`: one receipt slot of an effect. -/
inductive EffectEvidenceKind where
  | outcome | reconciliationOutcome | observation | shadowReplay
  deriving DecidableEq

/-- `pipeline_operational_state_history.state`. -/
inductive PipelineOperationalState where
  | enabled | disabled
  deriving DecidableEq

namespace BuildStatus

/-- The statuses that report a verdict. -/
def isTerminal : BuildStatus → Bool
  | succeeded | failed | aborted => true
  | _ => false

end BuildStatus

namespace NodeStatus

/-- The statuses that satisfy a `completed` dependency. -/
def isTerminal : NodeStatus → Bool
  | succeeded | failed | aborted | skipped => true
  | _ => false

end NodeStatus

namespace AttemptStatus

/-- A closed attempt. -/
def isTerminal : AttemptStatus → Bool
  | succeeded | failed | aborted => true
  | _ => false

/-- An attempt under a lease: `offered`, `accepted`, `running`, `finalizing` or `cancelling`. -/
def isLive : AttemptStatus → Bool
  | offered | accepted | running | finalizing | cancelling => true
  | _ => false

/-- An attempt whose agent may act on it: `accepted`, `running`, `finalizing` or `cancelling`. -/
def isExecuting : AttemptStatus → Bool
  | accepted | running | finalizing | cancelling => true
  | _ => false

end AttemptStatus

namespace TerminalOutcome

/-- `TerminalOutcome::as_str`. -/
def asStr : TerminalOutcome → String
  | succeeded => "succeeded"
  | failed => "failed"
  | aborted => "aborted"

def attemptStatus : TerminalOutcome → AttemptStatus
  | succeeded => .succeeded
  | failed => .failed
  | aborted => .aborted

def nodeStatus : TerminalOutcome → NodeStatus
  | succeeded => .succeeded
  | failed => .failed
  | aborted => .aborted

def logicalOutcome : TerminalOutcome → LogicalOutcome
  | succeeded => .succeeded
  | failed => .failed
  | aborted => .aborted

def buildStatus : TerminalOutcome → BuildStatus
  | succeeded => .succeeded
  | failed => .failed
  | aborted => .aborted

end TerminalOutcome

/-! ## Rows -/

/-- A row of `pipeline_definitions`. -/
structure PipelineRow where
  projectId : Uuid
  slug : String
  currentRevision : ℤ
  operationalGeneration : ℤ
  deriving DecidableEq

/-- A row of `pipeline_revisions`. -/
structure PipelineRevisionRow where
  projectId : Uuid
  source : String
  sourceSha256 : Digest
  semanticDigest : Digest
  schemaMajor : ℤ
  schemaMinor : ℤ
  parameterSchema : Json
  deriving DecidableEq

/-- A row of `pipeline_operational_state_history`. -/
structure PipelineStateRow where
  projectId : Uuid
  state : PipelineOperationalState
  reason : String
  actorSubject : String
  sourceIdentity : String
  sourceGeneration : String
  sourceEffectiveAtUnixMs : ℤ
  sourceProvenanceSha256 : Digest
  idempotencyKey : String
  deriving DecidableEq

/-- A row of `agent_sessions`. -/
structure AgentSessionRow where
  trustPool : String
  sessionEpoch : ℤ
  features : List String
  capabilities : List String
  updatedAt : Timestamp
  deriving DecidableEq

/-- A row of `builds`. -/
structure BuildRow where
  projectId : Uuid
  pipelineId : Option Uuid
  pipelineRevision : Option ℤ
  pipelineOperationalGeneration : Option ℤ
  pipelineRevisionDigest : Option Digest
  idempotencyKey : String
  pipelineDigest : Digest
  status : BuildStatus
  priority : ℤ
  dagMode : Bool
  dagContract : Option Json
  notifyTargets : Json
  createdAt : Timestamp
  cancellationRequestedAt : Option Timestamp
  workspaceNamespace : Option Uuid
  workspaceGeneration : ℤ
  workspaceSnapshot : Option WorkspaceSnapshot
  workspaceReceipt : Option WorkspaceSnapshotReceipt
  workspaceClosed : Bool
  workspaceAffinityAgentId : Option String
  committedLogPosition : ℤ
  deriving DecidableEq

/-- A row of `nodes`. -/
structure NodeRow where
  buildId : Uuid
  nodeKey : String
  status : NodeStatus
  logicalOutcome : Option LogicalOutcome
  requiredCapabilities : List String
  requiredTrustPool : String
  priority : ℤ
  executionSpec : Json
  nodeKind : DagNodeKind
  failFast : Bool
  maxAttempts : ℤ
  cancellationRequestedAt : Option Timestamp
  queuedAt : Timestamp
  deriving DecidableEq

/-- A row of `node_dependencies`. -/
structure DependencyRow where
  buildId : Uuid
  parentNodeId : Uuid
  childNodeId : Uuid
  condition : DependencyCondition
  deriving DecidableEq

/-- A row of `attempts`. -/
structure AttemptRow where
  nodeId : Uuid
  ordinal : ℤ
  status : AttemptStatus
  retryOf : Option Uuid
  fence : ℤ
  leaseOwner : Option String
  leaseExpiresAt : Option Timestamp
  restoreEpoch : ℤ
  terminalSummary : Option Json
  deriving DecidableEq

/-- The primary key of `attempt_effects`. -/
structure EffectId where
  attemptId : Uuid
  fence : ℤ
  effectKey : String
  deriving DecidableEq

/-- A receipt and the digest stored beside it; the database keeps the pair together. -/
structure Receipt where
  receipt : Json
  digest : Digest
  deriving DecidableEq

/-- A row of `attempt_effects`. -/
structure EffectRow where
  effectClass : EffectClass
  status : EffectStatus
  payload : Json
  payloadDigest : Digest
  dispatchCommittedAt : Option Timestamp
  outcomeReceipt : Option Receipt
  reconciliationReceipt : Option Receipt
  observationReceipt : Option Receipt
  shadowReplayReceipt : Option Receipt
  deriving DecidableEq

/-- A row of `dead_letters`. -/
structure DeadLetterRow where
  reason : String
  payload : Json
  payloadDigest : Digest
  deriving DecidableEq

/-- The primary key of `attempt_log_chunks`. -/
structure LogChunkId where
  attemptId : Uuid
  fence : ℤ
  sequence : ℤ
  deriving DecidableEq

/-- A row of `attempt_log_chunks`. -/
structure LogChunkRow where
  buildId : Uuid
  buildPosition : ℤ
  stepOrdinal : ℤ
  stream : String
  content : List UInt8
  digest : Digest
  deriving DecidableEq

/-- A row of `credential_grants`, as far as the log store reads it. -/
structure CredentialGrantRow where
  attemptId : Uuid
  fence : ℤ
  secretValue : List UInt8
  deriving DecidableEq

/-- A row of `recovery_points`. -/
structure RecoveryPointRow where
  restoreEpoch : ℤ
  recoveryLsn : Option String
  deriving DecidableEq

/-- A row of `restore_epochs`, kept under its backup id. -/
structure RestoreEpochRow where
  restoreEpoch : ℤ
  recoveryLsn : String
  reason : String
  affectedAttempts : ℕ
  deriving DecidableEq

/-- The primary key of `notification_deliveries`. -/
structure NotificationId where
  buildId : Uuid
  targetIndex : ℕ
  deriving DecidableEq

/-- `notification_deliveries.state`. -/
inductive NotificationState where
  | pending | delivered | abandoned
  deriving DecidableEq

/-- A row of `notification_deliveries`. -/
structure NotificationRow where
  kind : Option String
  mappingId : Option String
  target : Json
  buildStatus : BuildStatus
  terminalGeneration : ℤ
  repostRequired : Bool
  inFlight : Bool
  state : NotificationState
  attempts : ℤ
  nextAttemptAt : Timestamp
  lastError : Option String
  deliveredAt : Option Timestamp
  reconciliationAttempts : ℤ
  reconciliationDueAt : Option Timestamp
  reconciliationClaim : Option Uuid
  reconciliationLeaseUntil : Option Timestamp
  reconciliationError : Option String
  deriving DecidableEq

/-! ## Events -/

/-- How an agent reported the end of a cancelled process. -/
inductive AgentCancellationOutcome where
  | terminated | alreadyExited | identityMismatch | reconciliationRequired
  deriving DecidableEq

/-- The payload of one build event; the constructor is its `kind`. -/
inductive EventPayload where
  | buildAdmitted (nodeId attemptId : Uuid)
  | dagAdmitted (nodes edges : ℕ)
  | buildCancellationRequestedDag (actor : String)
  | buildCancellationRequested (actor : String) (attemptId nodeId : Uuid) (terminal : Bool)
  | buildWorkspaceAffinityAgentGone (agentId : String)
  | attemptOffered (attemptId nodeId : Uuid) (agentId trustPool schedulerId : String)
      (fence restoreEpoch : ℤ)
  | attemptAccepted (attemptId nodeId : Uuid) (agentId : String) (fence restoreEpoch : ℤ)
  | attemptRunning (attemptId nodeId : Uuid) (fence restoreEpoch : ℤ)
  | attemptLeaseRenewalRejected (attemptId : Uuid) (fence : ℤ) (agentId cause : String)
  | attemptCancellationLeaseExpired (attemptId nodeId : Uuid) (fence : ℤ)
  | attemptPipelineGenerationFenced (attemptId nodeId : Uuid) (fence : ℤ)
  | attemptLeaseExpired (attemptId nodeId : Uuid) (fence : ℤ) (uncertain confirmed : ℕ)
  | attemptLeaseExpiredReconciliationRequired (attemptId nodeId : Uuid) (fence : ℤ)
      (uncertain confirmed : ℕ)
  | attemptRecoveredDischargeAuthorized (attemptId : Uuid) (fence : ℤ) (agentId reason : String)
  | attemptCancellationReconciliationRequired (attemptId : Uuid) (fence : ℤ) (agentId : String)
      (processTermination : AgentCancellationOutcome) (uncertain : ℕ)
  | attemptCancellationCompleted (attemptId : Uuid) (fence : ℤ) (agentId : String)
      (processTermination : AgentCancellationOutcome) (recovery : Bool)
  | attemptTerminalReconciliationRequired (attemptId nodeId : Uuid) (fence restoreEpoch : ℤ)
      (agentId : String) (attemptedOutcome : TerminalOutcome) (uncertain : ℕ)
  | attemptTerminal (attemptId : Uuid) (fence restoreEpoch : ℤ) (outcome : TerminalOutcome)
  | attemptReconciliationTerminal (attemptId : Uuid) (fence restoreEpoch : ℤ) (actor : String)
      (outcome : TerminalOutcome) (summary : Json)
  | attemptDeadLettered (actor : String) (attemptId : Uuid) (payload : Json)
  | attemptRetryScheduled (actor : String) (attemptId retryOf : Uuid) (ordinal : ℤ)
      (reason : String) (dag : Bool)
  | attemptRestoreReconciliationRequired (attemptId : Uuid) (attemptRestoreEpoch restoreEpoch : ℤ)
      (backupId recoveryLsn : String) (uncertain : ℕ)
  | dagNodeRetryScheduled (nodeId : Uuid) (nodeKey : String) (attemptId : Uuid)
      (ordinal maxAttempts : ℤ)
  | dagPipelineGenerationFenced (nodeId : Uuid) (nodeKey : String) (attemptId : Uuid)
      (outcome : TerminalOutcome)
  | dagNodeTerminal (nodeId : Uuid) (nodeKey : String) (attemptId : Uuid)
      (outcome : TerminalOutcome) (failFast : Bool)
  | dagBuildTerminal (status : BuildStatus) (notifications : ℕ)
  deriving DecidableEq

/-- A row of `build_events`. -/
structure BuildEvent where
  buildId : Uuid
  payload : EventPayload
  deriving DecidableEq

/-! ## The store -/

/-- One organization's durable state.  The event log is kept newest first. -/
structure Store where
  organizationId : Uuid
  restoreEpoch : ℤ
  recoveryPoints : Table String RecoveryPointRow
  restoreEpochs : Table String RestoreEpochRow
  pipelines : Table Uuid PipelineRow
  pipelineRevisions : Table (Uuid × ℤ) PipelineRevisionRow
  pipelineStates : Table (Uuid × ℤ) PipelineStateRow
  agentSessions : Table String AgentSessionRow
  builds : Table Uuid BuildRow
  nodes : Table Uuid NodeRow
  dependencies : List DependencyRow
  attempts : Table Uuid AttemptRow
  effects : Table EffectId EffectRow
  deadLetters : Table Uuid DeadLetterRow
  logChunks : Table LogChunkId LogChunkRow
  logAccounting : Table (Uuid × ℤ) ℤ
  credentialGrants : Table Uuid CredentialGrantRow
  notifications : Table NotificationId NotificationRow
  events : List BuildEvent
  deriving DecidableEq

/-- A failed Store call; its transaction leaves the state as it was. -/
inductive StoreError where
  /-- A query without its row, or a violated constraint. -/
  | database
  | incompleteAdmission
  | invalidAgentSession
  | invalidTrustPool
  | invalidDag (message : String)
  | invalidPipelineState (message : String)
  | invalidProductOperation (message : String)
  | invalidRecoveryOperation (message : String)
  | invalidAuditOperation (message : String)
  | idempotencyConflict (message : String)
  | pipelineStateConflict (message : String)
  | pipelineDisabled (pipelineId : Uuid) (generation : ℤ)
  | productConflict (message : String)
  | sequentialIntegrity (message : String)
  | invalidSecurityOperation (message : String)
  deriving DecidableEq

namespace Store

/-- `append_event_and_outbox`. -/
@[simps]
def appendEvent (s : Store) (buildId : Uuid) (payload : EventPayload) : Store :=
  { s with events := ⟨buildId, payload⟩ :: s.events }

/-- `UPDATE builds SET … WHERE id = …`. -/
@[simps]
def modifyBuild (s : Store) (buildId : Uuid) (f : BuildRow → BuildRow) : Store :=
  { s with builds := s.builds.modify buildId f }

/-- `UPDATE attempts SET … WHERE id = …`. -/
@[simps]
def modifyAttempt (s : Store) (attemptId : Uuid) (f : AttemptRow → AttemptRow) : Store :=
  { s with attempts := s.attempts.modify attemptId f }

/-- `UPDATE attempts AS a SET … FROM nodes AS n WHERE n.id = a.node_id AND …`. -/
@[simps]
def updateAttemptsJoin (s : Store) (p : Uuid → AttemptRow → NodeRow → Bool)
    (f : AttemptRow → AttemptRow) : Store :=
  { s with attempts :=
      s.attempts.update (fun id a => (s.nodes.lookup a.nodeId).any (p id a)) fun _ => f }

/-- `lock_agent_session`: whether the agent's current session has the presented epoch. -/
def sessionIsCurrent (s : Store) (agentId : String) (sessionEpoch : ℕ) : Except StoreError Bool :=
  if (sessionEpoch : ℤ) ≤ i64Max then
    .ok ((s.agentSessions.lookup agentId).any fun row => row.sessionEpoch == (sessionEpoch : ℤ))
  else .error .invalidAgentSession

/-- `lock_agent_session` where the caller may not present a session at all. -/
def sessionAdmits (s : Store) (agentId : String) : Option ℕ → Except StoreError Bool
  | none => .ok true
  | some sessionEpoch => s.sessionIsCurrent agentId sessionEpoch

end Store

/-- Inserts one row; a used key violates the primary key. -/
def insertRow {κ ρ : Type} [DecidableEq κ] (t : Table κ ρ) (k : κ) (r : ρ) :
    Except StoreError (Table κ ρ) :=
  if k ∈ t then .error .database else .ok (t.insert k r)

structure PipelineWrite where
  projectId : Uuid
  pipelineId : Uuid
  slug : String
  source : String
  sourceSha256 : Digest
  semanticDigest : Digest
  schemaMajor : ℤ
  schemaMinor : ℤ
  parameterSchema : Json

/-- `PipelinePutOutcome`, without the stored record. -/
inductive PipelinePutOutcome where
  | created | updated | unchanged
  | preconditionFailed (currentRevision : ℤ)
  deriving DecidableEq

structure PipelineOperationalStateTransition where
  projectId : Uuid
  pipelineId : Uuid
  expectedGeneration : ℤ
  state : PipelineOperationalState
  reason : String
  actorSubject : String
  sourceIdentity : String
  sourceGeneration : String
  sourceEffectiveAtUnixMs : ℤ
  sourceProvenanceSha256 : Digest
  idempotencyKey : String

/-- `PipelineOperationalStateTransitionOutcome`, without the stored record. -/
inductive PipelineTransitionOutcome where
  | applied | idempotent | notFound
  | preconditionFailed (currentGeneration : ℤ)
  deriving DecidableEq

/-- `PipelineOperationalState::as_str`. -/
def PipelineOperationalState.asStr : PipelineOperationalState → String
  | .enabled => "enabled"
  | .disabled => "disabled"

/-- A non-empty text within a byte bound, without surrounding whitespace or control characters. -/
def canonicalBounded (value : String) (maximum : ℕ) : Bool :=
  !value.isEmpty && value.utf8ByteSize ≤ maximum && trim value == value &&
    !value.toList.any isControl

/-- `validate_pipeline_write`. -/
def PipelineWrite.validate (input : PipelineWrite) : Except StoreError Unit :=
  if !canonicalBounded input.slug 128 || input.source.isEmpty
      || input.source.utf8ByteSize > 1048576 || input.schemaMajor ≤ 0 || input.schemaMinor < 0
      || (match input.parameterSchema with | .obj _ => false | _ => true) then
    .error (.invalidProductOperation "pipeline catalog input is outside its bounds")
  else .ok ()

/-- `validate_pipeline_operational_transition`. -/
def PipelineOperationalStateTransition.validate (input : PipelineOperationalStateTransition) :
    Except StoreError Unit :=
  if input.expectedGeneration ≤ 0 || !canonicalBounded input.reason 2048
      || !canonicalBounded input.actorSubject 512 || !canonicalBounded input.sourceIdentity 512
      || input.sourceIdentity == "migration:v27" || !canonicalBounded input.sourceGeneration 512
      || input.sourceEffectiveAtUnixMs < 0
      || input.sourceProvenanceSha256.bytes == List.replicate 32 0
      || !canonicalBounded input.idempotencyKey 256 then
    .error (.invalidPipelineState "pipeline operational-state transition is outside its bounds")
  else .ok ()

/-- The history row that a transition writes. -/
def PipelineOperationalStateTransition.row (input : PipelineOperationalStateTransition) :
    PipelineStateRow where
  projectId := input.projectId
  state := input.state
  reason := input.reason
  actorSubject := input.actorSubject
  sourceIdentity := input.sourceIdentity
  sourceGeneration := input.sourceGeneration
  sourceEffectiveAtUnixMs := input.sourceEffectiveAtUnixMs
  sourceProvenanceSha256 := input.sourceProvenanceSha256
  idempotencyKey := input.idempotencyKey

/-- The revision row that a write stores. -/
def PipelineWrite.row (input : PipelineWrite) : PipelineRevisionRow where
  projectId := input.projectId
  source := input.source
  sourceSha256 := input.sourceSha256
  semanticDigest := input.semanticDigest
  schemaMajor := input.schemaMajor
  schemaMinor := input.schemaMinor
  parameterSchema := input.parameterSchema

namespace Store

/-- A pipeline's definition joined with the state of its current generation. -/
def currentPipelineState (s : Store) (pipelineId : Uuid) :
    Option (PipelineRow × PipelineOperationalState) := do
  let definition ← s.pipelines.lookup pipelineId
  let history ← s.pipelineStates.lookup (pipelineId, definition.operationalGeneration)
  return (definition, history.state)

/-- `lock_enabled_pipeline_binding`: the digest of the revision a new build is bound to. -/
def lockEnabledPipelineBinding (s : Store) (projectId pipelineId : Uuid)
    (pipelineRevision operationalGeneration : ℤ) : Except StoreError Digest :=
  if pipelineRevision ≤ 0 || operationalGeneration ≤ 0 then
    .error (.invalidPipelineState
      "pipeline admission binding must use positive revision and generation")
  else
    match s.currentPipelineState pipelineId with
    | none => .error (.pipelineStateConflict
        "pipeline admission binding does not identify a saved pipeline")
    | some (definition, state) =>
      match s.pipelineRevisions.lookup (pipelineId, definition.currentRevision) with
      | none => .error (.pipelineStateConflict
          "pipeline admission binding does not identify a saved pipeline")
      | some revision =>
        if definition.projectId ≠ projectId then
          .error (.pipelineStateConflict
            "pipeline admission binding does not identify a saved pipeline")
        else if state = .disabled then
          .error (.pipelineDisabled pipelineId definition.operationalGeneration)
        else if definition.currentRevision ≠ pipelineRevision
            ∨ definition.operationalGeneration ≠ operationalGeneration then
          .error (.pipelineStateConflict
            (s!"pipeline admission binding is stale: current revision/generation is " ++
              s!"{definition.currentRevision}/{definition.operationalGeneration}"))
        else .ok revision.semanticDigest

/-- `lock_build_pipeline_truth`: the bound pipeline with its admitted and current generation and
its current state. -/
def lockBuildPipelineTruth (s : Store) (buildId : Uuid) :
    Except StoreError (Uuid × ℤ × ℤ × PipelineOperationalState) :=
  match s.builds.lookup buildId with
  | some { pipelineId := some pipelineId, pipelineOperationalGeneration := some admitted, .. } =>
    match s.currentPipelineState pipelineId with
    | some (definition, state) =>
      .ok (pipelineId, admitted, definition.operationalGeneration, state)
    | none => .error (.pipelineStateConflict
        "build pipeline operational-state truth is missing")
  | _ => .error (.pipelineStateConflict
      "build is missing its pipeline operational-state binding")

/-- `lock_enabled_build_pipeline`: the bound pipeline, enabled at the admitted generation. -/
def lockEnabledBuildPipeline (s : Store) (buildId : Uuid) : Except StoreError (Uuid × ℤ) :=
  match s.lockBuildPipelineTruth buildId with
  | .error error => .error error
  | .ok (pipelineId, admitted, current, state) =>
    if state = .disabled then .error (.pipelineDisabled pipelineId current)
    else if current ≠ admitted then
      .error (.pipelineStateConflict
        s!"build pipeline generation {admitted} is stale; current generation is {current}")
    else .ok (pipelineId, current)

/-- Whether a build's pipeline is enabled at the generation it was admitted under.  The two errors
of `lock_enabled_build_pipeline` are the ones its callers read as `false`. -/
def buildPipelineEnabled (s : Store) (buildId : Uuid) : Bool :=
  match s.lockEnabledBuildPipeline buildId with
  | .ok _ => true
  | .error _ => false

/-- `put_pipeline_as`. -/
def putPipeline (s : Store) (now : Timestamp) (input : PipelineWrite)
    (expectedRevision : Option ℤ) (actorSubject : String) :
    Except StoreError (Store × PipelinePutOutcome) := do
  input.validate
  if actorSubject.isEmpty || trim actorSubject != actorSubject then
    .error (.invalidProductOperation "pipeline audit actor must be non-empty and canonical")
  else if expectedRevision.any (· < 0) then
    .error (.invalidProductOperation "pipeline revision precondition must be non-negative")
  else if (s.pipelines.lookup input.pipelineId).any fun row => row.projectId ≠ input.projectId then
    .error (.productConflict
      s!"pipeline id '{Uuid.toText input.pipelineId}' is already in use in another project")
  else if s.pipelines.any fun id row =>
      row.projectId = input.projectId ∧ row.slug = input.slug ∧ id ≠ input.pipelineId then
    .error (.productConflict
      s!"pipeline slug '{input.slug}' is already in use in this project")
  else
    match s.pipelines.lookup input.pipelineId with
    | some current =>
      if expectedRevision ≠ some current.currentRevision then
        .ok (s, .preconditionFailed current.currentRevision)
      else
        match s.pipelineRevisions.lookup (input.pipelineId, current.currentRevision) with
        | none => .error .database
        | some revision =>
          if current.slug = input.slug ∧ { revision with projectId := input.projectId } =
              input.row then
            .ok (s, .unchanged)
          else
            let next := current.currentRevision + 1
            let revisions ← insertRow s.pipelineRevisions (input.pipelineId, next) input.row
            .ok ({ s with
              pipelineRevisions := revisions
              pipelines := s.pipelines.modify input.pipelineId fun row =>
                { row with currentRevision := next, slug := input.slug } }, .updated)
    | none =>
      if expectedRevision.any (· ≠ 0) then .ok (s, .preconditionFailed 0)
      else
        let pipelines ← insertRow s.pipelines input.pipelineId
          { projectId := input.projectId, slug := input.slug, currentRevision := 1,
            operationalGeneration := 1 }
        let revisions ← insertRow s.pipelineRevisions (input.pipelineId, 1) input.row
        let states ← insertRow s.pipelineStates (input.pipelineId, 1)
          { projectId := input.projectId, state := .enabled,
            reason := "pipeline created enabled", actorSubject,
            sourceIdentity := "pipeline:create", sourceGeneration := "revision:1",
            sourceEffectiveAtUnixMs := now / 1000, sourceProvenanceSha256 := input.sourceSha256,
            idempotencyKey := "pipeline:create:" ++ Uuid.toText input.pipelineId }
        .ok ({ s with pipelines := pipelines, pipelineRevisions := revisions,
                      pipelineStates := states }, .created)

/-- `transition_pipeline_operational_state`. -/
def transitionPipelineOperationalState (s : Store) (input : PipelineOperationalStateTransition) :
    Except StoreError (Store × PipelineTransitionOutcome) := do
  input.validate
  let next := input.expectedGeneration + 1
  if next > i64Max then
    .error (.invalidPipelineState "pipeline operational-state generation overflow")
  else
    match s.pipelineStates.select fun id row =>
        id.1 = input.pipelineId ∧ row.idempotencyKey = input.idempotencyKey with
    | ((_, generation), existing) :: _ =>
      if generation = next ∧ existing = input.row then .ok (s, .idempotent)
      else .error (.pipelineStateConflict
        s!"idempotency key '{input.idempotencyKey}' is already bound to a different transition")
    | [] =>
      match s.currentPipelineState input.pipelineId with
      | none => .ok (s, .notFound)
      | some (definition, state) =>
        if definition.projectId ≠ input.projectId then .ok (s, .notFound)
        else if definition.operationalGeneration ≠ input.expectedGeneration then
          .ok (s, .preconditionFailed definition.operationalGeneration)
        else if state = input.state then
          .error (.invalidPipelineState
            s!"pipeline is already {state.asStr} at generation {input.expectedGeneration}")
        else
          let states ← insertRow s.pipelineStates (input.pipelineId, next) input.row
          .ok ({ s with
            pipelineStates := states
            pipelines := s.pipelines.modify input.pipelineId fun row =>
              { row with operationalGeneration := next } }, .applied)

end Store

end McLoving
