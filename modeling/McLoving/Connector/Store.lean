import McLoving.Domain.Primitives
import McLoving.Lib.Table
import Mathlib.Algebra.BigOperators.Group.List.Basic

/-!
# The connector's database

The connector sends an action to a destination on behalf of an attempt and signs a receipt about the
outcome.  Its SQLite file keeps the active configuration, one row for every admitted request and the
evidence of all receipts.  Each call is one transaction.
-/

namespace McLoving.Connector

/-! ## Records -/

inductive ActivationMode where
  | current
  | cutover
  | rollback
  deriving DecidableEq

inductive IdempotencyClass where
  | idempotent
  | externallyIdempotent
  | nonIdempotent
  deriving DecidableEq

def IdempotencyClass.retrySafe : IdempotencyClass → Bool
  | .idempotent => true
  | .externallyIdempotent => true
  | .nonIdempotent => false

inductive OutcomeStatus where
  | succeeded
  | failed
  | retryableFailure
  | ambiguous
  deriving DecidableEq

inductive JsonKind where
  | array
  | boolean
  | null
  | number
  | object
  | string
  deriving DecidableEq

/-- `JsonKind::matches`. -/
def JsonKind.matches : JsonKind → Json → Bool
  | .array, .arr _ => true
  | .boolean, .bool _ => true
  | .null, .null => true
  | .number, .num _ => true
  | .object, .obj _ => true
  | .string, .str _ => true
  | _, _ => false

/-- `Confidentiality` of the destination observer. -/
inductive Confidentiality where
  | isPublic
  | internal
  | secret
  deriving DecidableEq

/-- `ObservationPhase` of the destination observer. -/
inductive ObservationPhase where
  | preAction
  | postAction
  | reconciliation
  deriving DecidableEq

/-- `ConnectorLimits`, without the bounds on response sizes. -/
structure ConnectorLimits where
  maxRequestBytes : ℕ
  maxReceipts : ℕ
  maxRuntimeHistory : ℕ
  maxAttempts : ℕ
  timeoutMs : ℕ
  maxAuthorityWindowMs : ℤ
  deriving DecidableEq

/-- `ObserverReceiptBinding`: what an observation must repeat. -/
structure ObserverReceiptBinding where
  observerId : String
  implementationSha256 : String
  imageSha256 : String
  configSha256 : String
  deploymentIdentity : String
  operatorTrustIdentity : String
  runtimeBoundaryIdentity : String
  serviceIdentity : String
  credentialIssuancePathIdentity : String
  configurationAuthorityIdentity : String
  requestAuthorityIdentity : String
  generation : ℕ
  activationMode : ActivationMode
  previousGeneration : Option ℕ
  rollbackFromGeneration : Option ℕ
  endpointIdentity : String
  accountIdentity : String
  resourceIdentity : String
  effectClass : String
  readGrantId : String
  readGrantVersion : String
  readGrantScope : String
  canonicalQuery : List (String × String)
  stateSchemaVersion : String
  confidentiality : Confidentiality
  destinationAttestationKeyId : String
  receiptSigningKeyId : String
  receiptSigningPublicKeySha256 : String
  deriving DecidableEq

/-- `ConnectorConfig`.  The fields that only `validate_config` and the HTTP client read stand in
`rest`. -/
structure ConnectorConfig where
  connectorId : String
  implementationSha256 : String
  imageSha256 : String
  deploymentIdentity : String
  operatorTrustIdentity : String
  runtimeBoundaryIdentity : String
  serviceIdentity : String
  configurationAuthorityIdentity : String
  requestAuthorityIdentity : String
  credentialIssuancePathIdentity : String
  generation : ℕ
  activationMode : ActivationMode
  previousGeneration : Option ℕ
  previousConfigSha256 : Option String
  rollbackFromGeneration : Option ℕ
  endpointIdentity : String
  accountIdentity : String
  resourceIdentity : String
  effectClass : String
  actionName : String
  actionSchemaVersion : String
  requestPayloadSchema : List (String × JsonKind)
  credentialGrantId : String
  credentialGrantVersion : String
  credentialGrantScope : String
  credentialGrantExpiresUnixMs : ℤ
  requestAuthorityKeyId : String
  requestAuthorityKeySha256 : String
  outcomeSigningKeyId : String
  outcomeSigningPublicKeySha256 : String
  observerBinding : ObserverReceiptBinding
  limits : ConnectorLimits
  rest : Json
  deriving DecidableEq

/-- The scope in which an effect happens at most once. -/
structure EffectScope where
  tenantId : Uuid
  projectId : Uuid
  attemptId : Uuid
  effectFence : ℕ
  effectKey : String
  deriving DecidableEq

/-- `ActionRequest`, with its authorization. -/
structure ActionRequest where
  schemaVersion : String
  protocolVersion : String
  requestId : Uuid
  tenantId : Uuid
  projectId : Uuid
  pipelineId : Uuid
  buildId : Uuid
  attemptId : Uuid
  effectFence : ℕ
  effectKey : String
  connectorId : String
  expectedImplementationSha256 : String
  expectedImageSha256 : String
  expectedConfigSha256 : String
  expectedGeneration : ℕ
  endpointIdentity : String
  accountIdentity : String
  resourceIdentity : String
  effectClass : String
  idempotencyClass : IdempotencyClass
  actionName : String
  actionSchemaVersion : String
  requestPayload : Json
  credentialGrantId : String
  credentialGrantVersion : String
  credentialGrantScope : String
  requestedAtUnixMs : ℤ
  expiresAtUnixMs : ℤ
  auditProvenance : String
  authorizationKeyId : String
  authorizationSignatureBase64 : String
  deriving DecidableEq

/-- `unsigned_request`. -/
def ActionRequest.unsigned (request : ActionRequest) : ActionRequest :=
  { request with authorizationSignatureBase64 := "" }

/-- The scope of a request. -/
def ActionRequest.scope (request : ActionRequest) : EffectScope :=
  ⟨request.tenantId, request.projectId, request.attemptId, request.effectFence, request.effectKey⟩

structure ProtectedSecretRef where
  providerIdentity : String
  reference : String
  version : String
  taint : String
  deriving DecidableEq

/-- The parts of a `SignedDestinationOutcome` that reach the receipt, with its digest. -/
structure DestinationOutcome where
  status : OutcomeStatus
  statusCode : String
  publicValues : List (String × Json)
  protectedSecretRefs : List ProtectedSecretRef
  externalIds : List (String × String)
  downstreamControlDigest : String
  laterIntentsDigest : String
  attestationKeyId : String
  signatureBase64 : String
  responseSha256 : String
  deriving DecidableEq

structure OutcomeReceipt where
  schemaVersion : String
  protocolVersion : String
  evidenceSequence : ℕ
  requestId : Uuid
  requestSha256 : String
  tenantId : Uuid
  projectId : Uuid
  pipelineId : Uuid
  buildId : Uuid
  attemptId : Uuid
  effectFence : ℕ
  effectKey : String
  connectorId : String
  connectorImplementationSha256 : String
  connectorImageSha256 : String
  connectorConfigSha256 : String
  deploymentIdentity : String
  operatorTrustIdentity : String
  runtimeBoundaryIdentity : String
  serviceIdentity : String
  configurationAuthorityIdentity : String
  requestAuthorityIdentity : String
  credentialIssuancePathIdentity : String
  generation : ℕ
  activationMode : ActivationMode
  previousGeneration : Option ℕ
  previousConfigSha256 : Option String
  rollbackFromGeneration : Option ℕ
  endpointIdentity : String
  accountIdentity : String
  resourceIdentity : String
  effectClass : String
  idempotencyClass : IdempotencyClass
  actionName : String
  actionSchemaVersion : String
  credentialGrantId : String
  credentialGrantVersion : String
  credentialGrantScope : String
  requestPayloadSha256 : String
  status : OutcomeStatus
  statusCode : String
  publicValues : List (String × Json)
  protectedSecretRefs : List ProtectedSecretRef
  externalIds : List (String × String)
  downstreamControlDigest : String
  laterIntentsDigest : String
  destinationResponseSha256 : Option String
  destinationSignatureBase64 : Option String
  destinationAttestationKeyId : Option String
  attemptCount : ℕ
  ambiguousRequiresObservation : Bool
  observationReceiptSha256 : Option String
  dispatchedAtUnixMs : Option ℤ
  capturedAtUnixMs : ℤ
  auditProvenance : String
  outcomeSigningKeyId : String
  outcomeSigningPublicKeySha256 : String
  signatureBase64 : String
  deriving DecidableEq

/-- The parts of a destination observer's `ObservationReceipt` that `reconcile` reads, with its
digest. -/
structure ObservationReceipt where
  binding : ObserverReceiptBinding
  tenantId : Uuid
  projectId : Uuid
  pipelineId : Uuid
  buildId : Uuid
  attemptId : Uuid
  effectFence : ℕ
  phase : ObservationPhase
  destinationObservedAtUnixMs : ℤ
  capturedAtUnixMs : ℤ
  publicationDeadlineUnixMs : ℤ
  state : Json
  receiptSha256 : String
  deriving DecidableEq

structure ReconcileRequest where
  schemaVersion : String
  requestId : Uuid
  expectedRequestSha256 : String
  expectedAmbiguousReceiptSha256 : String
  observedEffect : Bool
  observationReceipt : ObservationReceipt
  auditProvenance : String
  deriving DecidableEq

/-- The errors of `ConnectorError` that the modelled calls return. -/
inductive ConnectorError where
  | invalidConfig
  | malformedRequest
  | oversizedRequest
  | unauthorizedRequest
  | bindingMismatch
  | expiredAuthority
  | runtimeFenced
  | replayMismatch
  | effectPending
  | destinationUnauthorized
  | destinationUnavailable
  | malformedResponse
  | oversizedResponse
  | confidentialityDenied
  | invalidObservation
  | capacityExceeded
  | stateUnavailable
  | invalidReceipt
  deriving DecidableEq

/-- `ConnectorError::code`. -/
def ConnectorError.code : ConnectorError → String
  | .invalidConfig => "invalid_config"
  | .malformedRequest => "malformed_request"
  | .oversizedRequest => "oversized_request"
  | .unauthorizedRequest => "unauthorized_request"
  | .bindingMismatch => "binding_mismatch"
  | .expiredAuthority => "expired_authority"
  | .runtimeFenced => "runtime_fenced"
  | .replayMismatch => "replay_mismatch"
  | .effectPending => "effect_pending"
  | .destinationUnauthorized => "destination_unauthorized"
  | .destinationUnavailable => "destination_unavailable"
  | .malformedResponse => "malformed_response"
  | .oversizedResponse => "oversized_response"
  | .confidentialityDenied => "confidentiality_denied"
  | .invalidObservation => "invalid_observation"
  | .capacityExceeded => "capacity_exceeded"
  | .stateUnavailable => "state_unavailable"
  | .invalidReceipt => "invalid_receipt"

/-! ## Tables -/

/-- The status of a request row. -/
inductive RequestStatus where
  | pending
  | terminal
  deriving DecidableEq

/-- A row of `requests`. -/
structure RequestRow where
  requestSha256 : String
  scopeKey : String
  idempotencyClass : IdempotencyClass
  status : RequestStatus
  dispatched : Bool
  dispatchedAtUnixMs : Option ℤ
  attemptCount : ℕ
  reservedReceipts : ℕ
  currentReceiptSha256 : Option String
  currentReceipt : Option OutcomeReceipt
  deriving DecidableEq

/-- A row of `evidence`; its sequence number is its place in the list. -/
structure EvidenceRow where
  requestId : Uuid
  receiptSha256 : String
  receipt : OutcomeReceipt
  deriving DecidableEq

/-- The singleton row of `runtime`. -/
structure Runtime where
  configSha256 : String
  generation : ℕ
  deriving DecidableEq

/-- The tables of the connector's database. -/
structure ConnectorStore where
  runtime : Option Runtime
  runtimeHistory : Table ℕ String
  requests : Table Uuid RequestRow
  evidence : List EvidenceRow

/-- The database of a new state directory. -/
def ConnectorStore.initial : ConnectorStore :=
  ⟨none, ∅, ∅, []⟩

/-! ## Digests -/

/-- What the connector takes from other software, and the encodings that `serde` derives. -/
class ConnectorPlatform where
  /-- `serde_json::to_vec` of a configuration. -/
  configBytes : ConnectorConfig → List UInt8
  /-- `serde_json::to_vec` of a request. -/
  requestBytes : ActionRequest → List UInt8
  /-- `serde_json::to_vec` of a receipt. -/
  receiptBytes : OutcomeReceipt → List UInt8
  /-- The length of `serde_json::to_vec` of a reconciliation request. -/
  reconcileRequestSize : ReconcileRequest → ℕ
  /-- Ed25519 key derivation, signature and verification. -/
  publicKeyFromSeed : List UInt8 → Except ConnectorError (List UInt8)
  sign : List UInt8 → List UInt8 → Except ConnectorError String
  verify : List UInt8 → String → List UInt8 → Bool
  /-- A signature verifies under the key of the seed that made it. -/
  verify_sign : ∀ message seed signature publicKey, sign message seed = .ok signature →
    publicKeyFromSeed seed = .ok publicKey → verify message signature publicKey = true
  /-- `contains_secret_value`. -/
  containsSecretValue : List UInt8 → List (List UInt8) → Bool
  /-- `verify_observation_receipt`. -/
  verifyObservationReceipt : ObservationReceipt → List UInt8 → Bool

/-- `to_be_bytes` of a `u64`. -/
def toBeBytes (value : ℕ) : List UInt8 :=
  (List.range 8).map fun i => UInt8.ofNat (value / 256 ^ (7 - i))

def message (domain encoded : List UInt8) : List UInt8 :=
  toBeBytes domain.length ++ domain ++ toBeBytes encoded.length ++ encoded

section Digests

variable [Platform]

def contentSha256 (bytes : List UInt8) : String :=
  String.ofList ((Platform.sha256 bytes).bytes.flatMap fun byte => hexDigits 2 byte.toNat)

def canonicalDigest (domain : String) (encoded : List UInt8) : String :=
  contentSha256 (message domain.toUTF8.toList encoded)

def scopeKey (scope : EffectScope) : String :=
  contentSha256 (scope.tenantId.toText ++ ":" ++ scope.projectId.toText ++ ":" ++
    scope.attemptId.toText ++ ":" ++ toString scope.effectFence ++ ":" ++
    scope.effectKey).toUTF8.toList

variable [ConnectorPlatform]

/-- `ConnectorConfig::canonical_digest`. -/
def ConnectorConfig.digest (config : ConnectorConfig) : String :=
  canonicalDigest "mcloving-external-connector-config-v1" (ConnectorPlatform.configBytes config)

/-- `action_request_digest`. -/
def ActionRequest.digest (request : ActionRequest) : String :=
  canonicalDigest "mcloving-external-action-request-v1"
    (ConnectorPlatform.requestBytes request.unsigned)

/-- `outcome_receipt_digest`. -/
def OutcomeReceipt.digest (receipt : OutcomeReceipt) : String :=
  canonicalDigest "mcloving-external-outcome-digest-v1" (ConnectorPlatform.receiptBytes receipt)

def requestPayloadDigest (payload : Json) : String :=
  canonicalDigest "mcloving-external-request-payload-v1" payload.toBytes

end Digests

namespace ConnectorStore

/-! ## Opening -/

/-- The receipts that are stored or reserved. -/
def retainedAndReserved (store : ConnectorStore) : ℕ :=
  store.evidence.length + (store.requests.rows.map fun row => row.2.reservedReceipts).sum

/-- The requests that a change of generation waits for. -/
def unsettledRequests (store : ConnectorStore) : ℕ :=
  store.requests.count fun _ row => row.status = .pending || row.reservedReceipts ≠ 0

/-- The lineage that the activation of a new generation must name. -/
def activationLineage (store : ConnectorStore) (config : ConnectorConfig) (active : Runtime) :
    Bool :=
  match config.activationMode with
  | .current => false
  | .cutover =>
    config.previousGeneration = some active.generation &&
      config.previousConfigSha256 = some active.configSha256 &&
      config.rollbackFromGeneration = none
  | .rollback =>
    config.rollbackFromGeneration = some active.generation &&
      (config.previousGeneration.any fun target => target < active.generation) &&
      config.previousGeneration.bind store.runtimeHistory.lookup = config.previousConfigSha256

/-- Writing the runtime row and its history: the digests of the history are unique. -/
def activate (store : ConnectorStore) (runtime : Runtime) : Except ConnectorError ConnectorStore :=
  if (store.runtimeHistory.lookup runtime.generation).isSome ||
      store.runtimeHistory.any fun _ digest => digest = runtime.configSha256 then
    .error .stateUnavailable
  else
    .ok { store with
      runtime := some runtime
      runtimeHistory := store.runtimeHistory.insert runtime.generation runtime.configSha256 }

/-- `ConnectorStore::open`, after the tables exist. -/
def openStore (store : ConnectorStore) (configSha256 : String) (config : ConnectorConfig)
    (authorityActivationDeadlineUnixMs now : ℤ) : Except ConnectorError ConnectorStore := do
  let wanted : Runtime := ⟨configSha256, config.generation⟩
  if authorityActivationDeadlineUnixMs < now && store.runtime ≠ some wanted then
    throw .invalidConfig
  if config.limits.maxReceipts < store.retainedAndReserved then
    throw .capacityExceeded
  match store.runtime with
  | none =>
    if !(config.generation = 1 && config.activationMode = .current &&
        config.previousGeneration = none && config.previousConfigSha256 = none &&
        config.rollbackFromGeneration = none) then
      throw .runtimeFenced
    if config.limits.maxRuntimeHistory = 0 then
      throw .capacityExceeded
    store.activate wanted
  | some active =>
    if active = wanted then
      return store
    if config.generation ≤ active.generation then
      throw .runtimeFenced
    if store.unsettledRequests ≠ 0 then
      throw .runtimeFenced
    if config.limits.maxRuntimeHistory ≤ store.runtimeHistory.entries.length then
      throw .capacityExceeded
    if !store.activationLineage config active then
      throw .invalidConfig
    store.activate wanted

def assertRuntime (store : ConnectorStore) (configSha256 : String) (generation : ℕ) :
    Except ConnectorError Unit :=
  match store.runtime with
  | none => .error .stateUnavailable
  | some active =>
    if active ≠ ⟨configSha256, generation⟩ then .error .runtimeFenced else .ok ()

/-! ## Requests -/

inductive Claim where
  | dispatch (attemptCount : ℕ)
  | replay (receipt : OutcomeReceipt)
  | ambiguousAfterRestart (attemptCount : ℕ) (dispatchedAtUnixMs : ℤ)
  | retryBudgetExhausted (attemptCount : ℕ)
  deriving DecidableEq

/-- The row of a newly admitted request. -/
def newRow (requestSha256 scopeKey : String) (idempotencyClass : IdempotencyClass) : RequestRow :=
  { requestSha256 := requestSha256, scopeKey := scopeKey, idempotencyClass := idempotencyClass,
    status := .pending, dispatched := false, dispatchedAtUnixMs := none, attemptCount := 1,
    reservedReceipts := 2, currentReceiptSha256 := none, currentReceipt := none }

/-- `claim` on a request that has a row. -/
def reclaim (store : ConnectorStore) (maxReceipts : ℕ) (requestId : Uuid) (row : RequestRow)
    (requestSha256 : String) (idempotencyClass : IdempotencyClass) (maxAttempts : ℕ) :
    Except ConnectorError (ConnectorStore × Claim) := do
  if row.requestSha256 ≠ requestSha256 || row.idempotencyClass ≠ idempotencyClass then
    throw .replayMismatch
  if row.status = .terminal then
    match row.currentReceipt with
    | none => throw .stateUnavailable
    | some receipt => return (store, .replay receipt)
  else if row.dispatched && !idempotencyClass.retrySafe then
    match row.dispatchedAtUnixMs with
    | none => throw .stateUnavailable
    | some dispatchedAt => return (store, .ambiguousAfterRestart row.attemptCount dispatchedAt)
  else if maxAttempts ≤ row.attemptCount then
    return (store, .retryBudgetExhausted row.attemptCount)
  else if maxReceipts < store.retainedAndReserved then
    throw .capacityExceeded
  else
    let next := min (row.attemptCount + 1) 255
    return ({ store with
      requests := store.requests.modify requestId fun row =>
        { row with dispatched := false, dispatchedAtUnixMs := none, attemptCount := next } },
      .dispatch next)

/-- `claim` on a request that has no row yet. -/
def admitRequest (store : ConnectorStore) (maxReceipts : ℕ) (requestId : Uuid)
    (requestSha256 scopeKey : String) (idempotencyClass : IdempotencyClass)
    (notBeforeUnixMs deadlineUnixMs now : ℤ) :
    Except ConnectorError (ConnectorStore × Claim) := do
  if maxReceipts < store.retainedAndReserved + 2 then
    throw .capacityExceeded
  if store.requests.any fun _ row => row.scopeKey = scopeKey then
    throw .effectPending
  if now < notBeforeUnixMs || deadlineUnixMs < now then
    throw .expiredAuthority
  return ({ store with
    requests := store.requests.insert requestId (newRow requestSha256 scopeKey idempotencyClass) },
    .dispatch 1)

def claim (store : ConnectorStore) (maxReceipts : ℕ) (requestId : Uuid)
    (requestSha256 scopeKey : String) (idempotencyClass : IdempotencyClass) (maxAttempts : ℕ)
    (notBeforeUnixMs deadlineUnixMs now : ℤ) : Except ConnectorError (ConnectorStore × Claim) :=
  match store.requests.lookup requestId with
  | some row => store.reclaim maxReceipts requestId row requestSha256 idempotencyClass maxAttempts
  | none =>
    store.admitRequest maxReceipts requestId requestSha256 scopeKey idempotencyClass
      notBeforeUnixMs deadlineUnixMs now

/-- The condition of the updates that only touch a pending request. -/
def isPending (store : ConnectorStore) (requestId : Uuid) (requestSha256 : String) : Bool :=
  (store.requests.lookup requestId).any fun row =>
    row.requestSha256 = requestSha256 && row.status = .pending

def markDispatched (store : ConnectorStore) (requestId : Uuid) (requestSha256 : String)
    (dispatchedAtUnixMs : ℤ) : Except ConnectorError ConnectorStore :=
  if store.isPending requestId requestSha256 then
    .ok { store with
      requests := store.requests.modify requestId fun row =>
        { row with dispatched := true, dispatchedAtUnixMs := some dispatchedAtUnixMs } }
  else .error .runtimeFenced

def releaseRetryable (store : ConnectorStore) (requestId : Uuid) (requestSha256 : String) :
    Except ConnectorError ConnectorStore :=
  if store.isPending requestId requestSha256 then
    .ok { store with
      requests := store.requests.modify requestId fun row =>
        { row with dispatched := false, dispatchedAtUnixMs := none } }
  else .error .runtimeFenced

/-! ## Receipts -/

def nextSequence (store : ConnectorStore) : ℕ :=
  store.evidence.length + 1

variable [Platform] [ConnectorPlatform]

/-- The insertion of a receipt into `evidence`, whose digests are unique. -/
def insertEvidence (store : ConnectorStore) (receipt : OutcomeReceipt) :
    Except ConnectorError ConnectorStore :=
  if store.evidence.any fun row => row.receiptSha256 = receipt.digest then
    .error .stateUnavailable
  else
    .ok { store with
      evidence := store.evidence ++ [⟨receipt.requestId, receipt.digest, receipt⟩] }

def finalize (store : ConnectorStore) (maxReceipts : ℕ) (requestSha256 : String)
    (receipt : OutcomeReceipt) : Except ConnectorError ConnectorStore := do
  if maxReceipts ≤ store.evidence.length then
    throw .capacityExceeded
  if !(store.requests.lookup receipt.requestId).any fun row =>
      row.requestSha256 = requestSha256 then
    throw .replayMismatch
  insertEvidence { store with
    requests := store.requests.modify receipt.requestId fun row =>
      { row with
        status := .terminal, currentReceiptSha256 := some receipt.digest,
        currentReceipt := some receipt,
        reservedReceipts := receipt.ambiguousRequiresObservation.toNat } } receipt

omit [Platform] [ConnectorPlatform] in
def currentReceipt (store : ConnectorStore) (requestId : Uuid) :
    Except ConnectorError OutcomeReceipt :=
  match (store.requests.lookup requestId).filter fun row => row.status = .terminal with
  | none => .error .invalidReceipt
  | some row =>
    match row.currentReceipt with
    | none => .error .invalidReceipt
    | some receipt => .ok receipt

def replaceAfterReconciliation (store : ConnectorStore) (maxReceipts : ℕ) (priorDigest : String)
    (receipt : OutcomeReceipt) : Except ConnectorError ConnectorStore := do
  if maxReceipts ≤ store.evidence.length then
    throw .capacityExceeded
  if !(store.requests.lookup receipt.requestId).any fun row =>
      row.currentReceiptSha256 = some priorDigest && row.status = .terminal then
    throw .replayMismatch
  insertEvidence { store with
    requests := store.requests.modify receipt.requestId fun row =>
      { row with
        currentReceiptSha256 := some receipt.digest, currentReceipt := some receipt,
        reservedReceipts := 0 } } receipt

end ConnectorStore

end McLoving.Connector
