import McLoving.Connector.Store
import McLoving.Lib.History

/-!
# Executing and reconciling

`execute_inner` is a loop of store calls around the network dispatch.  A process can die between any
two of them, so the call is modelled by the step it is about to take: claiming the request, marking
it as dispatched, entering the network, and dealing with the answer.  What follows an answer or an
expired window up to the next store call is one step with that call, since nothing durable happens
in between.  Clock readings are after the Unix epoch.
-/

namespace McLoving.Connector

/-- A reading of `unix_time_ms`. -/
abbrev UnixMs := { t : ℤ // 0 < t ∧ t ≤ i64Max }

/-- `i64::saturating_add` for bounded operands. -/
def saturatingAdd (a b : ℤ) : ℤ :=
  min (a + b) i64Max

/-- `ExternalConnector`: the configuration and the keys of an instance. -/
structure ExternalConnector where
  config : ConnectorConfig
  requestAuthorityKey : List UInt8
  outcomeSigningSeed : List UInt8
  observerReceiptKey : List UInt8
  secretMarkers : List (List UInt8)
  deriving DecidableEq

def protocolVersion : String := "mcloving.external-connector/v1"

def requestSchemaVersion : String := "mcloving.external-action-request/v1"

def outcomeReceiptSchemaVersion : String := "mcloving.external-outcome-receipt/v1"

def reconcileRequestSchemaVersion : String := "mcloving.external-reconcile-request/v1"

variable [Platform] [ConnectorPlatform]

namespace ExternalConnector

variable (connector : ExternalConnector)

/-! ## Checks -/

/-- The condition that `validate_config` puts on limits and on the keys of the modelled calls. -/
def validateConfig : Bool :=
  connector.config.generation ≠ 0 && connector.config.limits.maxRequestBytes ≠ 0 &&
    connector.config.limits.maxReceipts ≠ 0 && connector.config.limits.maxRuntimeHistory ≠ 0 &&
    connector.config.limits.maxRuntimeHistory ≤ 1024 && connector.config.limits.maxAttempts ≠ 0 &&
    connector.config.limits.maxAttempts ≤ 8 && connector.config.limits.timeoutMs ≠ 0 &&
    0 < connector.config.limits.maxAuthorityWindowMs &&
    (connector.config.limits.timeoutMs : ℤ) ≤ connector.config.limits.maxAuthorityWindowMs &&
    connector.config.requestAuthorityKeySha256 = contentSha256 connector.requestAuthorityKey &&
    (match ConnectorPlatform.publicKeyFromSeed connector.outcomeSigningSeed with
      | .ok publicKey =>
        connector.config.outcomeSigningPublicKeySha256 = contentSha256 publicKey
      | .error _ => false) &&
    connector.config.observerBinding.receiptSigningPublicKeySha256 =
      contentSha256 connector.observerReceiptKey

/-- The payload check of `validate_request`. -/
def payloadMatches (payload : Json) : Bool :=
  match payload with
  | .obj fields =>
    fields.length = connector.config.requestPayloadSchema.length &&
      fields.all fun field =>
        (connector.config.requestPayloadSchema.lookup field.1).any fun kind =>
          kind.matches field.2
  | _ => false

/-- What a request must repeat of the configuration. -/
def bindingMatches (request : ActionRequest) : Bool :=
  request.connectorId = connector.config.connectorId &&
    request.expectedImplementationSha256 = connector.config.implementationSha256 &&
    request.expectedImageSha256 = connector.config.imageSha256 &&
    request.expectedConfigSha256 = connector.config.digest &&
    request.expectedGeneration = connector.config.generation &&
    request.endpointIdentity = connector.config.endpointIdentity &&
    request.accountIdentity = connector.config.accountIdentity &&
    request.resourceIdentity = connector.config.resourceIdentity &&
    request.effectClass = connector.config.effectClass &&
    request.actionName = connector.config.actionName &&
    request.actionSchemaVersion = connector.config.actionSchemaVersion &&
    request.credentialGrantId = connector.config.credentialGrantId &&
    request.credentialGrantVersion = connector.config.credentialGrantVersion &&
    request.credentialGrantScope = connector.config.credentialGrantScope &&
    request.authorizationKeyId = connector.config.requestAuthorityKeyId

/-- The condition of `validate_request` on the request alone. -/
def wellFormed (request : ActionRequest) : Bool :=
  request.schemaVersion = requestSchemaVersion && request.protocolVersion = protocolVersion &&
    request.requestId ≠ 0 && request.tenantId ≠ 0 && request.projectId ≠ 0 &&
    request.pipelineId ≠ 0 && request.buildId ≠ 0 && request.attemptId ≠ 0 &&
    request.effectFence ≠ 0 && request.effectKey ≠ "" && request.effectKey.utf8ByteSize ≤ 256 &&
    request.auditProvenance ≠ "" && request.requestedAtUnixMs ≤ request.expiresAtUnixMs &&
    min (request.expiresAtUnixMs - request.requestedAtUnixMs) i64Max ≤
      connector.config.limits.maxAuthorityWindowMs

def validateRequest (request : ActionRequest) : Except ConnectorError Unit := do
  if !connector.wellFormed request then
    throw .malformedRequest
  if !ConnectorPlatform.verify (message "mcloving-external-action-request-v1".toUTF8.toList
      (ConnectorPlatform.requestBytes request.unsigned)) request.authorizationSignatureBase64
      connector.requestAuthorityKey then
    throw .unauthorizedRequest
  if !connector.bindingMatches request then
    throw .bindingMismatch
  if !connector.payloadMatches request.requestPayload then
    throw .bindingMismatch
  if ConnectorPlatform.containsSecretValue
      (Json.arr [.str request.effectKey, request.requestPayload,
        .str request.auditProvenance]).toBytes connector.secretMarkers then
    throw .confidentialityDenied

/-- The checks of `execute_inner` before its loop. -/
def admitCall (store : ConnectorStore) (request : ActionRequest) : Except ConnectorError Unit := do
  store.assertRuntime connector.config.digest connector.config.generation
  connector.validateRequest request
  if connector.config.limits.maxRequestBytes < (ConnectorPlatform.requestBytes request).length then
    throw .oversizedRequest

omit [Platform] [ConnectorPlatform] in
/-- `validate_transport_window`. -/
def withinTransportWindow (request : ActionRequest) (now : ℤ) : Bool :=
  request.requestedAtUnixMs ≤ now &&
    saturatingAdd now connector.config.limits.timeoutMs ≤ request.expiresAtUnixMs &&
    saturatingAdd now connector.config.limits.timeoutMs ≤
      connector.config.credentialGrantExpiresUnixMs

omit [Platform] [ConnectorPlatform] in
/-- The deadline until which a request may be admitted. -/
def authorityAdmissionDeadline (request : ActionRequest) : ℤ :=
  max (min request.expiresAtUnixMs connector.config.credentialGrantExpiresUnixMs -
    connector.config.limits.timeoutMs) (-i64Max - 1)

/-! ## Receipts -/

structure OutcomeTiming where
  dispatchedAtUnixMs : Option ℤ
  capturedAtUnixMs : ℤ

def baseReceipt (request : ActionRequest) (evidenceSequence attemptCount : ℕ)
    (timing : OutcomeTiming) : OutcomeReceipt where
  schemaVersion := outcomeReceiptSchemaVersion
  protocolVersion := protocolVersion
  evidenceSequence := evidenceSequence
  requestId := request.requestId
  requestSha256 := request.digest
  tenantId := request.tenantId
  projectId := request.projectId
  pipelineId := request.pipelineId
  buildId := request.buildId
  attemptId := request.attemptId
  effectFence := request.effectFence
  effectKey := request.effectKey
  connectorId := connector.config.connectorId
  connectorImplementationSha256 := connector.config.implementationSha256
  connectorImageSha256 := connector.config.imageSha256
  connectorConfigSha256 := connector.config.digest
  deploymentIdentity := connector.config.deploymentIdentity
  operatorTrustIdentity := connector.config.operatorTrustIdentity
  runtimeBoundaryIdentity := connector.config.runtimeBoundaryIdentity
  serviceIdentity := connector.config.serviceIdentity
  configurationAuthorityIdentity := connector.config.configurationAuthorityIdentity
  requestAuthorityIdentity := connector.config.requestAuthorityIdentity
  credentialIssuancePathIdentity := connector.config.credentialIssuancePathIdentity
  generation := connector.config.generation
  activationMode := connector.config.activationMode
  previousGeneration := connector.config.previousGeneration
  previousConfigSha256 := connector.config.previousConfigSha256
  rollbackFromGeneration := connector.config.rollbackFromGeneration
  endpointIdentity := connector.config.endpointIdentity
  accountIdentity := connector.config.accountIdentity
  resourceIdentity := connector.config.resourceIdentity
  effectClass := connector.config.effectClass
  idempotencyClass := request.idempotencyClass
  actionName := connector.config.actionName
  actionSchemaVersion := connector.config.actionSchemaVersion
  credentialGrantId := connector.config.credentialGrantId
  credentialGrantVersion := connector.config.credentialGrantVersion
  credentialGrantScope := connector.config.credentialGrantScope
  requestPayloadSha256 := requestPayloadDigest request.requestPayload
  status := .failed
  statusCode := ""
  publicValues := []
  protectedSecretRefs := []
  externalIds := []
  downstreamControlDigest := contentSha256 "no-downstream-control".toUTF8.toList
  laterIntentsDigest := contentSha256 "no-later-intents".toUTF8.toList
  destinationResponseSha256 := none
  destinationSignatureBase64 := none
  destinationAttestationKeyId := none
  attemptCount := attemptCount
  ambiguousRequiresObservation := false
  observationReceiptSha256 := none
  dispatchedAtUnixMs := timing.dispatchedAtUnixMs
  capturedAtUnixMs := timing.capturedAtUnixMs
  auditProvenance := request.auditProvenance
  outcomeSigningKeyId := connector.config.outcomeSigningKeyId
  outcomeSigningPublicKeySha256 := connector.config.outcomeSigningPublicKeySha256
  signatureBase64 := ""

def outcomeMessage (receipt : OutcomeReceipt) : List UInt8 :=
  message "mcloving-external-outcome-receipt-v1".toUTF8.toList
    (ConnectorPlatform.receiptBytes { receipt with signatureBase64 := "" })

def signOutcomeReceipt (receipt : OutcomeReceipt) : Except ConnectorError OutcomeReceipt := do
  let signature ← ConnectorPlatform.sign (outcomeMessage receipt) connector.outcomeSigningSeed
  return { receipt with signatureBase64 := signature }

/-- `verify_outcome_receipt` under the connector's own key. -/
def verifyOutcomeReceipt (receipt : OutcomeReceipt) : Except ConnectorError Unit := do
  let publicKey ← ConnectorPlatform.publicKeyFromSeed connector.outcomeSigningSeed
  if receipt.schemaVersion ≠ outcomeReceiptSchemaVersion ||
      receipt.protocolVersion ≠ protocolVersion || receipt.evidenceSequence = 0 ||
      receipt.requestId = 0 ||
      (receipt.dispatchedAtUnixMs.any fun dispatchedAt =>
        dispatchedAt ≤ 0 || receipt.capturedAtUnixMs < dispatchedAt) ||
      receipt.outcomeSigningPublicKeySha256 ≠ contentSha256 publicKey then
    throw .invalidReceipt
  if !ConnectorPlatform.verify (outcomeMessage receipt) receipt.signatureBase64 publicKey then
    throw .invalidReceipt

/-- Signing a receipt and making it the request's outcome. -/
def conclude (store : ConnectorStore) (request : ActionRequest) (receipt : OutcomeReceipt) :
    Except ConnectorError (ConnectorStore × OutcomeReceipt) := do
  let signed ← connector.signOutcomeReceipt receipt
  let store ← store.finalize connector.config.limits.maxReceipts request.digest signed
  return (store, signed)

def finalizeLocal (store : ConnectorStore) (request : ActionRequest) (attemptCount : ℕ)
    (status : OutcomeStatus) (statusCode : String) (timing : OutcomeTiming) :
    Except ConnectorError (ConnectorStore × OutcomeReceipt) :=
  connector.conclude store request
    { connector.baseReceipt request store.nextSequence attemptCount timing with
      status := status, statusCode := statusCode,
      ambiguousRequiresObservation := status = .ambiguous }

def finalizeDestination (store : ConnectorStore) (request : ActionRequest) (attemptCount : ℕ)
    (response : DestinationOutcome) (timing : OutcomeTiming) :
    Except ConnectorError (ConnectorStore × OutcomeReceipt) :=
  connector.conclude store request
    { connector.baseReceipt request store.nextSequence attemptCount timing with
      status := response.status, statusCode := response.statusCode,
      publicValues := response.publicValues,
      protectedSecretRefs := response.protectedSecretRefs, externalIds := response.externalIds,
      downstreamControlDigest := response.downstreamControlDigest,
      laterIntentsDigest := response.laterIntentsDigest,
      destinationResponseSha256 := some response.responseSha256,
      destinationSignatureBase64 := some response.signatureBase64,
      destinationAttestationKeyId := some response.attestationKeyId,
      ambiguousRequiresObservation := response.status = .ambiguous }

omit [Platform] [ConnectorPlatform] in
/-- `post_dispatch_capture_time` under the system clock. -/
def postDispatchCaptureTime (sampled dispatchTime : ℤ) : ℤ :=
  max sampled (saturatingAdd dispatchTime 1)

omit [Platform] [ConnectorPlatform] in
def unverifiablePostDispatchCode : ConnectorError → String
  | .destinationUnauthorized => "ambiguous_post_dispatch_destination_unauthorized"
  | .malformedResponse => "ambiguous_post_dispatch_malformed_response"
  | .oversizedResponse => "ambiguous_post_dispatch_oversized_response"
  | .confidentialityDenied => "ambiguous_post_dispatch_confidentiality_denied"
  | _ => "ambiguous_post_dispatch_unverifiable_response"

/-! ## Reconciliation -/

omit [Platform] [ConnectorPlatform] in
/-- The comparison of an observation with the ambiguous receipt and the observer's binding. -/
def observationMatches (observation : ObservationReceipt) (prior : OutcomeReceipt) (now : ℤ) :
    Bool :=
  observation.binding = connector.config.observerBinding &&
    observation.tenantId = prior.tenantId && observation.projectId = prior.projectId &&
    observation.pipelineId = prior.pipelineId && observation.buildId = prior.buildId &&
    observation.attemptId = prior.attemptId && observation.effectFence = prior.effectFence &&
    observation.phase = .reconciliation &&
    observation.binding.endpointIdentity = prior.endpointIdentity &&
    observation.binding.accountIdentity = prior.accountIdentity &&
    observation.binding.resourceIdentity = prior.resourceIdentity &&
    observation.binding.effectClass = prior.effectClass &&
    prior.capturedAtUnixMs ≤ observation.destinationObservedAtUnixMs &&
    observation.destinationObservedAtUnixMs ≤ now &&
    observation.destinationObservedAtUnixMs ≤ observation.capturedAtUnixMs &&
    observation.capturedAtUnixMs ≤ now && now ≤ observation.publicationDeadlineUnixMs

omit [Platform] [ConnectorPlatform] in
/-- What the observed state must say. -/
def observedState (state : Json) (requestSha256 : String) (observedEffect : Bool) : Bool :=
  match state with
  | .obj fields =>
    fields.length = 2 &&
      fields.lookup "connector_request_sha256" = some (.str requestSha256) &&
      fields.lookup "effect_observed" = some (.bool observedEffect) && observedEffect
  | _ => false

/-- The checks of `reconcile_inner` on the request. -/
def validateReconciliation (request : ReconcileRequest) : Except ConnectorError Unit := do
  if request.schemaVersion ≠ reconcileRequestSchemaVersion || request.requestId = 0 ||
      request.auditProvenance = "" || ConnectorPlatform.containsSecretValue
        request.auditProvenance.toUTF8.toList connector.secretMarkers then
    throw .invalidObservation
  if connector.config.limits.maxRequestBytes < ConnectorPlatform.reconcileRequestSize request then
    throw .oversizedRequest
  if !ConnectorPlatform.verifyObservationReceipt request.observationReceipt
      connector.observerReceiptKey then
    throw .invalidObservation

/-- `reconcile_inner`. -/
def reconcile (store : ConnectorStore) (request : ReconcileRequest) (now : ℤ) :
    Except ConnectorError (ConnectorStore × OutcomeReceipt) := do
  store.assertRuntime connector.config.digest connector.config.generation
  connector.validateReconciliation request
  let prior ← store.currentReceipt request.requestId
  if prior.requestSha256 ≠ request.expectedRequestSha256 ||
      prior.digest ≠ request.expectedAmbiguousReceiptSha256 || prior.status ≠ .ambiguous ||
      !prior.ambiguousRequiresObservation then
    throw .invalidObservation
  if !connector.observationMatches request.observationReceipt prior now then
    throw .invalidObservation
  if !observedState request.observationReceipt.state prior.requestSha256
      request.observedEffect then
    throw .invalidObservation
  let reconciled ← connector.signOutcomeReceipt
    { prior with
      evidenceSequence := store.nextSequence, status := .succeeded,
      statusCode := "reconciled_effect_observed", ambiguousRequiresObservation := false,
      observationReceiptSha256 := some request.observationReceipt.receiptSha256,
      capturedAtUnixMs := now, auditProvenance := request.auditProvenance }
  let store ← store.replaceAfterReconciliation connector.config.limits.maxReceipts prior.digest
    reconciled
  return (store, reconciled)

end ExternalConnector

/-! ## The system -/

/-- The step that a call of `execute` is about to take. -/
inductive Phase where
  | claiming
  | marking (attemptCount : ℕ)
  | sending (attemptCount : ℕ)
  | awaiting (attemptCount : ℕ) (dispatchTime : UnixMs)
  deriving DecidableEq

/-- A call of `execute` that holds the lineage lock. -/
structure Call where
  connector : ExternalConnector
  request : ActionRequest
  now : UnixMs
  phase : Phase
  deriving DecidableEq

/-- A state directory, the connectors opened on it and the call in flight, with the logs of
admissions, of entries into the network dispatch and of results. -/
structure System where
  store : ConnectorStore
  connectors : List ExternalConnector
  call : Option Call
  admissions : List (ExternalConnector × ActionRequest)
  dispatches : List (ExternalConnector × ActionRequest)
  returned : List (ActionRequest × Except ConnectorError OutcomeReceipt)

/-- A new state directory. -/
def System.initial : System :=
  ⟨.initial, [], none, [], [], []⟩

/-- What happens to a state directory.  A `crash` is the end of the process at any point, or a store
call that reports an input or output error. -/
inductive Event where
  | start (connector : ExternalConnector) (now : UnixMs)
  | execute (connector : ExternalConnector) (request : ActionRequest) (now : UnixMs)
  | claim (now : UnixMs)
  | mark (now : UnixMs)
  | send (now : UnixMs)
  | answer (response : Except ConnectorError DestinationOutcome) (now : UnixMs)
  | reconcile (connector : ExternalConnector) (request : ReconcileRequest) (now : UnixMs)
  | crash

namespace System

variable (s : System)

omit [Platform] [ConnectorPlatform] in
/-- The end of a call. -/
def finish (call : Call) (result : Except ConnectorError (ConnectorStore × OutcomeReceipt)) :
    System :=
  { s with
    store := (result.toOption.map Prod.fst).getD s.store
    call := none
    returned := s.returned ++ [(call.request, result.map Prod.snd)] }

omit [Platform] [ConnectorPlatform] in
/-- The next step of a call. -/
def proceed (call : Call) (store : ConnectorStore) (phase : Phase) : System :=
  { s with store := store, call := some { call with phase := phase } }

/-- `ExternalConnector::new`. -/
def start (connector : ExternalConnector) (now : UnixMs) : System :=
  if s.call.isNone && connector.validateConfig then
    match s.store.openStore connector.config.digest connector.config
        (max (connector.config.credentialGrantExpiresUnixMs - connector.config.limits.timeoutMs)
          (-i64Max - 1)) now.1 with
    | .ok store => { s with store := store, connectors := connector :: s.connectors }
    | .error _ => s
  else s

/-- `execute` up to its loop. -/
def execute (connector : ExternalConnector) (request : ActionRequest) (now : UnixMs) : System :=
  if connector ∈ s.connectors then
    match (if s.call.isSome then .error .effectPending
        else connector.admitCall s.store request : Except ConnectorError Unit) with
    | .ok () => { s with call := some ⟨connector, request, now, .claiming⟩ }
    | .error error => { s with returned := s.returned ++ [(request, .error error)] }
  else s

/-- The claim of the loop, and what follows an answer other than `Dispatch`. -/
def stepClaim (call : Call) (now : UnixMs) : System :=
  match s.store.claim call.connector.config.limits.maxReceipts call.request.requestId
      call.request.digest (scopeKey call.request.scope) call.request.idempotencyClass
      call.connector.config.limits.maxAttempts call.request.requestedAtUnixMs
      (call.connector.authorityAdmissionDeadline call.request) now.1 with
  | .error error => s.finish call (.error error)
  | .ok (store, .replay receipt) =>
    s.finish call ((call.connector.verifyOutcomeReceipt receipt).map fun _ => (store, receipt))
  | .ok (store, .ambiguousAfterRestart attemptCount dispatchedAt) =>
    s.finish call (call.connector.finalizeLocal store call.request attemptCount .ambiguous
      "transport_state_lost_after_dispatch"
      ⟨some dispatchedAt, ExternalConnector.postDispatchCaptureTime now.1 dispatchedAt⟩)
  | .ok (store, .retryBudgetExhausted attemptCount) =>
    s.finish call (call.connector.finalizeLocal store call.request attemptCount
      .retryableFailure "bounded_retry_exhausted_before_dispatch" ⟨none, call.now.1⟩)
  | .ok (store, .dispatch attemptCount) =>
    { s.proceed call store (.marking attemptCount) with
      admissions := s.admissions ++
        if (s.store.requests.lookup call.request.requestId).isNone then
          [(call.connector, call.request)]
        else [] }

/-- The receipt for authority that has expired. -/
def expire (call : Call) (attemptCount : ℕ) (now : UnixMs) : System :=
  s.finish call (call.connector.finalizeLocal s.store call.request attemptCount .failed
    ConnectorError.expiredAuthority.code ⟨none, now.1⟩)

/-- The durable mark. -/
def stepMark (call : Call) (attemptCount : ℕ) (now : UnixMs) : System :=
  if call.connector.withinTransportWindow call.request now.1 then
    match s.store.markDispatched call.request.requestId call.request.digest now.1 with
    | .ok store => s.proceed call store (.sending attemptCount)
    | .error error => s.finish call (.error error)
  else s.expire call attemptCount now

/-- The entry into the network dispatch. -/
def stepSend (call : Call) (attemptCount : ℕ) (now : UnixMs) : System :=
  if call.connector.withinTransportWindow call.request now.1 then
    { s.proceed call s.store (.awaiting attemptCount now) with
      dispatches := s.dispatches ++ [(call.connector, call.request)] }
  else s.expire call attemptCount now

/-- The release of a request for another attempt. -/
def release (call : Call) : System :=
  match s.store.releaseRetryable call.request.requestId call.request.digest with
  | .ok store => s.proceed call store .claiming
  | .error error => s.finish call (.error error)

/-- What follows the answer of the destination. -/
def stepAnswer (call : Call) (attemptCount : ℕ) (dispatchTime : UnixMs)
    (response : Except ConnectorError DestinationOutcome) (now : UnixMs) : System :=
  let timing : ExternalConnector.OutcomeTiming :=
    ⟨some dispatchTime.1, ExternalConnector.postDispatchCaptureTime now.1 dispatchTime.1⟩
  let retrySafe := call.request.idempotencyClass.retrySafe
  let mayRetry := retrySafe && attemptCount < call.connector.config.limits.maxAttempts
  let conclude (status : OutcomeStatus) (statusCode : String) : System :=
    s.finish call
      (call.connector.finalizeLocal s.store call.request attemptCount status statusCode timing)
  match response with
  | .ok outcome =>
    if outcome.status = .retryableFailure && mayRetry then s.release call
    else
      s.finish call
        (call.connector.finalizeDestination s.store call.request attemptCount outcome timing)
  | .error .destinationUnavailable =>
    if mayRetry then s.release call
    else if retrySafe then conclude .retryableFailure "bounded_retry_exhausted"
    else conclude .ambiguous "transport_completion_unknown"
  | .error error =>
    if error ∈ [.destinationUnauthorized, .malformedResponse, .oversizedResponse,
        .confidentialityDenied] then
      if retrySafe then conclude .failed error.code
      else conclude .ambiguous (ExternalConnector.unverifiablePostDispatchCode error)
    else s.finish call (.error error)

def reconcile (connector : ExternalConnector) (request : ReconcileRequest) (now : UnixMs) :
    System :=
  if connector ∈ s.connectors && s.call.isNone then
    match connector.reconcile s.store request now.1 with
    | .ok (store, _) => { s with store := store }
    | .error _ => s
  else s

/-- The state after an event.  An event that does not fit the step the call is about to take has no
effect. -/
def step (s : System) : Event → System
  | .start connector now => s.start connector now
  | .execute connector request now => s.execute connector request now
  | .claim now =>
    match s.call with
    | some ⟨connector, request, started, .claiming⟩ =>
      s.stepClaim ⟨connector, request, started, .claiming⟩ now
    | _ => s
  | .mark now =>
    match s.call with
    | some ⟨connector, request, started, .marking attemptCount⟩ =>
      s.stepMark ⟨connector, request, started, .marking attemptCount⟩ attemptCount now
    | _ => s
  | .send now =>
    match s.call with
    | some ⟨connector, request, started, .sending attemptCount⟩ =>
      s.stepSend ⟨connector, request, started, .sending attemptCount⟩ attemptCount now
    | _ => s
  | .answer response now =>
    match s.call with
    | some ⟨connector, request, started, .awaiting attemptCount dispatchTime⟩ =>
      s.stepAnswer ⟨connector, request, started, .awaiting attemptCount dispatchTime⟩
        attemptCount dispatchTime response now
    | _ => s
  | .reconcile connector request now => s.reconcile connector request now
  | .crash => { s with call := none }

/-- The state after a history of a new state directory. -/
def after (events : List Event) : System :=
  History.final step .initial events

end System

end McLoving.Connector
