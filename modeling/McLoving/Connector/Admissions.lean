import McLoving.Connector.Sending

/-!
# Receipts and admissions

A receipt without a dispatch time says that its request was not sent, which is so for requests that
are not safe to retry; for the others a second attempt clears the mark of the first one.  Every row
comes from one admission, and no two admissions share a request id or an effect scope.  The
connectors that work on a row have the configuration that admitted it, as far as the digests of a
history do not collide; so a later one answers the same request with the current receipt.
-/

namespace McLoving.Connector

open List Option

section Receipts

variable [Platform] [ConnectorPlatform] {s s' : System} {event : Event}

/-- The rows of the stored receipts. -/
structure Recorded (s : System) : Prop where
  row : ∀ evidence ∈ s.store.evidence, ∃ row,
    s.store.requests.lookup evidence.receipt.requestId = some row ∧ row.status = .terminal
  current : ∀ requestId row, s.store.requests.lookup requestId = some row →
    row.status = .terminal → ∃ evidence ∈ s.store.evidence,
      row.currentReceipt = some evidence.receipt ∧ evidence.receipt.requestId = requestId

/-- A stored receipt of a request that is not safe to retry has a dispatch time if the request was
sent. -/
def Truthful (s : System) : Prop :=
  ∀ evidence ∈ s.store.evidence, evidence.receipt.dispatchedAtUnixMs = none →
    evidence.receipt.idempotencyClass.retrySafe = false →
    s.sentFor evidence.receipt.requestId = 0

/-- Stored receipts keep their terminal rows. -/
theorem Does.terminal_kept (hdoes : Does s event s') (hrecorded : Recorded s)
    {evidence : EvidenceRow} (hmem : evidence ∈ s.store.evidence) :
    ∃ row, s'.store.requests.lookup evidence.receipt.requestId = some row ∧
      row.status = .terminal := by
  obtain ⟨row, hrow, hterminal⟩ := hrecorded.row evidence hmem
  obtain ⟨row', hrow', hkept⟩ := hdoes.row_kept hrow
  exact ⟨row', hrow', hkept.terminal hterminal⟩

variable {f : RequestRow → RequestRow} {receipt : OutcomeReceipt}

omit [Platform] [ConnectorPlatform] in
/-- The current receipt of a terminal row names its request. -/
theorem Recorded.lookup_current (hrecorded : Recorded s) {requestId : Uuid} {row : RequestRow}
    (hrow : s.store.requests.lookup requestId = some row) (hterminal : row.status = .terminal)
    (hreceipt : row.currentReceipt = some receipt) :
    s.store.requests.lookup receipt.requestId = some row := by
  obtain ⟨evidence, -, hcurrent, hevidence⟩ := hrecorded.current requestId row hrow hterminal
  obtain rfl := mem_unique hreceipt hcurrent
  rw [hevidence, hrow]

/-- Updates of rows that are pending before and after leave the receipts as they are. -/
theorem Recorded.of_rewrite (hrecorded : Recorded s) {requestId : Uuid} (hdoes : Does s event s')
    (hstore : s'.store = s.store.rewrite requestId f)
    (hsame : ∀ row : RequestRow, (f row).status = row.status ∧
      (f row).currentReceipt = row.currentReceipt) : Recorded s' := by
  have hevidence : s'.store.evidence = s.store.evidence := by rw [hstore]; rfl
  refine ⟨?_, fun requestId' row' hrow' hterminal => ?_⟩
  · rw [hevidence]
    exact fun evidence hmem => hdoes.terminal_kept hrecorded hmem
  · rw [hevidence]
    rw [hstore] at hrow'
    rcases lookup_rewrite_cases hrow' with ⟨-, row, hrow, rfl⟩ | ⟨-, hrow⟩
    · rw [(hsame row).2]
      exact hrecorded.current requestId' row hrow ((hsame row).1 ▸ hterminal)
    · exact hrecorded.current requestId' row' hrow hterminal

/-- A receipt that becomes the current one of a terminal row is recorded. -/
theorem Recorded.of_record (hrecorded : Recorded s) {row : RequestRow} (hdoes : Does s event s')
    (hstore : s'.store = s.store.record receipt f)
    (hrow : s.store.requests.lookup receipt.requestId = some row)
    (hterminal : (f row).status = .terminal) (hcurrent : (f row).currentReceipt = some receipt) :
    Recorded s' := by
  have hevidence : s'.store.evidence =
      s.store.evidence ++ [⟨receipt.requestId, receipt.digest, receipt⟩] := by
    rw [hstore]
    rfl
  refine ⟨fun evidence hmem => ?_, fun requestId' row' hrow' hterminal' => ?_⟩
  · rw [hevidence, mem_append, mem_singleton] at hmem
    rcases hmem with hold | rfl
    · exact hdoes.terminal_kept hrecorded hold
    · refine ⟨f row, ?_, hterminal⟩
      rw [hstore]
      exact (lookup_rewrite ..).trans (by rw [if_pos rfl, hrow, map_some])
  · rw [hstore] at hrow'
    rw [hevidence]
    rcases lookup_rewrite_cases hrow' with ⟨rfl, old, hold, rfl⟩ | ⟨-, hold⟩
    · obtain rfl := mem_unique hrow hold
      exact ⟨_, mem_append_right _ (mem_singleton_self _), hcurrent, rfl⟩
    · obtain ⟨evidence, hmem, hrest⟩ := hrecorded.current requestId' row' hold hterminal'
      exact ⟨evidence, mem_append_left _ hmem, hrest⟩

theorem Does.recorded (hdoes : Does s event s') (hrecorded : Recorded s) : Recorded s' := by
  have hdoes' := hdoes
  cases hdoes with
  | nothing => exact ⟨hrecorded.row, hrecorded.current⟩
  | stopped => exact ⟨hrecorded.row, hrecorded.current⟩
  | started _ _ _ hrequests hevidence =>
    refine ⟨?_, ?_⟩
    · rw [hevidence, hrequests]
      exact hrecorded.row
    · rw [hevidence, hrequests]
      exact hrecorded.current
  | begun => exact ⟨hrecorded.row, hrecorded.current⟩
  | admitted =>
    refine ⟨fun evidence hmem => hdoes'.terminal_kept hrecorded hmem, ?_⟩
    intro requestId row hrow hterminal
    rcases Table.lookup_insert_cases hrow with ⟨-, rfl⟩ | ⟨-, hold⟩
    · cases hterminal
    · exact hrecorded.current requestId row hold hterminal
  | reclaimed => exact hrecorded.of_rewrite hdoes' rfl fun row => ⟨rfl, rfl⟩
  | marked => exact hrecorded.of_rewrite hdoes' rfl fun row => ⟨rfl, rfl⟩
  | sent => exact ⟨hrecorded.row, hrecorded.current⟩
  | released => exact hrecorded.of_rewrite hdoes' rfl fun row => ⟨rfl, rfl⟩
  | concluded _ _ hrow houtcome =>
    exact hrecorded.of_record hdoes' rfl (houtcome.requestId ▸ hrow.lookup) rfl rfl
  | reconciled _ _ _ hrow hterminal hprior _ _ _ _ _ hid =>
    have hrow' := hid ▸ hrecorded.lookup_current hrow hterminal hprior
    exact hrecorded.of_record hdoes' rfl hrow' hterminal rfl

omit [Platform] [ConnectorPlatform] in
theorem recorded_initial : Recorded .initial := by
  refine ⟨fun _ hmem => (not_mem_nil hmem).elim, fun requestId row hrow => ?_⟩
  rw [lookup_initial] at hrow
  cases hrow

/-- A receipt that ends a call without a dispatch time is true. -/
theorem Times.sentFor_eq_zero {call : Call} {row : RequestRow} (htimes : Times call row receipt)
    (hcall : s.call = some call) (hrow : RowOf s call row) (hflight : Flight s)
    (hbudget : Budget s call.request.requestId row) (hnone : receipt.dispatchedAtUnixMs = none)
    (hrisky : call.request.idempotencyClass.retrySafe = false) :
    s.sentFor call.request.requestId = 0 := by
  cases htimes with
  | lost _ _ _ _ _ hreceipt =>
    rw [hnone] at hreceipt
    cases hreceipt
  | exhausted _ hclass hpending hunsent =>
    refine hbudget.unsent (hclass ▸ hrisky) hpending (.inl (Bool.eq_false_iff.mpr fun h => ?_))
    rw [hunsent h] at hrisky
    cases hrisky
  | expired attemptCount hphase =>
    obtain ⟨row', hrow', hclass, hpending, -⟩ := hflight.call call hcall (by
      rcases hphase with hphase | hphase <;> simp [hphase])
    obtain rfl := mem_unique hrow.lookup hrow'.lookup
    exact hbudget.unsent (hclass ▸ hrisky) hpending (.inr ⟨call, attemptCount, hcall, rfl, hphase⟩)
  | answered _ _ _ hreceipt =>
    rw [hnone] at hreceipt
    cases hreceipt

theorem Does.truthful (hdoes : Does s event s') (hflight : Flight s)
    (hbudget : ∀ requestId row, s.store.requests.lookup requestId = some row →
      Budget s requestId row) (hrecorded : Recorded s) (htruthful : Truthful s) : Truthful s' := by
  have hold : ∀ evidence ∈ s.store.evidence, evidence.receipt.dispatchedAtUnixMs = none →
      evidence.receipt.idempotencyClass.retrySafe = false →
      s'.sentFor evidence.receipt.requestId = 0 := by
    intro evidence hmem hnone hrisky
    obtain ⟨row, hrow, hterminal⟩ := hrecorded.row evidence hmem
    rw [hdoes.sentFor_of_terminal hflight hrow hterminal]
    exact htruthful evidence hmem hnone hrisky
  have hrecord : ∀ receipt : OutcomeReceipt, ∀ f : RequestRow → RequestRow,
      s'.store = s.store.record receipt f →
      (receipt.dispatchedAtUnixMs = none → receipt.idempotencyClass.retrySafe = false →
        s'.sentFor receipt.requestId = 0) → Truthful s' := by
    intro receipt f hstore hnew evidence hmem
    rw [hstore] at hmem
    rcases mem_append.mp hmem with hmem | hmem
    · exact hold evidence hmem
    · obtain rfl := mem_singleton.mp hmem
      exact hnew
  cases hdoes with
  | started _ _ _ _ hevidence =>
    intro evidence hmem
    exact hold evidence (hevidence ▸ hmem)
  | @concluded _ row _ receipt _ hcall hrow houtcome htimes =>
    refine hrecord receipt _ rfl fun hnone hrisky => ?_
    rw [houtcome.requestId]
    rw [houtcome.idempotencyClass] at hrisky
    have hzero := htimes.sentFor_eq_zero hcall hrow hflight (hbudget _ row hrow.lookup) hnone
      hrisky
    exact hzero
  | @reconciled _ requestId row _ receipt _ _ _ hrow hterminal hprior _ _ hdispatched _ hclass hid =>
      obtain ⟨evidence, hevidence, hcurrent, -⟩ := hrecorded.current requestId row hrow hterminal
      obtain rfl := mem_unique hprior hcurrent
      refine hrecord receipt _ rfl fun hnone hrisky => ?_
      rw [hid]
      exact htruthful evidence hevidence (hdispatched ▸ hnone) (hclass ▸ hrisky)
  | _ => exact hold

/-- At the end of every history, a request that is not safe to retry and has a receipt without a
dispatch time was not sent in any attempt. -/
theorem receipt_without_time_unsent (events : List Event) :
    ∀ evidence ∈ (System.after events).store.evidence, evidence.receipt.dispatchedAtUnixMs = none →
      evidence.receipt.idempotencyClass.retrySafe = false →
      ∀ dispatch ∈ (System.after events).dispatches,
        dispatch.2.requestId ≠ evidence.receipt.requestId := by
  have hrun : Bounded events (System.after events) ∧ Recorded (System.after events) ∧
      Truthful (System.after events) := by
    refine @History.invariant_of_mem _ _ System.step
      (fun s => Bounded events s ∧ Recorded s ∧ Truthful s) events ?_ .initial
      ⟨bounded_initial events, recorded_initial, ?_⟩
    · rintro s event hmem ⟨hbounded, hrecorded, htruthful⟩
      have hdoes := does_step s event
      exact ⟨hdoes.bounded hmem hbounded, hdoes.recorded hrecorded,
        hdoes.truthful hbounded.flight hbounded.budget hrecorded htruthful⟩
    · exact fun _ hmem => (not_mem_nil hmem).elim
  intro evidence hmem hnone hrisky dispatch hdispatch hid
  have hzero := hrun.2.2 evidence hmem hnone hrisky
  exact countP_eq_zero.mp hzero dispatch hdispatch (decide_eq_true hid)

end Receipts

/-! ## A sample connector -/

namespace Sample

/-- A platform whose digests repeat the last byte. -/
@[reducible]
def platform : Platform :=
  ⟨fun bytes => Digest.replicate (bytes.getLastD 0), fun _ _ => 0, fun _ => none, fun _ => .ok ()⟩

/-- A platform with short encodings on which every signature verifies. -/
@[reducible]
def connectorPlatform : ConnectorPlatform where
  configBytes config := [UInt8.ofNat config.generation]
  requestBytes _ := [7]
  receiptBytes _ := [9]
  reconcileRequestSize _ := 1
  publicKeyFromSeed seed := .ok seed
  sign _ _ := .ok "signature"
  verify _ _ _ := true
  verify_sign _ _ _ _ _ _ := rfl
  containsSecretValue _ _ := false
  verifyObservationReceipt _ _ := false

/-- The text of a digest of equal bytes. -/
def digestText (byte : UInt8) : String :=
  String.ofList ((Digest.replicate byte).bytes.flatMap fun byte => hexDigits 2 byte.toNat)

/-- The observer of the sample connector. -/
def observerBinding : ObserverReceiptBinding where
  observerId := "observer"
  implementationSha256 := digestText 0
  imageSha256 := digestText 0
  configSha256 := digestText 0
  deploymentIdentity := "observer-deployment"
  operatorTrustIdentity := "observer-operator"
  runtimeBoundaryIdentity := "observer-runtime"
  serviceIdentity := "observer-service"
  credentialIssuancePathIdentity := "observer-credentials"
  configurationAuthorityIdentity := "observer-configuration"
  requestAuthorityIdentity := "observer-requests"
  generation := 1
  activationMode := .current
  previousGeneration := none
  rollbackFromGeneration := none
  endpointIdentity := "endpoint"
  accountIdentity := "account"
  resourceIdentity := "resource"
  effectClass := "deploy"
  readGrantId := "read"
  readGrantVersion := "v1"
  readGrantScope := "scope"
  canonicalQuery := []
  stateSchemaVersion := "v1"
  confidentiality := .isPublic
  destinationAttestationKeyId := "destination"
  receiptSigningKeyId := "observer-key"
  receiptSigningPublicKeySha256 := digestText 5

/-- The configuration of the first generation. -/
def config : ConnectorConfig where
  connectorId := "connector"
  implementationSha256 := digestText 0
  imageSha256 := digestText 0
  deploymentIdentity := "deployment"
  operatorTrustIdentity := "operator"
  runtimeBoundaryIdentity := "runtime"
  serviceIdentity := "service"
  configurationAuthorityIdentity := "configuration"
  requestAuthorityIdentity := "requests"
  credentialIssuancePathIdentity := "credentials"
  generation := 1
  activationMode := .current
  previousGeneration := none
  previousConfigSha256 := none
  rollbackFromGeneration := none
  endpointIdentity := "endpoint"
  accountIdentity := "account"
  resourceIdentity := "resource"
  effectClass := "deploy"
  actionName := "deploy"
  actionSchemaVersion := "v1"
  requestPayloadSchema := [("value", .string)]
  credentialGrantId := "grant"
  credentialGrantVersion := "v1"
  credentialGrantScope := "scope"
  credentialGrantExpiresUnixMs := 1000
  requestAuthorityKeyId := "request-key"
  requestAuthorityKeySha256 := digestText 3
  outcomeSigningKeyId := "outcome-key"
  outcomeSigningPublicKeySha256 := digestText 4
  observerBinding := observerBinding
  limits := ⟨1000, 10, 10, 2, 10, 1000⟩
  rest := .null

/-- The connector of the first generation. -/
def connector : ExternalConnector := ⟨config, [3], [4], [5], []⟩

/-- A request to the connector of the first generation. -/
def request (idempotencyClass : IdempotencyClass) : ActionRequest where
  schemaVersion := requestSchemaVersion
  protocolVersion := Connector.protocolVersion
  requestId := 1
  tenantId := 2
  projectId := 3
  pipelineId := 4
  buildId := 5
  attemptId := 6
  effectFence := 1
  effectKey := "effect"
  connectorId := "connector"
  expectedImplementationSha256 := digestText 0
  expectedImageSha256 := digestText 0
  expectedConfigSha256 := digestText 1
  expectedGeneration := 1
  endpointIdentity := "endpoint"
  accountIdentity := "account"
  resourceIdentity := "resource"
  effectClass := "deploy"
  idempotencyClass := idempotencyClass
  actionName := "deploy"
  actionSchemaVersion := "v1"
  requestPayload := .obj [("value", .str "x")]
  credentialGrantId := "grant"
  credentialGrantVersion := "v1"
  credentialGrantScope := "scope"
  requestedAtUnixMs := 1
  expiresAtUnixMs := 100
  auditProvenance := "audit"
  authorizationKeyId := "request-key"
  authorizationSignatureBase64 := "signature"

/-- A clock that starts one millisecond after the epoch. -/
def clock (t : Fin 1000) : UnixMs :=
  ⟨t + 1, by unfold i64Max; omega⟩

/-- The events up to the admission of a request. -/
def admission (idempotencyClass : IdempotencyClass) : List Event :=
  [.start connector (clock 0), .execute connector (request idempotencyClass) (clock 0),
    .claim (clock 0)]

/-- The events of one attempt that is answered. -/
def exchange (answer : Except ConnectorError DestinationOutcome) : List Event :=
  [.mark (clock 0), .send (clock 0), .answer answer (clock 1)]

/-- Authority that expires before the request is sent. -/
def expiring : List Event :=
  admission .nonIdempotent ++ [.mark (clock 98)]

/-- Authority that expires before the second attempt. -/
def retried : List Event :=
  admission .idempotent ++
    [.mark (clock 0), .send (clock 0), .answer (.error .destinationUnavailable) (clock 49),
      .claim (clock 49), .mark (clock 98)]

/-- The state after a history under the sample platforms. -/
def run (events : List Event) : System :=
  @System.after platform connectorPlatform events

end Sample

open Sample in
/-- The authority of a request that is not safe to retry expires before the request is sent, and its
receipt has no dispatch time. -/
theorem expired_request_unsent : ∃ evidence ∈ (run expiring).store.evidence,
      evidence.receipt.dispatchedAtUnixMs = none ∧
      evidence.receipt.idempotencyClass.retrySafe = false ∧
      ∀ dispatch ∈ (run expiring).dispatches,
        dispatch.2.requestId ≠ evidence.receipt.requestId := by
  obtain ⟨evidence, hmem, hnone, hrisky⟩ : ∃ evidence ∈ (run expiring).store.evidence,
        evidence.receipt.dispatchedAtUnixMs = none ∧
        evidence.receipt.idempotencyClass.retrySafe = false := by
    decide +kernel
  exact ⟨evidence, hmem, hnone, hrisky, @receipt_without_time_unsent platform connectorPlatform
    expiring evidence hmem hnone hrisky⟩

open Sample in
/-- A request that is safe to retry is sent, the destination does not answer, and the authority
expires before the second attempt: the receipt has no dispatch time. -/
theorem retried_request_sent_without_time : ∃ evidence ∈ (run retried).store.evidence,
      evidence.receipt.dispatchedAtUnixMs = none ∧
      evidence.receipt.statusCode = ConnectorError.expiredAuthority.code ∧
      ∃ dispatch ∈ (run retried).dispatches,
        dispatch.2.requestId = evidence.receipt.requestId := by
  decide +kernel

open RequestRow

variable [Platform] [ConnectorPlatform] {s s' : System} {event : Event}

/-- Requests, configurations and keys of a history with equal digests are equal. -/
structure CollisionFree (events : List Event) : Prop where
  requests : ∀ request request', Presented events request → Presented events request' →
    request.digest = request'.digest → request.unsigned = request'.unsigned
  configs : ∀ connector connector', Started events connector → Started events connector' →
    connector.config.digest = connector'.config.digest → connector.config = connector'.config
  keys : ∀ connector connector' key key', Started events connector → Started events connector' →
    ConnectorPlatform.publicKeyFromSeed connector.outcomeSigningSeed = .ok key →
    ConnectorPlatform.publicKeyFromSeed connector'.outcomeSigningSeed = .ok key' →
    contentSha256 key = contentSha256 key' → key = key'

/-- The admission that a row comes from. -/
structure Provenance (s : System) (requestId : Uuid) (row : RequestRow)
    (admission : ExternalConnector × ActionRequest) : Prop where
  mem : admission ∈ s.admissions
  requestId : admission.2.requestId = requestId
  requestSha256 : row.requestSha256 = admission.2.digest
  scopeKey : row.scopeKey = Connector.scopeKey admission.2.scope
  idempotencyClass : row.idempotencyClass = admission.2.idempotencyClass
  attemptCount : row.attemptCount ≤ admission.1.config.limits.maxAttempts
  runtime : row.status = .pending ∨ row.reservedReceipts ≠ 0 →
    s.store.runtime = some admission.1.runtime

/-- Rows and admissions correspond. -/
structure Admitted (s : System) : Prop where
  provenance : ∀ requestId row, s.store.requests.lookup requestId = some row →
    ∃ admission, Provenance s requestId row admission
  row : ∀ admission ∈ s.admissions, ∃ row,
    s.store.requests.lookup admission.2.requestId = some row ∧
    row.requestSha256 = admission.2.digest ∧ row.scopeKey = scopeKey admission.2.scope ∧
    row.idempotencyClass = admission.2.idempotencyClass
  distinct : s.admissions.Pairwise fun a b => a.2.requestId ≠ b.2.requestId ∧ a.2.scope ≠ b.2.scope

/-! ## Equal digests -/

variable {events : List Event} {row : RequestRow} {admission : ExternalConnector × ActionRequest}
variable {call : Call}

/-- Requests with equal digests expect the same configuration. -/
theorem CollisionFree.config_eq (hfree : CollisionFree events)
    {connector connector' : ExternalConnector} {request request' : ActionRequest}
    (hstarted : Started events connector) (hstarted' : Started events connector')
    (hrequest : Presented events request) (hrequest' : Presented events request')
    (hbound : request.expectedConfigSha256 = connector.config.digest)
    (hbound' : request'.expectedConfigSha256 = connector'.config.digest)
    (hdigest : request.digest = request'.digest) : connector.config = connector'.config := by
  have hunsigned := hfree.requests request request' hrequest hrequest' hdigest
  have hexpected := congrArg ActionRequest.expectedConfigSha256 hunsigned
  exact hfree.configs connector connector' hstarted hstarted'
    (hbound.symm.trans (hexpected.trans hbound'))

/-! ## Rows and admissions -/

/-- An update of a row that settles nothing and takes no attempt keeps its provenance. -/
theorem Provenance.of_kept {requestId : Uuid} {row' : RequestRow}
    (hprovenance : Provenance s requestId row admission)
    (hadmissions : s'.admissions = s.admissions) (hkept : row.Kept row')
    (hcount : row'.attemptCount ≤ admission.1.config.limits.maxAttempts)
    (hruntime : row'.status = .pending ∨ row'.reservedReceipts ≠ 0 →
      (row.status = .pending ∨ row.reservedReceipts ≠ 0) ∧ s'.store.runtime = s.store.runtime) :
    Provenance s' requestId row' admission where
  mem := hadmissions ▸ hprovenance.mem
  requestId := hprovenance.requestId
  requestSha256 := hkept.requestSha256.trans hprovenance.requestSha256
  scopeKey := hkept.scopeKey.trans hprovenance.scopeKey
  idempotencyClass := hkept.idempotencyClass.trans hprovenance.idempotencyClass
  attemptCount := hcount
  runtime hunsettled := by
    obtain ⟨hold, hsame⟩ := hruntime hunsettled
    rw [hsame]
    exact hprovenance.runtime hold

theorem Does.admission_row (hdoes : Does s event s') (hadmitted : Admitted s)
    (hmem : admission ∈ s.admissions) :
    ∃ row, s'.store.requests.lookup admission.2.requestId = some row ∧
      row.requestSha256 = admission.2.digest ∧ row.scopeKey = scopeKey admission.2.scope ∧
      row.idempotencyClass = admission.2.idempotencyClass := by
  obtain ⟨row, hrow, hsha, hscope, hclass⟩ := hadmitted.row admission hmem
  obtain ⟨row', hrow', hkept⟩ := hdoes.row_kept hrow
  exact ⟨row', hrow', hkept.requestSha256.trans hsha, hkept.scopeKey.trans hscope,
    hkept.idempotencyClass.trans hclass⟩

variable {f : RequestRow → RequestRow}

/-- A rewrite of one row keeps rows and admissions together. -/
theorem Admitted.of_rewrite (hadmitted : Admitted s) (hdoes : Does s event s') {requestId : Uuid}
    (hadmissions : s'.admissions = s.admissions) (hruntime : s'.store.runtime = s.store.runtime)
    (hrequests : s'.store.requests = (s.store.rewrite requestId f).requests)
    (hkept : ∀ row : RequestRow, row.Kept (f row))
    (hcount : ∀ row admission, s.store.requests.lookup requestId = some row →
      Provenance s requestId row admission →
      (f row).attemptCount ≤ admission.1.config.limits.maxAttempts)
    (hsettled : ∀ row, s.store.requests.lookup requestId = some row →
      (f row).status = .pending ∨ (f row).reservedReceipts ≠ 0 →
      row.status = .pending ∨ row.reservedReceipts ≠ 0) : Admitted s' := by
  refine ⟨fun requestId' row' hrow' => ?_, ?_, ?_⟩
  · rw [hrequests] at hrow'
    rcases lookup_rewrite_cases hrow' with ⟨rfl, row, hrow, rfl⟩ | ⟨-, hrow⟩
    · obtain ⟨admission, hprovenance⟩ := hadmitted.provenance _ row hrow
      exact ⟨admission, hprovenance.of_kept hadmissions (hkept row)
        (hcount row admission hrow hprovenance)
        fun hunsettled => ⟨hsettled row hrow hunsettled, hruntime⟩⟩
    · obtain ⟨admission, hprovenance⟩ := hadmitted.provenance _ row' hrow
      exact ⟨admission, hprovenance.of_kept hadmissions (.refl row') hprovenance.attemptCount
        fun hunsettled => ⟨hunsettled, hruntime⟩⟩
  · rw [hadmissions]
    exact fun admission hmem => hdoes.admission_row hadmitted hmem
  · rw [hadmissions]
    exact hadmitted.distinct

/-- What keeps the tables and the admissions keeps them together. -/
theorem Admitted.of_same (hadmitted : Admitted s) (hstore : s'.store = s.store)
    (hadmissions : s'.admissions = s.admissions) : Admitted s' := by
  refine ⟨fun requestId row hrow => ?_, ?_, ?_⟩
  · obtain ⟨admission, hprovenance⟩ := hadmitted.provenance requestId row (hstore ▸ hrow)
    exact ⟨admission, hprovenance.of_kept hadmissions (.refl row) hprovenance.attemptCount
      fun hunsettled => ⟨hunsettled, by rw [hstore]⟩⟩
  · rw [hadmissions, hstore]
    exact hadmitted.row
  · rw [hadmissions]
    exact hadmitted.distinct

/-- A call ends on a pending row. -/
theorem Times.pending {receipt : OutcomeReceipt} (htimes : Times call row receipt)
    (hcall : s.call = some call) (hrow : RowOf s call row) (hflight : Flight s) :
    row.status = .pending := by
  have hclaimed (hphase : call.phase ≠ .claiming) : row.status = .pending := by
    obtain ⟨row', hrow', -, hpending, -⟩ := hflight.call call hcall hphase
    obtain rfl := mem_unique hrow.lookup hrow'.lookup
    exact hpending
  cases htimes with
  | lost _ _ hpending => exact hpending
  | exhausted _ _ hpending => exact hpending
  | expired _ hphase =>
    exact hclaimed (by rcases hphase with hphase | hphase <;> simp [hphase])
  | answered _ _ hphase => exact hclaimed (by simp [hphase])

/-- The attempts of a row stay below the limit of the configuration that admitted it. -/
theorem attempts_le (hfree : CollisionFree events) (horigins : Origins events s)
    (hcall : s.call = some call) (hrow : RowOf s call row)
    (hprovenance : Provenance s call.request.requestId row admission)
    (hlt : row.attemptCount < call.connector.config.limits.maxAttempts) :
    row.attemptCount + 1 ≤ admission.1.config.limits.maxAttempts := by
  obtain ⟨hmem, hpresented, -, hbound⟩ := horigins.call call hcall
  obtain ⟨hmem', hpresented', hbound'⟩ := horigins.admissions admission hprovenance.mem
  have hconfig := hfree.config_eq (horigins.connectors _ hmem).1 (horigins.connectors _ hmem').1
    hpresented hpresented' hbound hbound'
    (hrow.requestSha256.symm.trans hprovenance.requestSha256)
  rw [← hconfig]
  exact hlt

theorem Admitted.of_admission (hadmitted : Admitted s) (hdoes : Does s event s')
    (hruntime : s.store.runtime = some call.connector.runtime)
    (hmax : 1 ≤ call.connector.config.limits.maxAttempts)
    (hnone : s.store.requests.lookup call.request.requestId = none)
    (hscope : ∀ requestId row, s.store.requests.lookup requestId = some row →
      row.scopeKey ≠ scopeKey call.request.scope) (hruntime' : s'.store.runtime = s.store.runtime)
    (hrequests : s'.store.requests = s.store.requests.insert call.request.requestId
      (ConnectorStore.newRow call.request.digest (scopeKey call.request.scope)
        call.request.idempotencyClass))
    (hadmissions : s'.admissions = s.admissions ++ [(call.connector, call.request)]) :
    Admitted s' := by
  have hmem : (call.connector, call.request) ∈ s'.admissions := by
    rw [hadmissions]
    exact mem_append_right _ (mem_singleton_self _)
  refine ⟨fun requestId row hrow => ?_, fun admission hadmission => ?_, ?_⟩
  · rw [hrequests] at hrow
    rcases Table.lookup_insert_cases hrow with ⟨rfl, rfl⟩ | ⟨-, hold⟩
    · exact ⟨_, hmem, rfl, rfl, rfl, rfl, hmax, fun _ => hruntime'.trans hruntime⟩
    · obtain ⟨admission, hprovenance⟩ := hadmitted.provenance requestId row hold
      refine ⟨admission, ?_, hprovenance.requestId, hprovenance.requestSha256,
        hprovenance.scopeKey, hprovenance.idempotencyClass, hprovenance.attemptCount, ?_⟩
      · rw [hadmissions]
        exact mem_append_left _ hprovenance.mem
      · rw [hruntime']
        exact hprovenance.runtime
  · rw [hadmissions, mem_append, mem_singleton] at hadmission
    rcases hadmission with hold | rfl
    · exact hdoes.admission_row hadmitted hold
    · rw [hrequests]
      exact ⟨_, AList.lookup_insert _, rfl, rfl, rfl⟩
  · rw [hadmissions, pairwise_append]
    refine ⟨hadmitted.distinct, pairwise_singleton _ _, fun old hold new hnew => ?_⟩
    obtain rfl := mem_singleton.mp hnew
    obtain ⟨row, hrow, -, hkey, -⟩ := hadmitted.row old hold
    refine ⟨fun hid => ?_, fun hsame => ?_⟩
    · rw [hid, hnone] at hrow
      cases hrow
    · exact hscope _ row hrow (by rw [hkey, hsame])

theorem Does.admitted_kept (hfree : CollisionFree events) (hdoes : Does s event s')
    (hbounded : Bounded events s) (hadmitted : Admitted s) : Admitted s' := by
  have hdoes' := hdoes
  cases hdoes with
  | nothing => exact hadmitted.of_same rfl rfl
  | stopped => exact hadmitted.of_same rfl rfl
  | started _ _ _ hrequests _ hruntime =>
    refine ⟨fun requestId row hrow => ?_, ?_, hadmitted.distinct⟩
    · have hold := hrow
      rw [hrequests] at hold
      obtain ⟨admission, hprovenance⟩ := hadmitted.provenance requestId row hold
      refine ⟨admission, hprovenance.of_kept rfl (.refl row) hprovenance.attemptCount
        fun hunsettled => ⟨hunsettled, ?_⟩⟩
      rcases hruntime with hsame | hnone | hsettled
      · exact hsame
      · rw [hprovenance.runtime hunsettled] at hnone
        cases hnone
      · obtain ⟨hterminal, hreserved⟩ := hsettled requestId row hold
        rw [hterminal] at hunsettled
        exact (hunsettled.resolve_left RequestStatus.noConfusion hreserved).elim
    · exact fun admission hmem => hdoes'.admission_row hadmitted hmem
  | begun => exact hadmitted.of_same rfl rfl
  | @admitted call hcall _ hnone hscope =>
    obtain ⟨hmem, -, hruntime, -⟩ := hbounded.origins.call call hcall
    have hmax := (maxAttempts_of_validateConfig (hbounded.origins.connectors _ hmem).2).1
    exact hadmitted.of_admission hdoes' hruntime hmax hnone hscope rfl rfl rfl
  | @reclaimed _ _ hcall _ hrow _ _ _ hlt =>
    refine hadmitted.of_rewrite hdoes' rfl rfl rfl (kept_reclaimed _) ?_
      fun old _ hunsettled => hunsettled
    intro old admission hold hprovenance
    obtain rfl := mem_unique hrow.lookup hold
    exact (Nat.min_le_left _ _).trans
      (attempts_le hfree hbounded.origins hcall hrow hprovenance hlt)
  | marked =>
    exact hadmitted.of_rewrite hdoes' rfl rfl rfl (kept_marked _)
      (fun _ _ _ hprovenance => hprovenance.attemptCount) fun _ _ hunsettled => hunsettled
  | sent => exact hadmitted.of_same rfl rfl
  | released =>
    exact hadmitted.of_rewrite hdoes' rfl rfl rfl kept_released
      (fun _ _ _ hprovenance => hprovenance.attemptCount) fun _ _ hunsettled => hunsettled
  | concluded _ hcall hrow houtcome htimes =>
    refine hadmitted.of_rewrite hdoes' rfl rfl rfl (kept_concluded _)
      (fun _ _ _ hprovenance => hprovenance.attemptCount) fun old hold _ => .inl ?_
    rw [houtcome.requestId] at hold
    obtain rfl := mem_unique hrow.lookup hold
    exact htimes.pending hcall hrow hbounded.flight
  | reconciled =>
    exact hadmitted.of_rewrite hdoes' rfl rfl rfl (kept_reconciled _)
      (fun _ _ _ hprovenance => hprovenance.attemptCount)
      fun _ _ hunsettled => .inl (hunsettled.resolve_right fun hreserved => hreserved rfl)

/-- The current receipt of a row and the connector that signed it. -/
structure Endorsed (events : List Event) (s : System) (requestId : Uuid) (row : RequestRow)
    (receipt : OutcomeReceipt) : Prop where
  current : row.currentReceipt = some receipt
  requestId : receipt.requestId = requestId
  reserved : row.reservedReceipts = receipt.ambiguousRequiresObservation.toNat
  times : ∀ t, receipt.dispatchedAtUnixMs = some t → 0 < t ∧ t ≤ receipt.capturedAtUnixMs
  signed : ∃ signer ∈ s.connectors, ∃ request, Presented events request ∧
    request.digest = row.requestSha256 ∧ request.expectedConfigSha256 = signer.config.digest ∧
    Signed signer receipt

/-- Marks are readings of the clock, and settled requests have signed receipts. -/
structure Endorsements (events : List Event) (s : System) : Prop where
  marks : ∀ requestId row, s.store.requests.lookup requestId = some row →
    ∀ t, row.dispatchedAtUnixMs = some t → 0 < t ∧ t ≤ i64Max
  terminal : ∀ requestId row, s.store.requests.lookup requestId = some row →
    row.status = .terminal → ∃ receipt, Endorsed events s requestId row receipt

/-! ## Steps -/

variable {requestId : Uuid} {receipt : OutcomeReceipt} {connector : ExternalConnector}

/-- A row keeps its receipt when an update does not touch it. -/
theorem Endorsed.of_kept {row' : RequestRow} (hendorsed : Endorsed events s requestId row receipt)
    (hkept : row.Kept row') (hcurrent : row'.currentReceipt = row.currentReceipt)
    (hreserved : row'.reservedReceipts = row.reservedReceipts)
    (hconnectors : ∀ connector ∈ s.connectors, connector ∈ s'.connectors) :
    Endorsed events s' requestId row' receipt := by
  obtain ⟨signer, hmem, request, hpresented, hdigest, hsigned⟩ := hendorsed.signed
  exact ⟨hcurrent.trans hendorsed.current, hendorsed.requestId, hreserved.trans hendorsed.reserved,
    hendorsed.times, signer, hconnectors signer hmem, request, hpresented,
    hdigest.trans hkept.requestSha256.symm, hsigned⟩

/-- What keeps the rows keeps their receipts. -/
theorem Endorsements.of_same (hall : Endorsements events s)
    (hrequests : s'.store.requests = s.store.requests)
    (hconnectors : ∀ connector ∈ s.connectors, connector ∈ s'.connectors) :
    Endorsements events s' := by
  refine ⟨?_, fun requestId row hrow hterminal => ?_⟩
  · rw [hrequests]
    exact hall.marks
  · rw [hrequests] at hrow
    obtain ⟨receipt, hendorsed⟩ := hall.terminal requestId row hrow hterminal
    exact ⟨receipt, hendorsed.of_kept (.refl row) rfl rfl hconnectors⟩

/-- An update of one row keeps the others, and leaves the receipt of the row or replaces it. -/
theorem Endorsements.of_rewrite (hall : Endorsements events s)
    (hrequests : s'.store.requests = (s.store.rewrite requestId f).requests)
    (hconnectors : s'.connectors = s.connectors)
    (hmarks : ∀ row, s.store.requests.lookup requestId = some row →
      ∀ t, (f row).dispatchedAtUnixMs = some t → 0 < t ∧ t ≤ i64Max)
    (hreceipt : ∀ row, s.store.requests.lookup requestId = some row →
      (f row).status = .terminal → ∃ receipt, Endorsed events s' requestId (f row) receipt) :
    Endorsements events s' := by
  refine ⟨fun requestId' row' hrow' => ?_, fun requestId' row' hrow' hterminal => ?_⟩
  · rw [hrequests] at hrow'
    rcases lookup_rewrite_cases hrow' with ⟨rfl, row, hrow, rfl⟩ | ⟨-, hrow⟩
    · exact hmarks row hrow
    · exact hall.marks requestId' row' hrow
  · rw [hrequests] at hrow'
    rcases lookup_rewrite_cases hrow' with ⟨rfl, row, hrow, rfl⟩ | ⟨-, hrow⟩
    · exact hreceipt row hrow hterminal
    · obtain ⟨receipt, hendorsed⟩ := hall.terminal requestId' row' hrow hterminal
      exact ⟨receipt, hendorsed.of_kept (.refl row') rfl rfl (by rw [hconnectors]; exact fun _ => id)⟩

/-- An update that leaves status and receipt alone. -/
theorem Endorsements.of_unsettled (hall : Endorsements events s)
    (hrequests : s'.store.requests = (s.store.rewrite requestId f).requests)
    (hconnectors : s'.connectors = s.connectors)
    (hmarks : ∀ row, s.store.requests.lookup requestId = some row →
      ∀ t, (f row).dispatchedAtUnixMs = some t → 0 < t ∧ t ≤ i64Max)
    (hkept : ∀ row : RequestRow, row.Kept (f row) ∧ (f row).status = row.status ∧
      (f row).currentReceipt = row.currentReceipt ∧
      (f row).reservedReceipts = row.reservedReceipts) : Endorsements events s' := by
  refine hall.of_rewrite hrequests hconnectors hmarks fun row hrow hterminal => ?_
  obtain ⟨hkept, hstatus, hcurrent, hreserved⟩ := hkept row
  obtain ⟨receipt, hendorsed⟩ := hall.terminal requestId row hrow (hstatus ▸ hterminal)
  exact ⟨receipt, hendorsed.of_kept hkept hcurrent hreserved (by rw [hconnectors]; exact fun _ => id)⟩

omit [Platform] [ConnectorPlatform] in
/-- The dispatch time of a new receipt is a reading of the clock not after its capture time. -/
theorem Times.valid {call : Call} (htimes : Times call row receipt)
    (hmarks : ∀ t, row.dispatchedAtUnixMs = some t → 0 < t ∧ t ≤ i64Max) :
    ∀ t, receipt.dispatchedAtUnixMs = some t → 0 < t ∧ t ≤ receipt.capturedAtUnixMs := by
  intro t' hsome
  cases htimes with
  | @lost _ _ _ _ t ht hreceipt hcaptured =>
    obtain rfl := mem_unique hreceipt hsome
    obtain ⟨hpos, hle⟩ := hmarks t ht
    exact ⟨hpos, hcaptured hle⟩
  | exhausted _ _ _ _ hreceipt =>
    rw [hreceipt] at hsome
    cases hsome
  | expired _ _ hreceipt =>
    rw [hreceipt] at hsome
    cases hsome
  | answered _ dispatchTime _ hreceipt hcaptured =>
    obtain rfl := mem_unique hreceipt hsome
    exact ⟨dispatchTime.2.1, hcaptured⟩

/-- An ambiguous receipt is reconciled by a connector with the configuration of its signer. -/
theorem Endorsed.labelled (hfree : CollisionFree events) (horigins : Origins events s)
    {prior : OutcomeReceipt} {admission : ExternalConnector × ActionRequest}
    (hendorsed : Endorsed events s requestId row prior)
    (hprovenance : Provenance s requestId row admission) (hmem : connector ∈ s.connectors)
    (hruntime : s.store.runtime = some connector.runtime)
    (hobserve : prior.ambiguousRequiresObservation = true) :
    Labelled connector prior ∧ admission.2.expectedConfigSha256 = connector.config.digest := by
  obtain ⟨signer, hsigner, request, hpresented, hdigest, hbound, hsigned⟩ := hendorsed.signed
  obtain ⟨hadmission, hpresented', hbound'⟩ := horigins.admissions admission hprovenance.mem
  have hreserved : row.reservedReceipts ≠ 0 := by
    rw [hendorsed.reserved, hobserve]
    exact Nat.one_ne_zero
  have hsame := mem_unique (hprovenance.runtime (.inr hreserved)) hruntime
  have hexpected := hbound'.trans (congrArg Runtime.configSha256 hsame)
  have hconfig := hfree.config_eq (horigins.connectors _ hsigner).1 (horigins.connectors _ hmem).1
    hpresented hpresented' hbound hexpected (hdigest.trans hprovenance.requestSha256)
  obtain ⟨⟨hschema, hprotocol, hkey⟩, -⟩ := hsigned
  exact ⟨⟨hschema, hprotocol, hkey.trans (by rw [hconfig])⟩, hexpected⟩

theorem Does.endorsements (hfree : CollisionFree events) (hdoes : Does s event s')
    (hbounded : Bounded events s) (hadmitted : Admitted s) (hall : Endorsements events s) :
    Endorsements events s' := by
  cases hdoes with
  | nothing => exact hall.of_same rfl fun _ => id
  | stopped => exact hall.of_same rfl fun _ => id
  | started _ _ _ hrequests =>
    exact hall.of_same hrequests fun _ hmem => List.mem_cons_of_mem _ hmem
  | begun => exact hall.of_same rfl fun _ => id
  | admitted =>
    refine ⟨fun requestId row hrow => ?_, fun requestId row hrow hterminal => ?_⟩
    · rcases Table.lookup_insert_cases hrow with ⟨-, rfl⟩ | ⟨-, hold⟩
      · exact fun t ht => (some_ne_none t ht.symm).elim
      · exact hall.marks requestId row hold
    · rcases Table.lookup_insert_cases hrow with ⟨-, rfl⟩ | ⟨-, hold⟩
      · cases hterminal
      · obtain ⟨receipt, hendorsed⟩ := hall.terminal requestId row hold hterminal
        exact ⟨receipt, hendorsed.of_kept (.refl row) rfl rfl fun _ => id⟩
  | reclaimed =>
    exact hall.of_unsettled rfl rfl (fun _ _ t ht => (some_ne_none t ht.symm).elim)
      fun row => ⟨row.kept_reclaimed _, rfl, rfl, rfl⟩
  | @marked _ row _ now =>
    refine hall.of_unsettled rfl rfl (fun _ _ t ht => ?_)
      fun row => ⟨row.kept_marked _, rfl, rfl, rfl⟩
    obtain rfl := Option.some.inj ht
    exact now.2
  | sent => exact hall.of_same rfl fun _ => id
  | released =>
    exact hall.of_unsettled rfl rfl (fun _ _ t ht => (some_ne_none t ht.symm).elim)
      fun row => ⟨row.kept_released, rfl, rfl, rfl⟩
  | @concluded call row _ receipt _ hcall hrow houtcome htimes =>
    refine hall.of_rewrite rfl rfl (fun old hold => hall.marks _ old hold) fun old hold _ => ?_
    rw [houtcome.requestId] at hold
    obtain rfl := mem_unique hrow.lookup hold
    obtain ⟨hmem, hpresented, -, hbound⟩ := hbounded.origins.call call hcall
    exact ⟨receipt, rfl, rfl, rfl, htimes.valid (hall.marks _ row hold), call.connector, hmem,
      call.request, hpresented, hrow.requestSha256.symm, hbound, houtcome.signed⟩
  | @reconciled connector requestId row prior receipt hmem hidle hruntime hrow hterminal hprior
      hobserve hsettled hdispatched hcaptured hclass hid hsigned =>
      refine hall.of_rewrite rfl rfl (fun old hold => hall.marks _ old hold) fun old hold _ => ?_
      obtain ⟨prior', hendorsed⟩ := hall.terminal requestId row hrow hterminal
      obtain rfl := mem_unique hprior hendorsed.current
      rw [hid, hendorsed.requestId] at hold
      obtain rfl := mem_unique hrow hold
      obtain ⟨admission, hprovenance⟩ := hadmitted.provenance requestId row hrow
      obtain ⟨hlabelled, hbound⟩ :=
        hendorsed.labelled hfree hbounded.origins hprovenance hmem hruntime hobserve
      obtain ⟨-, hpresented, -⟩ := hbounded.origins.admissions admission hprovenance.mem
      refine ⟨receipt, rfl, rfl, ?_, fun t ht => ?_, connector, hmem, admission.2, hpresented,
        hprovenance.requestSha256.symm, hbound, hsigned hlabelled⟩
      · rw [hsettled]
        rfl
      · obtain ⟨hpos, hle⟩ := hendorsed.times t (hdispatched ▸ ht)
        exact ⟨hpos, hle.trans hcaptured⟩

/-! ## Replay -/

theorem publicKey_of_validateConfig (hvalid : connector.validateConfig = true) : ∃ key,
      ConnectorPlatform.publicKeyFromSeed connector.outcomeSigningSeed = .ok key ∧
      connector.config.outcomeSigningPublicKeySha256 = contentSha256 key := by
  unfold ExternalConnector.validateConfig at hvalid
  simp only [Bool.and_eq_true, decide_eq_true_eq, and_assoc] at hvalid
  obtain ⟨-, -, -, -, -, -, -, -, -, -, -, hkey, -⟩ := hvalid
  cases hseed : ConnectorPlatform.publicKeyFromSeed connector.outcomeSigningSeed with
  | ok key =>
    rw [hseed] at hkey
    exact ⟨key, rfl, of_decide_eq_true hkey⟩
  | error =>
    rw [hseed] at hkey
    cases hkey

/-- A connector verifies the receipts of connectors with its configuration. -/
theorem Signed.verify (hfree : CollisionFree events) (horigins : Origins events s)
    {signer : ExternalConnector} (hsigned : Signed signer receipt) (hsigner : signer ∈ s.connectors)
    (hmem : connector ∈ s.connectors) (hconfig : signer.config = connector.config)
    (hid : receipt.requestId ≠ 0)
    (htimes : ∀ t, receipt.dispatchedAtUnixMs = some t → 0 < t ∧ t ≤ receipt.capturedAtUnixMs) :
    connector.verifyOutcomeReceipt receipt = .ok () := by
  obtain ⟨hstarted, hvalid⟩ := horigins.connectors signer hsigner
  obtain ⟨hstarted', hvalid'⟩ := horigins.connectors connector hmem
  obtain ⟨key, hseed, hkey⟩ := publicKey_of_validateConfig hvalid
  obtain ⟨key', hseed', hkey'⟩ := publicKey_of_validateConfig hvalid'
  obtain rfl := hfree.keys signer connector key key' hstarted hstarted' hseed hseed'
    (by rw [← hkey, ← hkey', hconfig])
  obtain ⟨⟨hschema, hprotocol, hdigest⟩, hsequence, signature, hsign, hsignature⟩ := hsigned
  have hverify := ConnectorPlatform.verify_sign _ _ _ _ hsign hseed
  have hdispatch : (receipt.dispatchedAtUnixMs.any fun dispatchedAt =>
      dispatchedAt ≤ 0 || receipt.capturedAtUnixMs < dispatchedAt) = false := by
    cases htime : receipt.dispatchedAtUnixMs with
    | none => rfl
    | some t =>
      obtain ⟨hpos, hle⟩ := htimes t htime
      simp [hpos, hle]
  unfold ExternalConnector.verifyOutcomeReceipt
  rw [hseed', hschema, hprotocol, hdispatch, hdigest, hkey, hsignature]
  simp [hsequence, hid, hverify, bind, Except.bind, pure, Except.pure]

end McLoving.Connector
