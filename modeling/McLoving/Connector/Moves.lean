import McLoving.Connector.Execute
import McLoving.Lib.Except

/-!
# What an event can do

Every event does one of a few things to the tables, the call in flight and the logs.  The invariants
of the connector are derived from these.
-/

namespace McLoving.Connector

open Option Except Connector.System ConnectorStore

variable [Platform] [ConnectorPlatform]

/-! ## Receipts -/

/-- A receipt in the connector's format that names its key. -/
structure Labelled (connector : ExternalConnector) (receipt : OutcomeReceipt) : Prop where
  schemaVersion : receipt.schemaVersion = outcomeReceiptSchemaVersion
  protocolVersion : receipt.protocolVersion = Connector.protocolVersion
  keyDigest : receipt.outcomeSigningPublicKeySha256 = connector.config.outcomeSigningPublicKeySha256

/-- A receipt that carries the connector's signature. -/
structure Signed (connector : ExternalConnector) (receipt : OutcomeReceipt) : Prop where
  labelled : Labelled connector receipt
  evidenceSequence : receipt.evidenceSequence ≠ 0
  signature : ∃ signature, ConnectorPlatform.sign (ExternalConnector.outcomeMessage receipt)
    connector.outcomeSigningSeed = .ok signature ∧ receipt.signatureBase64 = signature

variable {receipt signed : OutcomeReceipt} {store store' : ConnectorStore} {call : Call}
variable {timing : ExternalConnector.OutcomeTiming} {attemptCount : ℕ}

variable {connector : ExternalConnector} {maxReceipts : ℕ} {requestSha256 configSha256 : String}
variable {dispatchTime : UnixMs}

omit [Platform] in
/-- Signing changes the signature only. -/
theorem signOutcomeReceipt_eq_ok (hok : connector.signOutcomeReceipt receipt = .ok signed) :
    ∃ signature, signed = { receipt with signatureBase64 := signature } ∧
      ConnectorPlatform.sign (ExternalConnector.outcomeMessage signed)
        connector.outcomeSigningSeed = .ok signature := by
  unfold ExternalConnector.signOutcomeReceipt at hok
  obtain ⟨signature, hsign, hok⟩ := bind_eq_ok.mp hok
  cases hok
  exact ⟨signature, rfl, hsign⟩

/-- The update of `finalize` on the row of a request. -/
def RequestRow.concluded (row : RequestRow) (receipt : OutcomeReceipt) : RequestRow :=
  { row with
    status := .terminal, currentReceiptSha256 := some receipt.digest,
    currentReceipt := some receipt,
    reservedReceipts := receipt.ambiguousRequiresObservation.toNat }

/-- The update of `replace_after_reconciliation` on the row of a request. -/
def RequestRow.reconciled (row : RequestRow) (receipt : OutcomeReceipt) : RequestRow :=
  { row with
    currentReceiptSha256 := some receipt.digest, currentReceipt := some receipt,
    reservedReceipts := 0 }

/-- The row of a request is rewritten and a receipt is appended. -/
def ConnectorStore.record (store : ConnectorStore) (receipt : OutcomeReceipt)
    (rewrite : RequestRow → RequestRow) : ConnectorStore :=
  { store with
    requests := store.requests.modify receipt.requestId rewrite
    evidence := store.evidence ++ [⟨receipt.requestId, receipt.digest, receipt⟩] }

/-- The evidence grows by the receipt. -/
theorem insertEvidence_eq_ok (hok : store.insertEvidence receipt = .ok store') :
    store' = { store with
      evidence := store.evidence ++ [⟨receipt.requestId, receipt.digest, receipt⟩] } := by
  unfold insertEvidence at hok
  split_ifs at hok
  exact (Except.ok.inj hok).symm

/-- A finalization records its receipt in the row of the request. -/
theorem finalize_eq_ok (hok : store.finalize maxReceipts requestSha256 receipt = .ok store') :
    (∃ row, store.requests.lookup receipt.requestId = some row ∧
      row.requestSha256 = requestSha256) ∧
      store' = store.record receipt fun row => row.concluded receipt := by
  unfold finalize at hok
  simp only [ite_throw_bind_eq_ok] at hok
  obtain ⟨-, hrow, hok⟩ := hok
  refine ⟨?_, insertEvidence_eq_ok hok⟩
  rw [Bool.not_eq_true, Bool.not_eq_false', any_eq_true] at hrow
  obtain ⟨row, hlookup, hsame⟩ := hrow
  exact ⟨row, hlookup, of_decide_eq_true hsame⟩

/-- A reconciliation records its receipt. -/
theorem replaceAfterReconciliation_eq_ok {priorDigest : String}
    (hok : store.replaceAfterReconciliation maxReceipts priorDigest receipt = .ok store') :
    store' = store.record receipt fun row => row.reconciled receipt := by
  unfold replaceAfterReconciliation at hok
  simp only [ite_throw_bind_eq_ok] at hok
  exact insertEvidence_eq_ok hok.2.2

/-- A concluded call has signed a receipt and stored it under its request. -/
theorem conclude_eq_ok {request : ActionRequest}
    (hok : connector.conclude store request receipt = .ok (store', signed)) :
    (∃ signature, signed = { receipt with signatureBase64 := signature } ∧
      ConnectorPlatform.sign (ExternalConnector.outcomeMessage signed)
        connector.outcomeSigningSeed = .ok signature) ∧
    (∃ row, store.requests.lookup signed.requestId = some row ∧
      row.requestSha256 = request.digest) ∧
    store' = store.record signed fun row => row.concluded signed := by
  unfold ExternalConnector.conclude at hok
  simp only [bind_eq_ok] at hok
  obtain ⟨receipt', hsigned, final, hfinal, hok⟩ := hok
  cases hok
  obtain ⟨hrow, hstore⟩ := finalize_eq_ok hfinal
  exact ⟨signOutcomeReceipt_eq_ok hsigned, hrow, hstore⟩

/-- The receipt that ends a call: what is the same however it ends. -/
structure Outcome (store : ConnectorStore) (call : Call) (timing : ExternalConnector.OutcomeTiming)
    (receipt : OutcomeReceipt) : Prop where
  signed : Signed call.connector receipt
  requestId : receipt.requestId = call.request.requestId
  idempotencyClass : receipt.idempotencyClass = call.request.idempotencyClass
  dispatchedAt : receipt.dispatchedAtUnixMs = timing.dispatchedAtUnixMs
  capturedAt : receipt.capturedAtUnixMs = timing.capturedAtUnixMs
  ambiguous : receipt.ambiguousRequiresObservation = decide (receipt.status = .ambiguous)
  row : ∃ row, store.requests.lookup call.request.requestId = some row ∧
    row.requestSha256 = call.request.digest

theorem outcome_of_conclude
    (hbase : ∃ status statusCode publicValues protectedSecretRefs externalIds downstream later
      response signature key, receipt =
        { call.connector.baseReceipt call.request store.nextSequence attemptCount timing with
          status := status, statusCode := statusCode, publicValues := publicValues,
          protectedSecretRefs := protectedSecretRefs, externalIds := externalIds,
          downstreamControlDigest := downstream, laterIntentsDigest := later,
          destinationResponseSha256 := response, destinationSignatureBase64 := signature,
          destinationAttestationKeyId := key,
          ambiguousRequiresObservation := decide (status = .ambiguous) })
    (hok : call.connector.conclude store call.request receipt = .ok (store', signed)) :
    Outcome store call timing signed ∧
      store' = store.record signed fun row => row.concluded signed := by
  obtain ⟨⟨signature, hsigned, hsign⟩, hrow, hstore⟩ := conclude_eq_ok hok
  obtain ⟨_, _, _, _, _, _, _, _, _, _, rfl⟩ := hbase
  have hid : signed.requestId = call.request.requestId := by rw [hsigned]; rfl
  refine ⟨⟨⟨⟨?_, ?_, ?_⟩, ?_, signature, hsign, ?_⟩, hid, ?_, ?_, ?_, ?_, hid ▸ hrow⟩, hstore⟩
  all_goals rw [hsigned]
  all_goals first
    | rfl
    | exact Nat.succ_ne_zero _

/-- An outcome that the connector decides. -/
theorem finalizeLocal_eq_ok {status : OutcomeStatus} {statusCode : String}
    (hok : call.connector.finalizeLocal store call.request attemptCount status statusCode timing =
      .ok (store', signed)) : Outcome store call timing signed ∧
      store' = store.record signed fun row => row.concluded signed :=
  outcome_of_conclude ⟨_, _, _, _, _, _, _, _, _, _, rfl⟩ hok

/-- An outcome that the destination reports. -/
theorem finalizeDestination_eq_ok {response : DestinationOutcome}
    (hok : call.connector.finalizeDestination store call.request attemptCount response timing =
      .ok (store', signed)) : Outcome store call timing signed ∧
      store' = store.record signed fun row => row.concluded signed :=
  outcome_of_conclude ⟨_, _, _, _, _, _, _, _, _, _, rfl⟩ hok

/-! ## Moves -/

/-- The store with another row for a request. -/
def ConnectorStore.rewrite (store : ConnectorStore) (requestId : Uuid)
    (f : RequestRow → RequestRow) : ConnectorStore :=
  { store with requests := store.requests.modify requestId f }

/-- The update of `claim` on the row of a request that gets another attempt. -/
def RequestRow.reclaimed (row : RequestRow) (attemptCount : ℕ) : RequestRow :=
  { row with dispatched := false, dispatchedAtUnixMs := none, attemptCount := attemptCount }

/-- The update of `mark_dispatched` on the row of a request. -/
def RequestRow.marked (row : RequestRow) (now : ℤ) : RequestRow :=
  { row with dispatched := true, dispatchedAtUnixMs := some now }

/-- The update of `release_retryable` on the row of a request. -/
def RequestRow.released (row : RequestRow) : RequestRow :=
  { row with dispatched := false, dispatchedAtUnixMs := none }

/-- The row that belongs to the request of a call. -/
structure RowOf (s : System) (call : Call) (row : RequestRow) : Prop where
  lookup : s.store.requests.lookup call.request.requestId = some row
  requestSha256 : row.requestSha256 = call.request.digest

/-- The receipt's dispatch time fits the step that the call was at. -/
inductive Times (call : Call) (row : RequestRow) (receipt : OutcomeReceipt) : Prop
  | lost (hphase : call.phase = .claiming)
      (hclass : row.idempotencyClass = call.request.idempotencyClass)
      (hpending : row.status = .pending) (hdispatched : row.dispatched = true) {t : ℤ}
      (ht : row.dispatchedAtUnixMs = some t)
      (hreceipt : receipt.dispatchedAtUnixMs = some t)
      (hcaptured : t ≤ i64Max → t ≤ receipt.capturedAtUnixMs)
  | exhausted (hphase : call.phase = .claiming)
      (hclass : row.idempotencyClass = call.request.idempotencyClass)
      (hpending : row.status = .pending)
      (hunsent : row.dispatched = true → call.request.idempotencyClass.retrySafe = true)
      (hreceipt : receipt.dispatchedAtUnixMs = none)
  | expired (attemptCount : ℕ)
      (hphase : call.phase = .marking attemptCount ∨ call.phase = .sending attemptCount)
      (hreceipt : receipt.dispatchedAtUnixMs = none)
  | answered (attemptCount : ℕ) (dispatchTime : UnixMs)
      (hphase : call.phase = .awaiting attemptCount dispatchTime)
      (hreceipt : receipt.dispatchedAtUnixMs = some dispatchTime.1)
      (hcaptured : dispatchTime.1 ≤ receipt.capturedAtUnixMs)

/-- The effect of an event. -/
inductive Does (s : System) (event : Event) : System → Prop
  | nothing (returned : List (ActionRequest × Except ConnectorError OutcomeReceipt)) :
      Does s event { s with returned := returned }
  | stopped (returned : List (ActionRequest × Except ConnectorError OutcomeReceipt)) :
      Does s event { s with call := none, returned := returned }
  | started {connector : ExternalConnector} {now : UnixMs} {store : ConnectorStore}
      (hevent : event = .start connector now) (hidle : s.call = none)
      (hvalid : connector.validateConfig = true) (hrequests : store.requests = s.store.requests)
      (hevidence : store.evidence = s.store.evidence)
      (hruntime : store.runtime = s.store.runtime ∨ s.store.runtime = none ∨
        ∀ requestId row, s.store.requests.lookup requestId = some row →
          row.status = .terminal ∧ row.reservedReceipts = 0) :
      Does s event { s with store := store, connectors := connector :: s.connectors }
  | begun {connector : ExternalConnector} {request : ActionRequest} {now : UnixMs}
      (hevent : event = .execute connector request now) (hmem : connector ∈ s.connectors)
      (hidle : s.call = none)
      (hadmitted : connector.admitCall s.store request = .ok ()) :
      Does s event { s with call := some ⟨connector, request, now, .claiming⟩ }
  | admitted {call : Call} (hcall : s.call = some call) (hphase : call.phase = .claiming)
      (hnone : s.store.requests.lookup call.request.requestId = none)
      (hscope : ∀ requestId row, s.store.requests.lookup requestId = some row →
        row.scopeKey ≠ scopeKey call.request.scope) :
      Does s event { s with
        store := { s.store with
          requests := s.store.requests.insert call.request.requestId
            (ConnectorStore.newRow call.request.digest (scopeKey call.request.scope)
              call.request.idempotencyClass) }
        call := some { call with phase := .marking 1 }
        admissions := s.admissions ++ [(call.connector, call.request)] }
  | reclaimed {call : Call} {row : RequestRow} (hcall : s.call = some call)
      (hphase : call.phase = .claiming) (hrow : RowOf s call row)
      (hclass : row.idempotencyClass = call.request.idempotencyClass)
      (hpending : row.status = .pending)
      (hunsent : row.dispatched = true → call.request.idempotencyClass.retrySafe = true)
      (hlt : row.attemptCount < call.connector.config.limits.maxAttempts) :
      Does s event { s with
        store := s.store.rewrite call.request.requestId fun row' =>
          row'.reclaimed (min (row.attemptCount + 1) 255)
        call := some { call with phase := .marking (min (row.attemptCount + 1) 255) } }
  | marked {call : Call} {row : RequestRow} {attemptCount : ℕ} {now : UnixMs}
      (hcall : s.call = some call) (hphase : call.phase = .marking attemptCount)
      (hrow : RowOf s call row) (hpending : row.status = .pending) :
      Does s event { s with
        store := s.store.rewrite call.request.requestId fun row' => row'.marked now.1
        call := some { call with phase := .sending attemptCount } }
  | sent {call : Call} {attemptCount : ℕ} {now : UnixMs} (hcall : s.call = some call)
      (hphase : call.phase = .sending attemptCount) :
      Does s event { s with
        call := some { call with phase := .awaiting attemptCount now }
        dispatches := s.dispatches ++ [(call.connector, call.request)] }
  | released {call : Call} {row : RequestRow} {attemptCount : ℕ} {now : UnixMs}
      (hcall : s.call = some call) (hphase : call.phase = .awaiting attemptCount now)
      (hrow : RowOf s call row) (hpending : row.status = .pending)
      (hsafe : call.request.idempotencyClass.retrySafe = true) :
      Does s event { s with
        store := s.store.rewrite call.request.requestId RequestRow.released
        call := some { call with phase := .claiming } }
  | concluded {call : Call} {row : RequestRow} {timing : ExternalConnector.OutcomeTiming}
      {receipt : OutcomeReceipt}
      (returned : List (ActionRequest × Except ConnectorError OutcomeReceipt))
      (hcall : s.call = some call) (hrow : RowOf s call row)
      (houtcome : Outcome s.store call timing receipt) (htimes : Times call row receipt) :
      Does s event { s with
        store := s.store.record receipt fun row' => row'.concluded receipt
        call := none, returned := returned }
  | reconciled {connector : ExternalConnector} {requestId : Uuid} {row : RequestRow}
      {prior receipt : OutcomeReceipt}
      (hmem : connector ∈ s.connectors) (hidle : s.call = none)
      (hruntime : s.store.runtime = some ⟨connector.config.digest, connector.config.generation⟩)
      (hrow : s.store.requests.lookup requestId = some row)
      (hterminal : row.status = .terminal) (hprior : row.currentReceipt = some prior)
      (hobserve : prior.ambiguousRequiresObservation = true)
      (hsettled : receipt.ambiguousRequiresObservation = false)
      (hdispatched : receipt.dispatchedAtUnixMs = prior.dispatchedAtUnixMs)
      (hcaptured : prior.capturedAtUnixMs ≤ receipt.capturedAtUnixMs)
      (hclass : receipt.idempotencyClass = prior.idempotencyClass)
      (hid : receipt.requestId = prior.requestId)
      (hsigned : Labelled connector prior → Signed connector receipt) :
      Does s event { s with store := s.store.record receipt fun row' => row'.reconciled receipt }

/-! ## Every event is one of these -/

variable {s : System} {event : Event}

omit [Platform] [ConnectorPlatform] in
/-- A cutover keeps the rows and waits for unsettled requests. -/
theorem openStore_eq_ok {config : ConnectorConfig} {deadline now : ℤ}
    (hok : store.openStore configSha256 config deadline now = .ok store') :
    store'.requests = store.requests ∧ store'.evidence = store.evidence ∧
      (store'.runtime = store.runtime ∨ store.runtime = none ∨ store.unsettledRequests = 0) := by
  have hactivate : ∀ {runtime}, store.activate runtime = .ok store' →
      store'.requests = store.requests ∧ store'.evidence = store.evidence := by
    intro runtime hok
    unfold activate at hok
    split_ifs at hok
    cases hok
    exact ⟨rfl, rfl⟩
  unfold openStore at hok
  simp only [ite_throw_bind_eq_ok] at hok
  obtain ⟨-, -, hok⟩ := hok
  split at hok
  · next hnone =>
    simp only [ite_throw_bind_eq_ok] at hok
    obtain ⟨hrequests, hevidence⟩ := hactivate hok.2.2
    exact ⟨hrequests, hevidence, .inr (.inl hnone)⟩
  · next active hactive =>
    by_cases hsame : active = ⟨configSha256, config.generation⟩
    · rw [if_pos hsame] at hok
      cases hok
      exact ⟨rfl, rfl, .inl rfl⟩
    · rw [if_neg hsame] at hok
      simp only [ite_throw_bind_eq_ok] at hok
      obtain ⟨-, hsettled, -, -, hok⟩ := hok
      obtain ⟨hrequests, hevidence⟩ := hactivate hok
      exact ⟨hrequests, hevidence, .inr (.inr (not_not.mp hsettled))⟩

omit [Platform] [ConnectorPlatform] in
/-- A pending request has a row. -/
theorem isPending_eq_true {requestId : Uuid}
    (hpending : store.isPending requestId requestSha256 = true) :
    ∃ row, store.requests.lookup requestId = some row ∧ row.requestSha256 = requestSha256 ∧
      row.status = .pending := by
  rw [isPending, any_eq_true] at hpending
  obtain ⟨row, hrow, hboth⟩ := hpending
  rw [Bool.and_eq_true, decide_eq_true_eq, decide_eq_true_eq] at hboth
  exact ⟨row, hrow, hboth.1, hboth.2⟩

/-- A call that ends without a receipt. -/
theorem does_finish_error (call : Call) (error : ConnectorError) :
    Does s event (s.finish call (.error error)) :=
  .stopped _

/-- A call that ends with a receipt of its own, or fails to. -/
theorem does_finish_conclude {result : Except ConnectorError (ConnectorStore × OutcomeReceipt)}
    (hcall : s.call = some call) (hresult : ∀ store receipt, result = .ok (store, receipt) →
      Outcome s.store call timing receipt ∧
        store = s.store.record receipt fun row => row.concluded receipt)
    (htimes : ∀ receipt row, Outcome s.store call timing receipt → RowOf s call row →
      Times call row receipt) : Does s event (s.finish call result) := by
  cases result with
  | error error => exact does_finish_error call error
  | ok pair =>
    obtain ⟨store, receipt⟩ := pair
    obtain ⟨houtcome, hstore⟩ := hresult store receipt rfl
    obtain ⟨row, hlookup, hsha⟩ := houtcome.row
    change Does s event { s with store := store, call := none, returned := _ }
    rw [hstore]
    exact .concluded _ hcall ⟨hlookup, hsha⟩ houtcome (htimes receipt row houtcome ⟨hlookup, hsha⟩)

omit [Platform] [ConnectorPlatform] in
theorem le_postDispatchCaptureTime {sampled dispatchTime : ℤ} (hle : dispatchTime ≤ i64Max) :
    dispatchTime ≤ ExternalConnector.postDispatchCaptureTime sampled dispatchTime := by
  unfold ExternalConnector.postDispatchCaptureTime saturatingAdd
  omega

/-- What a claim answers, and the store it leaves. -/
inductive Claims (s : System) (call : Call) : ConnectorStore → ConnectorStore.Claim → Prop
  | replay {row : RequestRow} {receipt : OutcomeReceipt} (hrow : RowOf s call row)
      (hclass : row.idempotencyClass = call.request.idempotencyClass)
      (hterminal : row.status = .terminal) (hreceipt : row.currentReceipt = some receipt) :
      Claims s call s.store (.replay receipt)
  | lost {row : RequestRow} {t : ℤ} (hrow : RowOf s call row)
      (hclass : row.idempotencyClass = call.request.idempotencyClass)
      (hpending : row.status = .pending) (hdispatched : row.dispatched = true)
      (ht : row.dispatchedAtUnixMs = some t) :
      Claims s call s.store (.ambiguousAfterRestart row.attemptCount t)
  | exhausted {row : RequestRow} (hrow : RowOf s call row)
      (hclass : row.idempotencyClass = call.request.idempotencyClass)
      (hpending : row.status = .pending)
      (hunsent : row.dispatched = true → call.request.idempotencyClass.retrySafe = true) :
      Claims s call s.store (.retryBudgetExhausted row.attemptCount)
  | again {row : RequestRow} (hrow : RowOf s call row)
      (hclass : row.idempotencyClass = call.request.idempotencyClass)
      (hpending : row.status = .pending)
      (hunsent : row.dispatched = true → call.request.idempotencyClass.retrySafe = true)
      (hlt : row.attemptCount < call.connector.config.limits.maxAttempts) :
      Claims s call (s.store.rewrite call.request.requestId fun row' =>
        row'.reclaimed (min (row.attemptCount + 1) 255)) (.dispatch (min (row.attemptCount + 1) 255))
  | first (hnone : s.store.requests.lookup call.request.requestId = none)
      (hscope : ∀ requestId row, s.store.requests.lookup requestId = some row →
        row.scopeKey ≠ scopeKey call.request.scope) :
      Claims s call { s.store with
        requests := s.store.requests.insert call.request.requestId
          (ConnectorStore.newRow call.request.digest (scopeKey call.request.scope)
            call.request.idempotencyClass) } (.dispatch 1)

/-- Every claim ends in one of these ways. -/
theorem claims_of_claim {now : ℤ} {claim : ConnectorStore.Claim}
    (hok : s.store.claim call.connector.config.limits.maxReceipts call.request.requestId
      call.request.digest (scopeKey call.request.scope) call.request.idempotencyClass
      call.connector.config.limits.maxAttempts call.request.requestedAtUnixMs
      (call.connector.authorityAdmissionDeadline call.request) now = .ok (store, claim)) :
    Claims s call store claim := by
  unfold ConnectorStore.claim at hok
  split at hok
  · next row hlookup =>
    unfold reclaim at hok
    rw [ite_throw_bind_eq_ok] at hok
    obtain ⟨hmatch, hok⟩ := hok
    simp only [Bool.or_eq_true, decide_eq_true_eq, not_or, not_not, ne_eq] at hmatch
    have hrow : RowOf s call row := ⟨hlookup, hmatch.1⟩
    have hpending : row.status ≠ .terminal → row.status = .pending := by
      intro hne
      cases hstatus : row.status with
      | pending => rfl
      | terminal => exact absurd hstatus hne
    split_ifs at hok with hterminal hlost hbudget hcapacity
    · split at hok
      · cases hok
      · next receipt hreceipt =>
        cases hok
        exact .replay hrow hmatch.2 hterminal hreceipt
    · rw [Bool.and_eq_true] at hlost
      split at hok
      · cases hok
      · next t ht =>
        cases hok
        exact .lost hrow hmatch.2 (hpending hterminal) hlost.1 ht
    · cases hok
      exact .exhausted hrow hmatch.2 (hpending hterminal) fun hdispatched => by
        simpa [hdispatched] using hlost
    · cases hok
      exact .again hrow hmatch.2 (hpending hterminal)
        (fun hdispatched => by simpa [hdispatched] using hlost) (by omega)
  · next hnone =>
    unfold admitRequest at hok
    simp only [ite_throw_bind_eq_ok] at hok
    obtain ⟨-, hscope, -, hok⟩ := hok
    cases hok
    refine .first hnone fun requestId row hrow hsame => ?_
    exact hscope (Table.any_eq_true.mpr ⟨requestId, row, hrow, decide_eq_true hsame⟩)

/-- The claim of a call. -/
theorem does_stepClaim (hcall : s.call = some call) (hphase : call.phase = .claiming)
    (now : UnixMs) : Does s event (s.stepClaim call now) := by
  unfold stepClaim
  split
  · exact does_finish_error call _
  · next store receipt hok =>
    cases claims_of_claim hok with
    | replay =>
      cases call.connector.verifyOutcomeReceipt receipt with
      | error error => exact does_finish_error call error
      | ok => exact .stopped _
  · next store attemptCount dispatchedAt hok =>
    cases claims_of_claim hok with
    | @lost row _ hrow hclass hpending hdispatched ht =>
      refine does_finish_conclude hcall (fun _ _ => finalizeLocal_eq_ok)
        fun receipt row' houtcome hrow' => ?_
      obtain rfl := mem_unique hrow.lookup hrow'.lookup
      refine .lost hphase hclass hpending hdispatched ht houtcome.dispatchedAt fun hle => ?_
      rw [houtcome.capturedAt]
      exact le_postDispatchCaptureTime hle
  · next store attemptCount hok =>
    cases claims_of_claim hok with
    | @exhausted row hrow hclass hpending hunsent =>
      refine does_finish_conclude hcall (fun _ _ => finalizeLocal_eq_ok)
        fun receipt row' houtcome hrow' => ?_
      obtain rfl := mem_unique hrow.lookup hrow'.lookup
      exact .exhausted hphase hclass hpending hunsent houtcome.dispatchedAt
  · next store attemptCount hok =>
    cases claims_of_claim hok with
    | again hrow hclass hpending hunsent hlt =>
      rw [hrow.lookup]
      simpa [proceed] using
        @Does.reclaimed _ _ s event call _ hcall hphase hrow hclass hpending hunsent hlt
    | first hnone hscope =>
      rw [hnone]
      exact .admitted hcall hphase hnone hscope

/-- The time of a call has passed. -/
theorem does_expire (hcall : s.call = some call)
    (hphase : call.phase = .marking attemptCount ∨ call.phase = .sending attemptCount)
    (now : UnixMs) : Does s event (s.expire call attemptCount now) :=
  does_finish_conclude hcall (fun _ _ => finalizeLocal_eq_ok) fun _ _ houtcome _ =>
    .expired attemptCount hphase houtcome.dispatchedAt

/-- The mark before the dispatch. -/
theorem does_stepMark (hcall : s.call = some call) (hphase : call.phase = .marking attemptCount)
    (now : UnixMs) : Does s event (s.stepMark call attemptCount now) := by
  unfold stepMark
  split_ifs with hwindow
  · split
    · next store hok =>
      unfold markDispatched at hok
      split_ifs at hok with hpending
      cases hok
      obtain ⟨row, hlookup, hsha, hstatus⟩ := isPending_eq_true hpending
      exact .marked hcall hphase ⟨hlookup, hsha⟩ hstatus
    · exact does_finish_error call _
  · exact does_expire hcall (.inl hphase) now

/-- The dispatch. -/
theorem does_stepSend (hcall : s.call = some call) (hphase : call.phase = .sending attemptCount)
    (now : UnixMs) : Does s event (s.stepSend call attemptCount now) := by
  unfold stepSend
  split_ifs with hwindow
  · exact .sent hcall hphase
  · exact does_expire hcall (.inr hphase) now

theorem does_release (hcall : s.call = some call)
    (hphase : call.phase = .awaiting attemptCount dispatchTime)
    (hsafe : call.request.idempotencyClass.retrySafe = true) : Does s event (s.release call) := by
  unfold release
  split
  · next store hok =>
    unfold releaseRetryable at hok
    split_ifs at hok with hpending
    cases hok
    obtain ⟨row, hlookup, hsha, hstatus⟩ := isPending_eq_true hpending
    exact .released hcall hphase ⟨hlookup, hsha⟩ hstatus hsafe
  · exact does_finish_error call _

/-- The answer of the destination. -/
theorem does_stepAnswer (hcall : s.call = some call)
    (hphase : call.phase = .awaiting attemptCount dispatchTime)
    (response : Except ConnectorError DestinationOutcome) (now : UnixMs) :
    Does s event (s.stepAnswer call attemptCount dispatchTime response now) := by
  have htimes : ∀ receipt row, Outcome s.store call ⟨some dispatchTime.1,
      ExternalConnector.postDispatchCaptureTime now.1 dispatchTime.1⟩ receipt →
      RowOf s call row → Times call row receipt := by
    intro receipt row houtcome hrow
    refine .answered attemptCount dispatchTime hphase houtcome.dispatchedAt ?_
    rw [houtcome.capturedAt]
    exact le_postDispatchCaptureTime dispatchTime.2.2
  have hlocal : ∀ status statusCode, Does s event (s.finish call
      (call.connector.finalizeLocal s.store call.request attemptCount status statusCode
        ⟨some dispatchTime.1, ExternalConnector.postDispatchCaptureTime now.1 dispatchTime.1⟩)) :=
    fun _ _ => does_finish_conclude hcall (fun _ _ => finalizeLocal_eq_ok) htimes
  unfold stepAnswer
  dsimp only
  split
  · next outcome =>
    split_ifs with hretry
    · rw [Bool.and_eq_true, Bool.and_eq_true] at hretry
      exact does_release hcall hphase hretry.2.1
    · exact does_finish_conclude hcall (fun _ _ => finalizeDestination_eq_ok) htimes
  · split_ifs with hretry hsafe
    · rw [Bool.and_eq_true] at hretry
      exact does_release hcall hphase hretry.1
    · exact hlocal _ _
    · exact hlocal _ _
  · split_ifs with hmem hsafe
    · exact hlocal _ _
    · exact hlocal _ _
    · exact does_finish_error call _

theorem does_start (connector : ExternalConnector) (now : UnixMs) :
    Does s (.start connector now) (s.start connector now) := by
  unfold start
  split_ifs with hfree
  · rw [Bool.and_eq_true, isNone_iff_eq_none] at hfree
    split
    · next store hok =>
      obtain ⟨hrequests, hevidence, hruntime⟩ := openStore_eq_ok hok
      refine .started rfl hfree.1 hfree.2 hrequests hevidence ?_
      refine hruntime.imp_right (Or.imp_right fun hsettled requestId row hrow => ?_)
      have hnot := Table.count_eq_zero.mp hsettled requestId row hrow
      simp only [Bool.or_eq_false_iff, decide_eq_false_iff_not, ne_eq, not_not] at hnot
      refine ⟨?_, hnot.2⟩
      cases hstatus : row.status with
      | pending => exact absurd hstatus hnot.1
      | terminal => rfl
    · exact .nothing _
  · exact .nothing _

/-- The beginning of a call. -/
theorem does_execute (connector : ExternalConnector) (request : ActionRequest) (now : UnixMs) :
    Does s (.execute connector request now) (s.execute connector request now) := by
  unfold execute
  split_ifs with hmem hbusy
  · exact .nothing _
  · split
    · next hok =>
      rw [not_isSome_iff_eq_none] at hbusy
      exact .begun rfl hmem hbusy hok
    · exact .nothing _
  · exact .nothing _

omit [Platform] [ConnectorPlatform] in
/-- A current receipt is that of a terminal row. -/
theorem currentReceipt_eq_ok {requestId : Uuid}
    (hok : store.currentReceipt requestId = .ok receipt) :
    ∃ row, store.requests.lookup requestId = some row ∧ row.status = .terminal ∧
      row.currentReceipt = some receipt := by
  unfold currentReceipt at hok
  split at hok
  · cases hok
  · next row hrow =>
    split at hok
    · cases hok
    · next receipt' hreceipt =>
      cases hok
      rw [filter_eq_some_iff] at hrow
      exact ⟨row, hrow.1, of_decide_eq_true hrow.2, hreceipt⟩

omit [Platform] [ConnectorPlatform] in
/-- The presented runtime is the active one. -/
theorem assertRuntime_eq_ok {generation : ℕ}
    (hok : store.assertRuntime configSha256 generation = .ok ()) :
    store.runtime = some ⟨configSha256, generation⟩ := by
  unfold assertRuntime at hok
  split at hok
  · cases hok
  · next active hactive =>
    split_ifs at hok with hsame
    rw [hactive, not_not.mp hsame]

/-- A reconciliation. -/
theorem does_reconcile (connector : ExternalConnector) (request : ReconcileRequest)
    (now : UnixMs) : Does s event (s.reconcile connector request now) := by
  unfold reconcile
  split_ifs with hfree
  · rw [Bool.and_eq_true, decide_eq_true_eq, isNone_iff_eq_none] at hfree
    split
    · next store receipt hok =>
      unfold ExternalConnector.reconcile at hok
      simp only [bind_eq_ok, ite_throw_bind_eq_ok] at hok
      obtain ⟨⟨⟩, hruntime, -, -, prior, hprior, hexpected, hmatches, -, signed, hsigned, final,
        hfinal, hok⟩ := hok
      cases hok
      obtain ⟨row, hrow, hterminal, hcurrent⟩ := currentReceipt_eq_ok hprior
      obtain ⟨signature, hshape, hsign⟩ := signOutcomeReceipt_eq_ok hsigned
      rw [replaceAfterReconciliation_eq_ok hfinal]
      simp only [Bool.or_eq_true, not_or, Bool.not_eq_true, Bool.not_eq_false'] at hexpected
      refine .reconciled hfree.1 hfree.2 (assertRuntime_eq_ok hruntime) hrow hterminal hcurrent
        hexpected.2 ?_ ?_ ?_ ?_ ?_ fun hprior => ?_
      · rw [hshape]
      · rw [hshape]
      · rw [hshape]
        simp only [ExternalConnector.observationMatches, Bool.not_eq_true, Bool.not_eq_false',
          Bool.and_eq_true, decide_eq_true_eq, and_assoc] at hmatches
        obtain ⟨-, -, -, -, -, -, -, -, -, -, -, -, hobserved, hpast, -⟩ := hmatches
        exact hobserved.trans hpast
      · rw [hshape]
      · rw [hshape]
      · refine ⟨⟨?_, ?_, ?_⟩, ?_, signature, hsign, ?_⟩
        · rw [hshape]
          exact hprior.schemaVersion
        · rw [hshape]
          exact hprior.protocolVersion
        · rw [hshape]
          exact hprior.keyDigest
        · rw [hshape]
          exact Nat.succ_ne_zero _
        · rw [hshape]
    · exact .nothing _
  · exact .nothing _

/-- Every event does one of the listed things. -/
theorem does_step (s : System) (event : Event) : Does s event (s.step event) := by
  cases event with
  | start connector now => exact does_start connector now
  | execute connector request now => exact does_execute connector request now
  | claim now =>
    rw [step]
    split
    · next hcall => exact does_stepClaim hcall rfl now
    · exact .nothing _
  | mark now =>
    rw [step]
    split
    · next hcall => exact does_stepMark hcall rfl now
    · exact .nothing _
  | send now =>
    rw [step]
    split
    · next hcall => exact does_stepSend hcall rfl now
    · exact .nothing _
  | answer response now =>
    rw [step]
    split
    · next hcall => exact does_stepAnswer hcall rfl response now
    · exact .nothing _
  | reconcile connector request now => exact does_reconcile connector request now
  | crash => exact .stopped _

end McLoving.Connector
