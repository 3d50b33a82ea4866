import McLoving.Connector.Admissions

/-!
# An external action is sent at most once

An admission reserves two receipts, one for its outcome and one for the observation that an
ambiguous outcome still needs, so there is always room for them.  For every history of a state
directory, an effect scope has at most one admission, and once its request has a receipt it is not
sent again: the same request is answered with the receipt.
-/

namespace McLoving.Connector

open Option Table Connector.System ConnectorStore

section Reservations

variable {s s' : System} {event : Event}

/-! ## Totals -/

theorem retainedAndReserved_eq (store : ConnectorStore) : store.retainedAndReserved =
    store.evidence.length + store.requests.total RequestRow.reservedReceipts :=
  rfl

variable {store : ConnectorStore} {requestId : Uuid} {row : RequestRow}
variable {f : RequestRow → RequestRow} {limit : ℕ}

/-- An update that keeps the reservations of a row keeps the total. -/
theorem retainedAndReserved_rewrite (hrow : store.requests.lookup requestId = some row)
    (hsame : (f row).reservedReceipts = row.reservedReceipts) :
    (store.rewrite requestId f).retainedAndReserved = store.retainedAndReserved := by
  have htotal := total_modify RequestRow.reservedReceipts f hrow
  rw [retainedAndReserved_eq, retainedAndReserved_eq]
  simp only [ConnectorStore.rewrite]
  omega

/-- The stored receipts leave room for the reservations of a row. -/
theorem length_add_reserved_le (store : ConnectorStore)
    (hrow : store.requests.lookup requestId = some row) :
    store.evidence.length + row.reservedReceipts ≤ store.retainedAndReserved := by
  have htotal := le_total RequestRow.reservedReceipts hrow
  rw [retainedAndReserved_eq]
  omega

/-! ## Reservations -/

/-- The receipts that a row still needs. -/
structure Reserved (limit : ℕ) (s : System) : Prop where
  pending : ∀ requestId row, s.store.requests.lookup requestId = some row →
    row.status = .pending → row.reservedReceipts = 2
  terminal : ∀ requestId row receipt, s.store.requests.lookup requestId = some row →
    row.status = .terminal → row.currentReceipt = some receipt →
    row.reservedReceipts = receipt.ambiguousRequiresObservation.toNat
  total : s.store.retainedAndReserved ≤ limit

/-- What keeps the rows and the receipts keeps the reservations. -/
theorem Reserved.of_same (hreserved : Reserved limit s)
    (hrequests : s'.store.requests = s.store.requests)
    (hevidence : s'.store.evidence = s.store.evidence) : Reserved limit s' := by
  refine ⟨?_, ?_, ?_⟩
  · rw [hrequests]
    exact hreserved.pending
  · rw [hrequests]
    exact hreserved.terminal
  · rw [retainedAndReserved_eq, hrequests, hevidence]
    exact hreserved.total

/-- An update of a pending row that settles nothing keeps the reservations. -/
theorem Reserved.of_rewrite (hreserved : Reserved limit s)
    (hrow : s.store.requests.lookup requestId = some row)
    (hstore : s'.store = s.store.rewrite requestId f)
    (hsame : ∀ row : RequestRow, (f row).status = row.status ∧
      (f row).currentReceipt = row.currentReceipt ∧
      (f row).reservedReceipts = row.reservedReceipts) : Reserved limit s' := by
  refine ⟨fun id row' hrow' hpending => ?_, fun id row' receipt hrow' hterminal hreceipt => ?_, ?_⟩
  · rw [hstore] at hrow'
    rcases lookup_rewrite_cases hrow' with ⟨-, old, hold, rfl⟩ | ⟨-, hold⟩
    · obtain ⟨hstatus, -, hcount⟩ := hsame old
      rw [hcount]
      exact hreserved.pending id old hold (hstatus ▸ hpending)
    · exact hreserved.pending id row' hold hpending
  · rw [hstore] at hrow'
    rcases lookup_rewrite_cases hrow' with ⟨-, old, hold, rfl⟩ | ⟨-, hold⟩
    · obtain ⟨hstatus, hcurrent, hcount⟩ := hsame old
      rw [hcount]
      exact hreserved.terminal id old receipt hold (hstatus ▸ hterminal) (hcurrent ▸ hreceipt)
    · exact hreserved.terminal id row' receipt hold hterminal hreceipt
  · rw [hstore, retainedAndReserved_rewrite hrow (hsame row).2.2]
    exact hreserved.total

variable [Platform] [ConnectorPlatform]

/-- A receipt that uses up a reservation does not raise the total. -/
theorem retainedAndReserved_record {receipt : OutcomeReceipt}
    (hrow : store.requests.lookup receipt.requestId = some row)
    (hused : (f row).reservedReceipts + 1 ≤ row.reservedReceipts) :
    (store.record receipt f).retainedAndReserved ≤ store.retainedAndReserved := by
  have htotal := total_modify RequestRow.reservedReceipts f hrow
  rw [retainedAndReserved_eq, retainedAndReserved_eq]
  simp only [ConnectorStore.record, List.length_append, List.length_singleton]
  omega

/-- A receipt that settles its row, up to the observation it still needs, uses a reservation. -/
theorem Reserved.of_record (hreserved : Reserved limit s) {receipt : OutcomeReceipt}
    (hrow : s.store.requests.lookup receipt.requestId = some row)
    (hstore : s'.store = s.store.record receipt f) (hterminal : (f row).status = .terminal)
    (hcurrent : (f row).currentReceipt = some receipt)
    (hcount : (f row).reservedReceipts = receipt.ambiguousRequiresObservation.toNat)
    (hused : (f row).reservedReceipts + 1 ≤ row.reservedReceipts) : Reserved limit s' := by
  refine ⟨fun id row' hrow' hpending => ?_, fun id row' other hrow' hdone hreceipt => ?_, ?_⟩
  · rw [hstore] at hrow'
    rcases lookup_rewrite_cases hrow' with ⟨rfl, old, hold, rfl⟩ | ⟨-, hold⟩
    · obtain rfl := mem_unique hrow hold
      rw [hterminal] at hpending
      cases hpending
    · exact hreserved.pending id row' hold hpending
  · rw [hstore] at hrow'
    rcases lookup_rewrite_cases hrow' with ⟨rfl, old, hold, rfl⟩ | ⟨-, hold⟩
    · obtain rfl := mem_unique hrow hold
      obtain rfl := mem_unique hcurrent hreceipt
      exact hcount
    · exact hreserved.terminal id row' other hold hdone hreceipt
  · rw [hstore]
    exact (retainedAndReserved_record hrow hused).trans hreserved.total

/-! ## Admissions -/

/-- A request that gets a row found room for two receipts. -/
theorem room_of_admission {call : Call} (hcall : s.call = some call)
    (hphase : call.phase = .claiming)
    (hnone : s.store.requests.lookup call.request.requestId = none)
    (hrow : (s.step event).store.requests.lookup call.request.requestId ≠ none) :
    s.store.retainedAndReserved + 2 ≤ call.connector.config.limits.maxReceipts := by
  obtain ⟨connector, request, started, phase⟩ := call
  obtain rfl := hphase
  by_contra hfull
  apply hrow
  cases event with
  | claim now =>
    have hclaim : s.store.claim connector.config.limits.maxReceipts request.requestId
        request.digest (scopeKey request.scope) request.idempotencyClass
        connector.config.limits.maxAttempts request.requestedAtUnixMs
        (connector.authorityAdmissionDeadline request) now.1 = .error .capacityExceeded := by
      rw [claim]
      simp only [hnone, admitRequest]
      rw [if_pos (Nat.lt_of_not_le hfull)]
      rfl
    simp only [step, hcall, stepClaim, hclaim]
    exact hnone
  | start => simpa [step, start, hcall] using hnone
  | execute =>
    simp only [step, execute]
    split_ifs
    · exact hnone
    · split
      · exact hnone
      · exact hnone
    · exact hnone
  | mark => simpa only [step, hcall] using hnone
  | send => simpa only [step, hcall] using hnone
  | answer => simpa only [step, hcall] using hnone
  | reconcile => simpa [step, reconcile, hcall] using hnone
  | crash => exact hnone

omit [Platform] [ConnectorPlatform] in
theorem Reserved.of_admission (hreserved : Reserved limit s) {requestSha256 scopeKey : String}
    {idempotencyClass : IdempotencyClass} (hnone : s.store.requests.lookup requestId = none)
    (hroom : s.store.retainedAndReserved + 2 ≤ limit)
    (hrequests : s'.store.requests = s.store.requests.insert requestId
      (ConnectorStore.newRow requestSha256 scopeKey idempotencyClass))
    (hevidence : s'.store.evidence = s.store.evidence) : Reserved limit s' := by
  refine ⟨fun id row hrow hpending => ?_, fun id row receipt hrow hterminal hreceipt => ?_, ?_⟩
  · rw [hrequests] at hrow
    rcases lookup_insert_cases hrow with ⟨-, rfl⟩ | ⟨-, hold⟩
    · rfl
    · exact hreserved.pending id row hold hpending
  · rw [hrequests] at hrow
    rcases lookup_insert_cases hrow with ⟨-, rfl⟩ | ⟨-, hold⟩
    · cases hterminal
    · exact hreserved.terminal id row receipt hold hterminal hreceipt
  · rw [retainedAndReserved_eq] at hroom ⊢
    rw [hrequests, hevidence, total_insert RequestRow.reservedReceipts hnone]
    simp only [ConnectorStore.newRow]
    omega

/-! ## Every step -/

/-- Every step keeps the reservations, if the connectors agree on the limit. -/
theorem reserved_step (hflight : Flight s) (hrecorded : Recorded s)
    (hlimit : ∀ call, s.call = some call → call.connector.config.limits.maxReceipts = limit)
    (hreserved : Reserved limit s) : Reserved limit (s.step event) := by
  have hroom (call : Call) := @room_of_admission s event _ _ call
  have hdoes := does_step s event
  generalize s.step event = s' at hroom hdoes
  cases hdoes with
  | nothing => exact hreserved.of_same rfl rfl
  | stopped => exact hreserved.of_same rfl rfl
  | started _ _ _ hrequests hevidence =>
    exact hreserved.of_same hrequests hevidence
  | begun => exact hreserved.of_same rfl rfl
  | @admitted call hcall hphase hnone =>
    have hfree := hroom call hcall hphase hnone (by simp [AList.lookup_insert])
    rw [hlimit call hcall] at hfree
    exact hreserved.of_admission hnone hfree rfl rfl
  | reclaimed _ _ hrow =>
    exact hreserved.of_rewrite hrow.lookup rfl fun _ => ⟨rfl, rfl, rfl⟩
  | marked _ _ hrow =>
    exact hreserved.of_rewrite hrow.lookup rfl fun _ => ⟨rfl, rfl, rfl⟩
  | sent => exact hreserved.of_same rfl rfl
  | released _ _ hrow =>
    exact hreserved.of_rewrite hrow.lookup rfl fun _ => ⟨rfl, rfl, rfl⟩
  | @concluded _ row _ _ _ hcall hrow houtcome htimes =>
    have hpending := htimes.pending hcall hrow hflight
    have htwo := hreserved.pending _ row hrow.lookup hpending
    refine hreserved.of_record (houtcome.requestId ▸ hrow.lookup) rfl rfl rfl rfl ?_
    rw [htwo]
    exact Nat.succ_le_succ (Bool.toNat_le _)
  | @reconciled _ requestId row _ _ _ _ _ hrow hterminal hprior hobserve hsettled _ _ _ hid =>
    have hrow' := hid ▸ hrecorded.lookup_current hrow hterminal hprior
    have hone := hreserved.terminal requestId row _ hrow hterminal hprior
    rw [hobserve] at hone
    refine hreserved.of_record hrow' rfl hterminal rfl ?_ ?_
    · rw [hsettled]
      rfl
    · exact hone.ge

/-- The invariants that the reservations rest on hold at the end of every history. -/
theorem reserved_after {events : List Event}
    (hlimit : ∀ connector, Started events connector → connector.config.limits.maxReceipts = limit) :
    Bounded events (System.after events) ∧ Recorded (System.after events) ∧
      Reserved limit (System.after events) := by
  refine @History.invariant_of_mem _ _ step
    (fun s => Bounded events s ∧ Recorded s ∧ Reserved limit s) events
    (fun s event hmem hinv => ?_) _ ⟨bounded_initial events, recorded_initial, ?_⟩
  · obtain ⟨hbounded, hrecorded, hreserved⟩ := hinv
    have hdoes := does_step s event
    refine ⟨hdoes.bounded hmem hbounded, hdoes.recorded hrecorded,
      reserved_step hbounded.flight hrecorded (fun call hcall => ?_) hreserved⟩
    obtain ⟨hopen, -⟩ := hbounded.origins.call call hcall
    exact hlimit _ (hbounded.origins.connectors _ hopen).1
  · refine ⟨fun requestId row hrow => ?_, fun requestId row receipt hrow => ?_, Nat.zero_le _⟩
    · rw [lookup_initial] at hrow
      cases hrow
    · rw [lookup_initial] at hrow
      cases hrow

/-! ## Room for every receipt -/

/-- Only a full table refuses an outcome for want of capacity. -/
theorem finalize_ne_capacityExceeded (hroom : store.evidence.length < limit)
    (requestSha256 : String) (receipt : OutcomeReceipt) :
    store.finalize limit requestSha256 receipt ≠ .error .capacityExceeded := by
  unfold finalize insertEvidence
  rw [if_neg (Nat.not_le_of_lt hroom)]
  dsimp only [bind, Except.bind, pure, Except.pure]
  split_ifs
  all_goals exact fun heq => by cases heq

/-- Only a full table refuses a reconciliation for want of capacity. -/
theorem replaceAfterReconciliation_ne_capacityExceeded (hroom : store.evidence.length < limit)
    (priorDigest : String) (receipt : OutcomeReceipt) :
    store.replaceAfterReconciliation limit priorDigest receipt ≠ .error .capacityExceeded := by
  unfold replaceAfterReconciliation insertEvidence
  rw [if_neg (Nat.not_le_of_lt hroom)]
  dsimp only [bind, Except.bind, pure, Except.pure]
  split_ifs
  all_goals exact fun heq => by cases heq

/-- Under one limit the stored and the reserved receipts stay within it in every history.  No
outcome of a pending request, no outcome of a call that has claimed its request and no
reconciliation of an ambiguous receipt is refused for want of capacity. -/
theorem receipts_within_capacity {limit : ℕ} {events : List Event}
    (hlimit : ∀ connector, Started events connector → connector.config.limits.maxReceipts = limit) :
    (System.after events).store.retainedAndReserved ≤ limit ∧
    (∀ requestId row, (System.after events).store.requests.lookup requestId = some row →
      row.status = .pending → ∀ requestSha256 receipt,
        (System.after events).store.finalize limit requestSha256 receipt ≠
          .error .capacityExceeded) ∧
    (∀ call, (System.after events).call = some call → call.phase ≠ .claiming → ∀ receipt,
      (System.after events).store.finalize call.connector.config.limits.maxReceipts
        call.request.digest receipt ≠ .error .capacityExceeded) ∧
    ∀ requestId prior, (System.after events).store.currentReceipt requestId = .ok prior →
      prior.ambiguousRequiresObservation = true → ∀ priorDigest receipt,
        (System.after events).store.replaceAfterReconciliation limit priorDigest receipt ≠
          .error .capacityExceeded := by
  obtain ⟨hbounded, -, hreserved⟩ := reserved_after hlimit
  have hpending (requestId : Uuid) (row : RequestRow)
      (hrow : (after events).store.requests.lookup requestId = some row)
      (hstatus : row.status = .pending) : (after events).store.evidence.length < limit := by
    have hle := length_add_reserved_le _ hrow
    rw [hreserved.pending requestId row hrow hstatus] at hle
    have htotal := hreserved.total
    omega
  refine ⟨hreserved.total, fun requestId row hrow hstatus => ?_, fun call hcall hphase => ?_,
    fun requestId prior hprior hambiguous => ?_⟩
  · exact finalize_ne_capacityExceeded (hpending requestId row hrow hstatus)
  · obtain ⟨row, hrow, -, hstatus, -⟩ := hbounded.flight.call call hcall hphase
    obtain ⟨hopen, -⟩ := hbounded.origins.call call hcall
    rw [hlimit _ (hbounded.origins.connectors _ hopen).1]
    exact finalize_ne_capacityExceeded (hpending _ row hrow.lookup hstatus) _
  · obtain ⟨row, hrow, hterminal, hcurrent⟩ := currentReceipt_eq_ok hprior
    have hle := length_add_reserved_le _ hrow
    rw [hreserved.terminal requestId row prior hrow hterminal hcurrent, hambiguous,
      Bool.toNat_true] at hle
    have htotal := hreserved.total
    exact replaceAfterReconciliation_ne_capacityExceeded (by omega)

end Reservations

namespace Sample

/-- A request that is not safe to retry is sent and the destination does not answer. -/
def unanswered : List Event :=
  admission .nonIdempotent ++ exchange (.error .destinationUnavailable)

theorem started_unanswered {connector' : ExternalConnector}
    (hstarted : Started unanswered connector') : connector' = connector := by
  obtain ⟨now, hmem⟩ := hstarted
  simp [unanswered, admission, exchange] at hmem
  exact hmem.1

end Sample

open Sample in
/-- The sample request ends with an ambiguous receipt, and there is room for its reconciliation. -/
theorem unanswered_within_capacity : ∃ prior, (run unanswered).store.currentReceipt 1 = .ok prior ∧
      prior.ambiguousRequiresObservation = true ∧
      (run unanswered).store.retainedAndReserved ≤ 10 ∧ ∀ priorDigest receipt,
        @ConnectorStore.replaceAfterReconciliation platform connectorPlatform
          (run unanswered).store 10 priorDigest receipt ≠ .error .capacityExceeded := by
  have hambiguous : ((run unanswered).store.requests.lookup 1).any (fun row =>
      row.status = .terminal &&
        row.currentReceipt.any fun prior => prior.ambiguousRequiresObservation) = true := by
    decide +kernel
  obtain ⟨row, hrow, hrest⟩ := (any_eq_true _ _).mp hambiguous
  obtain ⟨hterminal, hreceipt⟩ := Bool.and_eq_true_iff.mp hrest
  obtain ⟨prior, hprior, hambiguous⟩ := (any_eq_true _ _).mp hreceipt
  have hcurrent : (run unanswered).store.currentReceipt 1 = .ok prior := by
    simp only [currentReceipt, hrow, filter_some, hterminal, if_true, hprior]
  obtain ⟨htotal, -, -, hreconcile⟩ :=
    @receipts_within_capacity platform connectorPlatform 10 unanswered fun connector' hstarted => by
      rw [started_unanswered hstarted]
      rfl
  exact ⟨prior, hcurrent, hambiguous, htotal, hreconcile 1 prior hcurrent hambiguous⟩

open List History

section Runs

variable [Platform] [ConnectorPlatform] {s : System} {events : List Event}

/-- What holds in every state of a history. -/
structure Sound (events : List Event) (s : System) : Prop where
  bounded : Bounded events s
  admitted : Admitted s
  endorsed : Endorsements events s

theorem after_append (events later : List Event) :
    System.after (events ++ later) = History.final System.step (System.after events) later :=
  final_append ..

/-- A history within another one leads to a sound state. -/
theorem sound_after {whole : List Event} (hfree : CollisionFree whole)
    (hsub : ∀ event ∈ events, event ∈ whole) : Sound whole (System.after events) := by
  refine invariant_of_mem (fun s event hmem hsound => ?_) ⟨bounded_initial whole, ?_, ?_⟩
  · have hdoes := does_step s event
    exact ⟨hdoes.bounded (hsub event hmem) hsound.bounded,
      hdoes.admitted_kept hfree hsound.bounded hsound.admitted,
      hdoes.endorsements hfree hsound.bounded hsound.admitted hsound.endorsed⟩
  · refine ⟨fun requestId row hrow => ?_, fun _ hmem => (not_mem_nil hmem).elim, .nil⟩
    rw [lookup_initial] at hrow
    cases hrow
  · refine ⟨fun requestId row hrow => ?_, fun requestId row hrow => ?_⟩
    · rw [lookup_initial] at hrow
      cases hrow
    · rw [lookup_initial] at hrow
      cases hrow

/-! ## Scopes and requests -/

variable {request : ActionRequest} {admission : ExternalConnector × ActionRequest}
variable {row : RequestRow}

variable {request' : ActionRequest} {receipt : OutcomeReceipt} {connector : ExternalConnector}

omit [Platform] [ConnectorPlatform] in
/-- Requests that differ in their authorization only have the same scope, id and class. -/
theorem eq_of_unsigned (hsame : request.unsigned = request'.unsigned) :
    request.scope = request'.scope ∧ request.requestId = request'.requestId ∧
      request.idempotencyClass = request'.idempotencyClass ∧
      request.expectedConfigSha256 = request'.expectedConfigSha256 := by
  have hscope := congrArg ActionRequest.scope hsame
  have hid := congrArg ActionRequest.requestId hsame
  have hclass := congrArg ActionRequest.idempotencyClass hsame
  have hconfig := congrArg ActionRequest.expectedConfigSha256 hsame
  exact ⟨hscope, hid, hclass, hconfig⟩

theorem digest_of_unsigned (hsame : request.unsigned = request'.unsigned) :
    request.digest = request'.digest := by
  unfold ActionRequest.digest
  rw [hsame]

/-- Only admitted requests are sent. -/
theorem Sound.admission_of_dispatch (hfree : CollisionFree events) (hsound : Sound events s)
    {dispatch : ExternalConnector × ActionRequest} (hmem : dispatch ∈ s.dispatches) :
    ∃ admission ∈ s.admissions, dispatch.2.unsigned = admission.2.unsigned := by
  obtain ⟨row, hrow, hsha, -⟩ := hsound.bounded.flight.sent dispatch hmem
  obtain ⟨admission, hprovenance⟩ := hsound.admitted.provenance _ row hrow
  obtain ⟨-, hpresented, -⟩ := hsound.bounded.origins.admissions admission hprovenance.mem
  refine ⟨admission, hprovenance.mem, hfree.requests _ _
    (hsound.bounded.origins.dispatches dispatch hmem) hpresented ?_⟩
  rw [← hsha, hprovenance.requestSha256]

/-- Admissions with the same scope or the same request id are the same. -/
theorem Admitted.eq_of_or (hadmitted : Admitted s) {a b : ExternalConnector × ActionRequest}
    (ha : a ∈ s.admissions) (hb : b ∈ s.admissions)
    (hsame : a.2.requestId = b.2.requestId ∨ a.2.scope = b.2.scope) : a = b := by
  by_contra hne
  have hsymm : Std.Symm fun a b : ExternalConnector × ActionRequest =>
      a.2.requestId ≠ b.2.requestId ∧ a.2.scope ≠ b.2.scope :=
    ⟨fun _ _ hdiffer => ⟨hdiffer.1.symm, hdiffer.2.symm⟩⟩
  have hdistinct := hadmitted.distinct.forall ha hb hne
  exact hsame.elim hdistinct.1 hdistinct.2

/-- The entries into the network for a scope are those for its admitted request. -/
theorem Sound.count_scope (hfree : CollisionFree events) (hsound : Sound events s)
    (hadmission : admission ∈ s.admissions) :
    (s.dispatches.countP fun dispatch => dispatch.2.scope = admission.2.scope) =
      s.sentFor admission.2.requestId := by
  refine countP_congr fun dispatch hmem => ?_
  obtain ⟨other, hother, hunsigned⟩ := hsound.admission_of_dispatch hfree hmem
  obtain ⟨hscope, hid, -⟩ := eq_of_unsigned hunsigned
  rw [decide_eq_true_eq, decide_eq_true_eq, hscope, hid]
  constructor
  · intro hsame
    rw [hsound.admitted.eq_of_or hother hadmission (.inr hsame)]
  · intro hsame
    rw [hsound.admitted.eq_of_or hother hadmission (.inl hsame)]

theorem Sound.row_of_admission (hsound : Sound events s) (hadmission : admission ∈ s.admissions) :
    ∃ row, s.store.requests.lookup admission.2.requestId = some row ∧
      Provenance s admission.2.requestId row admission := by
  obtain ⟨row, hrow, -⟩ := hsound.admitted.row admission hadmission
  obtain ⟨other, hprovenance⟩ := hsound.admitted.provenance _ row hrow
  obtain rfl := hsound.admitted.eq_of_or hprovenance.mem hadmission (.inl hprovenance.requestId)
  exact ⟨row, hrow, hprovenance⟩

/-- The bound on the entries into the network for a scope. -/
theorem Sound.count_le (hfree : CollisionFree events) (hsound : Sound events s)
    (hadmission : admission ∈ s.admissions) :
    (s.dispatches.countP fun dispatch => dispatch.2.scope = admission.2.scope) ≤
      if admission.2.idempotencyClass = .nonIdempotent then 1
      else admission.1.config.limits.maxAttempts := by
  rw [hsound.count_scope hfree hadmission]
  obtain ⟨row, hrow, hprovenance⟩ := hsound.row_of_admission hadmission
  have hbudget := hsound.bounded.budget _ row hrow
  split_ifs with hclass
  · refine hbudget.once ?_
    rw [hprovenance.idempotencyClass, hclass]
    rfl
  · exact hbudget.count.trans hprovenance.attemptCount

theorem sentFor_final {requestId : Uuid} (hbounded : Bounded events s)
    (hrow : s.store.requests.lookup requestId = some row) (hterminal : row.status = .terminal)
    {later : List Event} (hlater : ∀ event ∈ later, event ∈ events) :
    (History.final System.step s later).sentFor requestId = s.sentFor requestId := by
  induction later generalizing s row with
  | nil => rfl
  | cons event _ ih =>
    have hdoes := does_step s event
    obtain ⟨row', hrow', hkept⟩ := hdoes.row_kept hrow
    rw [final_cons, ih (hdoes.bounded (hlater event mem_cons_self) hbounded) hrow'
      (hkept.terminal hterminal) fun event hmem => hlater event (mem_cons_of_mem _ hmem)]
    exact hdoes.sentFor_of_terminal hbounded.flight hrow hterminal

theorem Does.admission_mem {s' : System} {event : Event} (hdoes : Does s event s')
    (hmem : admission ∈ s.admissions) : admission ∈ s'.admissions := by
  cases hdoes with
  | admitted => exact mem_append_left _ hmem
  | _ => exact hmem

theorem admission_mem_final (hmem : admission ∈ s.admissions) (later : List Event) :
    admission ∈ (History.final System.step s later).admissions :=
  @History.invariant _ _ step (fun s => admission ∈ s.admissions)
    (fun s event hmem => (does_step s event).admission_mem hmem) s hmem later

/-! ## Replay -/

omit [Platform] [ConnectorPlatform] in
theorem claim_of_terminal {store : ConnectorStore} {requestId : Uuid}
    (hrow : store.requests.lookup requestId = some row) (hterminal : row.status = .terminal)
    (hcurrent : row.currentReceipt = some receipt) (maxReceipts : ℕ) (scopeKey : String)
    (maxAttempts : ℕ) (notBefore deadline now : ℤ) :
    store.claim maxReceipts requestId row.requestSha256 scopeKey row.idempotencyClass maxAttempts
      notBefore deadline now = .ok (store, .replay receipt) := by
  unfold claim
  rw [hrow]
  change store.reclaim maxReceipts requestId row _ _ maxAttempts = _
  unfold reclaim
  simp [hterminal, hcurrent, pure, Except.pure]

/-- A call of `execute` for a settled request returns the receipt that it verifies. -/
theorem final_replay (hidle : s.call = none) (hmem : connector ∈ s.connectors)
    (haccept : connector.admitCall s.store request = .ok ())
    (hrow : s.store.requests.lookup request.requestId = some row)
    (hsha : row.requestSha256 = request.digest)
    (hclass : row.idempotencyClass = request.idempotencyClass) (hterminal : row.status = .terminal)
    (hcurrent : row.currentReceipt = some receipt)
    (hverify : connector.verifyOutcomeReceipt receipt = .ok ()) (now now' : UnixMs) :
    History.final System.step s [.execute connector request now, .claim now'] =
      { s with returned := s.returned ++ [(request, .ok receipt)] } := by
  have hexecute : s.step (.execute connector request now) =
      { s with call := some ⟨connector, request, now, .claiming⟩ } := by
    rw [step, execute, if_pos hmem, hidle, haccept]
    rfl
  have hclaim := claim_of_terminal hrow hterminal hcurrent connector.config.limits.maxReceipts
    (scopeKey request.scope) connector.config.limits.maxAttempts request.requestedAtUnixMs
    (connector.authorityAdmissionDeadline request) now'.1
  rw [hsha, hclass] at hclaim
  rw [final_cons, final_cons, final_nil, hexecute, step]
  unfold stepClaim
  simp only [hclaim, hverify]
  simp [finish, Except.map, Except.toOption, hidle]

/-- A connector that accepts the admitted request answers it with the current receipt. -/
theorem Sound.replay (hfree : CollisionFree events) (hsound : Sound events s)
    (hadmission : admission ∈ s.admissions)
    (hrow : s.store.requests.lookup admission.2.requestId = some row)
    (hterminal : row.status = .terminal) (hidle : s.call = none) (hmem : connector ∈ s.connectors)
    (hsame : request.unsigned = admission.2.unsigned)
    (haccept : connector.admitCall s.store request = .ok ()) (now now' : UnixMs) :
    ∃ receipt, s.store.currentReceipt request.requestId = .ok receipt ∧
      History.final System.step s [.execute connector request now, .claim now'] =
        { s with returned := s.returned ++ [(request, .ok receipt)] } := by
  have horigins := hsound.bounded.origins
  obtain ⟨-, hid, hclass, hexpected⟩ := eq_of_unsigned hsame
  obtain ⟨-, hnonzero, hbound⟩ := admitCall_eq_ok haccept
  obtain ⟨row', hrow', hprovenance⟩ := hsound.row_of_admission hadmission
  obtain rfl := mem_unique hrow hrow'
  obtain ⟨receipt, hendorsed⟩ := hsound.endorsed.terminal _ row hrow hterminal
  obtain ⟨signer, hsigner, request', hpresented, hdigest, hbound', hsigned⟩ := hendorsed.signed
  obtain ⟨-, hpresented', -⟩ := horigins.admissions admission hadmission
  have hconfig :=
    hfree.config_eq (horigins.connectors _ hsigner).1 (horigins.connectors _ hmem).1 hpresented
      hpresented' hbound' (hexpected.symm.trans hbound) (hdigest.trans hprovenance.requestSha256)
  have hverify := hsigned.verify hfree horigins hsigner hmem hconfig
    (by rw [hendorsed.requestId, ← hid]; exact hnonzero) hendorsed.times
  rw [← hid] at hrow
  refine ⟨receipt, ?_, final_replay hidle hmem haccept hrow ?_ ?_ hterminal hendorsed.current
    hverify now now'⟩
  · have hsettled : (s.store.requests.lookup request.requestId).filter
        (fun row => decide (row.status = .terminal)) = some row := by
      rw [hrow, filter_some, if_pos (decide_eq_true hterminal)]
    unfold currentReceipt
    rw [hsettled]
    simp only [hendorsed.current]
  · rw [hprovenance.requestSha256, digest_of_unsigned hsame]
  · rw [hprovenance.idempotencyClass, hclass]

/-- In every state of every history whose digests do not collide: no two admissions share a scope or
a request id, only admitted requests are sent, and a scope's request is sent at most once if it is
not safe to retry and at most `max_attempts` times otherwise.  Once it has a receipt it is not sent
again, and a connector that accepts the same request returns the current receipt and changes
nothing. -/
theorem sent_at_most_once (events later : List Event) (hfree : CollisionFree (events ++ later)) :
    (System.after events).admissions.Pairwise
      (fun a b => a.2.requestId ≠ b.2.requestId ∧ a.2.scope ≠ b.2.scope) ∧
    (∀ dispatch ∈ (System.after events).dispatches, ∃ admission ∈ (System.after events).admissions,
        dispatch.2.unsigned = admission.2.unsigned) ∧
    ∀ admission ∈ (System.after events).admissions,
      ((System.after events).dispatches.countP fun dispatch =>
        dispatch.2.scope = admission.2.scope) ≤
          (if admission.2.idempotencyClass = .nonIdempotent then 1
          else admission.1.config.limits.maxAttempts) ∧
      ∀ row, (System.after events).store.requests.lookup admission.2.requestId = some row →
        row.status = .terminal →
        ((System.after (events ++ later)).dispatches.countP fun dispatch =>
            dispatch.2.scope = admission.2.scope) =
          ((System.after events).dispatches.countP fun dispatch =>
            dispatch.2.scope = admission.2.scope) ∧
        ∀ connector ∈ (System.after events).connectors,
          ∀ request now now', (System.after events).call = none →
          request.unsigned = admission.2.unsigned →
          connector.admitCall (System.after events).store request = .ok () →
          ∃ receipt, (System.after events).store.currentReceipt request.requestId = .ok receipt ∧
            System.after (events ++ [.execute connector request now, .claim now']) =
              { System.after events with
                returned := (System.after events).returned ++ [(request, .ok receipt)] } := by
  have hsound := sound_after hfree fun _ hmem => mem_append_left later hmem
  refine ⟨hsound.admitted.distinct,
    fun dispatch hmem => hsound.admission_of_dispatch hfree hmem, fun admission hadmission =>
      ⟨hsound.count_le hfree hadmission, fun row hrow hterminal => ⟨?_, ?_⟩⟩⟩
  · have hlater := sound_after hfree fun _ hmem => hmem
    have hadmission' := admission_mem_final hadmission later
    rw [← after_append] at hadmission'
    rw [hsound.count_scope hfree hadmission, hlater.count_scope hfree hadmission', after_append]
    exact sentFor_final hsound.bounded hrow hterminal fun _ hmem => mem_append_right events hmem
  · intro connector hmem request now now' hidle hsame haccept
    rw [after_append]
    exact hsound.replay hfree hadmission hrow hterminal hidle hmem hsame haccept now now'

end Runs

namespace Sample

/-- What the destination answers. -/
def outcome : DestinationOutcome where
  status := .succeeded
  statusCode := "done"
  publicValues := []
  protectedSecretRefs := []
  externalIds := []
  downstreamControlDigest := digestText 0
  laterIntentsDigest := digestText 0
  responseSha256 := digestText 0
  signatureBase64 := "signature"
  attestationKeyId := "destination"

/-- A request that is not safe to retry is sent and succeeds. -/
def delivered : List Event :=
  admission .nonIdempotent ++ exchange (.ok outcome)

/-- The connector of the next generation. -/
def successor : ExternalConnector :=
  { connector with
    config := { config with
      generation := 2, activationMode := .cutover, previousGeneration := some 1,
      previousConfigSha256 := some (digestText 1) } }

theorem presented_delivered {request' : ActionRequest} (hpresented : Presented delivered request') :
    request' = request .nonIdempotent := by
  obtain ⟨connector', now, hmem⟩ := hpresented
  simp [delivered, admission, exchange] at hmem
  exact hmem.2.1

theorem started_delivered {connector' : ExternalConnector} (hstarted : Started delivered connector') :
    connector' = connector := by
  obtain ⟨now, hmem⟩ := hstarted
  simp [delivered, admission, exchange] at hmem
  exact hmem.1

theorem collisionFree_delivered : @CollisionFree platform connectorPlatform delivered := by
  refine @CollisionFree.mk platform connectorPlatform delivered ?_ ?_ ?_
  · intro request request' hrequest hrequest' _
    rw [presented_delivered hrequest, presented_delivered hrequest']
  · intro connector connector' hconnector hconnector' _
    rw [started_delivered hconnector, started_delivered hconnector']
  · intro connector connector' key key' hconnector hconnector' hkey hkey' _
    rw [started_delivered hconnector] at hkey
    rw [started_delivered hconnector'] at hkey'
    exact Except.ok.inj (hkey.symm.trans hkey')

end Sample

open Sample in
/-- The sample request is sent once, and is then answered with its receipt. -/
theorem delivered_sent_once : (run delivered).admissions = [(connector, request .nonIdempotent)] ∧
    ((run delivered).dispatches.countP fun dispatch =>
      dispatch.2.scope = (request .nonIdempotent).scope) ≤ 1 ∧
    ∃ receipt, (run delivered).store.currentReceipt 1 = .ok receipt ∧
      run (delivered ++ [.execute connector (request .nonIdempotent) (clock 2), .claim (clock 2)]) =
        { run delivered with
          returned := (run delivered).returned ++ [(request .nonIdempotent, .ok receipt)] } := by
  have hadmissions : (run delivered).admissions = [(connector, request .nonIdempotent)] := by
    decide +kernel
  have hterminal : ((run delivered).store.requests.lookup 1).any
      (fun row => decide (row.status = .terminal)) = true := by
    decide +kernel
  obtain ⟨row, hrow, hterminal⟩ := (any_eq_true _ _).mp hterminal
  have hfree : @CollisionFree platform connectorPlatform (delivered ++ []) := by
    rw [append_nil]
    exact collisionFree_delivered
  obtain ⟨-, -, hscope⟩ := @sent_at_most_once platform connectorPlatform delivered [] hfree
  obtain ⟨hcount, hsettled⟩ := hscope (connector, request .nonIdempotent) (by
    change _ ∈ (run delivered).admissions
    rw [hadmissions]
    exact mem_singleton_self _)
  obtain ⟨-, hreplay⟩ := hsettled row hrow (of_decide_eq_true hterminal)
  have hmem : connector ∈ (run delivered).connectors := by decide +kernel
  have hidle : (run delivered).call = none := by decide +kernel
  have haccept : @ExternalConnector.admitCall platform connectorPlatform connector
      (run delivered).store (request .nonIdempotent) = .ok () := by
    decide +kernel
  exact ⟨hadmissions, hcount, hreplay connector hmem (request .nonIdempotent) (clock 2) (clock 2)
    hidle rfl haccept⟩

open Sample in
/-- The sample request has a receipt, and after a cutover the same request is refused: it is bound
to the configuration that is no longer active. -/
theorem settled_request_refused_after_cutover :
    ((run (delivered ++ [.start successor (clock 2)])).store.requests.lookup 1).any
      (fun row => row.status = .terminal && row.currentReceipt.isSome) = true ∧
    (run (delivered ++ [.start successor (clock 2),
        .execute successor (request .nonIdempotent) (clock 2)])).returned.getLast? =
      some (request .nonIdempotent, .error .bindingMismatch) ∧
    (run (delivered ++ [.start successor (clock 2),
        .execute connector (request .nonIdempotent) (clock 2)])).returned.getLast? =
      some (request .nonIdempotent, .error .runtimeFenced) := by
  decide +kernel

end McLoving.Connector
