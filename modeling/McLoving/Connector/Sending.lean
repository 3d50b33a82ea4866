import McLoving.Connector.Moves

/-!
# How often a request is sent

Where rows and calls come from, and how the row of a request bounds the number of times it was sent.
A call that may still enter the network has an attempt that is not spent, and the mark keeps a
request that is not safe to retry from a second attempt.
-/

namespace McLoving.Connector

open List Option RequestRow

variable {s s' : System} {event : Event} {store : ConnectorStore} {requestId : Uuid}
variable {events : List Event}

/-! ## Rows -/

/-- What every update keeps of a row. -/
structure RequestRow.Kept (row row' : RequestRow) : Prop where
  requestSha256 : row'.requestSha256 = row.requestSha256
  scopeKey : row'.scopeKey = row.scopeKey
  idempotencyClass : row'.idempotencyClass = row.idempotencyClass
  terminal : row.status = .terminal → row'.status = .terminal

theorem RequestRow.Kept.refl (row : RequestRow) : row.Kept row := ⟨rfl, rfl, rfl, id⟩

theorem RequestRow.kept_reclaimed (attemptCount : ℕ) (row : RequestRow) :
    row.Kept (row.reclaimed attemptCount) :=
  ⟨rfl, rfl, rfl, id⟩

theorem RequestRow.kept_marked (now : ℤ) (row : RequestRow) : row.Kept (row.marked now) :=
  ⟨rfl, rfl, rfl, id⟩

theorem RequestRow.kept_released (row : RequestRow) : row.Kept row.released := ⟨rfl, rfl, rfl, id⟩

theorem lookup_rewrite (store : ConnectorStore) (requestId requestId' : Uuid)
    (f : RequestRow → RequestRow) : (store.rewrite requestId f).requests.lookup requestId' =
      if requestId' = requestId then (store.requests.lookup requestId').map f
      else store.requests.lookup requestId' :=
  Table.lookup_modify ..

variable {f : RequestRow → RequestRow}

theorem lookup_rewrite_cases {requestId' : Uuid} {row' : RequestRow}
    (hrow' : (store.rewrite requestId f).requests.lookup requestId' = some row') :
    (requestId' = requestId ∧ ∃ row, store.requests.lookup requestId' = some row ∧ row' = f row) ∨
      requestId' ≠ requestId ∧ store.requests.lookup requestId' = some row' := by
  rw [lookup_rewrite] at hrow'
  split_ifs at hrow' with hid
  · obtain ⟨row, hrow, rfl⟩ := map_eq_some_iff.mp hrow'
    exact .inl ⟨hid, row, hrow, rfl⟩
  · exact .inr ⟨hid, hrow'⟩

variable {row : RequestRow}

theorem kept_rewrite (hkept : ∀ row : RequestRow, row.Kept (f row))
    {requestId' : Uuid} (hrow : store.requests.lookup requestId' = some row) :
    ∃ row', (store.rewrite requestId f).requests.lookup requestId' = some row' ∧ row.Kept row' := by
  rw [lookup_rewrite]
  split_ifs with hid
  · exact ⟨f row, by rw [hrow, map_some], hkept row⟩
  · exact ⟨row, hrow, .refl row⟩

variable [Platform] [ConnectorPlatform]

theorem RequestRow.kept_concluded (receipt : OutcomeReceipt) (row : RequestRow) :
    row.Kept (row.concluded receipt) :=
  ⟨rfl, rfl, rfl, fun _ => rfl⟩

theorem RequestRow.kept_reconciled (receipt : OutcomeReceipt) (row : RequestRow) :
    row.Kept (row.reconciled receipt) :=
  ⟨rfl, rfl, rfl, id⟩

/-- No row is lost or rebound. -/
theorem Does.row_kept (hdoes : Does s event s')
    (hrow : s.store.requests.lookup requestId = some row) :
    ∃ row', s'.store.requests.lookup requestId = some row' ∧ row.Kept row' := by
  cases hdoes with
  | nothing => exact ⟨row, hrow, .refl row⟩
  | stopped => exact ⟨row, hrow, .refl row⟩
  | started _ _ _ hrequests => exact ⟨row, hrequests ▸ hrow, .refl row⟩
  | begun => exact ⟨row, hrow, .refl row⟩
  | @admitted call _ _ hnone =>
    have hne : requestId ≠ call.request.requestId := by
      rintro rfl
      rw [hnone] at hrow
      cases hrow
    exact ⟨row, (AList.lookup_insert_ne hne).trans hrow, .refl row⟩
  | reclaimed => exact kept_rewrite (kept_reclaimed _) hrow
  | marked => exact kept_rewrite (kept_marked _) hrow
  | sent => exact ⟨row, hrow, .refl row⟩
  | released => exact kept_rewrite kept_released hrow
  | concluded => exact kept_rewrite (kept_concluded _) hrow
  | reconciled => exact kept_rewrite (kept_reconciled _) hrow

/-! ## Origins -/

/-- The runtime row of a connector's configuration. -/
def ExternalConnector.runtime (connector : ExternalConnector) : Runtime :=
  ⟨connector.config.digest, connector.config.generation⟩

/-- The requests that the events of a history present. -/
def Presented (events : List Event) (request : ActionRequest) : Prop :=
  ∃ connector now, Event.execute connector request now ∈ events

/-- The connectors that the events of a history start. -/
def Started (events : List Event) (connector : ExternalConnector) : Prop :=
  ∃ now, Event.start connector now ∈ events

/-- Where connectors, calls, admissions and dispatches come from. -/
structure Origins (events : List Event) (s : System) : Prop where
  connectors : ∀ connector ∈ s.connectors, Started events connector ∧
    connector.validateConfig = true
  call : ∀ call, s.call = some call → call.connector ∈ s.connectors ∧
    Presented events call.request ∧ s.store.runtime = some call.connector.runtime ∧
    call.request.expectedConfigSha256 = call.connector.config.digest
  admissions : ∀ admission ∈ s.admissions, admission.1 ∈ s.connectors ∧
    Presented events admission.2 ∧
    admission.2.expectedConfigSha256 = admission.1.config.digest
  dispatches : ∀ dispatch ∈ s.dispatches, Presented events dispatch.2

theorem admitCall_eq_ok {connector : ExternalConnector} {request : ActionRequest}
    (hok : connector.admitCall store request = .ok ()) :
    store.runtime = some connector.runtime ∧ request.requestId ≠ 0 ∧
      request.expectedConfigSha256 = connector.config.digest := by
  unfold ExternalConnector.admitCall at hok
  simp only [Except.bind_eq_ok] at hok
  obtain ⟨⟨⟩, hruntime, ⟨⟩, hvalid, -⟩ := hok
  unfold ExternalConnector.validateRequest at hvalid
  simp only [Except.ite_throw_bind_eq_ok, Bool.not_eq_true, Bool.not_eq_false'] at hvalid
  obtain ⟨hformed, -, hbinding, -⟩ := hvalid
  simp only [ExternalConnector.wellFormed, Bool.and_eq_true, decide_eq_true_eq, and_assoc]
    at hformed
  simp only [ExternalConnector.bindingMatches, Bool.and_eq_true, decide_eq_true_eq, and_assoc]
    at hbinding
  exact ⟨assertRuntime_eq_ok hruntime, hformed.2.2.1, hbinding.2.2.2.1⟩

/-- The next phase of a call changes nothing about its origin. -/
theorem Origins.of_call (horigins : Origins events s) {call : Call} {phase : Phase}
    (hcall : s.call = some call) (hcall' : s'.call = some { call with phase := phase })
    (hconnectors : s'.connectors = s.connectors) (hruntime : s'.store.runtime = s.store.runtime)
    (hadmissions : s'.admissions = s.admissions ∨
      s'.admissions = s.admissions ++ [(call.connector, call.request)])
    (hdispatches : s'.dispatches = s.dispatches ∨
      s'.dispatches = s.dispatches ++ [(call.connector, call.request)]) : Origins events s' := by
  obtain ⟨hmem, hpresented, hactive, hbound⟩ := horigins.call call hcall
  refine ⟨?_, ?_, ?_, ?_⟩
  · rw [hconnectors]
    exact horigins.connectors
  · intro other hother
    obtain rfl := mem_unique hcall' hother
    rw [hconnectors, hruntime]
    exact ⟨hmem, hpresented, hactive, hbound⟩
  · intro admission hadmission
    rw [hconnectors]
    rcases hadmissions with heq | heq
    · exact horigins.admissions admission (heq ▸ hadmission)
    · rw [heq, mem_append, mem_singleton] at hadmission
      rcases hadmission with hold | rfl
      · exact horigins.admissions admission hold
      · exact ⟨hmem, hpresented, hbound⟩
  · intro dispatch hdispatch
    rcases hdispatches with heq | heq
    · exact horigins.dispatches dispatch (heq ▸ hdispatch)
    · rw [heq, mem_append, mem_singleton] at hdispatch
      rcases hdispatch with hold | rfl
      · exact horigins.dispatches dispatch hold
      · exact hpresented

/-- The end of a call changes nothing about origins. -/
theorem Origins.of_idle (horigins : Origins events s) (hcall : s'.call = none)
    (hconnectors : s'.connectors = s.connectors) (hadmissions : s'.admissions = s.admissions)
    (hdispatches : s'.dispatches = s.dispatches) : Origins events s' := by
  refine ⟨?_, ?_, ?_, ?_⟩
  · rw [hconnectors]
    exact horigins.connectors
  · intro call hsome
    rw [hcall] at hsome
    cases hsome
  · rw [hadmissions, hconnectors]
    exact horigins.admissions
  · rw [hdispatches]
    exact horigins.dispatches

theorem Does.origins (hdoes : Does s event s') (hevent : event ∈ events)
    (horigins : Origins events s) : Origins events s' := by
  cases hdoes with
  | nothing => exact ⟨horigins.connectors, horigins.call, horigins.admissions, horigins.dispatches⟩
  | stopped => exact horigins.of_idle rfl rfl rfl rfl
  | @started connector now _ hstart hidle hvalid =>
    refine ⟨?_, ?_, ?_, horigins.dispatches⟩
    · intro other hmem
      rcases mem_cons.mp hmem with rfl | hold
      · exact ⟨⟨now, hstart ▸ hevent⟩, hvalid⟩
      · exact horigins.connectors other hold
    · intro call hcall
      rw [hidle] at hcall
      cases hcall
    · intro admission hadmission
      obtain ⟨hmem, hrest⟩ := horigins.admissions admission hadmission
      exact ⟨mem_cons_of_mem connector hmem, hrest⟩
  | @begun connector _ now hexecute hmem _ hadmitted =>
    obtain ⟨hruntime, -, hbound⟩ := admitCall_eq_ok hadmitted
    refine ⟨horigins.connectors, ?_, horigins.admissions, horigins.dispatches⟩
    intro call hcall
    obtain rfl := Option.some.inj hcall
    exact ⟨hmem, ⟨connector, now, hexecute ▸ hevent⟩, hruntime, hbound⟩
  | admitted hcall => exact horigins.of_call hcall rfl rfl rfl (.inr rfl) (.inl rfl)
  | reclaimed hcall => exact horigins.of_call hcall rfl rfl rfl (.inl rfl) (.inl rfl)
  | marked hcall => exact horigins.of_call hcall rfl rfl rfl (.inl rfl) (.inl rfl)
  | sent hcall => exact horigins.of_call hcall rfl rfl rfl (.inl rfl) (.inr rfl)
  | released hcall => exact horigins.of_call hcall rfl rfl rfl (.inl rfl) (.inl rfl)
  | concluded => exact horigins.of_idle rfl rfl rfl rfl
  | reconciled _ hidle => exact horigins.of_idle hidle rfl rfl rfl

open Connector.System

/-- How often the network dispatch was entered for a request. -/
def System.sentFor (s : System) (requestId : Uuid) : ℕ :=
  s.dispatches.countP fun dispatch => dispatch.2.requestId = requestId

/-- The call in flight has claimed the request and not yet entered the network. -/
def System.Ready (s : System) (requestId : Uuid) : Prop :=
  ∃ call attemptCount, s.call = some call ∧ call.request.requestId = requestId ∧
    (call.phase = .marking attemptCount ∨ call.phase = .sending attemptCount)

/-- The rows of the call in flight and of the requests that were sent. -/
structure Flight (s : System) : Prop where
  call : ∀ call, s.call = some call → call.phase ≠ .claiming → ∃ row, RowOf s call row ∧
    row.idempotencyClass = call.request.idempotencyClass ∧ row.status = .pending ∧
    ((∀ attemptCount, call.phase ≠ .marking attemptCount) → row.dispatched = true)
  sent : ∀ dispatch ∈ s.dispatches, ∃ row, s.store.requests.lookup dispatch.2.requestId = some row ∧
    row.requestSha256 = dispatch.2.digest ∧ row.idempotencyClass = dispatch.2.idempotencyClass

/-- What the row of a request says about its entries into the network. -/
structure Budget (s : System) (requestId : Uuid) (row : RequestRow) : Prop where
  count : s.sentFor requestId ≤ row.attemptCount
  ready : s.Ready requestId → s.sentFor requestId + 1 ≤ row.attemptCount
  unsent : row.idempotencyClass.retrySafe = false → row.status = .pending →
    (row.dispatched = false ∨ s.Ready requestId) → s.sentFor requestId = 0
  once : row.idempotencyClass.retrySafe = false → s.sentFor requestId ≤ 1

/-! ## The call in flight -/

variable {call : Call} {row : RequestRow}

omit [Platform] [ConnectorPlatform] in
theorem ready_iff (hcall : s.call = some call) (requestId : Uuid) :
    s.Ready requestId ↔ call.request.requestId = requestId ∧
      ∃ attemptCount, call.phase = .marking attemptCount ∨ call.phase = .sending attemptCount := by
  constructor
  · rintro ⟨other, attemptCount, hother, hid, hphase⟩
    obtain rfl := mem_unique hcall hother
    exact ⟨hid, attemptCount, hphase⟩
  · rintro ⟨hid, attemptCount, hphase⟩
    exact ⟨call, attemptCount, hcall, hid, hphase⟩

omit [Platform] [ConnectorPlatform] in
theorem not_ready_of_idle (hidle : s.call = none) (requestId : Uuid) : ¬ s.Ready requestId := by
  rintro ⟨call, -, hcall, -⟩
  rw [hidle] at hcall
  cases hcall

theorem Does.sent_kept (hdoes : Does s event s') (hflight : Flight s)
    {dispatch : ExternalConnector × ActionRequest} (hmem : dispatch ∈ s.dispatches) :
    ∃ row, s'.store.requests.lookup dispatch.2.requestId = some row ∧
      row.requestSha256 = dispatch.2.digest ∧
      row.idempotencyClass = dispatch.2.idempotencyClass := by
  obtain ⟨row, hrow, hsha, hclass⟩ := hflight.sent dispatch hmem
  obtain ⟨row', hrow', hkept⟩ := hdoes.row_kept hrow
  exact ⟨row', hrow', hkept.requestSha256.trans hsha, hkept.idempotencyClass.trans hclass⟩

/-- The row of the call in flight after an update of it. -/
theorem call_rewrite {phase : Phase} (hrow : RowOf s call row)
    (hclass : row.idempotencyClass = call.request.idempotencyClass) (hkept : row.Kept (f row))
    (hpending : (f row).status = .pending)
    (hdispatched : (∀ attemptCount, phase ≠ .marking attemptCount) → (f row).dispatched = true)
    (hcall' : s'.call = some { call with phase := phase })
    (hstore : s'.store = s.store.rewrite call.request.requestId f) :
    ∀ call', s'.call = some call' → call'.phase ≠ .claiming → ∃ row', RowOf s' call' row' ∧
      row'.idempotencyClass = call'.request.idempotencyClass ∧ row'.status = .pending ∧
      ((∀ attemptCount, call'.phase ≠ .marking attemptCount) → row'.dispatched = true) := by
  intro call' hsome hphase
  obtain rfl := mem_unique hcall' hsome
  refine ⟨f row, ⟨?_, hkept.requestSha256.trans hrow.requestSha256⟩,
    hkept.idempotencyClass.trans hclass, hpending, hdispatched⟩
  rw [hstore, lookup_rewrite, if_pos rfl, hrow.lookup, map_some]

theorem Does.flight (hdoes : Does s event s') (hflight : Flight s) : Flight s' := by
  have hsent : ∀ dispatch ∈ s.dispatches, ∃ row,
      s'.store.requests.lookup dispatch.2.requestId = some row ∧
      row.requestSha256 = dispatch.2.digest ∧
      row.idempotencyClass = dispatch.2.idempotencyClass :=
    fun dispatch hmem => hdoes.sent_kept hflight hmem
  cases hdoes with
  | nothing =>
    refine ⟨fun call hcall hphase => ?_, hsent⟩
    obtain ⟨row, hrow, hrest⟩ := hflight.call call hcall hphase
    exact ⟨row, ⟨hrow.lookup, hrow.requestSha256⟩, hrest⟩
  | stopped => exact ⟨fun _ hcall => (some_ne_none _ hcall.symm).elim, hflight.sent⟩
  | started _ hidle =>
    refine ⟨fun call hcall => ?_, hsent⟩
    rw [hidle] at hcall
    cases hcall
  | begun =>
    refine ⟨fun call hcall hphase => ?_, hsent⟩
    obtain rfl := some.inj hcall
    exact (hphase rfl).elim
  | @admitted =>
    refine ⟨fun call' hcall' _ => ?_, hsent⟩
    obtain rfl := some.inj hcall'
    exact ⟨_, ⟨AList.lookup_insert _, rfl⟩, rfl, rfl, fun hmarking => (hmarking 1 rfl).elim⟩
  | reclaimed _ _ hrow hclass hpending =>
    exact ⟨call_rewrite hrow hclass (kept_reclaimed _ _) hpending
      (fun hmarking => (hmarking _ rfl).elim) rfl rfl, hsent⟩
  | marked hcall hphase hrow hpending =>
    obtain ⟨row', hrow', hclass, -⟩ := hflight.call _ hcall (by simp [hphase])
    obtain rfl := mem_unique hrow.lookup hrow'.lookup
    exact ⟨call_rewrite hrow hclass (kept_marked _ _) hpending (fun _ => rfl) rfl rfl, hsent⟩
  | @sent call _ _ hcall hphase =>
    obtain ⟨row, hrow, hclass, hpending, hdispatched⟩ := hflight.call call hcall (by simp [hphase])
    have hmarked := hdispatched fun n => by simp [hphase]
    refine ⟨fun call' hcall' _ => ?_, fun dispatch hmem => ?_⟩
    · obtain rfl := some.inj hcall'
      exact ⟨row, ⟨hrow.lookup, hrow.requestSha256⟩, hclass, hpending, fun _ => hmarked⟩
    · rcases mem_append.mp hmem with hold | hnew
      · exact hflight.sent dispatch hold
      · obtain rfl := mem_singleton.mp hnew
        exact ⟨row, hrow.lookup, hrow.requestSha256, hclass⟩
  | released =>
    refine ⟨fun call' hcall' hphase => ?_, hsent⟩
    obtain rfl := some.inj hcall'
    exact (hphase rfl).elim
  | concluded => exact ⟨fun _ hcall => (some_ne_none _ hcall.symm).elim, hsent⟩
  | reconciled _ hidle =>
    refine ⟨fun call hcall => ?_, hsent⟩
    rw [hidle] at hcall
    cases hcall

/-! ## Counting -/

section Budget

omit [Platform] [ConnectorPlatform]

/-- The bounds carry over when nothing is sent, no attempt begins and no mark is removed. -/
theorem Budget.of_kept {row' : RequestRow} (hbudget : Budget s requestId row)
    (hdispatches : s'.dispatches = s.dispatches) (hready : s'.Ready requestId → s.Ready requestId)
    (hkept : row.Kept row') (hcount : row'.attemptCount = row.attemptCount)
    (hmark : row'.status = .pending → row.status = .pending ∧
      (row'.dispatched = false → row.dispatched = false)) : Budget s' requestId row' := by
  have hsent : s'.sentFor requestId = s.sentFor requestId := by
    unfold sentFor
    rw [hdispatches]
  refine ⟨?_, fun h => ?_, fun hclass hpending hunsent => ?_, fun hclass => ?_⟩
  · rw [hsent, hcount]
    exact hbudget.count
  · rw [hsent, hcount]
    exact hbudget.ready (hready h)
  · rw [hsent]
    obtain ⟨hold, hdispatched⟩ := hmark hpending
    exact hbudget.unsent (hkept.idempotencyClass ▸ hclass) hold (hunsent.imp hdispatched hready)
  · rw [hsent]
    exact hbudget.once (hkept.idempotencyClass ▸ hclass)

theorem Budget.of_same (hbudget : Budget s requestId row)
    (hdispatches : s'.dispatches = s.dispatches) (hready : s'.Ready requestId → s.Ready requestId) :
    Budget s' requestId row :=
  hbudget.of_kept hdispatches hready (.refl row) rfl fun hpending => ⟨hpending, id⟩

/-- The bounds of another row than that of the call. -/
theorem Budget.of_other (hbudget : Budget s requestId row) {phase : Phase}
    (hcall' : s'.call = some { call with phase := phase })
    (hne : requestId ≠ call.request.requestId)
    (hsent : s'.sentFor requestId = s.sentFor requestId) : Budget s' requestId row := by
  have hready : ¬ s'.Ready requestId := fun h => hne ((ready_iff hcall' requestId).mp h).1.symm
  refine ⟨?_, fun h => (hready h).elim, fun hclass hpending hunsent => ?_, fun hclass => ?_⟩
  · rw [hsent]
    exact hbudget.count
  · rw [hsent]
    exact hbudget.unsent hclass hpending (.inl (hunsent.resolve_right hready))
  · rw [hsent]
    exact hbudget.once hclass

/-- The bounds at the beginning of another attempt. -/
theorem Budget.reclaimed {requestId : Uuid} (hbudget : Budget s requestId row)
    (hdispatches : s'.dispatches = s.dispatches) (hpending : row.status = .pending)
    (hunsent : row.idempotencyClass.retrySafe = false → row.dispatched = false)
    (hlt : row.attemptCount < 8) :
    Budget s' requestId (row.reclaimed (min (row.attemptCount + 1) 255)) := by
  have hsent : s'.sentFor requestId = s.sentFor requestId := by
    unfold sentFor
    rw [hdispatches]
  have hnext : (row.reclaimed (min (row.attemptCount + 1) 255)).attemptCount =
      row.attemptCount + 1 := by
    change min (row.attemptCount + 1) 255 = row.attemptCount + 1
    omega
  have hcount := hbudget.count
  refine ⟨by omega, fun _ => by omega, fun hclass _ _ => ?_, fun hclass => ?_⟩
  · rw [hsent]
    exact hbudget.unsent hclass hpending (.inl (hunsent hclass))
  · rw [hsent]
    exact hbudget.once hclass

/-- The bounds after the entry into the network spends the attempt. -/
theorem Budget.sent {requestId : Uuid} (hbudget : Budget s requestId row)
    (hready : s.Ready requestId) (hready' : ¬ s'.Ready requestId)
    (hsent : s'.sentFor requestId = s.sentFor requestId + 1) (hpending : row.status = .pending)
    (hdispatched : row.dispatched = true) : Budget s' requestId row := by
  refine ⟨?_, fun h => (hready' h).elim, fun _ _ hunsent => ?_, fun hclass => ?_⟩
  · rw [hsent]
    exact hbudget.ready hready
  · rcases hunsent with hunsent | h
    · rw [hdispatched] at hunsent
      cases hunsent
    · exact (hready' h).elim
  · rw [hsent, hbudget.unsent hclass hpending (.inr hready)]

/-- The bounds after the release of a request that is safe to retry. -/
theorem Budget.released {requestId : Uuid} (hbudget : Budget s requestId row)
    (hdispatches : s'.dispatches = s.dispatches) (hready' : ¬ s'.Ready requestId)
    (hsafe : row.idempotencyClass.retrySafe = true) : Budget s' requestId row.released := by
  have hsent : s'.sentFor requestId = s.sentFor requestId := by
    unfold sentFor
    rw [hdispatches]
  have hrisky : row.released.idempotencyClass.retrySafe ≠ false := by
    change row.idempotencyClass.retrySafe ≠ false
    rw [hsafe]
    exact Bool.noConfusion
  refine ⟨?_, fun h => (hready' h).elim, fun hclass => (hrisky hclass).elim,
    fun hclass => (hrisky hclass).elim⟩
  rw [hsent]
  exact hbudget.count

end Budget

theorem sentFor_eq_zero (hflight : Flight s) (hnone : s.store.requests.lookup requestId = none) :
    s.sentFor requestId = 0 := by
  refine countP_eq_zero.mpr fun dispatch hmem hid => ?_
  obtain ⟨row, hrow, -⟩ := hflight.sent dispatch hmem
  rw [of_decide_eq_true hid, hnone] at hrow
  cases hrow

/-- Every row bounds the entries into the network. -/
theorem Does.budget (hdoes : Does s event s') (hflight : Flight s)
    (hlimit : ∀ call, s.call = some call → call.connector.config.limits.maxAttempts ≤ 8)
    (hbudget : ∀ requestId row, s.store.requests.lookup requestId = some row →
      Budget s requestId row) :
    ∀ requestId row, s'.store.requests.lookup requestId = some row → Budget s' requestId row := by
  intro requestId row' hrow'
  cases hdoes with
  | nothing => exact (hbudget requestId row' hrow').of_same rfl id
  | stopped =>
    exact (hbudget requestId row' hrow').of_same rfl fun h => (not_ready_of_idle rfl _ h).elim
  | started _ _ _ hrequests =>
    exact (hbudget requestId row' (hrequests ▸ hrow')).of_same rfl id
  | begun =>
    refine (hbudget requestId row' hrow').of_same rfl fun h => ?_
    obtain ⟨-, attemptCount, hphase⟩ := (ready_iff rfl requestId).mp h
    simp at hphase
  | admitted _ _ hnone =>
    rcases Table.lookup_insert_cases hrow' with ⟨rfl, rfl⟩ | ⟨hne, hold⟩
    · have hzero := sentFor_eq_zero hflight hnone
      refine ⟨hzero.trans_le (Nat.zero_le 1), fun _ => ?_, fun _ _ _ => hzero,
        fun _ => hzero.trans_le (Nat.zero_le 1)⟩
      exact (congrArg (· + 1) hzero).le
    · exact (hbudget requestId row' hold).of_other rfl hne rfl
  | @reclaimed call _ hcall _ hrow hclass hpending hunsent hlt =>
    rcases lookup_rewrite_cases hrow' with ⟨rfl, old, hold, rfl⟩ | ⟨hne, hold⟩
    · obtain rfl := mem_unique hold hrow.lookup
      refine (hbudget _ old hold).reclaimed rfl hpending (fun hrisky => ?_)
        (hlt.trans_le (hlimit call hcall))
      rw [Bool.eq_false_iff]
      intro hdispatched
      rw [hclass, hunsent hdispatched] at hrisky
      cases hrisky
    · exact (hbudget requestId row' hold).of_other rfl hne rfl
  | @marked call _ attemptCount _ hcall hphase =>
    rcases lookup_rewrite_cases hrow' with ⟨rfl, old, hold, rfl⟩ | ⟨hne, hold⟩
    · exact (hbudget _ old hold).of_kept rfl (fun _ => ⟨call, attemptCount, hcall, rfl, .inl hphase⟩)
        (old.kept_marked _) rfl fun hpending' => ⟨hpending', Bool.noConfusion⟩
    · exact (hbudget requestId row' hold).of_other rfl hne rfl
  | @sent call attemptCount _ hcall hphase =>
    by_cases hid : requestId = call.request.requestId
    · subst hid
      obtain ⟨row, hrow, -, hpending, hdispatched⟩ := hflight.call call hcall (by simp [hphase])
      obtain rfl := mem_unique hrow' hrow.lookup
      refine (hbudget _ row' hrow').sent ⟨call, attemptCount, hcall, rfl, .inr hphase⟩ ?_ ?_
        hpending (hdispatched fun n => by simp [hphase])
      · rw [ready_iff rfl]
        simp
      · simp [sentFor]
    · refine (hbudget requestId row' hrow').of_other rfl hid ?_
      simp [sentFor, Ne.symm hid]
  | @released call _ _ _ hcall hphase _ _ hsafe =>
    rcases lookup_rewrite_cases hrow' with ⟨rfl, old, hold, rfl⟩ | ⟨hne, hold⟩
    · obtain ⟨row₁, hrow₁, hclass, -⟩ := hflight.call call hcall (by simp [hphase])
      obtain rfl := mem_unique hold hrow₁.lookup
      refine (hbudget _ old hold).released rfl ?_ (by rw [hclass, hsafe])
      rw [ready_iff rfl]
      simp
    · exact (hbudget requestId row' hold).of_other rfl hne rfl
  | concluded =>
    rcases lookup_rewrite_cases hrow' with ⟨rfl, old, hold, rfl⟩ | ⟨hne, hold⟩
    · exact (hbudget _ old hold).of_kept rfl (fun h => (not_ready_of_idle rfl _ h).elim)
        (old.kept_concluded _) rfl RequestStatus.noConfusion
    · exact (hbudget requestId row' hold).of_same rfl fun h => (not_ready_of_idle rfl _ h).elim
  | reconciled _ hidle =>
    rcases lookup_rewrite_cases hrow' with ⟨rfl, old, hold, rfl⟩ | ⟨hne, hold⟩
    · exact (hbudget _ old hold).of_kept rfl (fun h => (not_ready_of_idle hidle _ h).elim)
        (old.kept_reconciled _) rfl fun hpending => ⟨hpending, id⟩
    · exact (hbudget requestId row' hold).of_same rfl id

/-- A request with a receipt is not sent. -/
theorem Does.sentFor_of_terminal (hdoes : Does s event s') (hflight : Flight s)
    (hrow : s.store.requests.lookup requestId = some row) (hterminal : row.status = .terminal) :
    s'.sentFor requestId = s.sentFor requestId := by
  cases hdoes with
  | @sent call _ _ hcall hphase =>
    obtain ⟨row', hrow', -, hpending, -⟩ := hflight.call call hcall (by simp [hphase])
    have hne : call.request.requestId ≠ requestId := by
      rintro rfl
      obtain rfl := mem_unique hrow hrow'.lookup
      rw [hterminal] at hpending
      cases hpending
    simp [sentFor, hne]
  | _ => rfl

/-! ## Runs -/

/-- The origins, the call in flight and the bounds of a history's state. -/
structure Bounded (events : List Event) (s : System) : Prop where
  origins : Origins events s
  flight : Flight s
  budget : ∀ requestId row, s.store.requests.lookup requestId = some row → Budget s requestId row

omit [Platform] [ConnectorPlatform] in
theorem lookup_initial (requestId : Uuid) : System.initial.store.requests.lookup requestId = none :=
  AList.lookup_empty requestId

theorem bounded_initial (events : List Event) : Bounded events .initial := by
  refine ⟨⟨?_, ?_, ?_, ?_⟩, ⟨?_, ?_⟩, fun requestId row hrow => ?_⟩
  · exact fun _ hmem => (not_mem_nil hmem).elim
  · exact fun _ hcall => (some_ne_none _ hcall.symm).elim
  · exact fun _ hmem => (not_mem_nil hmem).elim
  · exact fun _ hmem => (not_mem_nil hmem).elim
  · exact fun _ hcall => (some_ne_none _ hcall.symm).elim
  · exact fun _ hmem => (not_mem_nil hmem).elim
  · rw [lookup_initial] at hrow
    cases hrow

theorem maxAttempts_of_validateConfig {connector : ExternalConnector}
    (hvalid : connector.validateConfig = true) :
    1 ≤ connector.config.limits.maxAttempts ∧ connector.config.limits.maxAttempts ≤ 8 := by
  unfold ExternalConnector.validateConfig at hvalid
  simp only [Bool.and_eq_true, decide_eq_true_eq, and_assoc] at hvalid
  obtain ⟨-, -, -, -, -, hne, hle, -⟩ := hvalid
  exact ⟨Nat.one_le_iff_ne_zero.mpr hne, hle⟩

theorem Bounded.maxAttempts_le {events : List Event} (hbounded : Bounded events s)
    (hcall : s.call = some call) : call.connector.config.limits.maxAttempts ≤ 8 := by
  obtain ⟨hmem, -⟩ := hbounded.origins.call call hcall
  exact (maxAttempts_of_validateConfig (hbounded.origins.connectors _ hmem).2).2

theorem Does.bounded {events : List Event} (hdoes : Does s event s') (hevent : event ∈ events)
    (hbounded : Bounded events s) : Bounded events s' :=
  ⟨hdoes.origins hevent hbounded.origins, hdoes.flight hbounded.flight,
    hdoes.budget hbounded.flight (fun _ hcall => hbounded.maxAttempts_le hcall) hbounded.budget⟩

end McLoving.Connector
