import McLoving.Audit.Interleaving

/-!
# The audit chain is tamper evident and complete

A verified chain is determined by its head, and whatever the interleaving of the transactions, the
committed rows are verified.
-/

namespace McLoving.Audit

open List AList History Database

section Verification

variable {V : Type} [StoredPayload V] [Platform] {organizationId : OrganizationId}
  {db : Database V} {id : ℕ}

/-- No open transaction makes an export wait. -/
def Database.Free (db : Database V) : Prop :=
  ∀ id tx, db.transactions.lookup id = some tx → tx.seeded = false ∧ tx.lock ≠ some .update

/-- The transaction of `verify_audit_chain` at a point. -/
def verifier (seeded : Bool) (lock : Option Lock) (point : Point V) : Tx V :=
  ⟨seeded, lock, none, [], none, point⟩

omit [Platform] in
theorem waits_eq_false (hfree : db.Free) (id : ℕ) (tx : Tx V) :
    (db.goOn id tx).insertWaits id = false ∧ (db.goOn id tx).lockWaits id .share = false := by
  have hothers : ∀ id' tx', (db.goOn id tx).transactions.lookup id' = some tx' → id' ≠ id →
      tx'.seeded = false ∧ tx'.lock ≠ some .update := by
    intro id' tx' hlookup hne
    exact hfree id' tx' ((lookup_insert_ne hne).symm.trans hlookup)
  refine ⟨Table.any_eq_false.mpr fun id' tx' hlookup => ?_,
    Table.any_eq_false.mpr fun id' tx' hlookup => ?_⟩
  · by_cases hne : id' = id
    · simp [hne]
    · simp [(hothers id' tx' hlookup hne).1]
  · by_cases hne : id' = id
    · simp [hne]
    · simp [(hothers id' tx' hlookup hne).2]

omit [Platform] in
theorem goOn_goOn (tx tx' : Tx V) : (db.goOn id tx).goOn id tx' = db.goOn id tx' := by
  unfold goOn
  rw [insert_insert]

theorem step_advance (tx : Tx V) (draw : Draw) :
    (db.goOn id tx).step organizationId (.advance id draw) =
      (db.goOn id tx).advance organizationId.1 id tx draw := by
  have hlookup : (db.goOn id tx).transactions.lookup id = some tx := lookup_insert _
  simp only [step, hlookup]

/-- The events of a call of `verify_audit_chain`. -/
def verification (id : ℕ) (draw : Draw) : List (Event V) :=
  [.begin id .verify, .advance id draw, .advance id draw, .advance id draw, .advance id draw,
    .advance id draw, .commit id]

/-- `verify_audit_chain` succeeds on a chain when nothing makes it wait. -/
theorem verified_verification (hsound : Sound true organizationId db) (hfree : db.Free)
    (hclosed : db.transactions.lookup id = none) (hfew : db.events.length ≤ maxAuditExport)
    (draw : Draw) :
    (History.final (Database.step organizationId) db (verification id draw)).verified =
      db.verified ++ [.ok (auditExport organizationId (db.head.getD Head.seed) db.events
        db.retention)] := by
  have hwaits := waits_eq_false hfree id
  have hbegin : db.step organizationId (.begin id .verify) =
      db.goOn id (verifier false none (.inserting .verify)) := by
    simp only [step, hclosed, Call.point]
    rfl
  have hinsert : (db.goOn id (verifier false none (.inserting .verify))).step organizationId
      (.advance id draw) = db.goOn id (verifier db.head.isNone none (.inserted .verify)) := by
    rw [step_advance, advance]
    simp only [verifier, (hwaits _).1]
    rw [if_neg Bool.false_ne_true, goOn_goOn]
    rfl
  have hsees : ∀ point, (db.goOn id (verifier db.head.isNone none point)).sees
      (verifier db.head.isNone none point) = true := by
    intro point
    change (db.head.isSome || db.head.isNone) = true
    cases db.head <;> rfl
  have hselect : (db.goOn id (verifier db.head.isNone none (.inserted .verify))).step
      organizationId (.advance id draw) =
        db.goOn id (verifier db.head.isNone none (.selecting .verify true)) := by
    rw [step_advance, advance]
    simp only [verifier]
    rw [goOn_goOn]
    exact congrArg (fun visible => db.goOn id (verifier _ none (.selecting .verify visible)))
      (hsees _)
  have hlock : (db.goOn id (verifier db.head.isNone none (.selecting .verify true))).step
      organizationId (.advance id draw) = db.goOn id
        (verifier db.head.isNone (some .share) (.reading (db.head.getD Head.seed))) := by
    rw [step_advance, advance]
    simp only [verifier, Bool.not_true, Bool.false_eq_true, if_false, (hwaits _).2]
    rw [goOn_goOn]
    rfl
  have hread : (db.goOn id
      (verifier db.head.isNone (some .share) (.reading (db.head.getD Head.seed)))).step
      organizationId (.advance id draw) = db.goOn id (verifier db.head.isNone (some .share)
        (.counted (db.head.getD Head.seed) db.events)) := by
    rw [step_advance, advance]
    have hevents : ∀ tx : Tx V, (db.goOn id tx).events = db.events := fun _ => rfl
    simp only [verifier, append_nil, hevents]
    rw [if_neg (not_lt.mpr hfew), goOn_goOn]
  have hpolicy : (db.goOn id (verifier db.head.isNone (some .share)
      (.counted (db.head.getD Head.seed) db.events))).step organizationId (.advance id draw) =
        db.goOn id (verifier db.head.isNone (some .share)
          (.exported (db.head.getD Head.seed) db.events db.retention)) := by
    rw [step_advance, advance]
    simp only [verifier]
    rw [goOn_goOn]
    rfl
  unfold verification
  simp only [final_cons, final_nil]
  rw [hbegin, hinsert, hselect, hlock, hread, hpolicy]
  have hlookup : ∀ tx : Tx V, (db.goOn id tx).transactions.lookup id = some tx :=
    fun tx => lookup_insert _
  simp only [step, hlookup, verifier]
  rw [verifyAuditChain_eq_ok hsound.chained]
  rfl

/-- For any organization: verified exports with the same head have the same events; verified pages
that continue each other from the beginning to a page without a cursor add up to a verified export;
and at the end of every interleaving of transactions that append stable payloads and leave at most
`MAX_AUDIT_EXPORT` committed events, every verification has succeeded, and another one succeeds
unless an open transaction makes it wait. -/
theorem audit_chain_binding_and_complete (organizationId : OrganizationId) :
    (∀ exported exported' : AuditExport V, exported.organizationId = organizationId.1 →
      exported'.organizationId = organizationId.1 → CollisionFree exported exported' →
      verifyAuditExport exported = .ok () → verifyAuditExport exported' = .ok () →
      exported.nextSequence = exported'.nextSequence → exported.headHash = exported'.headHash →
      exported.events = exported'.events) ∧
    (∀ (pages : List (AuditPage V)) (last : AuditPage V) (exported : AuditExport V),
      Continues organizationId.1 0 zeroHash pages → pages.getLast? = some last →
      exported.organizationId = organizationId.1 →
      exported.events = pages.flatMap AuditPage.events →
      exported.nextSequence = last.chainNextSequence → exported.headHash = last.chainHeadHash →
      verifyAuditExport exported = .ok ()) ∧
    ∀ (events : List (Event V)) (db : Database V),
      db = History.final (Database.step organizationId) .initial events →
      (∀ event ∈ events, event.Stable) → db.events.length ≤ maxAuditExport →
      (∀ result ∈ db.verified, ∃ exported, result = .ok exported) ∧
      ∀ id draw, db.transactions.lookup id = none → db.Free →
        (History.final (Database.step organizationId) db (verification id draw)).verified =
          db.verified ++ [.ok (auditExport organizationId (db.head.getD Head.seed) db.events
            db.retention)] := by
  refine ⟨?_, ?_, ?_⟩
  · intro exported exported' horganization horganization' hfree hverified hverified' hsequence hhead
    exact events_eq_of_head hverified hverified' hfree (horganization.trans horganization'.symm)
      hsequence hhead
  · intro pages last exported hcontinues hlast horganization hevents hsequence hhead
    rw [← horganization] at hcontinues
    exact verifyAuditExport_of_continues hcontinues hlast hevents hsequence hhead
  · rintro events db rfl hstable hfew
    have hsound := sound_final organizationId events fun (_ : true = true) => hstable
    refine ⟨fun result hresult => ?_, fun id draw hclosed hfree => ?_⟩
    · exact (hsound.verified rfl result hresult).resolve_right (not_lt.mpr hfew)
    · exact verified_verification hsound hfree hclosed hfew draw

/-! ## The log only grows -/

omit [Platform] in
theorem Database.fail_events (tx : Tx V) (error : AuditError) :
    (db.fail id tx error).events = db.events := by
  unfold Database.fail
  split <;> rfl

/-- Before its commit a transaction leaves the committed events. -/
theorem Database.advance_events (organizationId : Uuid) (tx : Tx V) (draw : Draw) :
    (db.advance organizationId id tx draw).events = db.events := by
  unfold Database.advance Database.lockForAppend Database.writeEvent
  dsimp only
  repeat' split
  all_goals first | rfl | exact fail_events tx _

theorem Database.events_step (db : Database V) (event : Event V) :
    db.events <+: (db.step organizationId event).events := by
  unfold Database.step
  repeat' split
  all_goals first | exact prefix_rfl | exact prefix_append _ _ | rw [advance_events]

/-- **The audit log is append-only and gapless.**  Whatever the interleaving of appends, changes of
the retention and exports, with rollbacks anywhere, the committed events stay at the beginning of
the log, and their sequence numbers are `1, 2, …` in its order. -/
theorem audit_log_append_only (organizationId : OrganizationId) (events later : List (Event V)) :
    (final (Database.step organizationId) .initial events).events <+:
        (final (Database.step organizationId) .initial (events ++ later)).events ∧
      (final (Database.step organizationId) .initial events).events.map (·.1.sequence) =
        (List.range (final (Database.step organizationId)
          (.initial : Database V) events).events.length).map fun k : ℕ => (1 + k : ℤ) := by
  constructor
  · rw [final_append]
    generalize final (Database.step organizationId) .initial events = db
    induction later generalizing db with
    | nil => exact prefix_rfl
    | cons event _ ih => exact (db.events_step event).trans (ih _)
  · have hlinks := (@sound_final V _ _ false organizationId events Bool.noConfusion).chained
    simpa [Function.comp_def, scheme, linking] using hlinks.map_sequence

end Verification

namespace Sample

/-- A platform whose digests follow the last byte. -/
@[reducible]
def platform : Platform :=
  ⟨fun bytes => .replicate (bytes.getLastD 0 + 1), fun _ _ => 0, fun _ => none, fun _ => .ok ()⟩

/-- Payloads of one byte. -/
@[reducible]
def payload : StoredPayload Bool where
  toVec value := [if value then 1 else 0]
  ofJson _ := true
  jsonb := some
  length_toVec _ _ _ := by simp

/-- An organization. -/
def organizationId : OrganizationId :=
  ⟨7, by decide⟩

/-- The event ids and times of the two transactions. -/
def draw (second : Bool) : Draw :=
  ⟨if second then 10 else 9, by cases second <;> decide, if second then 200 else 100,
    by cases second <;> decide⟩

/-- A record with a payload. -/
def record (value : Bool) : AuditRecord Bool :=
  ⟨"admin", "system:controller", "started", "tenant:self", value⟩

/-- Two transactions append, where the second one has to wait for the first. -/
def appended : List (Event Bool) :=
  [.begin 1 (.append (record true)), .begin 2 (.append (record false))] ++
    replicate 2 (.advance 1 (draw false)) ++ replicate 2 (.advance 2 (draw true)) ++
    replicate 3 (.advance 1 (draw false)) ++ [.commit 1] ++
    replicate 4 (.advance 2 (draw true)) ++ [.commit 2]

/-- The state with two events. -/
def chain : @Database Bool payload.toAuditPayload :=
  letI := payload
  letI := platform
  History.final (Database.step organizationId) .initial appended

/-- The export of the chain. -/
def exported : @AuditExport Bool payload.toAuditPayload :=
  letI := payload
  auditExport organizationId (chain.head.getD Head.seed) chain.events chain.retention

/-- The pages of one event each. -/
def pages : List (@AuditPage Bool payload.toAuditPayload) :=
  letI := payload
  [⟨7, 0, zeroHash, exported.events.take 1, some 1, exported.nextSequence, exported.headHash, none,
      exported.fits.1, fun event hmem => exported.fits.2 event (mem_of_mem_take hmem)⟩,
    ⟨7, 1, .replicate 1, exported.events.drop 1, none, exported.nextSequence, exported.headHash, none,
      exported.fits.1, fun event hmem => exported.fits.2 event (mem_of_mem_drop hmem)⟩]

/-- The events of the pages as an export, with another retention. -/
def joined : @AuditExport Bool payload.toAuditPayload :=
  letI := payload
  { exported with
    events := pages.flatMap AuditPage.events
    retention := some ⟨5, true⟩
    fits := ⟨exported.fits.1, fun event hmem => by
      simp only [pages, flatMap_cons, flatMap_nil, append_nil, take_append_drop] at hmem
      exact exported.fits.2 event hmem⟩ }

end Sample

open Sample in
/-- Two events are appended and verified, their pages add up to a verified export, and this export
has the events of the chain because it has its head. -/
theorem two_events_verified : letI := payload
    letI := platform
    chain.events.map (fun row => (row.1.payload, row.1.previousHash, row.1.eventHash)) =
        [(true, zeroHash, .replicate 1), (false, .replicate 1, .replicate 2)] ∧
      (History.final (Database.step organizationId) chain (verification 3 (draw true))).verified =
        [.ok exported] ∧
      verifyAuditExport joined = .ok () ∧ joined.retention ≠ exported.retention ∧
      joined.events = exported.events := by
  let := payload
  let := platform
  obtain ⟨hbinding, hpages, hruns⟩ := audit_chain_binding_and_complete (V := Bool) organizationId
  have hkeys : chain.transactions.keys = [] := by decide +kernel
  have hclosed : ∀ id, chain.transactions.lookup id = none := fun id =>
    AList.lookup_eq_none.mpr fun hmem => by
      rw [AList.mem_keys, hkeys] at hmem
      exact List.not_mem_nil hmem
  have hstable : ∀ event ∈ appended, event.Stable := by
    have hany : ∀ value : Bool, StoredPayload.Stable value := fun _ _ _ => rfl
    intro event _
    unfold Event.Stable
    split
    all_goals first | trivial | exact hany _
  obtain ⟨-, hverify⟩ := hruns appended chain rfl hstable (by decide +kernel)
  have hverified : verifyAuditExport joined = .ok () := by
    refine hpages pages _ joined ?_ rfl rfl rfl rfl rfl
    exact ⟨rfl, rfl, rfl, by decide +kernel, 1, exported.events.head (by decide +kernel), rfl,
      by decide +kernel, rfl, rfl, by decide +kernel, by decide +kernel, rfl⟩
  refine ⟨by decide +kernel, ?_, hverified, by decide +kernel, ?_⟩
  · have hempty : chain.verified.length = 0 := by decide +kernel
    have hfree : chain.Free := fun id tx hlookup => by
      rw [hclosed] at hlookup
      cases hlookup
    rw [hverify 3 (draw true) (hclosed 3) hfree, length_eq_zero_iff.mp hempty]
    rfl
  · refine hbinding joined exported rfl rfl ⟨?_, ?_⟩ hverified ?_ rfl rfl
    all_goals decide +kernel

end McLoving.Audit
