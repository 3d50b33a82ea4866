import McLoving.Audit.Chain
import McLoving.Lib.Table

/-!
# The transactions of an audit chain

The transactions that append to an organization's chain, change its retention or export it run under
PostgreSQL's default isolation: a statement sees the rows that were committed when it began and the
transaction's own, waits for a row that another open transaction inserted or locked, and then locks
the latest version of it.
-/

namespace McLoving.Audit

/-- Payloads that PostgreSQL stores. -/
class StoredPayload (V : Type) extends AuditPayload V where
  /-- `json!`. -/
  ofJson : Json → V
  /-- A value sent as `jsonb` and read back, unless PostgreSQL refuses it. -/
  jsonb : V → Option V
  /-- The length of an encoding is a `u64`. -/
  length_toVec : ∀ value value', jsonb value = some value' → (toVec value').length < 2 ^ 64

/-! ## Rows -/

/-- A row of `audit_chain_heads`. -/
structure Head where
  nextSequence : ℤ
  lastHash : Digest
  range : 0 < nextSequence ∧ nextSequence ≤ i64Max

/-- The defaults of `audit_chain_heads`. -/
def Head.seed : Head :=
  ⟨1, zeroHash, by decide⟩

/-- The arguments of `append_audit_record`. -/
structure AuditRecord (V : Type) where
  category : String
  actorSubject : String
  action : String
  subject : String
  payload : V

/-- One check of `validate_fields`. -/
def validateField (label value : String) (max : ℕ) : Except AuditError Unit :=
  if value = "" || max < value.utf8ByteSize || value.toList.any isControl then
    .error (.invalidAuditOperation ("audit " ++ label ++ " is outside its bounds"))
  else .ok ()

/-- `validate_fields`. -/
def AuditRecord.validateFields {V : Type} (record : AuditRecord V) : Except AuditError Unit := do
  validateField "category" record.category 64
  validateField "actor subject" record.actorSubject 512
  validateField "action" record.action 128
  validateField "subject" record.subject 1024

/-- A record that `validate_fields` accepts. -/
abbrev ValidRecord (V : Type) := { record : AuditRecord V // record.validateFields = .ok () }

/-- The arguments of `extend_audit_retention` and `set_audit_legal_hold`. -/
inductive RetentionChange where
  | extend (retainUntilUnixMs : ℤ)
  | legalHold (legalHold : Bool)

/-- What `lock_audit_head` and the exports take the head's lock for. -/
inductive Purpose where
  | change (change : RetentionChange)
  | verify

/-- `FOR SHARE` and `FOR UPDATE`. -/
inductive Lock where
  | share
  | update
  deriving DecidableEq

variable {V : Type}

/-- A row of `audit_events`. -/
abbrev EventRow (V : Type) [AuditPayload V] := { event : AuditEvent V // event.Fits }

/-- Where a transaction is.  A `visible` flag says whether the statement under way sees a head. -/
inductive Point (V : Type) [AuditPayload V] where
  /-- Between two calls of a transaction that appends. -/
  | idle
  | appending (record : AuditRecord V)
  | seeding (record : ValidRecord V) (visible : Bool)
  | unseen (record : ValidRecord V)
  | reseeding (record : ValidRecord V) (visible : Bool)
  | writing (record : ValidRecord V) (payload : V) (head : Head)
  | inserting (purpose : Purpose)
  | inserted (purpose : Purpose)
  | selecting (purpose : Purpose) (visible : Bool)
  | upserting (change : RetentionChange)
  | reading (head : Head)
  | counted (head : Head) (events : List (EventRow V))
  | exported (head : Head) (events : List (EventRow V)) (retention : Option AuditRetentionPolicy)

/-- An open transaction: what it has written and not committed, its lock and where it is. -/
structure Tx (V : Type) [AuditPayload V] where
  seeded : Bool
  lock : Option Lock
  head : Option Head
  events : List (EventRow V)
  retention : Option AuditRetentionPolicy
  point : Point V

/-- The committed rows of the organization, the open transactions, and what `verify_audit_chain` has
returned. -/
structure Database (V : Type) [AuditPayload V] where
  head : Option Head
  events : List (EventRow V)
  retention : Option AuditRetentionPolicy
  transactions : Table ℕ (Tx V)
  verified : List (Except AuditError (AuditExport V))

/-- An organization without audit rows. -/
def Database.initial [AuditPayload V] : Database V :=
  ⟨none, [], none, ∅, []⟩

/-! ## Statements -/

/-- The record of a retention change, with the policy that the upsert returned. -/
def RetentionChange.record [StoredPayload V] (policy : AuditRetentionPolicy) :
    RetentionChange → AuditRecord V
  | .extend _ =>
    ⟨"admin", "system:controller", "audit.retention.extended", "tenant:self",
      StoredPayload.ofJson (.obj [("retain_until_unix_ms", .num policy.retainUntilUnixMs)])⟩
  | .legalHold held =>
    ⟨"admin", "system:controller",
      if held then "audit.legal_hold.placed" else "audit.legal_hold.released",
      "tenant:self", StoredPayload.ofJson (.obj [("legal_hold", .bool held)])⟩

/-- The upsert of a retention change. -/
def RetentionChange.apply (current : Option AuditRetentionPolicy) :
    RetentionChange → AuditRetentionPolicy
  | .extend retainUntilUnixMs =>
    match current with
    | none => ⟨retainUntilUnixMs, false⟩
    | some policy => { policy with
        retainUntilUnixMs := max policy.retainUntilUnixMs retainUntilUnixMs }
  | .legalHold held =>
    match current with
    | none => ⟨0, held⟩
    | some policy => { policy with legalHold := held }

/-- A fresh event id and the time of the clock. -/
structure Draw where
  eventId : Uuid
  eventId_lt : eventId < 2 ^ 128
  now : ℤ
  now_range : 0 ≤ now ∧ now ≤ i64Max

namespace Database

section Statements

variable [AuditPayload V] (db : Database V) (id : ℕ) (tx : Tx V)

/-- Whether a statement that begins now sees a head. -/
def sees : Bool :=
  db.head.isSome || tx.seeded

/-- The version of the head that the transaction locks. -/
def latest : Head :=
  (tx.head <|> db.head).getD Head.seed

/-- Another open transaction has inserted the head. -/
def insertWaits : Bool :=
  db.transactions.any fun other tx' => other ≠ id && tx'.seeded

/-- Another open transaction has a conflicting lock on the head. -/
def lockWaits (lock : Lock) : Bool :=
  db.transactions.any fun other tx' =>
    other ≠ id && (tx'.lock = some .update || (tx'.lock.isSome && lock = .update))

/-- The transaction goes on. -/
def goOn (tx : Tx V) : Database V :=
  { db with transactions := db.transactions.insert id tx }

/-- The transaction is rolled back. -/
def drop : Database V :=
  { db with transactions := db.transactions.erase id }

/-- The transaction fails, and with it the call. -/
def fail (error : AuditError) : Database V :=
  match tx.point with
  | .inserting .verify | .inserted .verify | .selecting .verify _ | .reading _ | .counted .. |
    .exported .. => { db.drop id with verified := db.verified ++ [.error error] }
  | _ => db.drop id

/-- `INSERT INTO audit_chain_heads … ON CONFLICT DO NOTHING`, once it does not wait. -/
def insertHead : Tx V :=
  { tx with seeded := tx.seeded || db.head.isNone }

end Statements

section Calls

variable [StoredPayload V] [Platform] (organizationId : Uuid) (db : Database V) (id : ℕ) (tx : Tx V)

omit [Platform] in
/-- The seeding statement of an append sees a head: it locks the head and returns it with the
payload. -/
def lockForAppend (record : ValidRecord V) : Database V :=
  if db.lockWaits id .update then db
  else
    match StoredPayload.jsonb record.1.payload with
    | none => db.fail id tx .database
    | some payload =>
      db.goOn id { tx with
        lock := some .update, point := .writing record payload (db.latest tx) }

/-- The event that `append_audit_record_inner` builds. -/
def newEvent (record : ValidRecord V) (payload : V) (head : Head) (draw : Draw) : AuditEvent V where
  sequence := head.nextSequence
  eventId := draw.eventId
  category := record.1.category
  actorSubject := record.1.actorSubject
  action := record.1.action
  subject := record.1.subject
  payload := payload
  occurredAtUnixMs := draw.now
  previousHash := head.lastHash
  eventHash := hashEvent organizationId head.nextSequence draw.eventId record.1.category
    record.1.actorSubject record.1.action record.1.subject payload draw.now head.lastHash

omit [StoredPayload V] [Platform] in
theorem length_le_of_validateField {label value : String} {max : ℕ}
    (hok : validateField label value max = .ok ()) : (textBytes value).length ≤ max := by
  unfold validateField at hok
  split_ifs at hok with hbounds
  simp only [Bool.or_eq_true, decide_eq_true_eq, not_or, not_lt] at hbounds
  have hlength : (textBytes value).length = value.utf8ByteSize := by
    unfold textBytes
    rw [ByteArray.toList_eq_data]
    rfl
  rw [hlength]
  exact hbounds.1.2

theorem newEvent_fits (record : ValidRecord V) (payload stored : V) (head : Head) (draw : Draw)
    (hstored : StoredPayload.jsonb payload = some stored) :
    { newEvent organizationId record payload head draw with payload := stored }.Fits := by
  obtain ⟨record, hvalid⟩ := record
  unfold AuditRecord.validateFields at hvalid
  simp only [Except.bind_eq_ok] at hvalid
  obtain ⟨⟨⟩, hcategory, ⟨⟩, hactor, ⟨⟩, haction, hsubject⟩ := hvalid
  have hmax : i64Max = 2 ^ 63 - 1 := rfl
  obtain ⟨hpositive, hbound⟩ := head.range
  obtain ⟨hnonneg, hnow⟩ := draw.now_range
  have hle : ∀ {n m : ℕ}, n ≤ m → m ≤ 1024 → n < 2 ^ 64 := fun hn hm => by omega
  exact ⟨⟨by change -2 ^ 63 ≤ head.nextSequence; omega, by change head.nextSequence < 2 ^ 63; omega⟩,
    draw.eventId_lt, hle (length_le_of_validateField hcategory) (by decide),
    hle (length_le_of_validateField hactor) (by decide),
    hle (length_le_of_validateField haction) (by decide),
    hle (length_le_of_validateField hsubject) (by decide),
    StoredPayload.length_toVec payload stored hstored,
    ⟨by change -2 ^ 63 ≤ draw.now; omega, by change draw.now < 2 ^ 63; omega⟩⟩

/-- The statement that writes the event and moves the head. -/
def writeEvent (record : ValidRecord V) (payload : V) (head : Head) (draw : Draw) : Database V :=
  match hstored : StoredPayload.jsonb payload with
  | none => db.fail id tx .database
  | some stored =>
    let event : EventRow V :=
      ⟨{ newEvent organizationId record payload head draw with payload := stored },
        newEvent_fits organizationId record payload stored head draw hstored⟩
    if (db.events ++ tx.events).any fun row => row.1.sequence = event.1.sequence ||
        row.1.eventId = event.1.eventId || row.1.eventHash = event.1.eventHash then
      db.fail id tx .database
    else if hmax : head.nextSequence < i64Max then
      db.goOn id { tx with
        events := tx.events ++ [event]
        head := some ⟨head.nextSequence + 1, event.1.eventHash, by have := head.range; omega⟩
        point := .idle }
    else db.fail id tx .database

/-- The next step of a transaction: a statement begins, or ends unless it has to wait. -/
def advance (draw : Draw) : Database V :=
  match tx.point with
  | .idle => db
  | .appending record =>
    if hvalid : record.validateFields = .ok () then
      db.goOn id { tx with point := .seeding ⟨record, hvalid⟩ (db.sees tx) }
    else db.fail id tx .database
  | .seeding record visible =>
    if visible then db.lockForAppend id tx record
    else if db.insertWaits id then db
    else db.goOn id { db.insertHead tx with point := .unseen record }
  | .unseen record => db.goOn id { tx with point := .reseeding record (db.sees tx) }
  | .reseeding record visible =>
    if visible then db.lockForAppend id tx record
    else if db.insertWaits id then db
    else db.fail id tx .database
  | .writing record payload head => db.writeEvent organizationId id tx record payload head draw
  | .inserting purpose =>
    if db.insertWaits id then db
    else db.goOn id { db.insertHead tx with point := .inserted purpose }
  | .inserted purpose => db.goOn id { tx with point := .selecting purpose (db.sees tx) }
  | .selecting purpose visible =>
    if !visible then db.fail id tx .database
    else
      match purpose with
      | .change change =>
        if db.lockWaits id .update then db
        else db.goOn id { tx with lock := some .update, point := .upserting change }
      | .verify =>
        if db.lockWaits id .share then db
        else db.goOn id { tx with lock := some .share, point := .reading (db.latest tx) }
  | .upserting change =>
    db.goOn id { tx with
      retention := some (change.apply (tx.retention <|> db.retention))
      point := .appending (change.record (change.apply (tx.retention <|> db.retention))) }
  | .reading head =>
    if maxAuditExport < (db.events ++ tx.events).length then
      db.fail id tx (.invalidAuditOperation "audit export exceeds its bounded event limit")
    else db.goOn id { tx with point := .counted head (db.events ++ tx.events) }
  | .counted head events =>
    db.goOn id { tx with point := .exported head events (tx.retention <|> db.retention) }
  | .exported .. => db

/-- What a committed transaction leaves. -/
def apply : Database V :=
  { db.drop id with
    head := if tx.seeded || tx.head.isSome then some (db.latest tx) else db.head
    events := db.events ++ tx.events
    retention := tx.retention <|> db.retention }

end Calls

end Database

/-- The organization that the chain belongs to. -/
abbrev OrganizationId := { id : Uuid // id < 2 ^ 128 }

section Calls

variable [AuditPayload V] [Platform]

omit [Platform] in
/-- The result of `export_audit_events`. -/
def auditExport (organizationId : OrganizationId) (head : Head) (events : List (EventRow V))
    (retention : Option AuditRetentionPolicy) : AuditExport V where
  organizationId := organizationId.1
  events := events.map Subtype.val
  nextSequence := head.nextSequence
  headHash := head.lastHash
  retention := retention
  fits := by
    refine ⟨organizationId.2, fun event hmem => ?_⟩
    obtain ⟨row, -, rfl⟩ := List.mem_map.mp hmem
    exact row.2

/-- The end of `verify_audit_chain`. -/
def verifyAuditChain (organizationId : OrganizationId) (head : Head) (events : List (EventRow V))
    (retention : Option AuditRetentionPolicy) : Except AuditError (AuditExport V) := do
  verifyAuditExport (auditExport organizationId head events retention)
  return auditExport organizationId head events retention

end Calls

/-- The calls that open a transaction. -/
inductive Call (V : Type) where
  | append (record : AuditRecord V)
  | change (change : RetentionChange)
  | verify

/-- What happens to an organization's chain. -/
inductive Event (V : Type) where
  | begin (id : ℕ) (call : Call V)
  | advance (id : ℕ) (draw : Draw)
  /-- A transaction that has appended a record appends another one. -/
  | append (id : ℕ) (record : AuditRecord V)
  | commit (id : ℕ)
  /-- The end of a transaction without a commit, for whatever reason. -/
  | rollback (id : ℕ)

/-- Where a call begins, unless it fails at once. -/
def Call.point [AuditPayload V] : Call V → Option (Point V)
  | .append record => some (.appending record)
  | .change (.extend retainUntilUnixMs) =>
    if retainUntilUnixMs < 0 then none
    else some (.inserting (.change (.extend retainUntilUnixMs)))
  | .change (.legalHold held) => some (.inserting (.change (.legalHold held)))
  | .verify => some (.inserting .verify)

namespace Database

variable [StoredPayload V] [Platform]

/-- The state after an event.  An event of a transaction that is not open or not at that point has
no effect. -/
def step (organizationId : OrganizationId) (db : Database V) : Event V → Database V
  | .begin id call =>
    match db.transactions.lookup id, call.point with
    | none, some point => db.goOn id ⟨false, none, none, [], none, point⟩
    | _, _ => db
  | .advance id draw =>
    match db.transactions.lookup id with
    | some tx => db.advance organizationId.1 id tx draw
    | none => db
  | .append id record =>
    match db.transactions.lookup id with
    | some tx =>
      match tx.point with
      | .idle => db.goOn id { tx with point := .appending record }
      | _ => db
    | none => db
  | .commit id =>
    match db.transactions.lookup id with
    | some tx =>
      match tx.point with
      | .idle => db.apply id tx
      | .exported head events retention =>
        { db.apply id tx with
          verified := db.verified ++ [verifyAuditChain organizationId head events retention] }
      | _ => db
    | none => db
  | .rollback id => db.drop id

end Database

end McLoving.Audit
