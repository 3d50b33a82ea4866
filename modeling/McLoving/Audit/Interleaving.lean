import McLoving.Audit.Transactions

/-!
# Interleaved audit transactions

The lock on the head lets one transaction append at a time, and an export reads while no transaction
appends.  So whatever the interleaving, the committed rows are numbered and linked up to the head.
The hash of a row is that of the payload as it was read back when it was appended; where reading it
back again gives the same payload, the hashes are those of the rows, and what an export reads is
verified.
-/

namespace McLoving.Audit

open List Option Table

variable {V : Type} [StoredPayload V] [Platform] {organizationId : OrganizationId}
  {db : Database V} {id : ℕ} {tx tx' : Tx V} {hashed : Bool}

/-! ## Payloads -/

omit [Platform] in
/-- What PostgreSQL returns for the value, it returns again. -/
def StoredPayload.Stable (value : V) : Prop :=
  ∀ stored, StoredPayload.jsonb value = some stored → StoredPayload.jsonb stored = some stored

omit [Platform] in
/-- The payloads that a change of the retention appends are stable. -/
def RetentionChange.Stable (V : Type) [StoredPayload V] (change : RetentionChange) : Prop :=
  ∀ policy, StoredPayload.Stable (change.record policy : AuditRecord V).payload

omit [Platform] in
/-- The payloads that an event brings are stable. -/
def Event.Stable : Event V → Prop
  | .begin _ (.append record) | .append _ record => StoredPayload.Stable record.payload
  | .begin _ (.change change) => change.Stable V
  | _ => True

omit [Platform] in
/-- The payload that a transaction is about to append is stable, and one that was read back is read
back again. -/
def Point.Stable : Point V → Prop
  | .appending record => StoredPayload.Stable record.payload
  | .seeding record _ | .unseen record | .reseeding record _ => StoredPayload.Stable record.1.payload
  | .writing _ payload _ => StoredPayload.jsonb payload = some payload
  | .inserting (.change change) | .inserted (.change change) | .selecting (.change change) _ |
    .upserting change => change.Stable V
  | _ => True

/-! ## What holds between statements -/

omit [StoredPayload V] [Platform] in
/-- The position that a head stands for. -/
def Head.position (head : Head) : ℤ × Digest :=
  (head.nextSequence, head.lastHash)

/-- The chain with the hashes of the rows, or with whatever hashes the rows have. -/
def linking (hashed : Bool) (organizationId : Uuid) : HashChain.Scheme (AuditEvent V) Digest :=
  match hashed with
  | true => scheme organizationId
  | false => { scheme organizationId with compute := AuditEvent.eventHash }

/-- The rows are a chain up to the head. -/
def Chained (hashed : Bool) (organizationId : OrganizationId) (events : List (EventRow V))
    (head : Head) : Prop :=
  HashChain.Links (linking hashed organizationId.1) (1, zeroHash) (events.map Subtype.val)
    head.position

/-- What holds at a point of a transaction. -/
def PointSound (hashed : Bool) (organizationId : OrganizationId) (db : Database V) (tx : Tx V) :
    Point V → Prop
  | .seeding _ visible => visible = true → db.sees tx = true
  | .unseen _ => db.sees tx = true
  | .inserting _ => tx.lock = none
  | .inserted _ => tx.lock = none ∧ db.sees tx = true
  | .reseeding _ visible => visible = true ∧ db.sees tx = true
  | .selecting _ visible => tx.lock = none ∧ visible = true ∧ db.sees tx = true
  | .writing _ _ head => tx.lock = some .update ∧ head = db.latest tx
  | .reading head => tx.lock = some .share ∧ head = db.latest tx
  | .counted head events => Chained hashed organizationId events head
  | .exported head events _ => Chained hashed organizationId events head
  | _ => True

/-- What holds of an open transaction. -/
structure TxSound (hashed : Bool) (organizationId : OrganizationId) (db : Database V) (tx : Tx V) :
    Prop where
  seeded : tx.seeded = true → db.head = none
  locked : tx.lock ≠ none → db.sees tx = true
  unwritten : tx.lock ≠ some .update → tx.events = [] ∧ tx.head = none
  chained : tx.lock = some .update →
    Chained hashed organizationId (db.events ++ tx.events) (db.latest tx)
  point : PointSound hashed organizationId db tx tx.point
  stable : hashed = true → tx.point.Stable

/-- Two open transactions do not conflict. -/
structure Compatible (tx tx' : Tx V) : Prop where
  update : tx.lock = some .update → tx'.lock = none
  seeded : tx.seeded = true → tx'.seeded = false ∧ tx'.lock = none

/-- What holds between any two statements. -/
structure Sound (hashed : Bool) (organizationId : OrganizationId) (db : Database V) : Prop where
  chained : Chained hashed organizationId db.events (db.head.getD Head.seed)
  tx : ∀ id tx, db.transactions.lookup id = some tx → TxSound hashed organizationId db tx
  compatible : ∀ id id' tx tx', db.transactions.lookup id = some tx →
    db.transactions.lookup id' = some tx' → id ≠ id' → Compatible tx tx'
  verified : hashed = true → ∀ result ∈ db.verified, (∃ exported, result = .ok exported) ∨
    maxAuditExport < db.events.length

variable {point : Point V} {id' : ℕ} {other : Tx V} {head : Head}

/-! ## Rows and locks -/

omit [Platform] in
theorem not_seeded_of_insertWaits (hwaits : db.insertWaits id = false)
    (hother : db.transactions.lookup id' = some other) (hne : id' ≠ id) : other.seeded = false := by
  have hfree := any_eq_false.mp hwaits id' other hother
  simpa [hne] using hfree

omit [Platform] in
theorem lock_of_lockWaits {lock : Lock} (hwaits : db.lockWaits id lock = false)
    (hother : db.transactions.lookup id' = some other) (hne : id' ≠ id) :
    other.lock ≠ some .update ∧ (lock = .update → other.lock = none) := by
  have hfree := any_eq_false.mp hwaits id' other hother
  simp only [hne, ne_eq, not_false_eq_true, decide_true, Bool.true_and, Bool.or_eq_false_iff,
    decide_eq_false_iff_not, Bool.and_eq_false_imp] at hfree
  refine ⟨hfree.1, fun hupdate => ?_⟩
  by_contra hsome
  exact hfree.2 (isSome_iff_ne_none.mpr hsome) hupdate

omit [Platform] in
/-- A transaction that has written nothing leaves the rows as they are. -/
theorem apply_of_unwritten (hevents : tx.events = []) (hhead : tx.head = none)
    (hseeded : tx.seeded = false) :
    (db.apply id tx).head = db.head ∧ (db.apply id tx).events = db.events := by
  simp [Database.apply, hevents, hhead, hseeded]

/-- Soundness of a transaction depends on the committed rows only. -/
theorem TxSound.congr {db' : Database V} (htx : TxSound hashed organizationId db tx)
    (hhead : db'.head = db.head) (hevents : db'.events = db.events) :
    TxSound hashed organizationId db' tx := by
  have hsees : db'.sees tx = db.sees tx := by rw [Database.sees, Database.sees, hhead]
  have hlatest : db'.latest tx = db.latest tx := by rw [Database.latest, Database.latest, hhead]
  refine ⟨hhead ▸ htx.seeded, hsees ▸ htx.locked, htx.unwritten, ?_, ?_, htx.stable⟩
  · rw [hevents, hlatest]
    exact htx.chained
  · have hpoint := htx.point
    revert hpoint
    cases tx.point <;> simp only [PointSound, hsees, hlatest, imp_self]

theorem verifyAuditChain_eq_ok {events : List (EventRow V)}
    (hchained : Chained true organizationId events head) (retention : Option AuditRetentionPolicy) :
    verifyAuditChain organizationId head events retention =
      .ok (auditExport organizationId head events retention) := by
  have hverified : verifyAuditExport (auditExport organizationId head events retention) = .ok () :=
    verifyAuditExport_eq_ok.mpr hchained
  unfold verifyAuditChain
  rw [hverified]
  rfl

/-! ## Going on and stopping -/

section Keeps

variable (hsound : Sound hashed organizationId db)

include hsound

theorem Sound.goOn (htx : TxSound hashed organizationId db tx)
    (hothers : ∀ id' tx', db.transactions.lookup id' = some tx' → id' ≠ id →
      Compatible tx tx' ∧ Compatible tx' tx) : Sound hashed organizationId (db.goOn id tx) := by
  refine ⟨hsound.chained, fun other found hfound => ?_,
    fun other other' found found' hfound hfound' hne => ?_, hsound.verified⟩
  · rcases lookup_insert_cases hfound with ⟨-, rfl⟩ | ⟨-, hold⟩
    · exact ⟨htx.seeded, htx.locked, htx.unwritten, htx.chained, htx.point, htx.stable⟩
    · have hold' := hsound.tx other found hold
      exact ⟨hold'.seeded, hold'.locked, hold'.unwritten, hold'.chained, hold'.point, hold'.stable⟩
  · rcases lookup_insert_cases hfound with ⟨rfl, rfl⟩ | ⟨hid, hold⟩
    · rcases lookup_insert_cases hfound' with ⟨rfl, -⟩ | ⟨hid', hold'⟩
      · exact (hne rfl).elim
      · exact (hothers other' found' hold' hid').1
    · rcases lookup_insert_cases hfound' with ⟨rfl, rfl⟩ | ⟨-, hold'⟩
      · exact (hothers other found hold hid).2
      · exact hsound.compatible other other' found found' hold hold' hne

theorem Sound.drop (id : ℕ) : Sound hashed organizationId (db.drop id) := by
  refine ⟨hsound.chained, fun other found hfound => ?_,
    fun other other' found found' hfound hfound' => ?_, hsound.verified⟩
  · have hold := hsound.tx other found (lookup_erase_cases hfound).2
    exact ⟨hold.seeded, hold.locked, hold.unwritten, hold.chained, hold.point, hold.stable⟩
  · exact hsound.compatible other other' found found' (lookup_erase_cases hfound).2
      (lookup_erase_cases hfound').2

/-- A failed call rolls back; a verification only fails when there are too many events. -/
theorem Sound.fail (id : ℕ) (error : AuditError)
    (hreason : db.fail id tx error = db.drop id ∨ maxAuditExport < db.events.length) :
    Sound hashed organizationId (db.fail id tx error) := by
  rcases hreason with heq | hmany
  · rw [heq]
    exact hsound.drop id
  · have hdrop := hsound.drop id
    unfold Database.fail
    split
    all_goals first
      | exact hdrop
      | exact ⟨hdrop.chained, fun other found hfound =>
        have hold := hdrop.tx other found hfound
        ⟨hold.seeded, hold.locked, hold.unwritten, hold.chained, hold.point, hold.stable⟩,
        hdrop.compatible, fun _ _ _ => .inr hmany⟩

/-- A new transaction has written nothing and holds no lock. -/
theorem Sound.begin
    (hpoint : PointSound hashed organizationId db ⟨false, none, none, [], none, point⟩ point)
    (hstable : hashed = true → point.Stable) :
    Sound hashed organizationId (db.goOn id ⟨false, none, none, [], none, point⟩) := by
  have hunlocked : (none : Option Lock) ≠ some .update := (some_ne_none _).symm
  refine hsound.goOn ⟨Bool.noConfusion, fun hlock => (hlock rfl).elim, fun _ => ⟨rfl, rfl⟩,
    fun hlock => (hunlocked hlock).elim, hpoint, hstable⟩ fun id' other hother _ => ?_
  exact ⟨⟨fun hlock => (hunlocked hlock).elim, Bool.noConfusion⟩, fun _ => rfl, fun _ => ⟨rfl, rfl⟩⟩

section Open

variable (hlookup : db.transactions.lookup id = some tx)

include hlookup

/-- An open transaction does not conflict with another. -/
theorem Sound.compatible_both (hother : db.transactions.lookup id' = some other) (hne : id' ≠ id) :
    Compatible tx other ∧ Compatible other tx :=
  ⟨hsound.compatible id id' tx other hlookup hother (Ne.symm hne),
    hsound.compatible id' id other tx hother hlookup hne⟩

/-- An open transaction goes on without a new lock or a new head. -/
theorem Sound.goOn_same {tx' : Tx V} (hlock : tx'.lock = tx.lock)
    (hseeded : tx'.seeded = tx.seeded) (htx : TxSound hashed organizationId db tx') :
    Sound hashed organizationId (db.goOn id tx') := by
  refine hsound.goOn htx fun id' other hother hne => ⟨?_, ?_⟩
  · have hcompatible := hsound.compatible id id' tx other hlookup hother (Ne.symm hne)
    exact ⟨hlock ▸ hcompatible.update, hseeded ▸ hcompatible.seeded⟩
  · have hcompatible := hsound.compatible id' id other tx hother hlookup hne
    exact ⟨fun hupdate => hlock ▸ hcompatible.update hupdate,
      fun hother' => ⟨hseeded ▸ (hcompatible.seeded hother').1,
        hlock ▸ (hcompatible.seeded hother').2⟩⟩

theorem Sound.goOn_point (hpoint : PointSound hashed organizationId db tx point)
    (hstable : hashed = true → point.Stable) :
    Sound hashed organizationId (db.goOn id { tx with point := point }) := by
  have htx := hsound.tx id tx hlookup
  refine hsound.goOn_same hlookup rfl rfl
    ⟨htx.seeded, htx.locked, htx.unwritten, htx.chained, ?_, hstable⟩
  cases point <;> exact hpoint

/-! ## Seeding and locking -/

theorem Sound.insertHead (hwaits : db.insertWaits id = false)
    (hpoint : db.sees (db.insertHead tx) = true →
      PointSound hashed organizationId db { db.insertHead tx with point := point } point)
    (hstable : hashed = true → point.Stable) :
    Sound hashed organizationId (db.goOn id { db.insertHead tx with point := point }) := by
  have htx := hsound.tx id tx hlookup
  have hsees : db.sees (db.insertHead tx) = true := by
    unfold Database.sees Database.insertHead
    cases db.head <;> simp
  refine hsound.goOn ⟨fun hseeded => ?_, fun _ => hsees, htx.unwritten, htx.chained, hpoint hsees,
    hstable⟩ fun id' other hother hne => ?_
  · rcases (Bool.or_eq_true _ _).mp hseeded with hold | hnone
    · exact htx.seeded hold
    · exact isNone_iff_eq_none.mp hnone
  · obtain ⟨hcompatible, hcompatible'⟩ := hsound.compatible_both hlookup hother hne
    have hfree := not_seeded_of_insertWaits hwaits hother hne
    refine ⟨⟨hcompatible.update, fun hseeded => ⟨hfree, ?_⟩⟩, hcompatible'.update, fun hseeded => ?_⟩
    · rcases (Bool.or_eq_true _ _).mp hseeded with hold | hnone
      · exact (hcompatible.seeded hold).2
      · by_contra hlock
        have hother' := (hsound.tx id' other hother).locked hlock
        rw [Database.sees, hfree, isNone_iff_eq_none.mp hnone] at hother'
        cases hother'
    · rw [hfree] at hseeded
      cases hseeded

theorem Sound.lock {lock : Lock} (hwaits : db.lockWaits id lock = false) (hsees : db.sees tx = true)
    (htaken : tx.lock ≠ some .update ∨ lock = .update)
    (hpoint : PointSound hashed organizationId db { tx with lock := some lock, point := point } point)
    (hstable : hashed = true → point.Stable) :
    Sound hashed organizationId (db.goOn id { tx with lock := some lock, point := point }) := by
  have htx := hsound.tx id tx hlookup
  refine hsound.goOn ⟨htx.seeded, fun _ => hsees, fun hlock => ?_, fun hlock => ?_, hpoint, hstable⟩
    fun id' other hother hne => ?_
  · refine htx.unwritten fun hupdate => ?_
    rcases htaken with hfree | rfl
    · exact hfree hupdate
    · exact hlock rfl
  · by_cases hupdate : tx.lock = some .update
    · exact htx.chained hupdate
    · obtain ⟨hevents, hhead⟩ := htx.unwritten hupdate
      change Chained hashed organizationId (db.events ++ tx.events) (db.latest tx)
      rw [hevents, append_nil, Database.latest, hhead]
      exact hsound.chained
  · obtain ⟨hcompatible, hcompatible'⟩ := hsound.compatible_both hlookup hother hne
    obtain ⟨hupdate, hnone⟩ := lock_of_lockWaits hwaits hother hne
    refine ⟨⟨fun hlock => hnone (Option.some.inj hlock), hcompatible.seeded⟩,
      fun hlock => (hupdate hlock).elim, fun hseeded => ?_⟩
    -- a head that another transaction has inserted is not seen here
    have hnohead := (hsound.tx id' other hother).seeded hseeded
    rw [Database.sees, hnohead, (hcompatible'.seeded hseeded).1] at hsees
    cases hsees

/-! ## Writing and committing -/

theorem Sound.writeEvent {record : ValidRecord V} {payload : V}
    (hpoint : tx.point = .writing record payload head) (draw : Draw) :
    Sound hashed organizationId (db.writeEvent organizationId.1 id tx record payload head draw) := by
  have htx := hsound.tx id tx hlookup
  obtain ⟨hlock, rfl⟩ : tx.lock = some .update ∧ head = db.latest tx := by
    have hsound := htx.point
    rw [hpoint] at hsound
    exact hsound
  have hstable := htx.stable
  rw [hpoint] at hstable
  have hfail : ∀ error, Sound hashed organizationId (db.fail id tx error) := fun error =>
    hsound.fail id error (.inl (by rw [Database.fail, hpoint]))
  unfold Database.writeEvent
  split
  · exact hfail _
  · next stored hjsonb =>
    dsimp only
    split_ifs with hunique hmax
    · exact hfail _
    · refine hsound.goOn_same hlookup rfl rfl ⟨htx.seeded, htx.locked, fun hother => ?_,
        fun _ => ?_, trivial, fun _ => trivial⟩
      · exact (hother hlock).elim
      · have hchained := htx.chained hlock
        unfold Chained at hchained ⊢
        rw [← append_assoc, map_append]
        cases hashed with
        | false => exact HashChain.links_concat.mpr ⟨_, hchained, rfl, rfl, rfl, rfl⟩
        | true =>
          -- The hash is that of the payload in the row.
          obtain rfl := mem_unique (hstable rfl) hjsonb
          exact HashChain.links_concat.mpr ⟨_, hchained, rfl, rfl, rfl, rfl⟩
    · exact hfail _

/-- Another transaction is as sound after a commit. -/
theorem TxSound.of_apply (hother : db.transactions.lookup id' = some other) (hne : id' ≠ id) :
    TxSound hashed organizationId (db.apply id tx) other := by
  have htx := hsound.tx id tx hlookup
  have hold := hsound.tx id' other hother
  obtain ⟨hcompatible, hcompatible'⟩ := hsound.compatible_both hlookup hother hne
  by_cases hlock : other.lock = none
  · have hsees : db.sees other = true → (db.apply id tx).sees other = true := by
      unfold Database.sees Database.apply
      intro hold
      rcases (Bool.or_eq_true _ _).mp hold with hsome | hseeded
      · dsimp only
        split_ifs
        · rfl
        · rw [hsome, Bool.true_or]
      · rw [hseeded, Bool.or_true]
    refine ⟨fun hseeded => ?_, fun hsome => (hsome hlock).elim, hold.unwritten, fun hupdate => ?_, ?_,
      hold.stable⟩
    · obtain ⟨hfree, hunlocked⟩ := hcompatible'.seeded hseeded
      obtain ⟨hevents, hhead⟩ := htx.unwritten (by simp [hunlocked])
      rw [(apply_of_unwritten hevents hhead hfree).1]
      exact hold.seeded hseeded
    · rw [hlock] at hupdate
      cases hupdate
    · have hpoint := hold.point
      revert hpoint
      cases other.point with
      | seeding => exact fun hpoint hvisible => hsees (hpoint hvisible)
      | unseen => exact hsees
      | inserted => exact fun hpoint => ⟨hpoint.1, hsees hpoint.2⟩
      | reseeding => exact fun hpoint => ⟨hpoint.1, hsees hpoint.2⟩
      | selecting =>
        exact fun hpoint => ⟨hpoint.1, hpoint.2.1, hsees hpoint.2.2⟩
      | writing =>
        exact fun hpoint => (some_ne_none _ (hpoint.1.symm.trans hlock)).elim
      | reading =>
        exact fun hpoint => (some_ne_none _ (hpoint.1.symm.trans hlock)).elim
      | _ => exact fun hpoint => hpoint
  · have hseeded : tx.seeded = false := by
      by_contra hseeded
      exact hlock (hcompatible.seeded (Bool.eq_true_of_not_eq_false hseeded)).2
    have hupdate : tx.lock ≠ some .update := fun hupdate => hlock (hcompatible.update hupdate)
    obtain ⟨hevents, hhead⟩ := htx.unwritten hupdate
    obtain ⟨hhead', hevents'⟩ := @apply_of_unwritten _ _ db id tx hevents hhead hseeded
    exact hold.congr hhead' hevents'

theorem Sound.apply : Sound hashed organizationId (db.apply id tx) := by
  have htx := hsound.tx id tx hlookup
  have hopen {other : ℕ} {found : Tx V}
      (hfound : (db.apply id tx).transactions.lookup other = some found) :
      other ≠ id ∧ db.transactions.lookup other = some found := lookup_erase_cases hfound
  have hhead : (db.apply id tx).head.getD Head.seed = db.latest tx := by
    unfold Database.apply Database.latest
    cases tx.seeded <;> cases tx.head <;> rfl
  refine ⟨?_, fun other found hfound => ?_, fun other other' found found' hfound hfound' => ?_,
    fun hhashed result hresult => ?_⟩
  · rw [hhead]
    change Chained hashed organizationId (db.events ++ tx.events) (db.latest tx)
    by_cases hupdate : tx.lock = some .update
    · exact htx.chained hupdate
    · obtain ⟨hevents, hnone⟩ := htx.unwritten hupdate
      rw [hevents, append_nil, Database.latest, hnone]
      exact hsound.chained
  · exact TxSound.of_apply hsound hlookup (hopen hfound).2 (hopen hfound).1
  · exact hsound.compatible other other' found found' (hopen hfound).2 (hopen hfound').2
  · refine (hsound.verified hhashed result hresult).imp_right fun hmany => hmany.trans_le ?_
    change db.events.length ≤ (db.events ++ tx.events).length
    rw [length_append]
    exact Nat.le_add_right _ _

/-! ## Steps -/

/-- The seeding statement locks the head that it sees. -/
theorem Sound.lockForAppend (hsees : db.sees tx = true)
    (hfail : ∀ error, db.fail id tx error = db.drop id) {record : ValidRecord V}
    (hstable : hashed = true → StoredPayload.Stable record.1.payload) :
    Sound hashed organizationId (db.lockForAppend id tx record) := by
  unfold Database.lockForAppend
  split_ifs with hwaits
  · exact hsound
  · split
    · exact hsound.fail id _ (.inl (hfail _))
    · next payload hjsonb =>
      exact hsound.lock hlookup (Bool.eq_false_of_not_eq_true hwaits) hsees (.inr rfl)
        ⟨rfl, rfl⟩ fun hhashed => hstable hhashed payload hjsonb

/-- The events that an export reads are a chain up to the head it has locked. -/
theorem Sound.chained_of_reading (hpoint : tx.point = .reading head) :
    tx.events = [] ∧ Chained hashed organizationId (db.events ++ tx.events) head := by
  have htx := hsound.tx id tx hlookup
  obtain ⟨hlock, rfl⟩ : tx.lock = some .share ∧ head = db.latest tx := by
    have hsound := htx.point
    rw [hpoint] at hsound
    exact hsound
  obtain ⟨hevents, hnone⟩ := htx.unwritten (by simp [hlock])
  refine ⟨hevents, ?_⟩
  rw [hevents, append_nil, Database.latest, hnone]
  exact hsound.chained

theorem Sound.advance (draw : Draw) :
    Sound hashed organizationId (db.advance organizationId.1 id tx draw) := by
  have hpoint := (hsound.tx id tx hlookup).point
  have hstable := (hsound.tx id tx hlookup).stable
  unfold Database.advance
  split
  · exact hsound
  · next record heq =>
    rw [heq] at hstable
    split_ifs
    · exact hsound.goOn_point hlookup (fun hsees => hsees) hstable
    · exact hsound.fail id _ (.inl (by rw [Database.fail, heq]))
  · next record visible heq =>
    rw [heq] at hpoint hstable
    split_ifs with hvisible hwaits
    · exact hsound.lockForAppend hlookup (hpoint hvisible)
        (fun _ => by rw [Database.fail, heq]) hstable
    · exact hsound
    · exact hsound.insertHead hlookup (Bool.eq_false_of_not_eq_true hwaits) (fun hsees => hsees)
        hstable
  · next record heq =>
    rw [heq] at hpoint hstable
    exact hsound.goOn_point hlookup ⟨hpoint, hpoint⟩ hstable
  · next record visible heq =>
    rw [heq] at hpoint hstable
    obtain ⟨rfl, hsees⟩ := hpoint
    rw [if_pos rfl]
    exact hsound.lockForAppend hlookup hsees (fun _ => by rw [Database.fail, heq]) hstable
  · next record payload head heq => exact hsound.writeEvent hlookup heq draw
  · next purpose heq =>
    rw [heq] at hpoint hstable
    split_ifs with hwaits
    · exact hsound
    · exact hsound.insertHead hlookup (Bool.eq_false_of_not_eq_true hwaits)
        (fun hsees => ⟨hpoint, hsees⟩) fun hhashed => by cases purpose <;> exact hstable hhashed
  · next purpose heq =>
    rw [heq] at hpoint hstable
    exact hsound.goOn_point hlookup ⟨hpoint.1, hpoint.2, hpoint.2⟩
      fun hhashed => by cases purpose <;> exact hstable hhashed
  · next purpose visible heq =>
    rw [heq] at hpoint hstable
    obtain ⟨hlock, rfl, hsees⟩ := hpoint
    have hfree : tx.lock ≠ some .update := by simp [hlock]
    rw [if_neg (by decide)]
    cases purpose with
    | change =>
      dsimp only
      split_ifs with hwaits
      · exact hsound
      · exact hsound.lock hlookup (Bool.eq_false_of_not_eq_true hwaits) hsees (.inl hfree) trivial
          hstable
    | verify =>
      dsimp only
      split_ifs with hwaits
      · exact hsound
      · exact hsound.lock hlookup (Bool.eq_false_of_not_eq_true hwaits) hsees (.inl hfree)
          ⟨rfl, rfl⟩ fun _ => trivial
  · next change heq =>
    rw [heq] at hstable
    have htx := hsound.tx id tx hlookup
    exact hsound.goOn_same hlookup rfl rfl
      ⟨htx.seeded, htx.locked, htx.unwritten, htx.chained, trivial, fun hhashed => hstable hhashed _⟩
  · next head heq =>
    obtain ⟨hevents, hchained⟩ := hsound.chained_of_reading hlookup heq
    split_ifs with hmany
    · rw [hevents, append_nil] at hmany
      exact hsound.fail id _ (.inr hmany)
    · exact hsound.goOn_point hlookup hchained fun _ => trivial
  · next head events heq =>
    rw [heq] at hpoint hstable
    exact hsound.goOn_point hlookup hpoint fun _ => trivial
  · exact hsound

end Open

theorem Sound.step (event : Event V) (hstable : hashed = true → event.Stable) :
    Sound hashed organizationId (db.step organizationId event) := by
  cases event with
  | begin =>
    unfold Database.step
    dsimp only
    split
    · next point hnone hpoint =>
      unfold Call.point at hpoint
      split at hpoint
      · obtain rfl := Option.some.inj hpoint
        exact hsound.begin trivial hstable
      · split_ifs at hpoint
        obtain rfl := Option.some.inj hpoint
        exact hsound.begin rfl hstable
      · obtain rfl := Option.some.inj hpoint
        exact hsound.begin rfl hstable
      · obtain rfl := Option.some.inj hpoint
        exact hsound.begin rfl fun _ => trivial
    · exact hsound
  | advance _ draw =>
    unfold Database.step
    dsimp only
    split
    · next tx hlookup => exact hsound.advance hlookup draw
    · exact hsound
  | append =>
    unfold Database.step
    dsimp only
    split
    · next tx hlookup =>
      split
      · exact hsound.goOn_point hlookup trivial hstable
      · exact hsound
    · exact hsound
  | commit id =>
    unfold Database.step
    dsimp only
    split
    · next tx hlookup =>
      have hpoint := (hsound.tx id tx hlookup).point
      have happly := hsound.apply hlookup
      split
      · exact happly
      · next head events retention heq =>
        rw [heq] at hpoint
        refine ⟨happly.chained, fun other found hfound => ?_, happly.compatible,
          fun hhashed result hresult => ?_⟩
        · exact (happly.tx other found hfound).congr rfl rfl
        · rcases mem_append.mp hresult with hold | hnew
          · exact happly.verified hhashed result hold
          · subst hhashed
            rw [mem_singleton.mp hnew, verifyAuditChain_eq_ok hpoint]
            exact .inl ⟨_, rfl⟩
      · exact hsound
    · exact hsound
  | rollback id => exact hsound.drop id

end Keeps

/-- Every interleaving of transactions leads to a sound state, with the hashes of the rows if the
payloads are stable. -/
theorem sound_final (organizationId : OrganizationId) (events : List (Event V))
    (hstable : hashed = true → ∀ event ∈ events, event.Stable) :
    Sound hashed organizationId (History.final (Database.step organizationId) .initial events) := by
  refine History.invariant_of_mem (fun db event hmem hsound =>
    hsound.step event fun hhashed => hstable hhashed event hmem) ⟨?_, ?_, ?_, ?_⟩
  · cases hashed <;> rfl
  · intro id tx hlookup
    cases hlookup.symm.trans (AList.lookup_empty id)
  · intro id id' tx tx' hlookup
    cases hlookup.symm.trans (AList.lookup_empty id)
  · exact fun _ result hresult => (not_mem_nil hresult).elim

end McLoving.Audit
