import McLoving.Cache.Store
import McLoving.Lib.Except
import Mathlib.Data.Prod.Lex
import Mathlib.Data.String.Basic

/-!
# What the operations of a cache change

Everything but a publication only deletes entries, moves the time of an entry's last use and adds
events to the audit table that do not announce a publication.  A publication that succeeds adds one
entry and, as the last event, its announcement.
-/

namespace McLoving.Cache

open List Option Except Table AList CacheStore

/-! ## Deletions and events -/

/-- The row of an event that does not announce a publication. -/
def Unannounced (row : AuditRow) : Prop :=
  ∃ event : AuditEvent, row.eventJson = event.toJson.toBytes ∧ event.outcome ≠ .published

/-- The content of an entry with its stored size. -/
def EntryRow.measured (row : EntryRow) : List UInt8 × ℕ :=
  (row.content, row.contentBytes)

/-- A database after operations that publish nothing. -/
structure Evolves (db db' : Database) : Prop where
  metadata : db'.metadata = db.metadata
  generations : db'.runtimeGenerations = db.runtimeGenerations
  entries : ∀ key row, db'.entries.lookup key = some row →
    ∃ old, db.entries.lookup key = some old ∧ row.measured = old.measured
  events : ∃ rows, db'.auditEvents = db.auditEvents ++ rows ∧ ∀ row ∈ rows, Unannounced row

theorem Evolves.refl (db : Database) : Evolves db db :=
  ⟨rfl, rfl, fun _ row hrow => ⟨row, hrow, rfl⟩,
    ⟨[], (append_nil _).symm, fun _ hnil => absurd hnil not_mem_nil⟩⟩

theorem Evolves.trans {db db' db'' : Database} (hfst : Evolves db db') (hsnd : Evolves db' db'') :
    Evolves db db'' := by
  refine ⟨hsnd.metadata.trans hfst.metadata, hsnd.generations.trans hfst.generations, ?_, ?_⟩
  · intro key row hrow
    obtain ⟨middle, hmiddle, hcontent⟩ := hsnd.entries key row hrow
    obtain ⟨old, hold, hsame⟩ := hfst.entries key middle hmiddle
    exact ⟨old, hold, hcontent.trans hsame⟩
  · obtain ⟨first, hfirst, hfirstRows⟩ := hfst.events
    obtain ⟨second, hsecond, hsecondRows⟩ := hsnd.events
    refine ⟨first ++ second, by rw [hsecond, hfirst, append_assoc], fun row hrow => ?_⟩
    exact (mem_append.mp hrow).elim (hfirstRows row) (hsecondRows row)

/-- Only one entry is deleted. -/
theorem evolves_deleteEntry (db : Database) (keySha256 : String) :
    Evolves db (db.deleteEntry keySha256) := by
  refine ⟨rfl, rfl, fun key row hrow => ?_, (Evolves.refl db).events⟩
  obtain ⟨-, hold⟩ := lookup_erase_cases hrow
  exact ⟨row, hold, rfl⟩

/-! ## Room for an entry -/

section Room

variable {entries : Table String EntryRow} {rows evicted : List (String × EntryRow)}
variable {policy : CachePolicy} {bytes : ℕ} {candidate left right : String × EntryRow}

/-- The entries of a policy. -/
def entriesOf (entries : Table String EntryRow) (policyId : String) : List (String × EntryRow) :=
  entries.select fun _ row => row.policyId = policyId

/-- The entries without some of them. -/
def without (entries : Table String EntryRow) (rows : List (String × EntryRow)) :
    Table String EntryRow :=
  rows.foldl (fun entries row => entries.erase row.1) entries

/-- The policy has room for one more entry of a size. -/
def CachePolicy.Fits (policy : CachePolicy) (bytes : ℕ) (entries : Table String EntryRow) : Prop :=
  (entriesOf entries policy.policyId).length < policy.maxEntries ∧
    ((entriesOf entries policy.policyId).map fun row => row.2.contentBytes).sum + bytes ≤
      policy.maxTotalBytes

/-- The removed keys have no entry. -/
theorem lookup_without (key : String) : (without entries rows).lookup key =
      if key ∈ rows.map Prod.fst then none else entries.lookup key := by
  induction rows generalizing entries with
  | nil => rfl
  | cons row _ ih =>
    refine ih.trans ?_
    by_cases hkey : key = row.1
    · rw [hkey, lookup_erase, ite_self, if_pos (by simp)]
    · simp only [lookup_erase_ne hkey, map_cons, mem_cons, hkey, false_or]

variable {policyId : String}

variable (rows) in
/-- What stays was there. -/
theorem mem_of_without (hmem : left ∈ entriesOf (without entries rows) policyId) :
    left ∈ entriesOf entries policyId := by
  obtain ⟨hrow, hpolicy⟩ := mem_select.mp hmem
  rw [lookup_without] at hrow
  split_ifs at hrow
  exact mem_select.mpr ⟨hrow, hpolicy⟩

/-- By what entries are ordered for eviction. -/
def evictionKey (row : String × EntryRow) : ℕ ×ₗ ℤ ×ₗ String :=
  toLex (row.2.lastAccessSequence, toLex (row.2.createdAtUnixMs, row.1))

/-- The order of eviction is that of the keys. -/
theorem evictsBefore_iff :
    CacheStore.evictsBefore left right = true ↔ evictionKey left ≤ evictionKey right := by
  unfold evictsBefore evictionKey
  rw [Prod.Lex.toLex_le_toLex, Prod.Lex.toLex_le_toLex]
  split_ifs with haccess hcreated
  · simp [haccess]
  · simp only [ne_eq, not_not] at haccess
    simp [haccess, hcreated]
  · simp only [ne_eq, not_not] at haccess hcreated
    simp [haccess, hcreated]

/-- The first of a policy's entries in the order of eviction. -/
theorem leastRecentlyUsed_eq_some {db : Database}
    (hleast : CacheStore.leastRecentlyUsed db policyId = some candidate) :
    candidate ∈ entriesOf db.entries policyId ∧ ∀ other ∈ entriesOf db.entries policyId,
      CacheStore.evictsBefore candidate other = true := by
  have htotal : Std.Total fun left right => evictsBefore left right = true :=
    ⟨fun left right => by
      simpa only [evictsBefore_iff] using le_total (evictionKey left) (evictionKey right)⟩
  have htrans : IsTrans _ fun left right => evictsBefore left right = true :=
    ⟨fun _ _ _ hleft hright => by
      rw [evictsBefore_iff] at hleft hright ⊢
      exact hleft.trans hright⟩
  exact head?_insertionSort hleast

/-- The evicted entries of a policy are the shortest initial part, in the order of eviction, without
which there is room. -/
structure MakesRoom (policy : CachePolicy) (bytes : ℕ) (entries : Table String EntryRow)
    (evicted : List (String × EntryRow)) : Prop where
  mem : ∀ row ∈ evicted, row ∈ entriesOf entries policy.policyId
  ordered : evicted.Pairwise fun left right => CacheStore.evictsBefore left right = true
  first : ∀ row ∈ evicted, ∀ other ∈ entriesOf (without entries evicted) policy.policyId,
    CacheStore.evictsBefore row other = true
  fits : policy.Fits bytes (without entries evicted)
  shortest : ∀ n < evicted.length, ¬ policy.Fits bytes (without entries (evicted.take n))

/-- Room is made by one eviction after another. -/
theorem MakesRoom.cons (hmem : candidate ∈ entriesOf entries policy.policyId)
    (hleast : ∀ other ∈ entriesOf entries policy.policyId,
      CacheStore.evictsBefore candidate other = true) (hfull : ¬ policy.Fits bytes entries)
    (hroom : MakesRoom policy bytes (entries.erase candidate.1) evicted) :
    MakesRoom policy bytes entries (candidate :: evicted) := by
  have hold {row : String × EntryRow}
      (hrow : row ∈ entriesOf (entries.erase candidate.1) policy.policyId) :
      row ∈ entriesOf entries policy.policyId :=
    mem_of_without [candidate] hrow
  refine ⟨?_, ?_, ?_, hroom.fits, ?_⟩
  · rintro row (_ | ⟨_, hrow⟩)
    · exact hmem
    · exact hold (hroom.mem row hrow)
  · exact pairwise_cons.mpr ⟨fun row hrow => hleast row (hold (hroom.mem row hrow)), hroom.ordered⟩
  · rintro row (_ | ⟨_, hrow⟩) other hother
    · exact hleast other (mem_of_without (candidate :: evicted) hother)
    · exact hroom.first row hrow other hother
  · intro n hn
    cases n with
    | zero => exact hfull
    | succ n => exact hroom.shortest n (Nat.lt_of_succ_lt_succ hn)

end Room

section Effects

variable [CachePlatform] {store : CacheStore} {db db' : Database} {callerId keySha256 : String}

/-! ## Receipts -/

variable {details : ReceiptDetails} {receipt : CacheReceipt} {admitted : AdmittedKey} {now : ℤ}
variable {progress progress' : List CacheReceipt × Database} {content : List UInt8}

variable {subject : ReceiptSubject} {stored : EntryRow} {operation : CacheOperation}
variable {result : PublishResult} {callerTrustClass : String} {request : CacheKeyRequest}

/-- The row that a receipt adds. -/
theorem appendSubjectReceipt_eq_ok
    (hok : store.appendSubjectReceipt db callerId subject details = .ok (receipt, db')) :
    ∃ row, db' = { db with auditEvents := db.auditEvents ++ [row] } ∧
      row.eventJson = (store.auditEvent db callerId subject details).toJson.toBytes := by
  unfold appendSubjectReceipt at hok
  dsimp only at hok
  split_ifs at hok
  obtain ⟨-, rfl⟩ := Prod.mk.inj (ok.inj hok)
  exact ⟨_, rfl, rfl⟩

/-- A receipt that announces nothing. -/
theorem evolves_appendSubjectReceipt (houtcome : details.outcome ≠ .published)
    (hok : store.appendSubjectReceipt db callerId subject details = .ok (receipt, db')) :
    Evolves db db' ∧ db'.entries = db.entries := by
  obtain ⟨row, rfl, hjson⟩ := appendSubjectReceipt_eq_ok hok
  refine ⟨⟨rfl, rfl, (Evolves.refl db).entries, [row], rfl, fun other hother => ?_⟩, rfl⟩
  rw [mem_singleton.mp hother]
  exact ⟨_, hjson, houtcome⟩

theorem evolves_appendReceipt (houtcome : details.outcome ≠ .published)
    (hok : store.appendReceipt db callerId admitted details = .ok (receipt, db')) :
    Evolves db db' ∧ db'.entries = db.entries :=
  evolves_appendSubjectReceipt houtcome hok

theorem evolves_appendStoredReceipt (houtcome : details.outcome ≠ .published)
    (hok : store.appendStoredReceipt db callerId keySha256 stored details = .ok (receipt, db')) :
    Evolves db db' ∧ db'.entries = db.entries := by
  unfold appendStoredReceipt at hok
  split at hok
  · cases hok
  · rw [ite_throw_bind_eq_ok] at hok
    obtain ⟨-, hok⟩ := hok
    obtain ⟨publicationMatches, -, hok⟩ := bind_eq_ok.mp hok
    refine evolves_appendSubjectReceipt ?_ hok
    split_ifs
    · exact houtcome
    · exact CacheOutcome.noConfusion

/-! ## Evictions -/

omit [CachePlatform] in
theorem staleOutcome_ne_published (store : CacheStore) (stored : EntryRow) (now : ℤ) :
    store.staleOutcome stored now ≠ .published := by
  unfold staleOutcome
  split_ifs <;> exact CacheOutcome.noConfusion

/-- A retired entry is deleted, with a receipt. -/
theorem evolves_retire {candidate : String × EntryRow}
    (hok : store.retire operation callerId now progress candidate = .ok progress') :
    Evolves progress.2 progress'.2 ∧
      progress'.2.entries = progress.2.entries.erase candidate.1 := by
  unfold retire at hok
  obtain ⟨⟨receipt, db'⟩, happend, hok⟩ := bind_eq_ok.mp hok
  cases hok
  obtain ⟨hevolves, hentries⟩ :=
    evolves_appendStoredReceipt (staleOutcome_ne_published _ _ _) happend
  exact ⟨(evolves_deleteEntry _ _).trans hevolves, hentries⟩

theorem evolves_retireAll {candidates : List (String × EntryRow)}
    (hok : candidates.foldlM (store.retire operation callerId now) progress = .ok progress') :
    Evolves progress.2 progress'.2 ∧
      progress'.2.entries = without progress.2.entries candidates := by
  induction candidates generalizing progress with
  | nil =>
    cases hok
    exact ⟨.refl _, rfl⟩
  | cons _ _ ih =>
    rw [foldlM_cons] at hok
    obtain ⟨middle, hretire, hrest⟩ := bind_eq_ok.mp hok
    obtain ⟨hfst, hmiddle⟩ := evolves_retire hretire
    obtain ⟨hsnd, hentries⟩ := ih hrest
    exact ⟨hfst.trans hsnd, by rw [hentries, hmiddle, without, without, foldl_cons]⟩

/-- The loop of `evict_to_fit` retires what makes room. -/
theorem evictToFit_eq_ok {incomingBytes room : ℕ}
    (hok : store.evictToFit callerId admitted incomingBytes now room progress = .ok progress') :
    ∃ evicted, evicted.foldlM (store.retire .evict callerId now) progress = .ok progress' ∧
      MakesRoom admitted.policy incomingBytes progress.2.entries evicted := by
  have hdone {progress : List CacheReceipt × Database}
      (hfits : admitted.policy.Fits incomingBytes progress.2.entries) :
      MakesRoom admitted.policy incomingBytes progress.2.entries [] :=
    ⟨fun _ hnil => absurd hnil not_mem_nil, .nil,
      fun _ hnil => absurd hnil not_mem_nil, hfits, fun n hn => absurd hn n.not_lt_zero⟩
  induction room generalizing progress with
  | zero =>
    unfold evictToFit at hok
    dsimp only at hok
    split_ifs at hok with _ hfits
    rw [Bool.and_eq_true, decide_eq_true_eq, decide_eq_true_eq] at hfits
    exact ⟨[], hok, hdone hfits⟩
  | succ _ ih =>
    unfold evictToFit at hok
    dsimp only at hok
    split_ifs at hok with _ hfits
    · rw [Bool.and_eq_true, decide_eq_true_eq, decide_eq_true_eq] at hfits
      exact ⟨[], hok, hdone hfits⟩
    · rw [Bool.and_eq_true, decide_eq_true_eq, decide_eq_true_eq] at hfits
      split at hok
      · cases hok
      next candidate hleast =>
      obtain ⟨middle, hretire, hrest⟩ := bind_eq_ok.mp hok
      obtain ⟨evicted, hevicted, hroom⟩ := ih hrest
      obtain ⟨hmem, hbefore⟩ := leastRecentlyUsed_eq_some hleast
      refine ⟨candidate :: evicted, ?_, .cons hmem hbefore hfits ?_⟩
      · rw [foldlM_cons, hretire]
        exact hevicted
      · rwa [← (evolves_retire hretire).2]

/-! ## Comparisons -/

/-- The publication event that an entry refers to, as far as it is used. -/
structure Referred (store : CacheStore) (db : Database) (stored : EntryRow) (admitted : AdmittedKey)
    (row : AuditRow) (event : AuditEvent) : Prop where
  mem : row ∈ db.auditEvents
  json : event.toJson.toBytes = row.eventJson
  outcome : event.outcome = .published
  caller : event.callerId ∈ admitted.policy.writePrincipals
  configuration : event.configurationSha256 = store.configurationSha256
  key : event.keySha256 = admitted.keySha256
  content : event.contentSha256 = some stored.contentSha256
  observed : event.observedAtUnixMs = stored.createdAtUnixMs
  expires : stored.expiresAtUnixMs = stored.createdAtUnixMs + admitted.policy.ttlMs

/-- An entry that matches refers to its announcement. -/
theorem entryMatches_eq_true (hok : store.entryMatches db stored admitted = .ok true) :
    stored.policyId = admitted.policy.policyId ∧
      ∃ row event, Referred store db stored admitted row event := by
  unfold entryMatches at hok
  obtain ⟨ttl, httl, hok⟩ := bind_eq_ok.mp hok
  rw [ite_throw_bind_eq_ok] at hok
  obtain ⟨-, hok⟩ := hok
  have httl : (admitted.policy.ttlMs : ℤ) = ttl := by
    unfold toI64 at httl
    split_ifs at httl
    exact ok.inj httl
  subst httl
  split_ifs at hok with hfields
  · cases hok
  · simp only [Bool.or_eq_true, decide_eq_true_eq, not_or, ne_eq, not_not] at hfields
    split at hok
    · cases hok
    · next row hrow =>
      split at hok
      · cases hok
      · next event hevent =>
        have hmatches := ok.inj hok
        simp only [publicationMatches, Bool.and_eq_true, decide_eq_true_eq] at hmatches
        exact ⟨by tauto, row, event, mem_of_find?_eq_some hrow, by tauto, by tauto, by tauto,
          by tauto,
          by tauto, by tauto, by tauto, by tauto⟩

/-! ## Publications -/

/-- An event that announces the publication of a content. -/
structure Announces (store : CacheStore) (callerId : String) (admitted : AdmittedKey)
    (content : List UInt8) (now : ℤ) (event : AuditEvent) : Prop where
  callerId : event.callerId = callerId
  configuration : event.configurationSha256 = store.configurationSha256
  key : event.keySha256 = admitted.keySha256
  content : event.contentSha256 = some (sha256 content)
  observed : event.observedAtUnixMs = now

/-- A database after a publication. -/
structure Inserts (store : CacheStore) (callerId : String) (admitted : AdmittedKey)
    (content : List UInt8) (now : ℤ) (db db' : Database) : Prop where
  metadata : db'.metadata = db.metadata
  generations : db'.runtimeGenerations = db.runtimeGenerations
  entries : ∀ key row, db'.entries.lookup key = some row →
    key = admitted.keySha256 ∧ row.measured = (content, content.length) ∨ key ≠ admitted.keySha256 ∧
        ∃ old, db.entries.lookup key = some old ∧ row.measured = old.measured
  events : ∃ rows row event, db'.auditEvents = db.auditEvents ++ rows ++ [row] ∧
    (∀ row ∈ rows, Unannounced row) ∧ row.eventJson = event.toJson.toBytes ∧
    Announces store callerId admitted content now event

/-- A publication may follow other changes. -/
theorem Inserts.of_evolves {db'' : Database} (hevolves : Evolves db db')
    (hinserts : Inserts store callerId admitted content now db' db'') :
    Inserts store callerId admitted content now db db'' := by
  refine ⟨hinserts.metadata.trans hevolves.metadata,
    hinserts.generations.trans hevolves.generations, ?_, ?_⟩
  · intro key row hrow
    refine (hinserts.entries key row hrow).imp_right ?_
    rintro ⟨hne, middle, hmiddle, hcontent⟩
    obtain ⟨old, hold, hsame⟩ := hevolves.entries key middle hmiddle
    exact ⟨hne, old, hold, hcontent.trans hsame⟩
  · obtain ⟨first, hfirst, hfirstRows⟩ := hevolves.events
    obtain ⟨rows, row, event, hevents, hrows, hjson, hannounces⟩ := hinserts.events
    refine ⟨first ++ rows, row, event, ?_, fun other hother => ?_, hjson, hannounces⟩
    · rw [hevents, hfirst, append_assoc db.auditEvents]
    · exact (mem_append.mp hother).elim (hfirstRows other) (hrows other)

/-- How the entries change when one is inserted: stale ones of its policy go in the order of their
keys, as many as the limit allows, and then what makes room. -/
structure Refills (store : CacheStore) (admitted : AdmittedKey) (content : List UInt8) (now : ℤ)
    (limit : ℕ) (entries entries' : Table String EntryRow)
    (stale evicted : List (String × EntryRow)) :
    Prop where
  stale_eq : stale = ((entries.select fun _ row => row.policyId = admitted.policy.policyId &&
    store.isStale row now).insertionSort fun left right => left.1 ≤ right.1).take limit
  room : MakesRoom admitted.policy content.length (without entries stale) evicted
  fresh : (without entries (stale ++ evicted)).lookup admitted.keySha256 = none
  inserted : ∃ row : EntryRow, row.policyId = admitted.policy.policyId ∧ row.content = content ∧
    row.contentBytes = content.length ∧
    entries' = (without entries (stale ++ evicted)).insert admitted.keySha256 row

/-- A new entry, after room was made for it. -/
theorem insertEntry_eq_ok {expiresAt : ℤ} {receipts : List CacheReceipt}
    (hok : store.insertEntry db callerId admitted content now expiresAt receipts =
      .ok (result, db')) :
    result.status = .published ∧ Inserts store callerId admitted content now db db' ∧
      ∃ stale evicted, Refills store admitted content now
        (store.config.maxCleanupRows - receipts.length) db.entries db'.entries stale evicted := by
  unfold insertEntry at hok
  obtain ⟨progress, hstale, hok⟩ := bind_eq_ok.mp hok
  obtain ⟨⟨receipts', fitted⟩, hfit, hok⟩ := bind_eq_ok.mp hok
  obtain ⟨-, -, hok⟩ := bind_eq_ok.mp hok
  obtain ⟨-, -, hok⟩ := bind_eq_ok.mp hok
  rw [ite_throw_bind_eq_ok] at hok
  obtain ⟨hfresh, hok⟩ := hok
  obtain ⟨⟨receipt, written⟩, happend, hok⟩ := bind_eq_ok.mp hok
  obtain ⟨-, -, hok⟩ := bind_eq_ok.mp hok
  cases hok
  obtain ⟨row, rfl, hjson⟩ := appendSubjectReceipt_eq_ok happend
  obtain ⟨evicted, hevicted, hroom⟩ := evictToFit_eq_ok hfit
  obtain ⟨hfst, hmiddle⟩ := evolves_retireAll hstale
  obtain ⟨hsnd, hentries⟩ := evolves_retireAll hevicted
  rw [Bool.not_eq_true, isSome_eq_false_iff, isNone_iff_eq_none] at hfresh
  rw [hmiddle] at hroom hentries
  dsimp only at hentries
  rw [without, without, ← foldl_append] at hentries
  refine ⟨rfl, .of_evolves (hfst.trans hsnd) ⟨rfl, rfl, ?_, ?_⟩, _, evicted, rfl, hroom,
    (congrArg (AList.lookup admitted.keySha256) hentries).symm.trans hfresh, ?_⟩
  · intro key other hother
    by_cases hkey : key = admitted.keySha256
    · subst hkey
      simp only [lookup_modify, lookup_insert] at hother
      obtain rfl := Option.some.inj hother
      exact .inl ⟨rfl, rfl⟩
    · simp only [lookup_modify, if_neg hkey, lookup_insert_ne hkey] at hother
      exact .inr ⟨hkey, other, hother, rfl⟩
  · exact ⟨[], row, _, by rw [append_nil], fun _ hnil => absurd hnil not_mem_nil, hjson,
      ⟨rfl, rfl, rfl, rfl, rfl⟩⟩
  · dsimp only
    rw [modify_insert hfresh, hentries]
    exact ⟨_, rfl, rfl, rfl, rfl⟩

/-- The previous entry of a key goes once it has expired. -/
def Expires (admitted : AdmittedKey) (now : ℤ) (entries : Table String EntryRow)
    (expired : List (String × EntryRow)) : Prop :=
  expired = [] ∧ entries.lookup admitted.keySha256 = none ∨
    ∃ stored, expired = [(admitted.keySha256, stored)] ∧
      entries.lookup admitted.keySha256 = some stored ∧
      stored.policyId = admitted.policy.policyId ∧ stored.expiresAtUnixMs ≤ now

/-- What a publish that answers does: it was admitted on the active generation, and it publishes, or
it answers otherwise and only a corrupt entry goes. -/
theorem publish_eq_ok
    (hok : store.publish db now callerId callerTrustClass request content = .ok (result, db')) :
    ∃ admitted, store.admitRequest callerId callerTrustClass request true = .ok admitted ∧
      store.assertActiveGeneration db = .ok () ∧
      (result.status = .published ∧ Inserts store callerId admitted content now db db' ∧
          (∃ expired stale evicted, Expires admitted now db.entries expired ∧
            Refills store admitted content now (store.config.maxCleanupRows - expired.length)
              (without db.entries expired) db'.entries stale evicted) ∨
        result.status ≠ .published ∧ Evolves db db' ∧
          (result.status ≠ .corruptRejected → db'.entries = db.entries)) := by
  unfold publish at hok
  obtain ⟨admitted, hadmits, hok⟩ := bind_eq_ok.mp hok
  rw [ite_throw_bind_eq_ok] at hok
  obtain ⟨-, hok⟩ := hok
  obtain ⟨hactive, hok⟩ := unit_bind_eq_ok.mp hok
  obtain ⟨ttl, -, hok⟩ := bind_eq_ok.mp hok
  rw [ite_throw_bind_eq_ok] at hok
  obtain ⟨-, hok⟩ := hok
  refine ⟨admitted, hadmits, hactive, ?_⟩
  split at hok
  · next hnone =>
    obtain ⟨hstatus, hinserts, hrefills⟩ := insertEntry_eq_ok hok
    exact .inl ⟨hstatus, hinserts, [], hrefills.imp fun _ hrest => hrest.imp fun _ hrefills =>
      ⟨.inl ⟨rfl, hnone⟩, hrefills⟩⟩
  · next stored hstored =>
    obtain ⟨entryMatches, hmatches, hok⟩ := bind_eq_ok.mp hok
    split_ifs at hok with hcorrupt hexpired
    · obtain ⟨⟨receipt, written⟩, happend, hok⟩ := bind_eq_ok.mp hok
      cases hok
      refine .inr ⟨PublishStatus.noConfusion, ?_, fun hne => absurd rfl hne⟩
      exact (evolves_deleteEntry _ _).trans
        (evolves_appendStoredReceipt CacheOutcome.noConfusion happend).1
    · obtain ⟨⟨receipt, written⟩, happend, hok⟩ := bind_eq_ok.mp hok
      obtain ⟨hevolves, hentries⟩ := evolves_appendStoredReceipt CacheOutcome.noConfusion happend
      obtain ⟨hstatus, hinserts, stale, evicted, hrefills⟩ := insertEntry_eq_ok hok
      rw [hentries] at hrefills
      simp only [Bool.or_eq_true, Bool.not_eq_true', not_or, Bool.not_eq_false] at hcorrupt
      obtain rfl := hcorrupt.1
      exact .inl ⟨hstatus, .of_evolves ((evolves_deleteEntry _ _).trans hevolves) hinserts,
        [(admitted.keySha256, stored)], stale, evicted, .inr ⟨stored, rfl, hstored,
          (entryMatches_eq_true hmatches).1, hexpired⟩, hrefills⟩
    · obtain ⟨⟨receipt, written⟩, happend, hok⟩ := bind_eq_ok.mp hok
      cases hok
      have hanswer : (answerPublication stored content).1 ≠ .published ∧
          (answerPublication stored content).2 ≠ .published := by
        unfold answerPublication
        split_ifs
        · exact ⟨PublishStatus.noConfusion, CacheOutcome.noConfusion⟩
        · exact ⟨PublishStatus.noConfusion, CacheOutcome.noConfusion⟩
      obtain ⟨hevolves, hentries⟩ := evolves_appendReceipt hanswer.2 happend
      exact .inr ⟨hanswer.1, hevolves, fun _ => hentries⟩

/-! ## Reads -/

/-- What a read that answers does: it was admitted on the active generation, and a hit returns the
content of an entry that passed all comparisons and has not expired. -/
theorem read_eq_ok {result : ReadResult}
    (hok : store.read db now callerId callerTrustClass request = .ok (result, db')) :
    ∃ admitted, store.admitRequest callerId callerTrustClass request false = .ok admitted ∧
      store.assertActiveGeneration db = .ok () ∧ Evolves db db' ∧
      (result.content ≠ none → result.status = .hit) ∧
      (result.status = .hit → ∃ stored, db.entries.lookup admitted.keySha256 = some stored ∧
        store.entryMatches db stored admitted = .ok true ∧
        CacheStore.storedContentMatches stored = true ∧ now < stored.expiresAtUnixMs ∧
        result.content = some stored.content) := by
  unfold CacheStore.read at hok
  obtain ⟨admitted, hadmits, hok⟩ := bind_eq_ok.mp hok
  obtain ⟨hactive, hok⟩ := unit_bind_eq_ok.mp hok
  refine ⟨admitted, hadmits, hactive, ?_⟩
  split at hok
  · obtain ⟨⟨receipt, written⟩, happend, hok⟩ := bind_eq_ok.mp hok
    cases hok
    exact ⟨(evolves_appendReceipt CacheOutcome.noConfusion happend).1,
      fun hne => absurd rfl hne, ReadStatus.noConfusion⟩
  · next stored hstored =>
    obtain ⟨entryMatches, hmatches, hok⟩ := bind_eq_ok.mp hok
    split_ifs at hok with hcorrupt hexpired
    · obtain ⟨⟨receipt, written⟩, happend, hok⟩ := bind_eq_ok.mp hok
      cases hok
      refine ⟨?_, fun hne => absurd rfl hne, ReadStatus.noConfusion⟩
      exact (evolves_deleteEntry _ _).trans
        (evolves_appendStoredReceipt CacheOutcome.noConfusion happend).1
    · obtain ⟨⟨expired, deleted⟩, hdelete, hok⟩ := bind_eq_ok.mp hok
      obtain ⟨⟨miss, written⟩, happend, hok⟩ := bind_eq_ok.mp hok
      cases hok
      refine ⟨?_, fun hne => absurd rfl hne, ReadStatus.noConfusion⟩
      exact ((evolves_deleteEntry _ _).trans
        (evolves_appendStoredReceipt CacheOutcome.noConfusion hdelete).1).trans
        (evolves_appendReceipt CacheOutcome.noConfusion happend).1
    · obtain ⟨⟨receipt, written⟩, happend, hok⟩ := bind_eq_ok.mp hok
      obtain ⟨-, -, hok⟩ := bind_eq_ok.mp hok
      cases hok
      have hevolves := (evolves_appendReceipt CacheOutcome.noConfusion happend).1
      simp only [Bool.or_eq_true, Bool.not_eq_true', not_or, Bool.not_eq_false] at hcorrupt
      obtain rfl := hcorrupt.1
      refine ⟨hevolves.trans ⟨rfl, rfl, fun key row hrow => ?_, (Evolves.refl _).events⟩,
        fun _ => rfl, fun _ => ⟨stored, hstored, hmatches, hcorrupt.2, not_le.mp hexpired, rfl⟩⟩
      simp only [lookup_modify] at hrow
      split_ifs at hrow with hkey
      · obtain ⟨old, hold, rfl⟩ := map_eq_some_iff.mp hrow
        exact ⟨old, hkey ▸ hold, rfl⟩
      · exact ⟨row, hrow, rfl⟩

/-- A cleanup is made by the active generation. -/
theorem cleanup_eq_ok {result : CleanupResult}
    (hok : store.cleanup db now callerId = .ok (result, db')) :
    store.assertActiveGeneration db = .ok () ∧ Evolves db db' := by
  unfold cleanup at hok
  rw [ite_throw_bind_eq_ok] at hok
  obtain ⟨hactive, hok⟩ := unit_bind_eq_ok.mp hok.2
  obtain ⟨progress, hretire, hok⟩ := bind_eq_ok.mp hok
  obtain ⟨-, rfl⟩ := Prod.mk.inj (ok.inj hok)
  exact ⟨hactive, (evolves_retireAll hretire).1⟩

end Effects

end McLoving.Cache
