import McLoving.Cache.Runs

/-!
# Quotas and eviction

A publication keeps its policy within the quotas and removes no more than that takes.
-/

namespace McLoving.Cache

open List Table Except CacheStore

section Quota

variable {entries entries' : Table String EntryRow} {expired stale evicted : List (String × EntryRow)}

theorem without_append (first second : List (String × EntryRow)) :
    without entries (first ++ second) = without (without entries first) second :=
  foldl_append

variable {store : CacheStore} {admitted : AdmittedKey} {content : List UInt8} {now : ℤ} {limit : ℕ}

theorem Refills.quota
    (hrefills : Refills store admitted content now limit entries entries' stale evicted) :
    (entriesOf entries' admitted.policy.policyId).length ≤ admitted.policy.maxEntries ∧
      ((entriesOf entries' admitted.policy.policyId).map fun row => row.2.contentBytes).sum ≤
        admitted.policy.maxTotalBytes := by
  obtain ⟨hcount, hbytes⟩ := hrefills.room.fits
  rw [← without_append] at hcount hbytes
  obtain ⟨row, hpolicy, -, hlength, rfl⟩ := hrefills.inserted
  have hselect : entriesOf (AList.insert admitted.keySha256 row (without entries (stale ++ evicted)))
      admitted.policy.policyId = (admitted.keySha256, row) ::
        entriesOf (without entries (stale ++ evicted)) admitted.policy.policyId :=
    (select_insert _ hrefills.fresh).trans (if_pos (decide_eq_true hpolicy))
  rw [hselect, length_cons, map_cons, sum_cons, hlength, Nat.add_comm content.length]
  exact ⟨hcount, hbytes⟩

theorem Refills.mem (hrefills : Refills store admitted content now limit (without entries expired)
      entries' stale evicted) (hexpires : Expires admitted now entries expired) {key : String}
    {row : EntryRow} (hmem : (key, row) ∈ expired ++ (stale ++ evicted)) :
    (key, row) ∈ entriesOf entries admitted.policy.policyId := by
  rcases mem_append.mp hmem with hexpired | hmem
  · obtain ⟨rfl, -⟩ | ⟨stored, rfl, hlookup, hpolicy, -⟩ := hexpires
    · cases hexpired
    · obtain ⟨rfl, rfl⟩ := Prod.mk.inj (mem_singleton.mp hexpired)
      exact mem_select.mpr ⟨hlookup, decide_eq_true hpolicy⟩
  · refine mem_of_without expired ?_
    rcases mem_append.mp hmem with hstale | hevicted
    · rw [hrefills.stale_eq] at hstale
      have hselected := (mem_insertionSort _).mp (mem_of_mem_take hstale)
      obtain ⟨hlookup, hpolicy⟩ := mem_select.mp hselected
      exact mem_select.mpr ⟨hlookup, ((Bool.and_eq_true _ _).mp hpolicy).1⟩
    · exact mem_of_without _ (hrefills.room.mem _ hevicted)

/-- A publish that answers `Published` leaves its policy within the quotas and removes the expired
entry of its key, stale entries and what makes room; one that fails changes nothing. -/
theorem quota_and_eviction_are_exact [CachePlatform] (s : System) {handle : ℕ}
    (hhandle : s.handles[handle]? = some store) (now : ℤ) (callerId callerTrustClass : String)
    (request : CacheKeyRequest) (content : List UInt8) : (∀ error,
      store.publish s.database now callerId callerTrustClass request content = .error error →
      s.step (.publish handle now callerId callerTrustClass request content) = s) ∧
    ∀ result db',
      store.publish s.database now callerId callerTrustClass request content = .ok (result, db') →
      result.status = .published →
      (s.step (.publish handle now callerId callerTrustClass request content)).database = db' ∧
      ∃ admitted, store.admitRequest callerId callerTrustClass request true = .ok admitted ∧
        -- the quotas
        (entriesOf db'.entries admitted.policy.policyId).length ≤ admitted.policy.maxEntries ∧
        ((entriesOf db'.entries admitted.policy.policyId).map fun row => row.2.contentBytes).sum ≤
          admitted.policy.maxTotalBytes ∧
        -- what is removed and why
        ∃ expired stale evicted, Expires admitted now s.database.entries expired ∧
          Refills store admitted content now (store.config.maxCleanupRows - expired.length)
            (without s.database.entries expired) db'.entries stale evicted ∧
          (∀ key row, (key, row) ∈ expired ++ (stale ++ evicted) →
            s.database.entries.lookup key = some row ∧ row.policyId = admitted.policy.policyId) ∧
          -- everything else stays
          ∀ key ≠ admitted.keySha256, db'.entries.lookup key =
            if key ∈ (expired ++ (stale ++ evicted)).map Prod.fst then none
            else s.database.entries.lookup key := by
  refine ⟨fun error herror => ?_, fun result db' hok hstatus => ⟨?_, ?_⟩⟩
  · rw [System.step, hhandle]
    dsimp only
    rw [herror]
  · rw [System.step, hhandle]
    dsimp only
    rw [hok]
  · obtain ⟨admitted, hadmits, -, ⟨-, -, expired, stale, evicted, hexpires, hrefills⟩ | ⟨hne, -⟩⟩ :=
      publish_eq_ok hok
    · refine ⟨admitted, hadmits, hrefills.quota.1, hrefills.quota.2, expired, stale, evicted,
        hexpires, hrefills, fun key row hmem => ?_, fun key hne => ?_⟩
      · obtain ⟨hlookup, hpolicy⟩ := mem_select.mp (hrefills.mem hexpires hmem)
        exact ⟨hlookup, of_decide_eq_true hpolicy⟩
      · obtain ⟨row, -, -, -, hentries⟩ := hrefills.inserted
        rw [hentries, AList.lookup_insert_ne hne, ← without_append, lookup_without]
    · exact absurd hstatus hne

/-! ### Stored sizes -/

/-- The stored size of every entry is the length of its content. -/
def Measured (entries : Table String EntryRow) : Prop :=
  ∀ key row, entries.lookup key = some row → row.contentBytes = row.content.length

theorem Does.measured [CachePlatform] {s s' : System} {event : Event} (hdoes : Does s event s')
    (hcall : event.isCall = true) (hmeasured : Measured s.database.entries) :
    Measured s'.database.entries := by
  intro key row hrow
  have hkept {old : EntryRow} (hold : s.database.entries.lookup key = some old)
      (hsame : row.measured = old.measured) : row.contentBytes = row.content.length := by
    obtain ⟨hcontent, hbytes⟩ := Prod.mk.inj hsame
    rw [hcontent, hbytes, hmeasured key old hold]
  cases hdoes with
  | stays => exact hmeasured key row hrow
  | opens =>
    rw [(openWithClock_tables _ _ _ _).1] at hrow
    exact hmeasured key row hrow
  | evolves _ _ hevolves =>
    obtain ⟨old, hold, hsame⟩ := hevolves.entries key row hrow
    exact hkept hold hsame
  | publishes _ _ _ hinserts =>
    rcases hinserts.entries key row hrow with ⟨-, hsame⟩ | ⟨-, old, hold, hsame⟩
    · obtain ⟨hcontent, hbytes⟩ := Prod.mk.inj hsame
      rw [hcontent, hbytes]
    · exact hkept hold hsame
  | rewrites => cases hcall

/-- Where nobody else rewrites the entries, the bytes that a quota counts are those of the contents
in the cache. -/
theorem contentBytes_eq_length_after [CachePlatform] (events : List Event)
    (hcalls : ∀ event ∈ events, event.isCall = true) (policyId : String) :
    (entriesOf (System.after events).database.entries policyId).map (fun row => row.2.contentBytes) =
      (entriesOf (System.after events).database.entries policyId).map
        fun row => row.2.content.length := by
  have hinitial : Measured System.initial.database.entries := fun key row hnone => by cases hnone
  have hmeasured : Measured (System.after events).database.entries :=
    History.invariant_of_mem (fun s event hmem =>
      (does_step s event).measured (hcalls event hmem)) hinitial
  exact map_congr_left fun row hmem => hmeasured row.1 row.2 (mem_select.mp hmem).1

end Quota

attribute [local instance] Sample.cachePlatform

namespace Sample

theorem admit_second : store.admitRequest "writer" "trusted" secondRequest
    true = .ok (admittedKey secondRequest fourDigest) := by
  rw [admit_eq (.inl rfl) (.inr rfl), keyDigest_second]

/-- The event of the eviction of the first entry at time 110. -/
def eviction : AuditEvent :=
  { announcement with
    operation := .evict
    outcome := .evicted
    observedAtUnixMs := 110
    previousEventSha256 := oneDigest }

theorem eventDigest_eviction : eventDigest eviction.toJson.toBytes = zeroDigest := by
  apply eventDigest_of_ne <;>
    exact fun hsame => absurd (congrArg AuditEvent.outcome hsame) CacheOutcome.noConfusion

/-- The database without the first entry, after the eviction is recorded. -/
def emptied (database : Database) (eventJson : List UInt8) : Database :=
  { database.deleteEntry zeroDigest with
    auditEvents := [⟨eventJson, oneDigest, ""⟩, ⟨eviction.toJson.toBytes, zeroDigest, ""⟩] }

section Second

variable {database : Database} {eventJson : List UInt8}
  (hjson : eventJson = announcement.toJson.toBytes)
  (hevents : database.auditEvents = [⟨eventJson, oneDigest, ""⟩])
include hjson hevents

theorem storedPublicationMatches_sample :
    store.storedPublicationMatches database entry (canonical request)
      zeroDigest zeroDigest = .ok true := by
  have hdigest : eventDigest eventJson = oneDigest := by
    rw [hjson, eventDigest_announcement]
  have hread : cachePlatform.readEvent eventJson = some announcement := if_pos hjson
  have hcandidate : store.authenticatePublicationCandidate
      ⟨eventJson, oneDigest, ""⟩ (canonical request) zeroDigest zeroDigest =
        some (announcement, oneDigest) := by
    unfold authenticatePublicationCandidate
    rw [hread, Option.bind_eq_bind, Option.bind_some, if_neg, GenerationBinding.toJson,
      canonicalDigest_obj]
    · exact if_pos rfl
    · have hvalid : validDigest zeroDigest = true ∧ validDigest twoDigest = true := by
        decide +kernel
      simp only [Bool.or_eq_true, decide_eq_true_eq, not_or, ne_eq, not_not, hdigest, ← hjson]
      have hsigned : store.verifySignature oneDigest "" = true := by
        decide
      simp [announcement, auditEvent, canonical, request, store, config, hvalid, ← hsigned]
  have hsubject : store.authenticatedPublicationSubject database
      (canonical request) zeroDigest zeroDigest oneDigest = .ok (announcement, oneDigest) := by
    have hvalid : validDigest oneDigest = true := by decide +kernel
    unfold authenticatedPublicationSubject
    simp only [hvalid, hevents, find?_cons_of_pos, decide_true, if_true, Option.bind_some,
      hcandidate, Option.some_or]
  unfold storedPublicationMatches
  refine bind_eq_ok.mpr ⟨_, hsubject, ?_⟩
  decide +kernel

/-- The first entry is retired with its receipt. -/
theorem retire_sample : store.retire .evict "writer" 110
    ([], database) (zeroDigest, entry) = .ok ([⟨2, eviction, zeroDigest, ""⟩],
      emptied database eventJson) := by
  have hread : cachePlatform.readKey entry.canonicalKey = some (canonical request) := if_pos rfl
  have hmatches := @storedPublicationMatches_sample (database.deleteEntry zeroDigest) eventJson hjson
    hevents
  have hvalid : validDigest twoDigest = true ∧ validDigest zeroDigest = true := by decide +kernel
  have hkey : keyDigest entry.canonicalKey = zeroDigest := keyDigest_first
  have hdeleted : (database.deleteEntry zeroDigest).auditEvents = [⟨eventJson, oneDigest, ""⟩] :=
    hevents
  refine bind_eq_ok.mpr ⟨(⟨2, eviction, zeroDigest, ""⟩, emptied database eventJson), ?_, rfl⟩
  unfold appendStoredReceipt
  rw [hread]
  dsimp only
  rw [NamespaceBinding.toJson, canonicalDigest_obj]
  refine ite_throw_bind_eq_ok.mpr ⟨?_, bind_eq_ok.mpr ⟨_, hmatches, ?_⟩⟩
  · have hbytes : (canonical request).toJson.toBytes = entry.canonicalKey := rfl
    simp only [Bool.or_eq_true, decide_eq_true_eq, not_or, ne_eq, not_not, hkey, hbytes]
    simp [canonical, request, entry, store, config, hvalid]
    decide
  · rw [if_pos (by simp [entry, hvalid]; exact storedContentMatches_sample)]
    refine (append_sample ?_ eventDigest_eviction ?_ ?_).trans ?_
    · unfold auditEvent
      rw [hdeleted]
      rfl
    · simp [hdeleted]
    · have hdistinct : oneDigest ≠ zeroDigest := by decide +kernel
      simp [hdeleted, hdistinct]
    · rw [hdeleted]
      rfl

/-- The publication under the second key evicts the first entry. -/
theorem publish_second (hactive : store.assertActiveGeneration database = .ok ())
    (hentries : database.entries = AList.insert zeroDigest entry ∅) :
    ∃ result database', store.publish database 110 "writer" "trusted"
        secondRequest [9] = .ok (result, database') ∧ result.status = .published ∧
      database'.entries.lookup zeroDigest = none := by
  have hlookup : database.entries.lookup fourDigest = none := by
    rw [hentries]
    decide +kernel
  have hstale : store.removeStaleForPolicy database "writer" (admittedKey secondRequest fourDigest)
      110 [] = .ok ([], database) := by
    unfold removeStaleForPolicy candidates
    rw [hentries]
    rfl
  have husage : policyUsage database "policy" = (1, 2) := by
    unfold policyUsage
    rw [hentries]
    rfl
  have hleast : leastRecentlyUsed database "policy" = some (zeroDigest, entry) := by
    unfold leastRecentlyUsed
    rw [hentries]
    rfl
  have hemptied : (emptied database eventJson).entries = ∅ := by
    unfold emptied Database.deleteEntry
    rw [hentries]
    rfl
  have hfit : store.evictToFit "writer"
      (admittedKey secondRequest fourDigest) 1 110 10 ([], database) =
      .ok ([⟨2, eviction, zeroDigest, ""⟩], emptied database eventJson) := by
    have hempty : policyUsage (emptied database eventJson) "policy" = (0, 0) := by
      unfold policyUsage
      rw [hemptied]
      rfl
    unfold evictToFit
    simp only [admittedKey, policy, husage, hleast]
    refine (if_neg (by decide)).trans ((if_neg (by decide)).trans ?_)
    refine bind_eq_ok.mpr ⟨_, retire_sample hjson hevents, ?_⟩
    unfold evictToFit
    simp only [hempty]
    exact (if_neg (by decide)).trans (if_pos (by decide))
  have hsha : sha256 [9] = zeroDigest :=
    (congrArg encodeDigest (platform_sha256_of_head (by decide) (by decide))).trans encodeDigest_zero
  refine ⟨⟨.published, ?receipts⟩, ?database, ?publish, rfl, ?gone⟩
  case publish =>
    unfold CacheStore.publish
    refine bind_eq_ok.mpr ⟨_, admit_second, ?_⟩
    refine ite_throw_bind_eq_ok.mpr ⟨by decide, unit_bind_eq_ok.mpr ⟨hactive, ?_⟩⟩
    refine bind_eq_ok.mpr ⟨_, rfl, ite_throw_bind_eq_ok.mpr ⟨by decide, ?_⟩⟩
    rw [show (admittedKey secondRequest fourDigest).keySha256 = fourDigest from rfl, hlookup]
    unfold CacheStore.insertEntry
    refine bind_eq_ok.mpr ⟨_, hstale, bind_eq_ok.mpr ⟨_, hfit, ?_⟩⟩
    refine bind_eq_ok.mpr ⟨_, rfl, bind_eq_ok.mpr ⟨_, rfl, ?_⟩⟩
    refine ite_throw_bind_eq_ok.mpr ⟨?_, bind_eq_ok.mpr ⟨_, append_sample ?_ eventDigest_second
      (by simp [emptied]) ?_, bind_eq_ok.mpr ⟨_, rfl, ?_⟩⟩⟩
    · rw [hemptied]
      decide +kernel
    · rw [hsha]
      rfl
    · have hdistinct : oneDigest ≠ threeDigest ∧ zeroDigest ≠ threeDigest := by decide +kernel
      simp [emptied, hdistinct]
    · rfl
  case gone =>
    rw [hemptied]
    rfl

end Second

end Sample

open Sample in
/-- The policy of the sample is full after the first publication, and the second one evicts its entry
to stay within one entry and 100 bytes. -/
theorem second_publication_evicts_first :
    let s := System.after publishing
    entriesOf s.database.entries "policy" = [(zeroDigest, entry)] ∧
      ∃ result database', Sample.store.publish s.database 110 "writer"
          "trusted" secondRequest [9] = .ok (result, database') ∧
        (entriesOf database'.entries "policy").length ≤ 1 ∧
        ((entriesOf database'.entries "policy").map fun row => row.2.contentBytes).sum ≤ 100 ∧
        ∃ expired stale evicted, (zeroDigest, entry) ∈ expired ++ (stale ++ evicted) ∧
          Expires (admittedKey secondRequest fourDigest) 110 s.database.entries expired ∧
          Refills Sample.store (admittedKey secondRequest fourDigest) [9] 110 (10 - expired.length)
            (without s.database.entries expired) database'.entries stale evicted := by
  intro s
  obtain ⟨database, hafter, hactive, ⟨eventJson, hjson, hevents⟩, hentries⟩ := after_publishing
  obtain ⟨result, database', hok, hstatus, hgone⟩ := publish_second hjson hevents hactive hentries
  have hdatabase : s.database = database := congrArg System.database hafter
  rw [hdatabase]
  refine ⟨by rw [hentries]; rfl, result, database', hok, ?_⟩
  obtain ⟨-, admitted', hadmits, hcount, hbytes, expired, stale, evicted, hexpires, hrefills,
    hremoved, hstays⟩ := (@quota_and_eviction_are_exact Sample.store cachePlatform
      ⟨database, [Sample.store], [publication]⟩ 0 rfl 110 "writer" "trusted" secondRequest [9]).2
        result database' hok hstatus
  obtain rfl := Except.ok.inj (admit_second.symm.trans hadmits)
  refine ⟨hcount, hbytes, expired, stale, evicted, ?_, hexpires, hrefills⟩
  -- The first entry is gone, so it is among the removed ones.
  have hlookup : database.entries.lookup zeroDigest = some entry := by
    rw [hentries]
    rfl
  have hkey := hstays zeroDigest (by decide +kernel)
  rw [hgone] at hkey
  by_contra hkept
  rw [if_neg, hlookup] at hkey
  · cases hkey
  · intro hmem
    obtain ⟨⟨key, row⟩, hmem, rfl⟩ := mem_map.mp hmem
    obtain rfl := Option.mem_unique (hremoved _ row hmem).1 hlookup
    exact hkept hmem

end McLoving.Cache
