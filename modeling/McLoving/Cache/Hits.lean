import McLoving.Cache.Runs

/-!
# Hits

A hit returns the content of an earlier publication of the same canonical key by a principal that may
write, within its time to live.
-/

namespace McLoving.Cache

open List Except Cache.System Sample

section Hits

variable [CachePlatform] {s s' : System} {event : Event}

/-! ## Admission -/

/-- What an admitted key consists of. -/
structure AdmittedKey.Canonical (admitted : AdmittedKey) : Prop where
  bytes : admitted.canonicalBytes = admitted.canonical.toJson.toBytes
  key : admitted.keySha256 = keyDigest admitted.canonicalBytes

variable {store : CacheStore} {callerId callerTrustClass : String} {request : CacheKeyRequest}
variable {admitted : AdmittedKey} {content : List UInt8} {publication : Publication}

theorem admit_canonical {write : Bool}
    (hok : store.admitRequest callerId callerTrustClass request write = .ok admitted) :
    admitted.Canonical := by
  unfold CacheStore.admitRequest admitKey at hok
  rw [ite_throw_bind_eq_ok, ite_throw_bind_eq_ok] at hok
  obtain ⟨-, -, hok⟩ := hok
  split at hok
  · cases hok
  · rw [ite_throw_bind_eq_ok] at hok
    obtain rfl := ok.inj hok.2
    exact ⟨rfl, rfl⟩

/-! ## Events and publications -/

/-- The event announces the publication. -/
def Publication.AnnouncedBy (publication : Publication) (event : AuditEvent) : Prop :=
  Announces publication.store publication.callerId publication.admitted publication.content
    publication.now event

/-- The audit table announces only publications that happened. -/
structure Recorded (s : System) : Prop where
  events : ∀ row ∈ s.database.auditEvents, ∃ event : AuditEvent,
    row.eventJson = event.toJson.toBytes ∧
      (event.outcome = .published → ∃ publication ∈ s.published, publication.AnnouncedBy event)
  published : ∀ publication ∈ s.published, publication.admitted.Canonical

theorem recorded_initial : Recorded .initial :=
  ⟨fun _ hnil => absurd hnil not_mem_nil, fun _ hnil => absurd hnil not_mem_nil⟩

theorem Does.recorded (hdoes : Does s event s') (hrecorded : Recorded s) : Recorded s' := by
  cases hdoes with
  | stays => exact hrecorded
  | opens =>
    refine ⟨?_, hrecorded.published⟩
    rw [(openWithClock_tables _ _ _ _).2]
    exact hrecorded.events
  | evolves _ _ hevolves =>
    refine ⟨fun row hrow => ?_, hrecorded.published⟩
    obtain ⟨rows, hrows, hunannounced⟩ := hevolves.events
    rw [hrows, mem_append] at hrow
    rcases hrow with hold | hnew
    · exact hrecorded.events row hold
    · obtain ⟨event, hjson, houtcome⟩ := hunannounced row hnew
      exact ⟨event, hjson, fun hpublished => absurd hpublished houtcome⟩
  | publishes _ _ hadmits hinserts =>
    refine ⟨fun row hrow => ?_, fun publication hpublication => ?_⟩
    · obtain ⟨rows, last, announced, hrows, hunannounced, hlast, hannounces⟩ := hinserts.events
      rw [hrows, mem_append, mem_append, mem_singleton] at hrow
      rcases hrow with (hold | hnew) | rfl
      · obtain ⟨event, hjson, hpublished⟩ := hrecorded.events row hold
        refine ⟨event, hjson, fun houtcome => ?_⟩
        obtain ⟨publication, hpublication, hannounced⟩ := hpublished houtcome
        exact ⟨publication, mem_append_left _ hpublication, hannounced⟩
      · obtain ⟨event, hjson, houtcome⟩ := hunannounced row hnew
        exact ⟨event, hjson, fun hpublished => absurd hpublished houtcome⟩
      · exact ⟨announced, hlast, fun _ =>
          ⟨_, mem_append_right _ (mem_singleton_self _), hannounces⟩⟩
    · rw [mem_append, mem_singleton] at hpublication
      rcases hpublication with hold | rfl
      · exact hrecorded.published publication hold
      · exact admit_canonical hadmits
  | rewrites => exact ⟨hrecorded.events, hrecorded.published⟩

theorem recorded_after (events : List Event) : Recorded (System.after events) :=
  History.invariant (fun s event => (does_step s event).recorded) recorded_initial events

/-! ## The last publication of a key -/

/-- The publications of a key's digest. -/
def System.publishedUnder (s : System) (keySha256 : String) : List Publication :=
  s.published.filter fun publication => publication.admitted.keySha256 = keySha256

/-- Every entry holds the content of the last publication of its key. -/
def Latest (s : System) : Prop :=
  ∀ key row, s.database.entries.lookup key = some row →
    ∃ publication, (s.publishedUnder key).getLast? = some publication ∧
      publication.content = row.content

theorem Does.latest (hdoes : Does s event s') (hcall : event.isCall = true) (hlatest : Latest s) :
    Latest s' := by
  cases hdoes with
  | stays => exact hlatest
  | opens =>
    intro key row hrow
    rw [(openWithClock_tables _ _ _ _).1] at hrow
    exact hlatest key row hrow
  | evolves _ _ hevolves =>
    intro key row hrow
    obtain ⟨old, hold, hcontent⟩ := hevolves.entries key row hrow
    obtain ⟨publication, hlast, hsame⟩ := hlatest key old hold
    exact ⟨publication, hlast, hsame.trans (congrArg Prod.fst hcontent).symm⟩
  | publishes _ _ _ hinserts =>
    intro key row hrow
    unfold publishedUnder
    rw [filter_append]
    rcases hinserts.entries key row hrow with ⟨rfl, hcontent⟩ | ⟨hne, old, hold, hcontent⟩
    · rw [filter_cons_of_pos (by simp), filter_nil, getLast?_concat]
      exact ⟨_, rfl, (congrArg Prod.fst hcontent).symm⟩
    · rw [filter_cons_of_neg (by simpa using Ne.symm hne), filter_nil, append_nil]
      obtain ⟨publication, hlast, hsame⟩ := hlatest key old hold
      exact ⟨publication, hlast, hsame.trans (congrArg Prod.fst hcontent).symm⟩
  | rewrites => cases hcall

omit [CachePlatform] in
theorem latest_initial : Latest .initial := by
  intro key row hnone
  cases hnone

theorem latest_after (events : List Event) (hcalls : ∀ event ∈ events, event.isCall = true) :
    Latest (System.after events) :=
  History.invariant_of_mem (fun s event hmem => (does_step s event).latest (hcalls event hmem))
    latest_initial

/-! ## Hits -/

/-- The byte strings whose digests a hit compares. -/
def System.compared (s : System) (admitted : AdmittedKey) (content : List UInt8) :
    List (List UInt8) :=
  keyInput admitted.canonicalBytes :: content :: s.published.flatMap fun publication =>
    [keyInput publication.admitted.canonicalBytes, publication.content]

/-- No two of the byte strings have one digest. -/
def CollisionFree (inputs : List (List UInt8)) : Prop :=
  ∀ left ∈ inputs, ∀ right ∈ inputs, Platform.sha256 left = Platform.sha256 right → left = right

/-- The publication that a hit goes back to, up to digests. -/
structure Source (s : System) (store : CacheStore) (admitted : AdmittedKey) (content : List UInt8)
    (now : ℤ) (publication : Publication) : Prop where
  mem : publication ∈ s.published
  configuration : publication.store.configurationSha256 = store.configurationSha256
  key : publication.admitted.keySha256 = admitted.keySha256
  content : sha256 publication.content = sha256 content
  writer : publication.callerId ∈ admitted.policy.writePrincipals
  fresh : now < publication.now + admitted.policy.ttlMs

/-- A hit returns the content of an entry, and goes back to a publication with its digests. -/
theorem exists_source (hrecorded : Recorded s) {now : ℤ} {result : ReadResult} {database : Database}
    (hok : store.read s.database now callerId callerTrustClass request = .ok (result, database))
    (hhit : result.status = .hit) : ∃ admitted stored publication,
      store.admitRequest callerId callerTrustClass request false = .ok admitted ∧
      s.database.entries.lookup admitted.keySha256 = some stored ∧
      result.content = some stored.content ∧
      Source s store admitted stored.content now publication := by
  obtain ⟨admitted, hadmits, -, -, -, hstored⟩ := read_eq_ok hok
  obtain ⟨stored, hlookup, hmatches, hsame, hfresh, hcontent⟩ := hstored hhit
  obtain ⟨-, row, event, hreferred⟩ := entryMatches_eq_true hmatches
  obtain ⟨recorded, hjson, hpublished⟩ := hrecorded.events row hreferred.mem
  obtain rfl := AuditEvent.toJson_injective (Json.toBytes_injective (hreferred.json.trans hjson))
  obtain ⟨publication, hmem, hannounced⟩ := hpublished hreferred.outcome
  simp only [CacheStore.storedContentMatches, Bool.and_eq_true, decide_eq_true_eq] at hsame
  refine ⟨admitted, stored, publication, hadmits, hlookup, hcontent, hmem, ?_, ?_, ?_, ?_, ?_⟩
  · exact hannounced.configuration.symm.trans hreferred.configuration
  · exact hannounced.key.symm.trans hreferred.key
  · rw [hsame.2]
    exact Option.mem_unique hannounced.content hreferred.content
  · rw [← hannounced.callerId]
    exact hreferred.caller
  · rw [← hannounced.observed, hreferred.observed, ← hreferred.expires]
    exact hfresh

/-- Publications under the digest of an admitted key are publications of the key. -/
theorem canonical_eq_iff (hrecorded : Recorded s) (hadmitted : admitted.Canonical)
    (hfree : CollisionFree (s.compared admitted content)) (hmem : publication ∈ s.published) :
    publication.admitted.keySha256 = admitted.keySha256 ↔
      publication.admitted.canonical = admitted.canonical := by
  have hpublication := hrecorded.published publication hmem
  constructor
  · intro hkey
    rw [hpublication.key, hadmitted.key] at hkey
    have hinput := hfree (keyInput publication.admitted.canonicalBytes)
      (mem_cons_of_mem _ (mem_cons_of_mem _ (mem_flatMap.mpr
        ⟨publication, hmem, mem_cons_self⟩)))
      (keyInput admitted.canonicalBytes) mem_cons_self (encodeDigest_injective hkey)
    have hbytes := append_cancel_left hinput
    rw [hpublication.bytes, hadmitted.bytes] at hbytes
    exact CanonicalCacheKey.toJson_injective (Json.toBytes_injective hbytes)
  · intro hcanonical
    rw [hpublication.key, hadmitted.key, hpublication.bytes, hadmitted.bytes, hcanonical]

/-- A content with the digest of a publication's content is that content. -/
theorem content_eq_of_sha256 (hfree : CollisionFree (s.compared admitted content))
    (hmem : publication ∈ s.published) (hsame : sha256 publication.content = sha256 content) :
    publication.content = content := by
  refine hfree publication.content ?_ content (mem_cons_of_mem _ mem_cons_self)
    (encodeDigest_injective hsame)
  exact mem_cons_of_mem _ (mem_cons_of_mem _ (mem_flatMap.mpr
    ⟨publication, hmem, mem_cons_of_mem _ mem_cons_self⟩))

/-- A cache hit returns what an authorised writer published for exactly that key.  In every run,
also if the entries are rewritten: if the digests it compares do not collide, a read that answers
`Hit` returns the content of an earlier publication of the same canonical key by a principal of the
policy's write list, before the end of its time to live.  If the entries are left to the cache, it
is the last publication of the key; and a publish that answers `Conflict` or `Replay` leaves the
entries as they are. -/
theorem cache_hit_returns_published_content (events : List Event) (store : CacheStore) :
    (∀ now callerId callerTrustClass request result database,
      store.read (System.after events).database now callerId callerTrustClass request =
        .ok (result, database) →
      result.status = .hit →
      ∃ admitted content, store.admitRequest callerId callerTrustClass request false = .ok admitted ∧
        result.content = some content ∧
        (CollisionFree ((System.after events).compared admitted content) →
          (∃ publication ∈ (System.after events).published,
            publication.admitted.canonical = admitted.canonical ∧ publication.content = content ∧
            publication.callerId ∈ admitted.policy.writePrincipals ∧
            now < publication.now + admitted.policy.ttlMs) ∧
          ((∀ event ∈ events, event.isCall = true) →
            ∃ publication, ((System.after events).published.filter fun publication =>
                publication.admitted.canonical = admitted.canonical).getLast? = some publication ∧
              publication.content = content))) ∧
    ∀ now callerId callerTrustClass request content result database,
      store.publish (System.after events).database now callerId callerTrustClass request content =
        .ok (result, database) →
      result.status = .conflict ∨ result.status = .replay →
      database.entries = (System.after events).database.entries := by
  have hrecorded := recorded_after events
  constructor
  · intro now callerId callerTrustClass request result database hok hhit
    obtain ⟨admitted, stored, publication, hadmits, hlookup, hcontent, hsource⟩ :=
      exists_source hrecorded hok hhit
    refine ⟨admitted, stored.content, hadmits, hcontent, fun hfree => ⟨?_, fun hcalls => ?_⟩⟩
    · exact ⟨publication, hsource.mem,
        (canonical_eq_iff hrecorded (admit_canonical hadmits) hfree hsource.mem).mp hsource.key,
        content_eq_of_sha256 hfree hsource.mem hsource.content, hsource.writer, hsource.fresh⟩
    · obtain ⟨last, hlast, hsame⟩ := latest_after events hcalls _ _ hlookup
      refine ⟨last, ?_, hsame⟩
      rw [← hlast, publishedUnder]
      congr 1
      refine filter_congr fun other hother => ?_
      rw [decide_eq_decide]
      exact (canonical_eq_iff hrecorded (admit_canonical hadmits) hfree hother).symm
  · intro now callerId callerTrustClass request content result database hok hstatus
    obtain ⟨admitted, -, -, ⟨hpublished, -⟩ | ⟨-, -, hentries⟩⟩ := publish_eq_ok hok
    · rcases hstatus with hstatus | hstatus <;> rw [hstatus] at hpublished <;> cases hpublished
    · apply hentries
      rcases hstatus with hstatus | hstatus <;> rw [hstatus] <;> exact PublishStatus.noConfusion

end Hits

attribute [local instance] cachePlatform

namespace Sample

open CacheStore

theorem entryMatches_sample {database : Database} {eventJson : List UInt8}
    (hjson : eventJson = announcement.toJson.toBytes)
    (hevents : database.auditEvents = [⟨eventJson, oneDigest, ""⟩]) :
    store.entryMatches database entry admitted = .ok true := by
  have hfind : database.auditEvents.find?
      (fun row => row.eventSha256 = entry.publicationEventSha256) =
        some ⟨eventJson, oneDigest, ""⟩ := by
    rw [hevents]
    simp [entry]
  have hread : cachePlatform.readEvent eventJson = some announcement := if_pos hjson
  have hdigest : eventDigest eventJson = oneDigest := by
    rw [hjson, eventDigest_announcement]
  unfold entryMatches
  refine bind_eq_ok.mpr ⟨_, rfl, ?_⟩
  refine ite_throw_bind_eq_ok.mpr ⟨by decide, ?_⟩
  rw [if_neg]
  · rw [hfind]
    dsimp only
    rw [hread]
    refine congrArg Except.ok ?_
    simp only [publicationMatches, Bool.and_eq_true, decide_eq_true_eq, and_assoc]
    refine ⟨hjson.symm, hdigest, ?_⟩
    repeat' apply And.intro
    all_goals first
      | rfl
      | decide
  · have hvalid : validDigest entry.publicationEventSha256 = true := by decide +kernel
    rw [hvalid]
    simp only [Bool.or_eq_true, decide_eq_true_eq, not_or, ne_eq, not_not]
    repeat' apply And.intro
    all_goals first
      | rfl
      | decide

/-- After the publication the reader gets a hit until time 150. -/
theorem hit_sample : ∃ database result database',
      System.after publishing = ⟨database, [store], [publication]⟩ ∧
      store.read database 120 "reader" "trusted" request = .ok (result, database') ∧
      result.status = .hit ∧ result.content = some [7, 8] := by
  obtain ⟨database, hafter, hactive, ⟨eventJson, hjson, hevents⟩, hentries⟩ := after_publishing
  have hlookup : database.entries.lookup zeroDigest = some entry := by
    rw [hentries]
    rfl
  have hdistinct : oneDigest ≠ zeroDigest := by decide +kernel
  refine ⟨database, ⟨.hit, some [7, 8], ?receipts⟩, ?database, hafter, ?read, rfl, rfl⟩
  case read =>
    unfold CacheStore.read
    refine bind_eq_ok.mpr ⟨_, admit_sample (.inr rfl), ?_⟩
    refine unit_bind_eq_ok.mpr ⟨hactive, ?_⟩
    rw [show admitted.keySha256 = zeroDigest from rfl, hlookup]
    refine bind_eq_ok.mpr ⟨_, entryMatches_sample hjson hevents, ?_⟩
    rw [if_neg (by simp [storedContentMatches_sample]), if_neg (by decide)]
    refine bind_eq_ok.mpr ⟨_, append_sample rfl (eventDigest_of_ne ?_ ?_) ?_ ?_, ?_⟩
    · exact fun hsame => absurd (congrArg AuditEvent.outcome hsame) CacheOutcome.noConfusion
    · exact fun hsame => absurd (congrArg AuditEvent.outcome hsame) CacheOutcome.noConfusion
    · simp [hevents]
    · simp [hevents, hdistinct]
    · rw [hevents]
      rfl

end Sample

/-- The digests that the hit of the sample compares do not collide. -/
theorem Sample.collisionFree_sample (database : Database) : CollisionFree (System.compared
      ⟨database, [Sample.store], [Sample.publication]⟩ Sample.admitted [7, 8]) := by
  have hinputs (input : List UInt8) (hinput : input ∈ compared
      ⟨database, [store], [publication]⟩ admitted [7, 8]) :
      input = keyInput admitted.canonicalBytes ∨ input = [7, 8] := by
    simpa [compared, publication, or_comm, or_left_comm] using hinput
  have hdistinct : cachePlatform.sha256 (keyInput admitted.canonicalBytes) ≠
      cachePlatform.sha256 [7, 8] := by
    rw [admitted, admittedKey, platform_sha256_keyInput, platform_sha256_content]
    decide
  intro left hleft right hright hsame
  rcases hinputs left hleft with rfl | rfl <;> rcases hinputs right hright with rfl | rfl
  · rfl
  · exact absurd hsame hdistinct
  · exact absurd hsame.symm hdistinct
  · rfl

open Sample in
/-- In the sample run the hit returns what the writer published. -/
theorem hit_returns_sample_content : ∃ result database,
      store.read (System.after publishing).database 120
        "reader" "trusted" request = .ok (result, database) ∧ result.status = .hit ∧
      ∃ (admitted : AdmittedKey) (content : List UInt8), result.content = some content ∧
        ∃ publication, ((System.after publishing).published.filter
            fun publication => publication.admitted.canonical = admitted.canonical).getLast? =
              some publication ∧
          publication.content = content := by
  obtain ⟨database, result, database', hafter, hread, hhit, hcontent⟩ := hit_sample
  have hread' : store.read (System.after publishing).database
      120 "reader" "trusted" request = .ok (result, database') := by
    rw [hafter]
    exact hread
  refine ⟨result, database', hread', hhit, ?_⟩
  obtain ⟨key, content, hadmits, hreturned, hfree⟩ :=
    (@cache_hit_returns_published_content cachePlatform publishing store).1 120 "reader" "trusted"
      request result database' hread' hhit
  obtain rfl := ok.inj ((admit_sample (.inr rfl)).symm.trans hadmits)
  obtain rfl := Option.mem_unique hcontent hreturned
  refine ⟨admitted, [7, 8], hreturned, (hfree ?_).2 ?_⟩
  · rw [hafter]
    exact collisionFree_sample database
  · decide

end McLoving.Cache
