import McLoving.Cache.Effects
import McLoving.Lib.History

/-!
# Runs of a cache

A cache database has any number of handles, and its table of entries may be rewritten between
operations.  This file says what an event does to the database and the publications so far, and has
a sample database with one publication.
-/

namespace McLoving.Cache

open List Table Except

section Runs

variable [CachePlatform]

/-! ## Runs -/

/-- A publish that answered `Published`. -/
structure Publication where
  store : CacheStore
  admitted : AdmittedKey
  callerId : String
  content : List UInt8
  now : ℤ
  /-- The configuration that was active. -/
  active : Option String
  deriving DecidableEq

/-- A database, the handles that were opened on it and the publications so far. -/
structure System where
  database : Database
  handles : List CacheStore
  published : List Publication

/-- No database yet. -/
def System.initial : System := ⟨.initial, [], []⟩

/-- What happens to a cache database: calls through its handles, and entries rewritten by someone
else. -/
inductive Event where
  | open (config : CacheConfig) (receiptKey : List UInt8) (intact : Bool)
  | publish (handle : ℕ) (now : ℤ) (callerId callerTrustClass : String)
      (request : CacheKeyRequest) (content : List UInt8)
  | read (handle : ℕ) (now : ℤ) (callerId callerTrustClass : String) (request : CacheKeyRequest)
  | cleanup (handle : ℕ) (now : ℤ) (callerId : String)
  | rewrite (entries : Table String EntryRow)

/-- The event leaves the entries to the cache. -/
def Event.isCall : Event → Bool
  | .rewrite _ => false
  | _ => true

namespace System

variable (s : System)

/-- The configuration that is active. -/
def active : Option String :=
  s.database.metadata.map Metadata.activeConfigurationSha256

/-- The publication of a call that answered `Published`. -/
def publication (store : CacheStore) (now : ℤ) (callerId callerTrustClass : String)
    (request : CacheKeyRequest) (content : List UInt8) : List Publication :=
  match store.admitRequest callerId callerTrustClass request true with
  | .ok admitted => [⟨store, admitted, callerId, content, now, s.active⟩]
  | .error _ => []

/-- The state after an event. -/
def step : Event → System
  | .open config receiptKey intact =>
    let result := openWithClock s.database config receiptKey intact
    { s with
      database := result.2
      handles := s.handles ++ result.1.toOption.toList }
  | .publish handle now callerId callerTrustClass request content =>
    match s.handles[handle]? with
    | none => s
    | some store =>
      match store.publish s.database now callerId callerTrustClass request content with
      | .error _ => s
      | .ok result =>
        { s with
          database := result.2
          published := s.published ++
            if result.1.status = .published then
              s.publication store now callerId callerTrustClass request content
            else [] }
  | .read handle now callerId callerTrustClass request =>
    match s.handles[handle]? with
    | none => s
    | some store =>
      match store.read s.database now callerId callerTrustClass request with
      | .error _ => s
      | .ok result => { s with database := result.2 }
  | .cleanup handle now callerId =>
    match s.handles[handle]? with
    | none => s
    | some store =>
      match store.cleanup s.database now callerId with
      | .error _ => s
      | .ok result => { s with database := result.2 }
  | .rewrite entries => { s with database := { s.database with entries := entries } }

/-- The state after a history. -/
def after (events : List Event) : System :=
  History.final step .initial events

end System

/-! ## What an event does -/

/-- What an event does to the database, the handles and the publications. -/
inductive Does (s : System) : Event → System → Prop
  | stays {event : Event} : Does s event s
  | opens {config : CacheConfig} {receiptKey : List UInt8} {intact : Bool} :
      Does s (.open config receiptKey intact)
        { s with
          database := (openWithClock s.database config receiptKey intact).2
          handles := s.handles ++
            (openWithClock s.database config receiptKey intact).1.toOption.toList }
  | evolves {event : Event} {store : CacheStore} {database : Database} (hmem : store ∈ s.handles)
      (hactive : store.assertActiveGeneration s.database = .ok ())
      (hevolves : Evolves s.database database) : Does s event { s with database := database }
  | publishes {event : Event} {store : CacheStore} {database : Database} {now : ℤ}
      {callerId callerTrustClass : String} {request : CacheKeyRequest} {content : List UInt8}
      {admitted : AdmittedKey} (hmem : store ∈ s.handles)
      (hactive : store.assertActiveGeneration s.database = .ok ())
      (hadmits : store.admitRequest callerId callerTrustClass request true = .ok admitted)
      (hinserts : Inserts store callerId admitted content now s.database database) :
      Does s event
        { s with
          database := database
          published := s.published ++ [⟨store, admitted, callerId, content, now, s.active⟩] }
  | rewrites {entries : Table String EntryRow} :
      Does s (.rewrite entries) { s with database := { s.database with entries := entries } }

theorem does_step (s : System) (event : Event) : Does s event (s.step event) := by
  cases event with
  | «open» config receiptKey intact => exact .opens
  | publish =>
    rw [System.step]
    split
    · exact .stays
    · next store hstore =>
      split
      · exact .stays
      · next result hok =>
        obtain ⟨admitted, hadmits, hactive, hcases⟩ := publish_eq_ok hok
        have hmem := mem_of_getElem? hstore
        rcases hcases with ⟨hstatus, hinserts, -⟩ | ⟨hstatus, hevolves, -⟩
        · rw [if_pos hstatus, System.publication, hadmits]
          exact .publishes hmem hactive hadmits hinserts
        · rw [if_neg hstatus, append_nil]
          exact .evolves hmem hactive hevolves
  | read =>
    rw [System.step]
    split
    · exact .stays
    · next store hstore =>
      split
      · exact .stays
      · next result hok =>
        obtain ⟨admitted, -, hactive, hevolves, -⟩ := read_eq_ok hok
        exact .evolves (mem_of_getElem? hstore) hactive hevolves
  | cleanup =>
    rw [System.step]
    split
    · exact .stays
    · next store hstore =>
      split
      · exact .stays
      · next result hok =>
        obtain ⟨hactive, hevolves⟩ := cleanup_eq_ok hok
        exact .evolves (mem_of_getElem? hstore) hactive hevolves
  | rewrite => exact .rewrites

/-- Opening a handle keeps the entries and the audit table. -/
theorem openWithClock_tables (db : Database) (config : CacheConfig) (receiptKey : List UInt8)
    (intact : Bool) : (openWithClock db config receiptKey intact).2.entries = db.entries ∧
      (openWithClock db config receiptKey intact).2.auditEvents = db.auditEvents := by
  unfold openWithClock
  dsimp only
  split
  · exact ⟨rfl, rfl⟩
  · split_ifs
    · exact ⟨rfl, rfl⟩
    all_goals
      split
      · exact ⟨rfl, rfl⟩
      · next db' hok =>
        unfold initializeDatabase at hok
        obtain ⟨cacheGeneration, -, hok⟩ := bind_eq_ok.mp hok
        obtain ⟨restoreEpoch, -, hok⟩ := bind_eq_ok.mp hok
        dsimp only at hok
        rw [ite_throw_bind_eq_ok, ite_throw_bind_eq_ok] at hok
        obtain ⟨-, -, hok⟩ := hok
        obtain ⟨generations, -, hok⟩ := bind_eq_ok.mp hok
        rw [ite_throw_bind_eq_ok] at hok
        obtain rfl := ok.inj hok.2
        exact ⟨rfl, rfl⟩

end Runs

open Except History CacheStore

/-- What is hashed for the digest of a canonical key. -/
def keyInput (canonicalKey : List UInt8) : List UInt8 :=
  "mcloving.cache-key/v1\x00".toUTF8.toList ++ canonicalKey

/-- The database after the first configuration was opened. -/
def Database.first (config : CacheConfig) (configurationSha256 generationSha256 : String) :
    Database where
  metadata := some ⟨config.serviceId, config.receiptKeyId, config.receiptKeySha256,
    configurationSha256, generationSha256, config.cacheGeneration, config.restoreEpoch⟩
  runtimeGenerations := AList.insert configurationSha256
    ⟨config.implementationSha256, config.cacheGeneration, config.restoreEpoch, generationSha256⟩ ∅
  entries := ∅
  auditEvents := []

namespace Sample

/-- A policy with one writer and one reader and room for one entry. -/
def policy : CachePolicy where
  policyId := "policy"
  tenantId := "tenant"
  projectId := "project"
  pipelineId := "pipeline"
  trustClass := "trusted"
  allowedKinds := [.build]
  readPrincipals := ["reader"]
  writePrincipals := ["writer"]
  maxEntryBytes := 10
  maxTotalBytes := 100
  maxEntries := 1
  ttlMs := 50

/-- A configuration with this policy. -/
def config : CacheConfig where
  protocolVersion := protocolVersion
  serviceId := "service"
  implementationSha256 := zeroDigest
  deploymentIdentity := "deployment"
  operatorIdentity := "operator"
  cacheGeneration := 1
  restoreEpoch := 0
  databasePath := "/cache"
  receiptKeyId := "key"
  receiptKeySha256 := zeroDigest
  maxFrameBytes := 1024
  maxDatabaseBytes := 100
  maxAuditEvents := 10
  maxCleanupRows := 10
  policies := [policy]

/-- A request for a build output. -/
def request : CacheKeyRequest where
  policyId := "policy"
  tenantId := "tenant"
  projectId := "project"
  pipelineId := "pipeline"
  trustClass := "trusted"
  cacheKind := .build
  generationSha256 := zeroDigest
  restoreEpoch := 0
  logicalKeySha256 := zeroDigest
  inputSha256 := zeroDigest
  toolchainSha256 := zeroDigest
  platformSha256 := zeroDigest

/-- The text of the digest of the announcement. -/
def oneDigest : String :=
  encodeDigest (.replicate 1)

/-- The text of the digest of the content. -/
def twoDigest : String :=
  encodeDigest (.replicate 2)

/-- The text of a third digest, here of the second announcement. -/
def threeDigest : String :=
  encodeDigest (.replicate 3)

/-- The text of the digest of the second key. -/
def fourDigest : String :=
  encodeDigest (.replicate 4)

/-- A request for another build output. -/
def secondRequest : CacheKeyRequest :=
  { request with logicalKeySha256 := oneDigest }

/-- The canonical key of a request. -/
def canonical (request : CacheKeyRequest) : CanonicalCacheKey where
  schemaVersion := keySchemaVersion
  serviceId := "service"
  policyId := "policy"
  policySha256 := zeroDigest
  tenantId := request.tenantId
  projectId := request.projectId
  pipelineId := request.pipelineId
  trustClass := request.trustClass
  cacheKind := request.cacheKind
  cacheGeneration := 1
  generationSha256 := zeroDigest
  restoreEpoch := request.restoreEpoch
  logicalKeySha256 := request.logicalKeySha256
  inputSha256 := request.inputSha256
  toolchainSha256 := request.toolchainSha256
  platformSha256 := request.platformSha256

/-- The handle of the sample. -/
def store : CacheStore :=
  ⟨config, zeroDigest, zeroDigest, List.replicate 32 0⟩

/-- The event of the publication of two bytes at time 100. -/
def announcement : AuditEvent :=
  store.auditEvent .initial "writer" ⟨"policy", zeroDigest, zeroDigest, 0, zeroDigest, zeroDigest⟩
    ⟨.publish, .published, some twoDigest, some 2, some 150, 100⟩

/-- The event of the publication of one byte under the second key at time 110. -/
def secondAnnouncement : AuditEvent :=
  { announcement with
    keySha256 := fourDigest
    contentSha256 := some zeroDigest
    contentBytes := some 1
    expiresAtUnixMs := some 160
    observedAtUnixMs := 110 }

/-- What is hashed for the digest of an event. -/
def eventInput (event : AuditEvent) : List UInt8 :=
  "mcloving.cache-event/v1\x00".toUTF8.toList ++ event.toJson.toBytes

/-- A platform that tells the two announcements, the content and the second key from everything
else, and reads the first announcement and the first key. -/
@[reducible]
def cachePlatform : CachePlatform where
  sha256 bytes :=
    if bytes = eventInput announcement then .replicate 1
    else if bytes = [7, 8] then .replicate 2
    else if bytes = eventInput secondAnnouncement then .replicate 3
    else if bytes = keyInput (canonical secondRequest).toJson.toBytes then .replicate 4
    else .replicate 0
  hashTextExtended _ _ := 0
  parseUrl _ := none
  hmacSha256 _ _ := []
  encodeBase64 _ := ""
  decodeBase64 _ := some []
  readEvent bytes := if bytes = announcement.toJson.toBytes then some announcement else none
  readKey bytes :=
    if bytes = (canonical request).toJson.toBytes then some (canonical request) else none

attribute [local instance] cachePlatform

theorem encodeDigest_zero : encodeDigest (.replicate 0) = zeroDigest := by
  decide +kernel

/-- A JSON object begins with a brace. -/
theorem head_toBytes (fields : List (String × Json)) :
    (Json.obj fields).toBytes.head? = some 123 := by
  rw [Json.toBytes, Utf8.bytes_eq_flatMap, Json.render, String.append_assoc, String.toList_append]
  rfl

theorem head_domain (domain : String) (bytes : List UInt8)
    (hdomain : domain.toUTF8.toList.head? = some 109) :
    (domain.toUTF8.toList ++ bytes).head? = some 109 := by
  rw [head?_append, hdomain]
  rfl

theorem head_eventInput (event : AuditEvent) : (eventInput event).head? = some 109 :=
  head_domain _ _ (by decide +kernel)

theorem head_keyInput (bytes : List UInt8) : (keyInput bytes).head? = some 109 :=
  head_domain _ _ (by decide +kernel)

/-- The two domains differ within their first 16 bytes. -/
theorem keyInput_ne_eventInput (bytes : List UInt8) (event : AuditEvent) :
    keyInput bytes ≠ eventInput event := by
  intro hsame
  have htake := congrArg (List.take 16) hsame
  rw [keyInput, eventInput, take_append_of_le_length (by decide +kernel),
    take_append_of_le_length (by decide +kernel)] at htake
  exact absurd htake (by decide +kernel)

theorem eventInput_ne {event event' : AuditEvent} (hne : event ≠ event') :
    eventInput event ≠ eventInput event' := fun hsame =>
  hne (AuditEvent.toJson_injective (Json.toBytes_injective (append_cancel_left hsame)))

theorem ne_of_head {bytes bytes' : List UInt8} {first : UInt8} (hhead' : bytes'.head? = some first)
    (hhead : bytes.head? ≠ some first) : bytes ≠ bytes' := by
  rintro rfl
  exact hhead hhead'

theorem platform_sha256_eq {bytes : List UInt8} (hevent : bytes ≠ eventInput announcement)
    (hcontent : bytes ≠ [7, 8]) : cachePlatform.sha256 bytes =
      if bytes = eventInput secondAnnouncement then .replicate 3
      else if bytes = keyInput (canonical secondRequest).toJson.toBytes then .replicate 4
      else .replicate 0 := by
  change (if bytes = eventInput announcement then _ else _) = _
  rw [if_neg hevent, if_neg hcontent]

theorem platform_sha256_of_ne {bytes : List UInt8} (hevent : bytes ≠ eventInput announcement)
    (hcontent : bytes.head? ≠ some 7) (hsecond : bytes ≠ eventInput secondAnnouncement)
    (hkey : bytes ≠ keyInput (canonical secondRequest).toJson.toBytes) :
    cachePlatform.sha256 bytes = .replicate 0 := by
  rw [platform_sha256_eq hevent (ne_of_head rfl hcontent), if_neg hsecond, if_neg hkey]

/-- What is in no domain and does not begin like the content. -/
theorem platform_sha256_of_head {bytes : List UInt8} (hdomain : bytes.head? ≠ some 109)
    (hcontent : bytes.head? ≠ some 7) : cachePlatform.sha256 bytes = .replicate 0 :=
  platform_sha256_of_ne (ne_of_head (head_eventInput _) hdomain) hcontent
    (ne_of_head (head_eventInput _) hdomain) (ne_of_head (head_keyInput _) hdomain)

theorem canonicalDigest_obj (fields : List (String × Json)) :
    canonicalDigest (.obj fields) = zeroDigest := by
  have hhead := head_toBytes fields
  refine (congrArg encodeDigest (platform_sha256_of_head ?_ ?_)).trans encodeDigest_zero <;>
    rw [hhead] <;> decide

theorem platform_sha256_keyInput :
    cachePlatform.sha256 (keyInput (canonical request).toJson.toBytes) = .replicate 0 := by
  refine platform_sha256_of_ne (keyInput_ne_eventInput _ _) ?_ (keyInput_ne_eventInput _ _) ?_
  · rw [head_keyInput]
    decide
  · intro hsame
    have hkeys := CanonicalCacheKey.toJson_injective (Json.toBytes_injective
      (append_cancel_left hsame))
    exact absurd (congrArg CanonicalCacheKey.logicalKeySha256 hkeys) (by decide +kernel)

theorem keyDigest_first : keyDigest (canonical request).toJson.toBytes = zeroDigest :=
  (congrArg encodeDigest platform_sha256_keyInput).trans encodeDigest_zero

theorem keyDigest_second : keyDigest (canonical secondRequest).toJson.toBytes = fourDigest := by
  have hcontent : keyInput (canonical secondRequest).toJson.toBytes ≠ [7, 8] :=
    (ne_of_head (head_keyInput _) (by decide)).symm
  refine congrArg encodeDigest ((platform_sha256_eq (keyInput_ne_eventInput _ _) hcontent).trans ?_)
  rw [if_neg (keyInput_ne_eventInput _ _), if_pos rfl]

theorem eventDigest_announcement : eventDigest announcement.toJson.toBytes = oneDigest := by
  change encodeDigest (if eventInput announcement = eventInput announcement then _ else _) = _
  rw [if_pos rfl, oneDigest]

theorem eventDigest_second : eventDigest secondAnnouncement.toJson.toBytes = threeDigest := by
  have hne : secondAnnouncement ≠ announcement := fun hsame =>
    absurd (congrArg AuditEvent.observedAtUnixMs hsame) (by decide)
  have hcontent : eventInput secondAnnouncement ≠ [7, 8] :=
    (ne_of_head (head_eventInput _) (by decide)).symm
  exact congrArg encodeDigest ((platform_sha256_eq (eventInput_ne hne) hcontent).trans (if_pos rfl))

theorem eventDigest_of_ne {event : AuditEvent} (hne : event ≠ announcement)
    (hsecond : event ≠ secondAnnouncement) : eventDigest event.toJson.toBytes = zeroDigest := by
  have hzero : cachePlatform.sha256 (eventInput event) = .replicate 0 := by
    refine platform_sha256_of_ne (eventInput_ne hne) ?_ (eventInput_ne hsecond)
      (keyInput_ne_eventInput _ _).symm
    rw [head_eventInput]
    decide
  exact (congrArg encodeDigest hzero).trans encodeDigest_zero

theorem platform_sha256_content : cachePlatform.sha256 [7, 8] = .replicate 2 := by
  change (if [7, 8] = eventInput announcement then _ else _) = _
  rw [if_neg (ne_of_head (head_eventInput _) (by decide)), if_pos rfl]

theorem sha256_content : sha256 [7, 8] = twoDigest :=
  congrArg encodeDigest platform_sha256_content

/-- The admitted key of a request, with its digest. -/
def admittedKey (request : CacheKeyRequest) (keySha256 : String) : AdmittedKey where
  policy := policy
  policySha256 := zeroDigest
  canonical := canonical request
  canonicalBytes := (canonical request).toJson.toBytes
  namespaceSha256 := zeroDigest
  keySha256 := keySha256

/-- The key of the request. -/
def admitted : AdmittedKey :=
  admittedKey request zeroDigest

theorem admit_eq {callerId : String} {write : Bool} {request' : CacheKeyRequest}
    (hcaller : (callerId, write) = ("writer", true) ∨ (callerId, write) = ("reader", false))
    (hrequest : request' = request ∨ request' = secondRequest) :
    store.admitRequest callerId "trusted" request' write = .ok (admittedKey request' (keyDigest
        (canonical request').toJson.toBytes)) := by
  have hpolicy : canonicalDigest policy.toJson = zeroDigest :=
    canonicalDigest_obj _
  have hkey : canonicalKey config zeroDigest policy request' = canonical request' := by
    unfold canonicalKey
    rw [hpolicy]
    rfl
  have hevaluated : store.admitRequest callerId "trusted" request' write =
      .ok { admittedKey request' (keyDigest
          (canonicalKey config zeroDigest policy request').toJson.toBytes) with
        policySha256 := canonicalDigest policy.toJson
        canonical := canonicalKey config zeroDigest policy request'
        canonicalBytes :=
          (canonicalKey config zeroDigest policy request').toJson.toBytes
        namespaceSha256 := canonicalDigest (NamespaceBinding.toJson
          ⟨"service", "policy", "tenant", "project", "pipeline", "trusted"⟩) } := by
    rcases hcaller with hcaller | hcaller <;> cases hcaller <;> rcases hrequest with rfl | rfl <;> rfl
  rw [hevaluated, hpolicy, hkey, NamespaceBinding.toJson, canonicalDigest_obj]
  rfl

theorem admit_sample {callerId : String} {write : Bool}
    (hcaller : (callerId, write) = ("writer", true) ∨ (callerId, write) = ("reader", false)) :
    store.admitRequest callerId "trusted" request write = .ok admitted := by
  rw [admit_eq hcaller (.inl rfl), keyDigest_first, admitted]

/-- A handle is opened and two bytes are published. -/
def publishing : List Event :=
  [.open config (List.replicate 32 0) true, .publish 0 100 "writer" "trusted" request [7, 8]]

theorem open_sample : openWithClock .initial config (List.replicate 32 0) true =
      (.ok store, .first config zeroDigest zeroDigest) := by
  have hkey : sha256 (List.replicate 32 0) = zeroDigest :=
    (congrArg encodeDigest (platform_sha256_of_head (by decide) (by decide))).trans encodeDigest_zero
  have hconfig : canonicalDigest config.toJson = zeroDigest :=
    canonicalDigest_obj _
  have hgeneration : deriveGenerationSha256 config = zeroDigest :=
    canonicalDigest_obj _
  unfold openWithClock
  rw [hkey, hconfig, hgeneration]
  rfl

/-- The entry of the publication. -/
def entry : EntryRow where
  namespaceSha256 := zeroDigest
  canonicalKey := admitted.canonicalBytes
  policyId := "policy"
  policySha256 := zeroDigest
  generationSha256 := zeroDigest
  restoreEpoch := 0
  contentSha256 := twoDigest
  contentBytes := 2
  content := [7, 8]
  publicationEventSha256 := oneDigest
  createdAtUnixMs := 100
  expiresAtUnixMs := 150
  lastAccessSequence := 1

theorem publish_sample : ∃ result database, store.publish
        (.first config zeroDigest zeroDigest) 100 "writer" "trusted" request [7, 8] =
        .ok (result, database) ∧ result.status = .published ∧
      database.metadata = (Database.first config zeroDigest zeroDigest).metadata ∧
      (∃ eventJson, eventJson = announcement.toJson.toBytes ∧
        database.auditEvents = [⟨eventJson, oneDigest, ""⟩]) ∧
      database.entries = AList.insert zeroDigest entry ∅ := by
  have hwritten : { announcement with
      contentSha256 := some (sha256 [7, 8]) } = announcement := by
    rw [sha256_content]
    rfl
  unfold publish
  rw [admit_sample (.inl rfl)]
  refine ⟨_, _, rfl, rfl, rfl, ⟨_, rfl, ?_⟩, ?_⟩
  · change [AuditRow.mk (AuditEvent.toJson { announcement with
        contentSha256 := some (sha256 [7, 8]) }).toBytes
      (eventDigest (AuditEvent.toJson { announcement with
        contentSha256 := some (sha256 [7, 8]) }).toBytes) ""] = _
    rw [hwritten, eventDigest_announcement]
  · change (AList.insert zeroDigest { entry with
      contentSha256 := sha256 [7, 8]
      publicationEventSha256 := eventDigest (AuditEvent.toJson
        { announcement with
          contentSha256 := some (sha256 [7, 8]) }).toBytes } ∅ :
        Table String EntryRow) = _
    rw [hwritten, eventDigest_announcement, sha256_content]
    rfl

/-- The publication of the sample. -/
def publication : Publication :=
  ⟨store, admitted, "writer", [7, 8], 100, some zeroDigest⟩

/-- The state after the publication. -/
theorem after_publishing : ∃ database, System.after publishing =
        ⟨database, [store], [publication]⟩ ∧
      store.assertActiveGeneration database = .ok () ∧
      (∃ eventJson, eventJson = announcement.toJson.toBytes ∧
        database.auditEvents = [⟨eventJson, oneDigest, ""⟩]) ∧
      database.entries = AList.insert zeroDigest entry ∅ := by
  obtain ⟨published, database, hok, hstatus, hmetadata, htables⟩ := publish_sample
  have hopened : System.step .initial (.open config (List.replicate 32 0) true) =
      ⟨.first config zeroDigest zeroDigest, [store], []⟩ := by
    unfold System.step System.initial
    dsimp only
    rw [open_sample]
    rfl
  have hpublished : System.step ⟨.first config zeroDigest zeroDigest, [store], []⟩
      (.publish 0 100 "writer" "trusted" request [7, 8]) = ⟨database, [store], [publication]⟩ := by
    unfold System.step System.publication
    dsimp only [getElem?_cons_zero]
    rw [hok]
    dsimp only
    rw [if_pos hstatus, admit_sample (.inl rfl)]
    rfl
  refine ⟨database, ?_, ?_, htables⟩
  · unfold System.after
    rw [publishing, final_cons, hopened, final_cons, hpublished, final_nil]
  · unfold CacheStore.assertActiveGeneration
    rw [hmetadata]
    rfl

/-- A receipt is appended when there is room and its digest is new. -/
theorem append_sample {database : Database} {callerId digest : String} {subject : ReceiptSubject}
    {details : ReceiptDetails} {event : AuditEvent}
    (hevent : store.auditEvent database callerId subject details = event)
    (hdigest : eventDigest event.toJson.toBytes = digest) (hroom : database.auditEvents.length < 10)
    (hnew : ∀ row ∈ database.auditEvents, row.eventSha256 ≠ digest) :
    store.appendSubjectReceipt database callerId subject details =
      .ok (⟨database.auditEvents.length + 1, event, digest, ""⟩, { database with
        auditEvents := database.auditEvents ++ [⟨event.toJson.toBytes, digest, ""⟩] }) := by
  subst hevent hdigest
  unfold CacheStore.appendSubjectReceipt
  have hany : database.auditEvents.any (fun row => row.eventSha256 = eventDigest
        (store.auditEvent database callerId subject details).toJson.toBytes) = false := by
    simpa using hnew
  exact (if_neg (Nat.not_le.mpr hroom)).trans (if_neg (ne_true_of_eq_false hany))

/-- The stored content of the sample is intact. -/
theorem storedContentMatches_sample : CacheStore.storedContentMatches entry = true := by
  unfold CacheStore.storedContentMatches
  rw [Bool.and_eq_true, decide_eq_true_eq, decide_eq_true_eq]
  exact ⟨rfl, sha256_content⟩

end Sample

end McLoving.Cache
