import McLoving.Domain.Primitives
import McLoving.Lib.Table

/-!
# The cache store

The records of the cache service, their canonical JSON, and the checks of a configuration.  Every
digest is the lowercase hexadecimal text of a SHA-256 digest of such JSON, in front of which keys
and events put a domain.  Each operation of `CacheStore` is one immediate transaction on its four
tables: it leaves a new database, or an error and the database as it was.  The HMAC, base64 and the
JSON reader are those of the platform.
-/

namespace McLoving.Cache

open List

/-! ## Constants -/

def protocolVersion : String := "mcloving.cache/v1"

def keySchemaVersion : String := "mcloving.cache-key/v1"

def eventSchemaVersion : String := "mcloving.cache-event/v1"

def maxIdentityBytes : ℕ := 256

def zeroDigest : String := String.ofList (List.replicate 64 '0')

/-! ## Records -/

/-- `CacheError`, without the errors of reading frames and of verifying the chain. -/
inductive CacheError where
  | invalidConfig
  | invalidRequest
  | unauthorized
  | entryQuotaExceeded
  | policyQuotaExceeded
  | stateUnavailable
  | clockUnavailable
  deriving DecidableEq

inductive CacheKind where
  | dependency
  | build
  deriving DecidableEq

structure CachePolicy where
  policyId : String
  tenantId : String
  projectId : String
  pipelineId : String
  trustClass : String
  allowedKinds : List CacheKind
  readPrincipals : List String
  writePrincipals : List String
  maxEntryBytes : ℕ
  maxTotalBytes : ℕ
  maxEntries : ℕ
  ttlMs : ℕ
  deriving DecidableEq

structure CacheConfig where
  protocolVersion : String
  serviceId : String
  implementationSha256 : String
  deploymentIdentity : String
  operatorIdentity : String
  cacheGeneration : ℕ
  restoreEpoch : ℕ
  databasePath : String
  receiptKeyId : String
  receiptKeySha256 : String
  maxFrameBytes : ℕ
  maxDatabaseBytes : ℕ
  maxAuditEvents : ℕ
  maxCleanupRows : ℕ
  policies : List CachePolicy
  deriving DecidableEq

structure CacheKeyRequest where
  policyId : String
  tenantId : String
  projectId : String
  pipelineId : String
  trustClass : String
  cacheKind : CacheKind
  generationSha256 : String
  restoreEpoch : ℕ
  logicalKeySha256 : String
  inputSha256 : String
  toolchainSha256 : String
  platformSha256 : String
  deriving DecidableEq

structure CanonicalCacheKey where
  schemaVersion : String
  serviceId : String
  policyId : String
  policySha256 : String
  tenantId : String
  projectId : String
  pipelineId : String
  trustClass : String
  cacheKind : CacheKind
  cacheGeneration : ℕ
  generationSha256 : String
  restoreEpoch : ℕ
  logicalKeySha256 : String
  inputSha256 : String
  toolchainSha256 : String
  platformSha256 : String
  deriving DecidableEq

structure GenerationBinding where
  protocolVersion : String
  serviceId : String
  configurationSha256 : String
  cacheGeneration : ℕ
  restoreEpoch : ℕ

structure NamespaceBinding where
  serviceId : String
  policyId : String
  tenantId : String
  projectId : String
  pipelineId : String
  trustClass : String

inductive CacheOperation where
  | read
  | publish
  | evict
  | cleanup
  deriving DecidableEq

inductive CacheOutcome where
  | miss
  | hit
  | published
  | publicationReplay
  | publicationConflict
  | evicted
  | expired
  | staleGeneration
  | staleRestoreEpoch
  | corruptRejected
  deriving DecidableEq

structure AuditEvent where
  schemaVersion : String
  serviceId : String
  implementationSha256 : String
  configurationSha256 : String
  operation : CacheOperation
  outcome : CacheOutcome
  callerId : String
  policyId : String
  policySha256 : String
  generationSha256 : String
  restoreEpoch : ℕ
  namespaceSha256 : String
  keySha256 : String
  contentSha256 : Option String
  contentBytes : Option ℕ
  expiresAtUnixMs : Option ℤ
  observedAtUnixMs : ℤ
  previousEventSha256 : String
  deriving DecidableEq

structure CacheReceipt where
  sequence : ℕ
  event : AuditEvent
  eventSha256 : String
  signature : String
  deriving DecidableEq

inductive ReadStatus where
  | miss
  | hit
  | corruptRejected
  deriving DecidableEq

structure ReadResult where
  status : ReadStatus
  content : Option (List UInt8)
  receipts : List CacheReceipt
  deriving DecidableEq

inductive PublishStatus where
  | published
  | replay
  | conflict
  | corruptRejected
  deriving DecidableEq

structure PublishResult where
  status : PublishStatus
  receipts : List CacheReceipt
  deriving DecidableEq

structure CleanupResult where
  removed : ℕ
  receipts : List CacheReceipt
  deriving DecidableEq

/-! ## Canonical JSON -/

def CacheKind.toJson : CacheKind → Json
  | .dependency => .str "dependency"
  | .build => .str "build"

def CacheOperation.toJson : CacheOperation → Json
  | .read => .str "read"
  | .publish => .str "publish"
  | .evict => .str "evict"
  | .cleanup => .str "cleanup"

def CacheOutcome.toJson : CacheOutcome → Json
  | .miss => .str "miss"
  | .hit => .str "hit"
  | .published => .str "published"
  | .publicationReplay => .str "publication_replay"
  | .publicationConflict => .str "publication_conflict"
  | .evicted => .str "evicted"
  | .expired => .str "expired"
  | .staleGeneration => .str "stale_generation"
  | .staleRestoreEpoch => .str "stale_restore_epoch"
  | .corruptRejected => .str "corrupt_rejected"

def CachePolicy.toJson (policy : CachePolicy) : Json :=
  .obj [("policy_id", .str policy.policyId), ("tenant_id", .str policy.tenantId),
    ("project_id", .str policy.projectId), ("pipeline_id", .str policy.pipelineId),
    ("trust_class", .str policy.trustClass),
    ("allowed_kinds", .arr (policy.allowedKinds.map CacheKind.toJson)),
    ("read_principals", .arr (policy.readPrincipals.map .str)),
    ("write_principals", .arr (policy.writePrincipals.map .str)),
    ("max_entry_bytes", .num policy.maxEntryBytes), ("max_total_bytes", .num policy.maxTotalBytes),
    ("max_entries", .num policy.maxEntries), ("ttl_ms", .num policy.ttlMs)]

def CacheConfig.toJson (config : CacheConfig) : Json :=
  .obj [("protocol_version", .str config.protocolVersion), ("service_id", .str config.serviceId),
    ("implementation_sha256", .str config.implementationSha256),
    ("deployment_identity", .str config.deploymentIdentity),
    ("operator_identity", .str config.operatorIdentity),
    ("cache_generation", .num config.cacheGeneration), ("restore_epoch", .num config.restoreEpoch),
    ("database_path", .str config.databasePath), ("receipt_key_id", .str config.receiptKeyId),
    ("receipt_key_sha256", .str config.receiptKeySha256),
    ("max_frame_bytes", .num config.maxFrameBytes),
    ("max_database_bytes", .num config.maxDatabaseBytes),
    ("max_audit_events", .num config.maxAuditEvents),
    ("max_cleanup_rows", .num config.maxCleanupRows),
    ("policies", .arr (config.policies.map CachePolicy.toJson))]

def CanonicalCacheKey.toJson (key : CanonicalCacheKey) : Json :=
  .obj [("schema_version", .str key.schemaVersion), ("service_id", .str key.serviceId),
    ("policy_id", .str key.policyId), ("policy_sha256", .str key.policySha256),
    ("tenant_id", .str key.tenantId), ("project_id", .str key.projectId),
    ("pipeline_id", .str key.pipelineId), ("trust_class", .str key.trustClass),
    ("cache_kind", key.cacheKind.toJson), ("cache_generation", .num key.cacheGeneration),
    ("generation_sha256", .str key.generationSha256), ("restore_epoch", .num key.restoreEpoch),
    ("logical_key_sha256", .str key.logicalKeySha256), ("input_sha256", .str key.inputSha256),
    ("toolchain_sha256", .str key.toolchainSha256), ("platform_sha256", .str key.platformSha256)]

def GenerationBinding.toJson (binding : GenerationBinding) : Json :=
  .obj [("protocol_version", .str binding.protocolVersion), ("service_id", .str binding.serviceId),
    ("configuration_sha256", .str binding.configurationSha256),
    ("cache_generation", .num binding.cacheGeneration),
    ("restore_epoch", .num binding.restoreEpoch)]

def NamespaceBinding.toJson (binding : NamespaceBinding) : Json :=
  .obj [("service_id", .str binding.serviceId), ("policy_id", .str binding.policyId),
    ("tenant_id", .str binding.tenantId), ("project_id", .str binding.projectId),
    ("pipeline_id", .str binding.pipelineId), ("trust_class", .str binding.trustClass)]

def AuditEvent.toJson (event : AuditEvent) : Json :=
  .obj [("schema_version", .str event.schemaVersion), ("service_id", .str event.serviceId),
    ("implementation_sha256", .str event.implementationSha256),
    ("configuration_sha256", .str event.configurationSha256),
    ("operation", event.operation.toJson), ("outcome", event.outcome.toJson),
    ("caller_id", .str event.callerId), ("policy_id", .str event.policyId),
    ("policy_sha256", .str event.policySha256),
    ("generation_sha256", .str event.generationSha256), ("restore_epoch", .num event.restoreEpoch),
    ("namespace_sha256", .str event.namespaceSha256), ("key_sha256", .str event.keySha256),
    ("content_sha256", optionJson .str event.contentSha256),
    ("content_bytes", optionJson (fun bytes : ℕ => .num bytes) event.contentBytes),
    ("expires_at_unix_ms", optionJson .num event.expiresAtUnixMs),
    ("observed_at_unix_ms", .num event.observedAtUnixMs),
    ("previous_event_sha256", .str event.previousEventSha256)]

/-! ### What the canonical JSON determines -/

theorem CacheKind.toJson_inj {a b : CacheKind} : a.toJson = b.toJson ↔ a = b := by
  cases a <;> cases b <;> simp [toJson]

theorem CacheOperation.toJson_inj {a b : CacheOperation} : a.toJson = b.toJson ↔ a = b := by
  cases a <;> cases b <;> simp [toJson]

theorem CacheOutcome.toJson_inj {a b : CacheOutcome} : a.toJson = b.toJson ↔ a = b := by
  cases a <;> cases b <;> simp [toJson]

/-- An optional value can be read from its JSON. -/
theorem optionJson_inj {α : Type} {encode : α → Json} (hnull : ∀ a, encode a ≠ .null)
    (hencode : ∀ a b, encode a = encode b → a = b) {a b : Option α} :
    optionJson encode a = optionJson encode b ↔ a = b := by
  refine ⟨fun hsame => ?_, fun hsame => hsame ▸ rfl⟩
  cases a with
  | none =>
    cases b with
    | none => rfl
    | some b => exact absurd hsame.symm (hnull b)
  | some a =>
    cases b with
    | none => exact absurd hsame (hnull a)
    | some b => rw [hencode a b hsame]

/-- The canonical key can be read from its JSON. -/
theorem CanonicalCacheKey.toJson_injective {a b : CanonicalCacheKey} (hsame : a.toJson = b.toJson) :
    a = b := by
  cases a
  cases b
  simpa [toJson, CacheKind.toJson_inj] using hsame

/-- The event can be read from its JSON. -/
theorem AuditEvent.toJson_injective {a b : AuditEvent} (hsame : a.toJson = b.toJson) : a = b := by
  cases a
  cases b
  simpa [toJson, CacheOperation.toJson_inj, CacheOutcome.toJson_inj, optionJson_inj] using hsame

/-- The policy can be read from its JSON. -/
theorem CachePolicy.toJson_injective {a b : CachePolicy} (hsame : a.toJson = b.toJson) : a = b := by
  have hkinds : Function.Injective (List.map CacheKind.toJson) :=
    map_injective_iff.mpr fun _ _ => CacheKind.toJson_inj.mp
  have htexts : Function.Injective (List.map Json.str) :=
    map_injective_iff.mpr fun _ _ hstr => by simpa using hstr
  cases a
  cases b
  simpa [toJson, hkinds.eq_iff, htexts.eq_iff] using hsame

/-- The configuration can be read from its JSON. -/
theorem CacheConfig.toJson_injective {a b : CacheConfig} (hsame : a.toJson = b.toJson) : a = b := by
  have hpolicies : Function.Injective (List.map CachePolicy.toJson) :=
    map_injective_iff.mpr fun _ _ => CachePolicy.toJson_injective
  cases a
  cases b
  simpa [toJson, hpolicies.eq_iff] using hsame

/-! ## Digests -/

def encodeDigest (digest : Digest) : String :=
  String.ofList (digest.bytes.flatMap fun byte => hexDigits 2 byte.toNat)

def sha256 [Platform] (bytes : List UInt8) : String :=
  encodeDigest (Platform.sha256 bytes)

def domainDigest [Platform] (domain : String) (bytes : List UInt8) : String :=
  encodeDigest (Platform.sha256 (domain.toUTF8.toList ++ bytes))

def canonicalDigest [Platform] (value : Json) : String :=
  sha256 value.toBytes

def eventDigest [Platform] (eventJson : List UInt8) : String :=
  domainDigest "mcloving.cache-event/v1\x00" eventJson

/-- The digest of a canonical key. -/
def keyDigest [Platform] (canonicalKey : List UInt8) : String :=
  domainDigest "mcloving.cache-key/v1\x00" canonicalKey

theorem hexDigit_inj : ∀ m < 16, ∀ n < 16,
    Char.ofNat (if m < 10 then 48 + m else 87 + m) = Char.ofNat (if n < 10 then 48 + n else 87 + n) →
      m = n := by
  decide

/-- The two digits of a byte determine it and end before what follows. -/
theorem hexDigits_byte_cancel {a b : UInt8} {x y : List Char}
    (hsame : hexDigits 2 a.toNat ++ x = hexDigits 2 b.toNat ++ y) : a = b ∧ x = y := by
  simp only [hexDigits, nil_append, cons_append] at hsame
  obtain ⟨hhigh, hrest⟩ := List.cons.inj hsame
  obtain ⟨hlow, hxy⟩ := List.cons.inj hrest
  have hhigh := hexDigit_inj _ (Nat.mod_lt _ (by decide)) _ (Nat.mod_lt _ (by decide)) hhigh
  have hlow := hexDigit_inj _ (Nat.mod_lt _ (by decide)) _ (Nat.mod_lt _ (by decide)) hlow
  have ha := a.toNat_lt
  have hb := b.toNat_lt
  exact ⟨UInt8.toNat_inj.mp (by omega), hxy⟩

/-- The digits of bytes determine them. -/
theorem hexDigits_bytes_injective {a b : List UInt8}
    (hsame : (a.flatMap fun byte => hexDigits 2 byte.toNat) =
      b.flatMap fun byte => hexDigits 2 byte.toNat) : a = b := by
  induction a generalizing b with
  | nil =>
    cases b with
    | nil => rfl
    | cons => cases hsame
  | cons _ _ ih =>
    cases b with
    | nil => cases hsame
    | cons =>
      rw [flatMap_cons, flatMap_cons] at hsame
      obtain ⟨rfl, hrest⟩ := hexDigits_byte_cancel hsame
      rw [ih hrest]

/-- The text of a digest determines it. -/
theorem encodeDigest_injective {a b : Digest} (hsame : encodeDigest a = encodeDigest b) : a = b := by
  cases a
  cases b
  simpa using hexDigits_bytes_injective (String.ofList_injective hsame)

/-! ## Checks -/

/-- `valid_digest`. -/
def validDigest (value : String) : Bool :=
  value.utf8ByteSize = 64 && value.toList.all fun c => ('0' ≤ c && c ≤ '9') || ('a' ≤ c && c ≤ 'f')

/-- `valid_identity`. -/
def validIdentity (value : String) : Bool :=
  value ≠ "" && value ≠ "." && value ≠ ".." && value.utf8ByteSize ≤ maxIdentityBytes &&
    value.toList.all fun c => '!' ≤ c && c ≤ '~' && c ≠ '/' && c ≠ '\\'

/-- `strictly_sorted_by`. -/
def strictlySortedBy {α : Type} (key : α → String) : List α → Bool
  | first :: second :: rest => key first < key second && strictlySortedBy key (second :: rest)
  | _ => true

/-- The order of the kinds' declaration. -/
def CacheKind.rank : CacheKind → ℕ
  | .dependency => 0
  | .build => 1

/-- `strictly_sorted` on kinds. -/
def strictlySortedKinds : List CacheKind → Bool
  | first :: second :: rest => first.rank < second.rank && strictlySortedKinds (second :: rest)
  | _ => true

/-- `to_i64`. -/
def toI64 (value : ℕ) : Except CacheError ℤ :=
  if i64Max < value then .error .invalidConfig else .ok value

/-- The checks of one policy. -/
def CachePolicy.valid (policy : CachePolicy) : Bool :=
  validIdentity policy.policyId && validIdentity policy.tenantId && validIdentity policy.projectId &&
    validIdentity policy.pipelineId && validIdentity policy.trustClass &&
    !policy.allowedKinds.isEmpty && strictlySortedKinds policy.allowedKinds &&
    !policy.readPrincipals.isEmpty && !policy.writePrincipals.isEmpty &&
    strictlySortedBy id policy.readPrincipals && strictlySortedBy id policy.writePrincipals &&
    policy.readPrincipals.all validIdentity && policy.writePrincipals.all validIdentity &&
    policy.maxEntryBytes ≠ 0 && policy.maxEntryBytes ≤ policy.maxTotalBytes &&
    policy.maxEntries ≠ 0 && policy.ttlMs ≠ 0 && decide ((policy.ttlMs : ℤ) ≤ i64Max)

/-- The sum of the policies' quotas so far. -/
def addPolicyBytes (total : ℕ) (policy : CachePolicy) : Except CacheError ℕ :=
  if !policy.valid || 2 ^ 64 ≤ total + policy.maxTotalBytes then .error .invalidConfig
  else .ok (total + policy.maxTotalBytes)

/-- `validate_config`. -/
def validateConfig (config : CacheConfig) : Except CacheError Unit := do
  if config.protocolVersion ≠ protocolVersion || !validIdentity config.serviceId ||
      !validDigest config.implementationSha256 || !validIdentity config.deploymentIdentity ||
      !validIdentity config.operatorIdentity || config.cacheGeneration = 0 ||
      config.databasePath.toList.head? ≠ some '/' || !validIdentity config.receiptKeyId ||
      !validDigest config.receiptKeySha256 || config.maxFrameBytes < 1024 ||
      config.maxDatabaseBytes = 0 || config.maxAuditEvents = 0 || config.maxCleanupRows = 0 ||
      10000 < config.maxCleanupRows || config.policies.isEmpty ||
      !strictlySortedBy CachePolicy.policyId config.policies then
    throw .invalidConfig
  let total ← config.policies.foldlM addPolicyBytes 0
  if config.maxDatabaseBytes < total then
    throw .invalidConfig

/-- What the cache takes from other software. -/
class CachePlatform extends Platform where
  /-- HMAC-SHA-256 of a message under a key. -/
  hmacSha256 : List UInt8 → List UInt8 → List UInt8
  /-- `BASE64.encode`. -/
  encodeBase64 : List UInt8 → String
  /-- `BASE64.decode`. -/
  decodeBase64 : String → Option (List UInt8)
  /-- `serde_json::from_slice::<AuditEvent>`. -/
  readEvent : List UInt8 → Option AuditEvent
  /-- `serde_json::from_slice::<CanonicalCacheKey>`. -/
  readKey : List UInt8 → Option CanonicalCacheKey

/-! ## Tables -/

/-- A row of `entries`, which is also a `StoredEntry`. -/
structure EntryRow where
  namespaceSha256 : String
  canonicalKey : List UInt8
  policyId : String
  policySha256 : String
  generationSha256 : String
  restoreEpoch : ℕ
  contentSha256 : String
  contentBytes : ℕ
  content : List UInt8
  publicationEventSha256 : String
  createdAtUnixMs : ℤ
  expiresAtUnixMs : ℤ
  lastAccessSequence : ℕ
  deriving DecidableEq

/-- A row of `audit_events`; its sequence number is its place. -/
structure AuditRow where
  eventJson : List UInt8
  eventSha256 : String
  signature : String
  deriving DecidableEq

/-- The row of `metadata`. -/
structure Metadata where
  serviceId : String
  receiptKeyId : String
  receiptKeySha256 : String
  activeConfigurationSha256 : String
  activeGenerationSha256 : String
  activeCacheGeneration : ℤ
  activeRestoreEpoch : ℤ
  deriving DecidableEq

/-- A row of `runtime_generations`. -/
structure GenerationRow where
  implementationSha256 : String
  cacheGeneration : ℤ
  restoreEpoch : ℤ
  generationSha256 : String
  deriving DecidableEq

/-- The database of a cache. -/
structure Database where
  metadata : Option Metadata
  runtimeGenerations : Table String GenerationRow
  entries : Table String EntryRow
  auditEvents : List AuditRow

/-- A new database. -/
def Database.initial : Database := ⟨none, ∅, ∅, []⟩

/-- `delete_entry`. -/
def Database.deleteEntry (db : Database) (keySha256 : String) : Database :=
  { db with entries := db.entries.erase keySha256 }

section Store

variable [CachePlatform]

/-- `derive_generation_sha256`, of a valid configuration. -/
def deriveGenerationSha256 (config : CacheConfig) : String :=
  canonicalDigest (GenerationBinding.toJson
    ⟨config.protocolVersion, config.serviceId, canonicalDigest config.toJson,
      config.cacheGeneration, config.restoreEpoch⟩)

/-- A `CacheStore`: an opened handle. -/
structure CacheStore where
  config : CacheConfig
  configurationSha256 : String
  generationSha256 : String
  receiptKey : List UInt8
  deriving DecidableEq

/-! ## Opening -/

/-- Whether the configuration is the active one. -/
def Metadata.exactActive (metadata : Metadata) (configurationSha256 generationSha256 : String)
    (cacheGeneration restoreEpoch : ℤ) : Bool :=
  metadata.activeConfigurationSha256 = configurationSha256 &&
    metadata.activeGenerationSha256 = generationSha256 &&
    metadata.activeCacheGeneration = cacheGeneration &&
    metadata.activeRestoreEpoch = restoreEpoch

/-- Whether the requested generation advances the active one. -/
def Metadata.monotonicAdvance (metadata : Metadata) (cacheGeneration restoreEpoch : ℤ) : Bool :=
  decide (metadata.activeCacheGeneration ≤ cacheGeneration) &&
    decide (metadata.activeRestoreEpoch ≤ restoreEpoch) &&
    (metadata.activeCacheGeneration < cacheGeneration || metadata.activeRestoreEpoch < restoreEpoch)

/-- The insertion into `runtime_generations`, which does nothing for a known configuration. -/
def insertGeneration (generations : Table String GenerationRow) (configurationSha256 : String)
    (row : GenerationRow) : Except CacheError (Table String GenerationRow) :=
  match generations.lookup configurationSha256 with
  | some _ => .ok generations
  | none =>
    if generations.any fun _ other => other.generationSha256 = row.generationSha256 then
      .error .stateUnavailable
    else .ok (generations.insert configurationSha256 row)

/-- The transaction of `initialize_database`. -/
def initializeDatabase (db : Database) (config : CacheConfig)
    (configurationSha256 generationSha256 : String) : Except CacheError Database := do
  let cacheGeneration ← toI64 config.cacheGeneration
  let restoreEpoch ← toI64 config.restoreEpoch
  let stored := db.metadata.getD ⟨config.serviceId, config.receiptKeyId, config.receiptKeySha256,
    configurationSha256, generationSha256, cacheGeneration, restoreEpoch⟩
  if stored.serviceId ≠ config.serviceId || stored.receiptKeyId ≠ config.receiptKeyId ||
      stored.receiptKeySha256 ≠ config.receiptKeySha256 then
    throw .stateUnavailable
  let exactActive :=
    stored.exactActive configurationSha256 generationSha256 cacheGeneration restoreEpoch
  let monotonicAdvance := stored.monotonicAdvance cacheGeneration restoreEpoch
  if !exactActive && !monotonicAdvance then
    throw .stateUnavailable
  let row : GenerationRow :=
    ⟨config.implementationSha256, cacheGeneration, restoreEpoch, generationSha256⟩
  let generations ← insertGeneration db.runtimeGenerations configurationSha256 row
  if generations.lookup configurationSha256 ≠ some row then
    throw .stateUnavailable
  let metadata := if monotonicAdvance then
    { stored with
      activeConfigurationSha256 := configurationSha256
      activeGenerationSha256 := generationSha256
      activeCacheGeneration := cacheGeneration
      activeRestoreEpoch := restoreEpoch }
    else stored
  return { db with metadata := some metadata, runtimeGenerations := generations }

/-- `open_with_clock`: the handle, and the database that it leaves.  The integrity check of SQLite
comes after the commit. -/
def openWithClock (db : Database) (config : CacheConfig) (receiptKey : List UInt8) (intact : Bool) :
    Except CacheError CacheStore × Database :=
  let configurationSha256 := canonicalDigest config.toJson
  let generationSha256 := deriveGenerationSha256 config
  match validateConfig config with
  | .error error => (.error error, db)
  | .ok _ =>
    if receiptKey.length < 32 || sha256 receiptKey ≠ config.receiptKeySha256 then
      (.error .invalidConfig, db)
    else
      match initializeDatabase db config configurationSha256 generationSha256 with
      | .error error => (.error error, db)
      | .ok db =>
        if intact then (.ok ⟨config, configurationSha256, generationSha256, receiptKey⟩, db)
        else (.error .stateUnavailable, db)

/-! ## Keys -/

structure AdmittedKey where
  policy : CachePolicy
  policySha256 : String
  canonical : CanonicalCacheKey
  canonicalBytes : List UInt8
  namespaceSha256 : String
  keySha256 : String
  deriving DecidableEq

/-- The canonical key of a request under a policy. -/
def canonicalKey (config : CacheConfig) (generationSha256 : String) (policy : CachePolicy)
    (request : CacheKeyRequest) : CanonicalCacheKey where
  schemaVersion := keySchemaVersion
  serviceId := config.serviceId
  policyId := policy.policyId
  policySha256 := canonicalDigest policy.toJson
  tenantId := request.tenantId
  projectId := request.projectId
  pipelineId := request.pipelineId
  trustClass := request.trustClass
  cacheKind := request.cacheKind
  cacheGeneration := config.cacheGeneration
  generationSha256 := generationSha256
  restoreEpoch := request.restoreEpoch
  logicalKeySha256 := request.logicalKeySha256
  inputSha256 := request.inputSha256
  toolchainSha256 := request.toolchainSha256
  platformSha256 := request.platformSha256

/-- `admit_key`.  The configuration is valid, so that its sorted lists are searched. -/
def admitKey (config : CacheConfig) (generationSha256 callerId callerTrustClass : String)
    (request : CacheKeyRequest) (write : Bool) : Except CacheError AdmittedKey := do
  if !validIdentity callerId || !validIdentity callerTrustClass then
    throw .invalidRequest
  if request.generationSha256 ≠ generationSha256 || request.restoreEpoch ≠ config.restoreEpoch ||
      !validDigest request.generationSha256 || !validDigest request.logicalKeySha256 ||
      !validDigest request.inputSha256 || !validDigest request.toolchainSha256 ||
      !validDigest request.platformSha256 then
    throw .invalidRequest
  match config.policies.find? fun policy => policy.policyId = request.policyId with
  | none => throw .unauthorized
  | some policy =>
    let principals := if write then policy.writePrincipals else policy.readPrincipals
    if policy.tenantId ≠ request.tenantId || policy.projectId ≠ request.projectId ||
        policy.pipelineId ≠ request.pipelineId || policy.trustClass ≠ request.trustClass ||
        policy.trustClass ≠ callerTrustClass || request.cacheKind ∉ policy.allowedKinds ||
        callerId ∉ principals then
      throw .unauthorized
    let canonical := canonicalKey config generationSha256 policy request
    let canonicalBytes := canonical.toJson.toBytes
    return {
      policy := policy
      policySha256 := canonicalDigest policy.toJson
      canonical := canonical
      canonicalBytes := canonicalBytes
      namespaceSha256 := canonicalDigest (NamespaceBinding.toJson
        ⟨config.serviceId, policy.policyId, policy.tenantId, policy.projectId, policy.pipelineId,
          policy.trustClass⟩)
      keySha256 := keyDigest canonicalBytes }

/-! ## Receipts -/

structure ReceiptDetails where
  operation : CacheOperation
  outcome : CacheOutcome
  contentSha256 : Option String
  contentBytes : Option ℕ
  expiresAtUnixMs : Option ℤ
  observedAtUnixMs : ℤ

structure ReceiptSubject where
  policyId : String
  policySha256 : String
  generationSha256 : String
  restoreEpoch : ℕ
  namespaceSha256 : String
  keySha256 : String

namespace CacheStore

variable (store : CacheStore) (db : Database)

/-- `admit`. -/
def admitRequest (callerId callerTrustClass : String) (request : CacheKeyRequest) (write : Bool) :
    Except CacheError AdmittedKey :=
  admitKey store.config store.generationSha256 callerId callerTrustClass request write

/-- `assert_active_generation`. -/
def assertActiveGeneration : Except CacheError Unit := do
  let cacheGeneration ← toI64 store.config.cacheGeneration
  let restoreEpoch ← toI64 store.config.restoreEpoch
  match db.metadata with
  | none => throw .stateUnavailable
  | some metadata =>
    if metadata.activeGenerationSha256 ≠ store.generationSha256 ||
        metadata.activeCacheGeneration ≠ cacheGeneration ||
        metadata.activeRestoreEpoch ≠ restoreEpoch then
      throw .stateUnavailable

def sign (digest : String) : String :=
  CachePlatform.encodeBase64 (CachePlatform.hmacSha256 store.receiptKey digest.toUTF8.toList)

/-- `verify_signature`. -/
def verifySignature (digest signature : String) : Bool :=
  CachePlatform.decodeBase64 signature =
    some (CachePlatform.hmacSha256 store.receiptKey digest.toUTF8.toList)

/-- The event of a receipt. -/
def auditEvent (callerId : String) (subject : ReceiptSubject) (details : ReceiptDetails) :
    AuditEvent where
  schemaVersion := eventSchemaVersion
  serviceId := store.config.serviceId
  implementationSha256 := store.config.implementationSha256
  configurationSha256 := store.configurationSha256
  operation := details.operation
  outcome := details.outcome
  callerId := callerId
  policyId := subject.policyId
  policySha256 := subject.policySha256
  generationSha256 := subject.generationSha256
  restoreEpoch := subject.restoreEpoch
  namespaceSha256 := subject.namespaceSha256
  keySha256 := subject.keySha256
  contentSha256 := details.contentSha256
  contentBytes := details.contentBytes
  expiresAtUnixMs := details.expiresAtUnixMs
  observedAtUnixMs := details.observedAtUnixMs
  previousEventSha256 := (db.auditEvents.getLast?.map AuditRow.eventSha256).getD zeroDigest

/-- `append_subject_receipt`. -/
def appendSubjectReceipt (callerId : String) (subject : ReceiptSubject) (details : ReceiptDetails) :
    Except CacheError (CacheReceipt × Database) :=
  if store.config.maxAuditEvents ≤ db.auditEvents.length then .error .stateUnavailable
  else
    let event := store.auditEvent db callerId subject details
    let eventJson := event.toJson.toBytes
    let eventSha256 := eventDigest eventJson
    let signature := store.sign eventSha256
    if db.auditEvents.any fun row => row.eventSha256 = eventSha256 then .error .stateUnavailable
    else
      .ok (⟨db.auditEvents.length + 1, event, eventSha256, signature⟩,
        { db with auditEvents := db.auditEvents ++ [⟨eventJson, eventSha256, signature⟩] })

/-- `append_receipt`. -/
def appendReceipt (callerId : String) (admitted : AdmittedKey) (details : ReceiptDetails) :
    Except CacheError (CacheReceipt × Database) :=
  store.appendSubjectReceipt db callerId
    { policyId := admitted.policy.policyId
      policySha256 := admitted.policySha256
      generationSha256 := admitted.canonical.generationSha256
      restoreEpoch := admitted.canonical.restoreEpoch
      namespaceSha256 := admitted.namespaceSha256
      keySha256 := admitted.keySha256 } details

/-! ### Publications in the audit table -/

/-- `authenticate_publication_candidate`. -/
def authenticatePublicationCandidate (row : AuditRow) (canonical : CanonicalCacheKey)
    (namespaceSha256 keySha256 : String) : Option (AuditEvent × String) := do
  let event ← CachePlatform.readEvent row.eventJson
  if event.toJson.toBytes ≠ row.eventJson || eventDigest row.eventJson ≠ row.eventSha256 ||
      !store.verifySignature row.eventSha256 row.signature ||
      event.schemaVersion ≠ eventSchemaVersion || event.serviceId ≠ store.config.serviceId ||
      event.operation ≠ .publish || event.outcome ≠ .published ||
      event.policyId ≠ canonical.policyId || event.policySha256 ≠ canonical.policySha256 ||
      event.generationSha256 ≠ canonical.generationSha256 ||
      event.restoreEpoch ≠ canonical.restoreEpoch || event.namespaceSha256 ≠ namespaceSha256 ||
      event.keySha256 ≠ keySha256 || !validDigest event.implementationSha256 ||
      !validDigest event.configurationSha256 || !validDigest event.policySha256 ||
      !event.contentSha256.any validDigest || event.contentBytes.isNone ||
      event.expiresAtUnixMs.isNone then
    none
  else
    let expectedGenerationSha256 := canonicalDigest (GenerationBinding.toJson
      ⟨protocolVersion, canonical.serviceId, event.configurationSha256, canonical.cacheGeneration,
        canonical.restoreEpoch⟩)
    if expectedGenerationSha256 = canonical.generationSha256 then some (event, row.eventSha256)
    else none

/-- `authenticated_publication_subject`. -/
def authenticatedPublicationSubject (canonical : CanonicalCacheKey)
    (namespaceSha256 keySha256 preferredEventSha256 : String) :
    Except CacheError (AuditEvent × String) :=
  let authenticate (row : AuditRow) :=
    store.authenticatePublicationCandidate row canonical namespaceSha256 keySha256
  let preferred :=
    if validDigest preferredEventSha256 then
      (db.auditEvents.find? fun row => row.eventSha256 = preferredEventSha256).bind authenticate
    else none
  let others := db.auditEvents.filter fun row => row.eventSha256 ≠ preferredEventSha256
  match preferred.or (others.findSome? authenticate) with
  | some publication => .ok publication
  | none => .error .stateUnavailable

/-- `stored_publication_matches`. -/
def storedPublicationMatches (stored : EntryRow) (canonical : CanonicalCacheKey)
    (namespaceSha256 keySha256 : String) : Except CacheError Bool := do
  let (event, eventSha256) ← store.authenticatedPublicationSubject db canonical namespaceSha256
    keySha256 stored.publicationEventSha256
  return validDigest stored.publicationEventSha256 && eventSha256 = stored.publicationEventSha256 &&
    event.contentSha256 = some stored.contentSha256 &&
    event.contentBytes = some stored.contentBytes &&
    event.expiresAtUnixMs = some stored.expiresAtUnixMs &&
    event.observedAtUnixMs = stored.createdAtUnixMs

/-- `stored_content_matches`. -/
def storedContentMatches (stored : EntryRow) : Bool :=
  stored.content.length = stored.contentBytes && sha256 stored.content = stored.contentSha256

/-- `append_stored_receipt`. -/
def appendStoredReceipt (callerId keySha256 : String) (stored : EntryRow)
    (details : ReceiptDetails) : Except CacheError (CacheReceipt × Database) :=
  match CachePlatform.readKey stored.canonicalKey with
  | none => .error .stateUnavailable
  | some canonical => do
    let namespaceSha256 := canonicalDigest (NamespaceBinding.toJson
      ⟨canonical.serviceId, canonical.policyId, canonical.tenantId, canonical.projectId,
        canonical.pipelineId, canonical.trustClass⟩)
    if canonical.toJson.toBytes ≠ stored.canonicalKey ||
        canonical.schemaVersion ≠ keySchemaVersion ||
        canonical.serviceId ≠ store.config.serviceId || canonical.policyId ≠ stored.policyId ||
        canonical.policySha256 ≠ stored.policySha256 ||
        canonical.generationSha256 ≠ stored.generationSha256 ||
        canonical.restoreEpoch ≠ stored.restoreEpoch ||
        namespaceSha256 ≠ stored.namespaceSha256 || keyDigest stored.canonicalKey ≠ keySha256 ||
        !validIdentity canonical.serviceId || !validIdentity canonical.policyId ||
        !validIdentity canonical.tenantId || !validIdentity canonical.projectId ||
        !validIdentity canonical.pipelineId || !validIdentity canonical.trustClass ||
        !validDigest stored.policySha256 || !validDigest stored.generationSha256 ||
        !validDigest canonical.logicalKeySha256 || !validDigest canonical.inputSha256 ||
        !validDigest canonical.toolchainSha256 || !validDigest canonical.platformSha256 then
      throw .stateUnavailable
    let publicationMatches ←
      store.storedPublicationMatches db stored canonical namespaceSha256 keySha256
    let details :=
      if publicationMatches && validDigest stored.contentSha256 && storedContentMatches stored then
        details
      else
        { operation := details.operation
          outcome := .corruptRejected
          contentSha256 := none
          contentBytes := none
          expiresAtUnixMs := none
          observedAtUnixMs := details.observedAtUnixMs }
    store.appendSubjectReceipt db callerId
      { policyId := stored.policyId
        policySha256 := stored.policySha256
        generationSha256 := stored.generationSha256
        restoreEpoch := stored.restoreEpoch
        namespaceSha256 := stored.namespaceSha256
        keySha256 := keySha256 } details

/-! ## Entries -/

/-- The publication event of an entry, compared with the entry and the admitted key. -/
def publicationMatches (event : AuditEvent) (row : AuditRow) (stored : EntryRow)
    (admitted : AdmittedKey) : Bool :=
  event.toJson.toBytes = row.eventJson && eventDigest row.eventJson = row.eventSha256 &&
    row.eventSha256 = stored.publicationEventSha256 &&
    store.verifySignature row.eventSha256 row.signature &&
    event.schemaVersion = eventSchemaVersion && event.serviceId = store.config.serviceId &&
    event.implementationSha256 = store.config.implementationSha256 &&
    event.configurationSha256 = store.configurationSha256 && event.operation = .publish &&
    event.outcome = .published && event.callerId ∈ admitted.policy.writePrincipals &&
    event.policyId = admitted.policy.policyId && event.policySha256 = admitted.policySha256 &&
    event.generationSha256 = admitted.canonical.generationSha256 &&
    event.restoreEpoch = admitted.canonical.restoreEpoch &&
    event.namespaceSha256 = admitted.namespaceSha256 && event.keySha256 = admitted.keySha256 &&
    event.contentSha256 = some stored.contentSha256 &&
    event.contentBytes = some stored.contentBytes &&
    event.expiresAtUnixMs = some stored.expiresAtUnixMs &&
    event.observedAtUnixMs = stored.createdAtUnixMs

/-- `entry_matches`. -/
def entryMatches (stored : EntryRow) (admitted : AdmittedKey) : Except CacheError Bool := do
  let ttl ← toI64 admitted.policy.ttlMs
  if i64Max < stored.createdAtUnixMs + ttl then
    throw .stateUnavailable
  if stored.canonicalKey ≠ admitted.canonicalBytes ||
      stored.namespaceSha256 ≠ admitted.namespaceSha256 ||
      stored.policyId ≠ admitted.policy.policyId || stored.policySha256 ≠ admitted.policySha256 ||
      stored.generationSha256 ≠ admitted.canonical.generationSha256 ||
      stored.restoreEpoch ≠ admitted.canonical.restoreEpoch ||
      stored.expiresAtUnixMs ≠ stored.createdAtUnixMs + ttl ||
      !validDigest stored.publicationEventSha256 then
    return false
  match db.auditEvents.find? fun row => row.eventSha256 = stored.publicationEventSha256 with
  | none => return false
  | some row =>
    match CachePlatform.readEvent row.eventJson with
    | none => return false
    | some event => return store.publicationMatches event row stored admitted

/-- `stale_outcome`. -/
def staleOutcome (stored : EntryRow) (now : ℤ) : CacheOutcome :=
  if stored.expiresAtUnixMs ≤ now then .expired
  else if stored.restoreEpoch ≠ store.config.restoreEpoch then .staleRestoreEpoch
  else if stored.generationSha256 ≠ store.generationSha256 then .staleGeneration
  else .evicted

/-- The details of a receipt about a stored entry. -/
def storedDetails (operation : CacheOperation) (outcome : CacheOutcome) (stored : EntryRow)
    (expiresAtUnixMs : Option ℤ) (now : ℤ) : ReceiptDetails :=
  ⟨operation, outcome, some stored.contentSha256, some stored.contentBytes, expiresAtUnixMs, now⟩

/-- An entry is deleted and its stale outcome recorded. -/
def retire (operation : CacheOperation) (callerId : String) (now : ℤ)
    (progress : List CacheReceipt × Database) (candidate : String × EntryRow) :
    Except CacheError (List CacheReceipt × Database) := do
  let (receipt, db) ← store.appendStoredReceipt (progress.2.deleteEntry candidate.1) callerId
    candidate.1 candidate.2 (storedDetails operation (store.staleOutcome candidate.2 now)
      candidate.2 (some candidate.2.expiresAtUnixMs) now)
  return (progress.1 ++ [receipt], db)

/-- Whether an entry is stale. -/
def isStale (stored : EntryRow) (now : ℤ) : Bool :=
  decide (stored.expiresAtUnixMs ≤ now) || stored.generationSha256 ≠ store.generationSha256 ||
    stored.restoreEpoch ≠ store.config.restoreEpoch

/-- The entries of a query in the order of their keys. -/
def candidates (qualifies : EntryRow → Bool) (limit : ℕ) : List (String × EntryRow) :=
  ((db.entries.select fun _ row => qualifies row).insertionSort
    fun left right => left.1 ≤ right.1).take limit

/-- `remove_stale_for_policy`. -/
def removeStaleForPolicy (callerId : String) (admitted : AdmittedKey) (now : ℤ)
    (receipts : List CacheReceipt) : Except CacheError (List CacheReceipt × Database) :=
  let stale (row : EntryRow) := row.policyId = admitted.policy.policyId && store.isStale row now
  (candidates db stale (store.config.maxCleanupRows - receipts.length)).foldlM
    (store.retire .evict callerId now) (receipts, db)

/-- The number of a policy's entries and of their bytes. -/
def policyUsage (policyId : String) : ℕ × ℕ :=
  let rows := db.entries.select fun _ row => row.policyId = policyId
  (rows.length, (rows.map fun row => row.2.contentBytes).sum)

/-- The order in which entries are evicted. -/
def evictsBefore (left right : String × EntryRow) : Bool :=
  if left.2.lastAccessSequence ≠ right.2.lastAccessSequence then
    decide (left.2.lastAccessSequence < right.2.lastAccessSequence)
  else if left.2.createdAtUnixMs ≠ right.2.createdAtUnixMs then
    decide (left.2.createdAtUnixMs < right.2.createdAtUnixMs)
  else left.1 ≤ right.1

/-- The least recently used entry of a policy. -/
def leastRecentlyUsed (policyId : String) : Option (String × EntryRow) :=
  ((db.entries.select fun _ row => row.policyId = policyId).insertionSort
    fun left right => evictsBefore left right).head?

/-- `evict_to_fit`, with the number of receipts that may still be written. -/
def evictToFit (callerId : String) (admitted : AdmittedKey) (incomingBytes : ℕ) (now : ℤ) :
    ℕ → List CacheReceipt × Database → Except CacheError (List CacheReceipt × Database)
  | room, progress =>
    let (entryCount, totalBytes) := policyUsage progress.2 admitted.policy.policyId
    if i64Max < totalBytes then .error .stateUnavailable
    else if entryCount < admitted.policy.maxEntries &&
        totalBytes + incomingBytes ≤ admitted.policy.maxTotalBytes then .ok progress
    else
      match room with
      | 0 => .error .policyQuotaExceeded
      | room + 1 =>
        match leastRecentlyUsed progress.2 admitted.policy.policyId with
        | none => .error .policyQuotaExceeded
        | some candidate => do
          let progress ← store.retire .evict callerId now progress candidate
          evictToFit callerId admitted incomingBytes now room progress

/-! ## Operations -/

/-- The end of `publish`: room is made, and the entry and its receipt are written. -/
def insertEntry (callerId : String) (admitted : AdmittedKey) (content : List UInt8) (now : ℤ)
    (expiresAt : ℤ) (receipts : List CacheReceipt) :
    Except CacheError (PublishResult × Database) := do
  let progress ← store.removeStaleForPolicy db callerId admitted now receipts
  let (receipts, db) ← store.evictToFit callerId admitted content.length now
    (store.config.maxCleanupRows - progress.1.length) progress
  let _ ← toI64 store.config.restoreEpoch
  let _ ← toI64 content.length
  if (db.entries.lookup admitted.keySha256).isSome then
    throw .stateUnavailable
  let row : EntryRow :=
    { namespaceSha256 := admitted.namespaceSha256
      canonicalKey := admitted.canonicalBytes
      policyId := admitted.policy.policyId
      policySha256 := admitted.policySha256
      generationSha256 := store.generationSha256
      restoreEpoch := store.config.restoreEpoch
      contentSha256 := sha256 content
      contentBytes := content.length
      content := content
      publicationEventSha256 := ""
      createdAtUnixMs := now
      expiresAtUnixMs := expiresAt
      lastAccessSequence := 0 }
  let (receipt, db) ← store.appendReceipt
    { db with entries := db.entries.insert admitted.keySha256 row } callerId admitted
    ⟨.publish, .published, some (sha256 content), some content.length, some expiresAt, now⟩
  let _ ← toI64 receipt.sequence
  return (⟨.published, receipts ++ [receipt]⟩,
    { db with entries := db.entries.modify admitted.keySha256 fun row =>
        { row with
          lastAccessSequence := receipt.sequence
          publicationEventSha256 := receipt.eventSha256 } })

/-- The answer to a publication of a key that has a live entry. -/
def answerPublication (stored : EntryRow) (content : List UInt8) : PublishStatus × CacheOutcome :=
  if stored.contentSha256 = sha256 content && stored.contentBytes = content.length &&
      stored.content = content then (.replay, .publicationReplay)
  else (.conflict, .publicationConflict)

/-- `publish`. -/
def publish (now : ℤ) (callerId callerTrustClass : String) (request : CacheKeyRequest)
    (content : List UInt8) : Except CacheError (PublishResult × Database) := do
  let admitted ← store.admitRequest callerId callerTrustClass request true
  if admitted.policy.maxEntryBytes < content.length then
    throw .entryQuotaExceeded
  store.assertActiveGeneration db
  let ttl ← toI64 admitted.policy.ttlMs
  if i64Max < now + ttl then
    throw .clockUnavailable
  match db.entries.lookup admitted.keySha256 with
  | none => store.insertEntry db callerId admitted content now (now + ttl) []
  | some stored =>
    let entryMatches ← store.entryMatches db stored admitted
    if !entryMatches || !storedContentMatches stored then
      let (receipt, db) ← store.appendStoredReceipt (db.deleteEntry admitted.keySha256) callerId
        admitted.keySha256 stored (storedDetails .publish .corruptRejected stored none now)
      return (⟨.corruptRejected, [receipt]⟩, db)
    else if stored.expiresAtUnixMs ≤ now then
      let (receipt, db) ← store.appendStoredReceipt (db.deleteEntry admitted.keySha256) callerId
        admitted.keySha256 stored
        (storedDetails .evict .expired stored (some stored.expiresAtUnixMs) now)
      store.insertEntry db callerId admitted content now (now + ttl) [receipt]
    else
      let answer := answerPublication stored content
      let (receipt, db) ← store.appendReceipt db callerId admitted
        ⟨.publish, answer.2, some (sha256 content), some content.length, none, now⟩
      return (⟨answer.1, [receipt]⟩, db)

/-- The details of a receipt of a miss. -/
def missDetails (now : ℤ) : ReceiptDetails :=
  ⟨.read, .miss, none, none, none, now⟩

/-- `read`. -/
def read (now : ℤ) (callerId callerTrustClass : String) (request : CacheKeyRequest) :
    Except CacheError (ReadResult × Database) := do
  let admitted ← store.admitRequest callerId callerTrustClass request false
  store.assertActiveGeneration db
  match db.entries.lookup admitted.keySha256 with
  | none =>
    let (receipt, db) ← store.appendReceipt db callerId admitted (missDetails now)
    return (⟨.miss, none, [receipt]⟩, db)
  | some stored =>
    let entryMatches ← store.entryMatches db stored admitted
    if !entryMatches || !storedContentMatches stored then
      let (receipt, db) ← store.appendStoredReceipt (db.deleteEntry admitted.keySha256) callerId
        admitted.keySha256 stored (storedDetails .read .corruptRejected stored none now)
      return (⟨.corruptRejected, none, [receipt]⟩, db)
    else if stored.expiresAtUnixMs ≤ now then
      let (expired, db) ← store.appendStoredReceipt (db.deleteEntry admitted.keySha256) callerId
        admitted.keySha256 stored
        (storedDetails .evict .expired stored (some stored.expiresAtUnixMs) now)
      let (miss, db) ← store.appendReceipt db callerId admitted (missDetails now)
      return (⟨.miss, none, [expired, miss]⟩, db)
    else
      let (receipt, db) ← store.appendReceipt db callerId admitted
        (storedDetails .read .hit stored (some stored.expiresAtUnixMs) now)
      let _ ← toI64 receipt.sequence
      return (⟨.hit, some stored.content, [receipt]⟩,
        { db with entries := db.entries.modify admitted.keySha256 fun row =>
            { row with lastAccessSequence := receipt.sequence } })

/-- `cleanup`. -/
def cleanup (now : ℤ) (callerId : String) : Except CacheError (CleanupResult × Database) := do
  if callerId ≠ store.config.operatorIdentity then
    throw .unauthorized
  store.assertActiveGeneration db
  let progress ← (candidates db (store.isStale · now) store.config.maxCleanupRows).foldlM
    (store.retire .cleanup callerId now) ([], db)
  return (⟨progress.1.length, progress.1⟩, progress.2)

end CacheStore

end Store

end McLoving.Cache
