import McLoving.Cache.Hits

/-!
# Generations of a cache

A configuration becomes active only if its cache generation and restore epoch do not go back, and
one of them goes up unless it is the active configuration itself.  So a handle whose configuration
is no longer active stays out for good, and a hit returns what was published under the active
configuration.
-/

namespace McLoving.Cache

open List Option Except Json History Cache.System CacheStore

section Generations

/-! ## The active pair -/

/-- Neither component of the active pair goes back, and the active configuration changes only with
it. -/
structure Metadata.Advances (metadata metadata' : Metadata) : Prop where
  generation : metadata.activeCacheGeneration ≤ metadata'.activeCacheGeneration
  epoch : metadata.activeRestoreEpoch ≤ metadata'.activeRestoreEpoch
  same : metadata.activeCacheGeneration = metadata'.activeCacheGeneration →
    metadata.activeRestoreEpoch = metadata'.activeRestoreEpoch →
    metadata.activeConfigurationSha256 = metadata'.activeConfigurationSha256

theorem Metadata.Advances.refl (metadata : Metadata) : metadata.Advances metadata :=
  ⟨le_rfl, le_rfl, fun _ _ => rfl⟩

variable {metadata : Metadata} {db : Database} {store : CacheStore}

theorem Metadata.Advances.trans {metadata' metadata'' : Metadata}
    (hfst : metadata.Advances metadata') (hsnd : metadata'.Advances metadata'') :
    metadata.Advances metadata'' := by
  refine ⟨hfst.generation.trans hsnd.generation, hfst.epoch.trans hsnd.epoch, fun hgen hepoch => ?_⟩
  have hgen' := le_antisymm hfst.generation (hgen ▸ hsnd.generation)
  have hepoch' := le_antisymm hfst.epoch (hepoch ▸ hsnd.epoch)
  exact (hfst.same hgen' hepoch').trans (hsnd.same (hgen' ▸ hgen) (hepoch' ▸ hepoch))

/-- The configuration with this digest and pair is active. -/
structure Metadata.Runs (metadata : Metadata) (config : CacheConfig)
    (configurationSha256 : String) : Prop where
  configuration : metadata.activeConfigurationSha256 = configurationSha256
  generation : metadata.activeCacheGeneration = config.cacheGeneration
  epoch : metadata.activeRestoreEpoch = config.restoreEpoch

theorem toI64_eq {value : ℕ} {result : ℤ} (hok : toI64 value = .ok result) :
    (value : ℤ) = result := by
  unfold toI64 at hok
  split_ifs at hok
  exact ok.inj hok

variable {config : CacheConfig} {configurationSha256 generationSha256 : String}

/-- What opening a database does to its metadata. -/
theorem initializeDatabase_eq_ok {db' : Database}
    (hok : initializeDatabase db config configurationSha256 generationSha256 = .ok db') :
    ∃ metadata, db'.metadata = some metadata ∧ metadata.Runs config configurationSha256 ∧
      ∀ old, db.metadata = some old → old.Advances metadata := by
  unfold initializeDatabase at hok
  obtain ⟨cacheGeneration, hgeneration, hok⟩ := bind_eq_ok.mp hok
  obtain ⟨restoreEpoch, hepoch, hok⟩ := bind_eq_ok.mp hok
  obtain rfl := toI64_eq hgeneration
  obtain rfl := toI64_eq hepoch
  dsimp only at hok
  rw [ite_throw_bind_eq_ok, ite_throw_bind_eq_ok] at hok
  obtain ⟨-, hactive, hok⟩ := hok
  obtain ⟨generations, -, hok⟩ := bind_eq_ok.mp hok
  rw [ite_throw_bind_eq_ok] at hok
  obtain rfl := ok.inj hok.2
  refine ⟨_, rfl, ?_⟩
  split_ifs with hadvance
  · simp only [Metadata.monotonicAdvance, Bool.and_eq_true, Bool.or_eq_true, decide_eq_true_eq]
      at hadvance
    refine ⟨⟨rfl, rfl, rfl⟩, fun old hold => ?_⟩
    rw [hold, getD_some] at hadvance
    refine ⟨hadvance.1.1, hadvance.1.2, fun hgen hepoch => ?_⟩
    rcases hadvance.2 with hlt | hlt
    · exact absurd hgen hlt.ne
    · exact absurd hepoch hlt.ne
  · simp only [hadvance, Bool.not_false, Bool.and_true, Bool.not_eq_true', Bool.not_eq_false,
      Metadata.exactActive, Bool.and_eq_true, decide_eq_true_eq] at hactive
    refine ⟨⟨hactive.1.1.1, hactive.1.2, hactive.2⟩, fun old hold => ?_⟩
    rw [hold, getD_some]
    exact .refl _

variable [CachePlatform] {s s' : System} {event : Event}

/-- What opening a handle does: nothing to the metadata, or its configuration becomes or stays the
active one. -/
theorem openWithClock_cases (db : Database) (config : CacheConfig) (receiptKey : List UInt8)
    (intact : Bool) : ((openWithClock db config receiptKey intact).2 = db ∧
        ∃ error, (openWithClock db config receiptKey intact).1 = .error error) ∨
      ∃ metadata, (openWithClock db config receiptKey intact).2.metadata = some metadata ∧
        metadata.Runs config (canonicalDigest config.toJson) ∧
        (∀ old, db.metadata = some old → old.Advances metadata) ∧
        ∀ store, (openWithClock db config receiptKey intact).1 = .ok store →
          store.config = config ∧ store.configurationSha256 = canonicalDigest config.toJson := by
  unfold openWithClock
  dsimp only
  split
  · exact .inl ⟨rfl, _, rfl⟩
  · split_ifs with hkey hintact
    · exact .inl ⟨rfl, _, rfl⟩
    all_goals
      split
      · exact .inl ⟨rfl, _, rfl⟩
      · next db' hok =>
        obtain ⟨metadata, hmetadata, hruns, hadvances⟩ := initializeDatabase_eq_ok hok
        refine .inr ⟨metadata, hmetadata, hruns, hadvances, fun store hstore => ?_⟩
        first
          | (obtain rfl := ok.inj hstore; exact ⟨rfl, rfl⟩)
          | cases hstore

/-- The metadata under which a handle's configuration is the active one. -/
def CacheStore.position (store : CacheStore) : Metadata :=
  ⟨store.config.serviceId, store.config.receiptKeyId, store.config.receiptKeySha256,
    store.configurationSha256, store.generationSha256, store.config.cacheGeneration,
    store.config.restoreEpoch⟩

/-- Calls and rewritten entries keep the metadata, and opening a handle advances it. -/
theorem Does.advances (hdoes : Does s event s') (hmetadata : s.database.metadata = some metadata) :
    ∃ metadata', s'.database.metadata = some metadata' ∧ metadata.Advances metadata' := by
  cases hdoes with
  | stays => exact ⟨metadata, hmetadata, .refl _⟩
  | @opens config receiptKey intact =>
    rcases openWithClock_cases s.database config receiptKey intact with
      ⟨hsame, -⟩ | ⟨metadata', hmetadata', -, hadvances, -⟩
    · exact ⟨metadata, by rw [hsame, hmetadata], .refl _⟩
    · exact ⟨metadata', hmetadata', hadvances metadata hmetadata⟩
  | evolves _ _ hevolves => exact ⟨metadata, hevolves.metadata.trans hmetadata, .refl _⟩
  | publishes _ _ _ hinserts =>
    exact ⟨metadata, hinserts.metadata.trans hmetadata, .refl _⟩
  | rewrites => exact ⟨metadata, hmetadata, .refl _⟩

/-- Along every run the metadata advances. -/
theorem advances_after (s : System) (events : List Event)
    (hmetadata : s.database.metadata = some metadata) :
    ∃ metadata', (History.final System.step s events).database.metadata = some metadata' ∧
      metadata.Advances metadata' := by
  induction events generalizing s metadata with
  | nil => exact ⟨metadata, hmetadata, .refl _⟩
  | cons event _ ih =>
    obtain ⟨middle, hmiddle, hfst⟩ := (does_step s event).advances hmetadata
    obtain ⟨metadata', hmetadata', hsnd⟩ := ih (s.step event) hmiddle
    exact ⟨metadata', hmetadata', hfst.trans hsnd⟩

/-! ## Handles -/

/-- The active pair has not gone back behind any handle, and publications were made under the
configuration that was active. -/
structure Fenced (s : System) : Prop where
  digests : ∀ store ∈ s.handles, store.configurationSha256 = canonicalDigest store.config.toJson
  handles : ∀ store ∈ s.handles, ∃ metadata, s.database.metadata = some metadata ∧
    store.position.Advances metadata
  published : ∀ publication ∈ s.published,
    publication.active = some publication.store.configurationSha256

omit [CachePlatform] in
/-- The generation that a handle's operations need. -/
theorem active_of_assertActiveGeneration (hok : store.assertActiveGeneration db = .ok ())
    (hmetadata : db.metadata = some metadata) :
    (store.config.cacheGeneration : ℤ) = metadata.activeCacheGeneration ∧
      (store.config.restoreEpoch : ℤ) = metadata.activeRestoreEpoch := by
  unfold assertActiveGeneration at hok
  obtain ⟨cacheGeneration, hgeneration, hok⟩ := bind_eq_ok.mp hok
  obtain ⟨restoreEpoch, hepoch, hok⟩ := bind_eq_ok.mp hok
  obtain rfl := toI64_eq hgeneration
  obtain rfl := toI64_eq hepoch
  rw [hmetadata] at hok
  dsimp only at hok
  split_ifs at hok with hother
  simp only [Bool.or_eq_true, decide_eq_true_eq, not_or, ne_eq, not_not] at hother
  exact ⟨hother.1.2.symm, hother.2.symm⟩

/-- A handle that may operate has the active configuration. -/
theorem Fenced.active_eq (hfenced : Fenced s) (hmem : store ∈ s.handles)
    (hactive : store.assertActiveGeneration s.database = .ok ()) :
    s.active = some store.configurationSha256 := by
  obtain ⟨metadata, hmetadata, hadvances⟩ := hfenced.handles store hmem
  obtain ⟨hgeneration, hepoch⟩ := active_of_assertActiveGeneration hactive hmetadata
  rw [active, hmetadata, map_some, ← hadvances.same hgeneration hepoch]
  rfl

/-- The handles of a state whose metadata advanced. -/
theorem Fenced.handles_of_advances (hfenced : Fenced s) {database : Database}
    (hadvances : ∀ metadata, s.database.metadata = some metadata →
      ∃ metadata', database.metadata = some metadata' ∧ metadata.Advances metadata')
    (store : CacheStore) (hmem : store ∈ s.handles) :
    ∃ metadata, database.metadata = some metadata ∧ store.position.Advances metadata := by
  obtain ⟨metadata, hmetadata, hfst⟩ := hfenced.handles store hmem
  obtain ⟨metadata', hmetadata', hsnd⟩ := hadvances metadata hmetadata
  exact ⟨metadata', hmetadata', hfst.trans hsnd⟩

/-- Every event keeps the fence. -/
theorem Does.fenced (hdoes : Does s event s') (hfenced : Fenced s) : Fenced s' := by
  have hadvances : ∀ metadata, s.database.metadata = some metadata →
      ∃ metadata', s'.database.metadata = some metadata' ∧ metadata.Advances metadata' :=
    fun metadata hmetadata => hdoes.advances hmetadata
  have hhandles := hfenced.handles_of_advances hadvances
  cases hdoes with
  | stays => exact hfenced
  | @opens config receiptKey intact =>
    rcases openWithClock_cases s.database config receiptKey intact with
      ⟨-, error, herror⟩ | ⟨metadata, hmetadata, hruns, -, hstore⟩
    · refine ⟨?_, ?_, hfenced.published⟩
      · rw [herror]
        simpa [Except.toOption] using hfenced.digests
      · rw [herror]
        simpa [Except.toOption] using hhandles
    · cases hopened : (openWithClock s.database config receiptKey intact).1 with
      | error =>
        exact ⟨by simpa [Except.toOption] using hfenced.digests,
          by simpa [Except.toOption] using hhandles, hfenced.published⟩
      | ok store =>
        obtain ⟨hconfig, hsha⟩ := hstore store hopened
        have hposition : store.position.Advances metadata := by
          refine ⟨?_, ?_, fun _ _ => ?_⟩
          · exact (hruns.generation.trans (by rw [position, hconfig])).ge
          · exact (hruns.epoch.trans (by rw [position, hconfig])).ge
          · exact hsha.trans hruns.configuration.symm
        have hmem (other : CacheStore)
            (hother : other ∈ s.handles ++ (Except.ok store : Except CacheError _).toOption.toList) :
            other ∈ s.handles ∨ other = store := by
          simpa [Except.toOption] using hother
        refine ⟨fun other hother => ?_, fun other hother => ?_, hfenced.published⟩
        · rcases hmem other hother with hold | rfl
          · exact hfenced.digests other hold
          · rw [hsha, hconfig]
        · rcases hmem other hother with hold | rfl
          · exact hhandles other hold
          · exact ⟨metadata, hmetadata, hposition⟩
  | evolves => exact ⟨hfenced.digests, hhandles, hfenced.published⟩
  | publishes hmem hactive =>
    refine ⟨hfenced.digests, hhandles, fun publication hpublication => ?_⟩
    rw [mem_append, mem_singleton] at hpublication
    rcases hpublication with hold | rfl
    · exact hfenced.published publication hold
    · exact hfenced.active_eq hmem hactive
  | rewrites => exact ⟨hfenced.digests, hhandles, hfenced.published⟩

theorem fenced_initial : Fenced .initial :=
  ⟨fun _ hnil => absurd hnil not_mem_nil, fun _ hnil => absurd hnil not_mem_nil,
    fun _ hnil => absurd hnil not_mem_nil⟩

/-- The fence holds in every run. -/
theorem fenced_after (events : List Event) : Fenced (System.after events) :=
  invariant (fun s event => (does_step s event).fenced) fenced_initial events

/-! ## The fence -/

/-- No operation of the handle commits a change or returns content. -/
structure CacheStore.Refused (store : CacheStore) (db : Database) : Prop where
  publish : ∀ now callerId callerTrustClass request content result,
    store.publish db now callerId callerTrustClass request content ≠ .ok result
  read : ∀ now callerId callerTrustClass request result,
    store.read db now callerId callerTrustClass request ≠ .ok result
  cleanup : ∀ now callerId result, store.cleanup db now callerId ≠ .ok result

/-- Every operation asserts the active generation in its transaction. -/
theorem refused_of_inactive (hinactive : store.assertActiveGeneration db ≠ .ok ()) :
    store.Refused db := by
  refine ⟨?_, ?_, ?_⟩
  · rintro now callerId callerTrustClass request content ⟨result, db'⟩ hok
    obtain ⟨-, -, hactive, -⟩ := publish_eq_ok hok
    exact hinactive hactive
  · rintro now callerId callerTrustClass request ⟨result, db'⟩ hok
    obtain ⟨-, -, hactive, -⟩ := read_eq_ok hok
    exact hinactive hactive
  · rintro now callerId ⟨result, db'⟩ hok
    exact hinactive (cleanup_eq_ok hok).1

/-- A handle that the active configuration has left behind stays refused. -/
theorem refused_of_advances {middle : Metadata} (hposition : store.position.Advances middle)
    (hother : middle.activeConfigurationSha256 ≠ store.configurationSha256)
    (hmetadata : db.metadata = some metadata) (hadvances : middle.Advances metadata) :
    store.Refused db := by
  refine refused_of_inactive fun hactive => hother ?_
  obtain ⟨hgeneration, hepoch⟩ := active_of_assertActiveGeneration hactive hmetadata
  have hgen := le_antisymm hposition.generation (hadvances.generation.trans hgeneration.ge)
  have hrestore := le_antisymm hposition.epoch (hadvances.epoch.trans hepoch.ge)
  exact (hposition.same hgen hrestore).symm

/-- An older cache generation is fenced for good.  In every run the active pair does not decrease in
either component.  Once a handle with another configuration has been opened, no operation of an
earlier handle succeeds any more.  And a read through a handle returns content only of a publication
of its key that was made under the configuration that is active.  The digests that are compared are
assumed not to collide. -/
theorem older_generation_fenced (before later : List Event) :
    (∀ metadata, (System.after before).database.metadata = some metadata →
      ∃ metadata', (System.after (before ++ later)).database.metadata = some metadata' ∧
        metadata.activeCacheGeneration ≤ metadata'.activeCacheGeneration ∧
        metadata.activeRestoreEpoch ≤ metadata'.activeRestoreEpoch) ∧
    (∀ store ∈ (System.after before).handles, ∀ config receiptKey intact handle,
      (openWithClock (System.after before).database config receiptKey intact).1 = .ok handle →
      config ≠ store.config →
      CollisionFree [config.toJson.toBytes, store.config.toJson.toBytes] →
      store.Refused (System.after (before ++ .open config receiptKey intact :: later)).database) ∧
    ∀ store ∈ (System.after before).handles,
      ∀ now callerId callerTrustClass request result database content,
        store.read (System.after before).database now callerId callerTrustClass request =
          .ok (result, database) →
        result.content = some content →
        ∃ admitted, store.admitRequest callerId callerTrustClass request false = .ok admitted ∧
          (CollisionFree ((System.after before).compared admitted content) →
            ∃ publication ∈ (System.after before).published,
              publication.admitted.canonical = admitted.canonical ∧
              publication.content = content ∧
              publication.active = (System.after before).active) := by
  have hfenced := fenced_after before
  refine ⟨fun metadata hmetadata => ?_, ?_, ?_⟩
  · obtain ⟨metadata', hmetadata', hadvances⟩ := advances_after _ later hmetadata
    refine ⟨metadata', ?_, hadvances.generation, hadvances.epoch⟩
    rwa [System.after, History.final_append]
  · intro store hmem config receiptKey intact handle hopened hconfig hfree
    rcases openWithClock_cases (System.after before).database config receiptKey intact with
      ⟨-, error, herror⟩ | ⟨middle, hmiddle, hruns, hadvances, -⟩
    · rw [hopened] at herror
      cases herror
    · obtain ⟨old, hold, hposition⟩ := hfenced.handles store hmem
      obtain ⟨metadata, hmetadata, hlater⟩ :=
        advances_after ((after before).step (.open config receiptKey intact)) later hmiddle
      have hafter :
          (System.after (before ++ .open config receiptKey intact :: later)).database.metadata =
          some metadata := by
        rwa [System.after, History.final_append]
      refine refused_of_advances (hposition.trans (hadvances old hold)) (fun hsame => hconfig ?_)
        hafter hlater
      rw [hruns.configuration, hfenced.digests store hmem] at hsame
      exact CacheConfig.toJson_injective (toBytes_injective (hfree _ mem_cons_self _
        (mem_cons_of_mem _ mem_cons_self) (encodeDigest_injective hsame)))
  · intro store hmem now callerId callerTrustClass request result database content hok hcontent
    obtain ⟨-, -, hactive, -, hhit, -⟩ := read_eq_ok hok
    have hrecorded := recorded_after before
    obtain ⟨admitted, stored, publication, hadmits, -, hstored, hsource⟩ :=
      exists_source hrecorded hok (hhit (by simp [hcontent]))
    obtain rfl := mem_unique hcontent hstored
    refine ⟨admitted, hadmits, fun hfree => ⟨publication, hsource.mem, ?_, ?_, ?_⟩⟩
    · exact (canonical_eq_iff hrecorded (admit_canonical hadmits) hfree hsource.mem).mp hsource.key
    · exact content_eq_of_sha256 hfree hsource.mem hsource.content
    · rw [hfenced.published publication hsource.mem, hsource.configuration,
        hfenced.active_eq hmem hactive]

end Generations

namespace Sample

/-- The configuration of the next generation. -/
def nextConfig : CacheConfig :=
  { config with cacheGeneration := 2 }

/-- What is hashed for its generation. -/
def nextBinding : GenerationBinding :=
  ⟨protocolVersion, "service", threeDigest, 2, 0⟩

/-- A platform that tells the next configuration and its generation from everything else. -/
@[reducible]
def turnPlatform : CachePlatform where
  sha256 bytes :=
    if bytes ∈ [nextConfig.toJson.toBytes, nextBinding.toJson.toBytes] then .replicate 3
    else .replicate 0
  hashTextExtended _ _ := 0
  parseUrl _ := none
  hmacSha256 _ _ := []
  encodeBase64 _ := ""
  decodeBase64 _ := some []
  readEvent _ := none
  readKey _ := none

attribute [local instance] turnPlatform

/-- Other bytes have the digest of zeros. -/
theorem turn_sha256_of_ne {bytes : List UInt8} (hconfig : bytes ≠ nextConfig.toJson.toBytes)
    (hbinding : bytes ≠ nextBinding.toJson.toBytes) : turnPlatform.sha256 bytes = .replicate 0 :=
  if_neg (by simp [hconfig, hbinding])

/-- Other objects have the digest of zeros. -/
theorem turn_canonicalDigest_of_ne {json : Json} (hconfig : json ≠ nextConfig.toJson)
    (hbinding : json ≠ nextBinding.toJson) : canonicalDigest json = zeroDigest :=
  (congrArg encodeDigest (turn_sha256_of_ne (fun hsame => hconfig (toBytes_injective hsame))
    fun hsame => hbinding (toBytes_injective hsame))).trans encodeDigest_zero

theorem turn_sha256_nextConfig : turnPlatform.sha256 nextConfig.toJson.toBytes = .replicate 3 :=
  if_pos mem_cons_self

theorem turn_nextConfig : canonicalDigest nextConfig.toJson = threeDigest :=
  congrArg encodeDigest turn_sha256_nextConfig

theorem turn_nextBinding : deriveGenerationSha256 nextConfig = threeDigest := by
  unfold deriveGenerationSha256
  rw [turn_nextConfig]
  exact congrArg encodeDigest (if_pos (mem_cons_of_mem _ mem_cons_self))

/-- The two configurations differ in their generation. -/
theorem config_ne_nextConfig : config.toJson ≠ nextConfig.toJson := by
  intro hsame
  have hgeneration := congrArg CacheConfig.cacheGeneration (CacheConfig.toJson_injective hsame)
  exact absurd hgeneration (by decide)

theorem config_ne_nextBinding : config.toJson ≠ nextBinding.toJson := by
  intro hsame
  have hfields := congrArg List.length (obj.inj hsame)
  exact absurd hfields (by decide)

theorem turn_config : canonicalDigest config.toJson = zeroDigest :=
  turn_canonicalDigest_of_ne config_ne_nextConfig config_ne_nextBinding

theorem turn_binding : deriveGenerationSha256 config = zeroDigest := by
  unfold deriveGenerationSha256
  rw [turn_config]
  refine turn_canonicalDigest_of_ne (fun hsame => ?_) fun hsame => ?_
  · have hfields := congrArg List.length (obj.inj hsame)
    exact absurd hfields (by decide)
  · have hgeneration := congrArg (fun fields => fields[3]?) (obj.inj hsame)
    exact absurd hgeneration (by decide)

theorem turn_receiptKey : sha256 (List.replicate 32 0) = zeroDigest :=
  (congrArg encodeDigest (turn_sha256_of_ne (ne_of_head (head_toBytes _) (by decide))
    (ne_of_head (head_toBytes _) (by decide)))).trans encodeDigest_zero

/-- The first configuration is opened. -/
theorem turn_first : openWithClock .initial config (List.replicate 32 0) true =
      (.ok store, .first config zeroDigest zeroDigest) := by
  unfold openWithClock
  rw [turn_receiptKey, turn_config, turn_binding]
  rfl

/-- The next one is opened. -/
theorem turn_next : ∃ handle, (openWithClock (.first config zeroDigest zeroDigest) nextConfig
      (List.replicate 32 0) true).1 = .ok handle := by
  obtain ⟨db, hinitializes⟩ : ∃ db, initializeDatabase (.first config zeroDigest zeroDigest)
      nextConfig threeDigest threeDigest = .ok db := ⟨_, rfl⟩
  have hopened : openWithClock (.first config zeroDigest zeroDigest) nextConfig
      (List.replicate 32 0) true =
        (.ok ⟨nextConfig, threeDigest, threeDigest, List.replicate 32 0⟩, db) := by
    unfold openWithClock
    rw [turn_receiptKey, turn_nextConfig, turn_nextBinding]
    dsimp only
    rw [hinitializes]
    rfl
  exact ⟨_, congrArg Prod.fst hopened⟩

end Sample

open Sample in
/-- After the next configuration was opened the first handle is refused, and until then its hit
returns content published under its configuration. -/
theorem sample_generation_fenced : @CacheStore.Refused turnPlatform store
        (@System.after turnPlatform [.open config (List.replicate 32 0) true,
          .open nextConfig (List.replicate 32 0) true, .cleanup 0 200 "operator"]).database ∧
      ∃ publication ∈ (@System.after cachePlatform publishing).published,
        publication.content = [7, 8] ∧
        publication.active = (@System.after cachePlatform publishing).active := by
  constructor
  · have hopened : @System.after turnPlatform [.open config (List.replicate 32 0) true] =
        ⟨.first config zeroDigest zeroDigest, [store], []⟩ := by
      change @System.step turnPlatform .initial (.open config (List.replicate 32 0) true) = _
      unfold step initial
      dsimp only
      rw [turn_first]
      rfl
    obtain ⟨handle, hnext⟩ := turn_next
    refine (@older_generation_fenced turnPlatform [.open config (List.replicate 32 0) true]
      [.cleanup 0 200 "operator"]).2.1 store ?_ nextConfig (List.replicate 32 0) true handle ?_ ?_ ?_
    · rw [hopened]
      exact mem_cons_self
    · rw [hopened]
      exact hnext
    · exact fun hsame => config_ne_nextConfig (congrArg CacheConfig.toJson hsame.symm)
    · have hdistinct : turnPlatform.sha256 nextConfig.toJson.toBytes ≠
          turnPlatform.sha256 config.toJson.toBytes := by
        rw [turn_sha256_nextConfig, turn_sha256_of_ne
          (fun hsame => config_ne_nextConfig (toBytes_injective hsame))
          fun hsame => config_ne_nextBinding (toBytes_injective hsame)]
        decide
      intro left hleft right hright hsame
      simp only [mem_cons, not_mem_nil, or_false] at hleft hright
      rcases hleft with rfl | rfl <;> rcases hright with rfl | rfl
      · rfl
      · exact absurd hsame hdistinct
      · exact absurd hsame.symm hdistinct
      · rfl
  · obtain ⟨database, result, database', hafter, hread, hhit, hcontent⟩ := hit_sample
    have hread' : @CacheStore.read cachePlatform store
        (@System.after cachePlatform publishing).database 120 "reader" "trusted" request =
          .ok (result, database') := by
      rw [hafter]
      exact hread
    obtain ⟨key, hadmits, hfree⟩ := (@older_generation_fenced cachePlatform publishing []).2.2 store
      (by rw [hafter]; exact mem_cons_self) 120 "reader" "trusted" request result database'
      [7, 8] hread' hcontent
    obtain rfl := ok.inj ((admit_sample (.inr rfl)).symm.trans hadmits)
    obtain ⟨publication, hmem, -, hpublished, hactive⟩ :=
      hfree (by rw [hafter]; exact collisionFree_sample database)
    exact ⟨publication, hmem, hpublished, hactive⟩

end McLoving.Cache
