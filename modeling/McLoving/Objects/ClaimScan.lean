import McLoving.Domain.Primitives
import McLoving.Lib.CyclicScan
import McLoving.Lib.Except
import McLoving.Lib.Table
import Mathlib.Data.String.Basic

/-!
# Scanning publication claims

The pages of old publication claims that the object store lists, each behind the last claim of the
page before.  Repeated calls return every claim that stays.
-/

namespace McLoving.ObjectStore

open CyclicScan List Option Except

def maxPublicationClaimScan : ℕ := 1024

/-- The errors of `ObjectStoreError` that listing claims can raise. -/
inductive ClaimScanError where
  | invalidPublicationClaimScan
  | foreignStagingPath
  deriving DecidableEq

structure ObjectRef where
  sha256 : Digest
  bytes : ℕ
  deriving DecidableEq

structure PendingObject where
  token : String
  reference : ObjectRef
  claimed : Bool
  deriving DecidableEq

/-- An entry of the staging directory, with what `inspect` reads from its file. -/
structure StagingEntry where
  fileName : String
  isFile : Bool
  modified : Timestamp
  reference : ObjectRef

/-- The part of a file name before the extension `publishing`. -/
def claimToken (fileName : String) : Option String :=
  ((Split.stripSuffix ".publishing".toList fileName.toList).filter (· ≠ [])).map String.ofList

/-- The token of an entry that is a claim of at least this age. -/
def StagingEntry.agedClaim (now minimumAge : Timestamp) (entry : StagingEntry) : Option String :=
  if entry.isFile && entry.modified ≤ now && minimumAge ≤ now - entry.modified then
    claimToken entry.fileName
  else none

def validatePendingToken (value : String) : Except ClaimScanError Unit :=
  if value.isEmpty || 256 < value.utf8ByteSize ||
      (Split.stripSuffix ".staged".toList value.toList).isNone ||
      !value.toList.all fun c => isAsciiAlphanumeric c || c = '.' || c = '_' || c = '-' then
    .error .foreignStagingPath
  else .ok ()

/-- The claims of at least this age in the staging directory. -/
def claimCandidates (staging : List StagingEntry) (now minimumAge : Timestamp) :
    List (String × ObjectRef) :=
  staging.filterMap fun entry =>
    (entry.agedClaim now minimumAge).map fun token => (token, entry.reference)

/-- The page of sorted candidates that begins where `partition_point` divides them, and wraps
around. -/
def claimPage (candidates : List (String × ObjectRef)) (limit : ℕ) (after : Option String) :
    List PendingObject :=
  ((CyclicScan.turn Prod.fst after candidates).take (min limit candidates.length)).map
    fun candidate => ⟨candidate.1, candidate.2, true⟩

def publicationClaimsOlderThan (staging : List StagingEntry) (now minimumAge : Timestamp)
    (limit : ℕ) (after : Option String) : Except ClaimScanError (List PendingObject) := do
  if limit = 0 || maxPublicationClaimScan < limit then
    throw .invalidPublicationClaimScan
  after.toList.forM validatePendingToken
  let found := claimCandidates staging now minimumAge
  found.forM fun candidate => validatePendingToken candidate.1
  return claimPage (found.insertionSort fun left right => left.1 ≤ right.1) limit after

/-- What one call finds: a directory, whose names are distinct, with claims of the store's own
tokens. -/
structure Staging where
  entries : List StagingEntry
  now : Timestamp
  distinct : (entries.map StagingEntry.fileName).Nodup
  owned : ∀ entry ∈ entries, ∀ token ∈ claimToken entry.fileName, validatePendingToken token = .ok ()

namespace Staging

variable (minimumAge : Timestamp) (limit : ℕ) (staging : Staging)

/-- The tokens of the aged claims. -/
def tokens : List String :=
  (claimCandidates staging.entries staging.now minimumAge).map Prod.fst

/-- The tokens of the aged claims in order. -/
def sorted : List String :=
  ((claimCandidates staging.entries staging.now minimumAge).insertionSort
    fun left right => left.1 ≤ right.1).map Prod.fst

/-- A call. -/
def scan (after : Option String) : Except ClaimScanError (List PendingObject) :=
  publicationClaimsOlderThan staging.entries staging.now minimumAge limit after

/-- The cursors of repeated calls: the last token that was returned. -/
def cursor (start : Option String) (stagings : ℕ → Staging) : ℕ → Option String
  | 0 => start
  | k + 1 =>
    match (stagings k).scan minimumAge limit (cursor start stagings k) with
    | .ok claims => (claims.getLast?.map PendingObject.token).or (cursor start stagings k)
    | .error _ => cursor start stagings k

variable {minimumAge limit} {start : Option String}

theorem claimToken_injective {fileName fileName' token : String}
    (h : claimToken fileName = some token)
    (h' : claimToken fileName' = some token) : fileName = fileName' := by
  obtain ⟨part, hpart, rfl⟩ := map_eq_some_iff.mp h
  obtain ⟨part', hpart', hsame⟩ := map_eq_some_iff.mp h'
  obtain rfl := String.ofList_injective hsame
  have hname := Split.eq_of_stripSuffix (filter_eq_some_iff.mp hpart).1
  rw [← Split.eq_of_stripSuffix (filter_eq_some_iff.mp hpart').1] at hname
  exact String.toList_injective hname

theorem exists_of_agedClaim {entry : StagingEntry} {now : Timestamp} {candidate : String × ObjectRef}
    (h : (entry.agedClaim now minimumAge).map (fun token => (token, entry.reference)) =
      some candidate) : claimToken entry.fileName = some candidate.1 := by
  obtain ⟨token, htoken, rfl⟩ := map_eq_some_iff.mp h
  unfold StagingEntry.agedClaim at htoken
  split_ifs at htoken
  exact htoken

theorem nodup_tokens : (staging.tokens minimumAge).Nodup := by
  refine pairwise_map.mpr (pairwise_filterMap.mpr ?_)
  refine (pairwise_map.mp staging.distinct).imp fun hne left hleft right hright hsame => hne ?_
  exact claimToken_injective (exists_of_agedClaim hleft) (hsame ▸ exists_of_agedClaim hright)

theorem perm_sorted : (staging.sorted minimumAge).Perm (staging.tokens minimumAge) :=
  (perm_insertionSort ..).map _

theorem pairwise_sorted : (staging.sorted minimumAge).Pairwise (· < ·) := by
  have hle := pairwise_map.mpr (Table.pairwise_sort Prod.fst
    (claimCandidates staging.entries staging.now minimumAge))
  exact (hle.and (staging.perm_sorted.nodup_iff.mpr staging.nodup_tokens)).imp
    fun h => lt_of_le_of_ne h.1 h.2

/-- A valid token passes its check. -/
theorem owned_of_mem {token : String} (hmem : token ∈ staging.tokens minimumAge) :
    validatePendingToken token = .ok () := by
  obtain ⟨candidate, hcandidate, rfl⟩ := mem_map.mp hmem
  obtain ⟨entry, hentry, haged⟩ := mem_filterMap.mp hcandidate
  exact staging.owned entry hentry _ (exists_of_agedClaim haged)

theorem forM_eq_ok {α : Type} {check : α → Except ClaimScanError Unit} {items : List α}
    (hall : ∀ item ∈ items, check item = .ok ()) : items.forM check = .ok () := by
  induction items with
  | nil => rfl
  | cons item rest ih =>
    change (check item >>= fun _ => rest.forM check) = .ok ()
    rw [hall item mem_cons_self]
    exact ih fun other hother => hall other (mem_cons_of_mem _ hother)

variable (hlimit : 1 ≤ limit ∧ limit ≤ maxPublicationClaimScan)
include hlimit

/-- A call returns the first claims of a turn. -/
theorem scan_eq_ok {after : Option String}
    (hafter : ∀ token ∈ after, validatePendingToken token = .ok ()) :
    ∃ claims, staging.scan minimumAge limit after = .ok claims ∧ claims.map PendingObject.token =
        (CyclicScan.turn id after (staging.sorted minimumAge)).take limit := by
  refine ⟨claimPage ((claimCandidates staging.entries staging.now minimumAge).insertionSort
    fun left right => left.1 ≤ right.1) limit after, ?_, ?_⟩
  · unfold scan publicationClaimsOlderThan
    refine ite_throw_bind_eq_ok.mpr ⟨by simp; omega, ?_⟩
    refine unit_bind_eq_ok.mpr ⟨forM_eq_ok (by simpa using hafter), ?_⟩
    refine unit_bind_eq_ok.mpr ⟨forM_eq_ok fun candidate hmem => ?_, rfl⟩
    exact staging.owned_of_mem (List.mem_map_of_mem hmem)
  · have hlength := (CyclicScan.turn_perm id after (staging.sorted minimumAge)).length_eq
    rw [claimPage, List.map_map]
    change List.map Prod.fst _ = _
    rw [List.map_take, CyclicScan.map_turn, ← sorted, List.take_eq_take_iff, hlength, sorted,
      length_map]
    omega

variable (hstart : ∀ token ∈ start, validatePendingToken token = .ok ())
include hstart

/-- The cursor stays valid, and is that of the general scan. -/
theorem cursor_eq (stagings : ℕ → Staging) (k : ℕ) :
    (∀ token ∈ cursor minimumAge limit start stagings k, validatePendingToken token = .ok ()) ∧
      cursor minimumAge limit start stagings k =
        CyclicScan.cursorAt limit start (fun k => (stagings k).sorted minimumAge) k := by
  induction k with
  | zero => exact ⟨hstart, rfl⟩
  | succ k ih =>
    obtain ⟨hvalid, hcursor⟩ := ih
    obtain ⟨claims, hok, htokens⟩ := (stagings k).scan_eq_ok hlimit hvalid
    have hnext : cursor minimumAge limit start stagings (k + 1) =
        (claims.map PendingObject.token).getLast?.or (cursor minimumAge limit start stagings k) := by
      rw [cursor, hok, getLast?_map]
    refine ⟨fun token htoken => ?_, ?_⟩
    · rw [hnext, htokens, mem_def, or_eq_some_iff] at htoken
      rcases htoken with hlast | ⟨-, hold⟩
      · have hmem := mem_of_mem_take (mem_of_getLast? hlast)
        rw [(turn_perm ..).mem_iff, (stagings k).perm_sorted.mem_iff] at hmem
        exact (stagings k).owned_of_mem hmem
      · exact hvalid token hold
    · rw [hnext, htokens, hcursor, CyclicScan.cursorAt]

omit hlimit hstart in
/-- Scanning visits everything: while the aged claims only become fewer, every call answers with
distinct aged claims, and each claim that stays for as many calls as pages of this length hold the
claims of the beginning is returned by one of them. -/
theorem scanning_visits_every_claim (minimumAge : Timestamp) (limit : ℕ)
    (hlimit : 1 ≤ limit ∧ limit ≤ maxPublicationClaimScan) (start : Option String)
    (hstart : ∀ token ∈ start, validatePendingToken token = .ok ()) (stagings : ℕ → Staging)
    (hshrink : ∀ k, (stagings (k + 1)).tokens minimumAge ⊆ (stagings k).tokens minimumAge) :
    (∀ k, ∃ claims,
      (stagings k).scan minimumAge limit (cursor minimumAge limit start stagings k) = .ok claims ∧
      (claims.map PendingObject.token).Nodup ∧
      claims.map PendingObject.token ⊆ (stagings k).tokens minimumAge) ∧
    ∀ token ∈ (stagings 0).tokens minimumAge,
      (∀ k < (((stagings 0).tokens minimumAge).length + limit - 1) / limit,
        token ∈ (stagings k).tokens minimumAge) →
      ∃ k < (((stagings 0).tokens minimumAge).length + limit - 1) / limit, ∃ claims,
        (stagings k).scan minimumAge limit (cursor minimumAge limit start stagings k) = .ok claims ∧
        token ∈ claims.map PendingObject.token := by
  constructor
  · intro k
    obtain ⟨claims, hok, htokens⟩ :=
      (stagings k).scan_eq_ok hlimit (cursor_eq hlimit hstart stagings k).1
    have hperm := (turn_perm id (cursor minimumAge limit start stagings k)
      ((stagings k).sorted minimumAge)).trans (stagings k).perm_sorted
    refine ⟨claims, hok, ?_, ?_⟩
    · rw [htokens]
      exact (hperm.nodup_iff.mpr (stagings k).nodup_tokens).sublist (take_sublist ..)
    · rw [htokens]
      exact fun token hmem => hperm.mem_iff.mp (mem_of_mem_take hmem)
  · intro token htoken hstays
    have hmem (k : ℕ) (t : String) :
        t ∈ (stagings k).sorted minimumAge ↔ t ∈ (stagings k).tokens minimumAge :=
      (stagings k).perm_sorted.mem_iff
    have hcalls : ((stagings 0).sorted minimumAge).length ≤
        (((stagings 0).tokens minimumAge).length + limit - 1) / limit * limit := by
      rw [(stagings 0).perm_sorted.length_eq]
      have hdiv := Nat.div_add_mod (((stagings 0).tokens minimumAge).length + limit - 1) limit
      have hmod := Nat.mod_lt (((stagings 0).tokens minimumAge).length + limit - 1) hlimit.1
      rw [Nat.mul_comm] at hdiv
      omega
    obtain ⟨k, hk, hpage⟩ := exists_mem_page start
      (fun k => (stagings k).pairwise_sorted)
      (fun k t ht => (hmem k t).mpr (hshrink k ((hmem _ t).mp ht))) hlimit.1 hcalls
      ((hmem 0 token).mpr htoken) fun k hk => (hmem k token).mpr (hstays k hk)
    obtain ⟨hvalid, hcursor⟩ := cursor_eq hlimit hstart stagings k
    obtain ⟨claims, hok, htokens⟩ := (stagings k).scan_eq_ok hlimit hvalid
    refine ⟨k, hk, claims, hok, ?_⟩
    rwa [htokens, hcursor]

end Staging

namespace Sample

/-- Two claims of age 10 and an upload that is not claimed. -/
def staging : Staging where
  entries := [⟨"b.staged.publishing", true, 0, ⟨.replicate 1, 4⟩⟩,
    ⟨"c.staged", true, 0, ⟨.replicate 2, 5⟩⟩,
    ⟨"a.staged.publishing", true, 0, ⟨.replicate 3, 6⟩⟩]
  now := 10
  distinct := by decide +kernel
  owned := by decide +kernel

end Sample

/-- From a cursor behind both claims two calls for one claim each return the first one. -/
theorem sample_claim_is_visited : ∃ k < 2, ∃ claims, Sample.staging.scan 5 1
        (Staging.cursor 5 1 (some "z.staged") (fun _ => Sample.staging) k) = .ok claims ∧
      "a.staged" ∈ claims.map PendingObject.token :=
  (Staging.scanning_visits_every_claim 5 1 (by decide) (some "z.staged") (by decide +kernel)
    (fun _ => Sample.staging) fun _ => List.Subset.refl _).2 "a.staged" (by decide +kernel)
      fun _ _ => by decide +kernel

end McLoving.ObjectStore
