import McLoving.Lib.Except
import McLoving.Store.Schema
import Mathlib.Data.Finset.Sort
import Mathlib.Data.String.Basic

/-!
# The changed paths of a push

How a delivery of the source host becomes an event of a trigger, and when the paths of a push are
all the paths that its commits changed.
-/

namespace McLoving

open List Except

/-- `Value::as_u64`. -/
def Json.asU64 : Json → Option ℕ
  | .num value => if 0 ≤ value && value < 2 ^ 64 then some value.toNat else none
  | _ => none

namespace Webhook

def maxChangedPaths : ℕ := 128

def zeroSha1 : String := String.ofList (List.replicate 40 '0')

structure MappedDelivery where
  eventKind : String
  payload : Json
  revision : String
  branch : String
  deriving DecidableEq

/-- The closure `text` of `map_delivery`. -/
def usableText (value : Option Json) (name : String) : Except String String :=
  match ((value.bind Json.asStr).map trim).filter fun text =>
      !text.isEmpty && text.utf8ByteSize ≤ 512 && !text.toList.any isControl with
  | some text => .ok text
  | none => .error s!"delivery lacks a usable {name}"

/-- The paths that a commit lists, in the order in which they are read. -/
def commitPaths (commit : Json) : List String :=
  ["added", "modified", "removed"].flatMap fun field =>
    (((commit.get field).bind Json.asArray).getD []).filterMap Json.asStr

/-- The commits that a payload lists. -/
def commits (payload : Json) : List Json :=
  ((payload.get "commits").bind Json.asArray).getD []

/-- The payload advertises more commits than it lists. -/
def commitsOmitted (payload : Json) : Bool :=
  ((payload.get "commits").bind Json.asArray).any fun commits =>
    ((payload.get "size").bind Json.asU64).any fun size => commits.length < size

/-- A path that the walk does not skip. -/
def usablePath (path : String) : Bool :=
  canonicalBounded path 512

/-- The walk over the paths; without an answer the set would exceed its bound. -/
def collectPaths : List String → Finset String → Option (Finset String)
  | [], paths => some paths
  | path :: rest, paths =>
    if !usablePath path then collectPaths rest paths
    else if maxChangedPaths ≤ paths.card ∧ path ∉ paths then none
    else collectPaths rest (insert path paths)

/-- The set of paths of a push, unless it overflows. -/
def pushPaths (payload : Json) : Option (Finset String) :=
  if commitsOmitted payload then none
  else collectPaths ((commits payload).flatMap commitPaths) ∅

/-- The member `paths` of the mapped payload. -/
def pathsField : Option (Finset String) → List (String × Json)
  | none => []
  | some paths =>
    if paths = ∅ then [] else [("paths", .arr ((paths.sort (· ≤ ·)).map .str))]

/-- `map_delivery`. -/
def mapDelivery (event : String) (payload : Json) : Except String MappedDelivery := do
  let repository ← usableText ((payload.get "repository").bind (Json.get "full_name"))
    "repository.full_name"
  if event = "push" then
    let reference ← usableText (payload.get "ref") "ref"
    match Split.stripPrefix "refs/heads/".toList reference.toList with
    | none => throw s!"ref {reference} is not a branch"
    | some branch =>
      if payload.get "deleted" = some (.bool true) then
        throw "push deleted the branch"
      let revision ← usableText (payload.get "after") "after"
      if revision = zeroSha1 then
        throw "push deleted the branch"
      return {
        eventKind := "push"
        payload := .obj ([("branch", .str (String.ofList branch))] ++
          pathsField (pushPaths payload) ++
          [("repository_identity", .str repository), ("revision", .str revision)])
        revision := revision
        branch := String.ofList branch }
  else if event = "pull_request" then
    let action ← usableText (payload.get "action") "action"
    if action ∉ ["opened", "synchronize", "reopened"] then
      throw s!"pull request action {action} is not a build trigger"
    let head := (payload.get "pull_request").bind (Json.get "head")
    let revision ← usableText (head.bind (Json.get "sha")) "pull_request.head.sha"
    let branch ← usableText (head.bind (Json.get "ref")) "pull_request.head.ref"
    return {
      eventKind := "pull_request"
      payload := .obj [("branch", .str branch), ("repository_identity", .str repository),
        ("revision", .str revision)]
      revision := revision
      branch := branch }
  else throw s!"event {event} is not a build trigger"

/-! ## What the list holds -/

/-- The paths that the commits of a push changed. -/
def changedPaths (payload : Json) : List String :=
  (commits payload).flatMap commitPaths

/-- The changed paths that the walk does not skip. -/
def usablePaths (payload : Json) : Finset String :=
  ((changedPaths payload).filter usablePath).toFinset

variable {payload : Json} {mapped : MappedDelivery}

/-- The walk returns the usable paths unless they are too many. -/
theorem collectPaths_eq (paths : List String) (before : Finset String)
    (hbefore : before.card ≤ maxChangedPaths) : collectPaths paths before =
      if (before ∪ (paths.filter usablePath).toFinset).card ≤ maxChangedPaths then
        some (before ∪ (paths.filter usablePath).toFinset) else none := by
  induction paths generalizing before with
  | nil => simp [collectPaths, hbefore]
  | cons path rest ih =>
    rw [collectPaths]
    by_cases husable : usablePath path = true
    · rw [if_neg (by simp [husable]), filter_cons_of_pos husable, toFinset_cons,
        Finset.union_insert, ← Finset.insert_union]
      by_cases hfull : maxChangedPaths ≤ before.card ∧ path ∉ before
      · rw [if_pos hfull, if_neg]
        have hcard := Finset.card_insert_of_notMem hfull.2
        have hle : (insert path before).card ≤
            (insert path before ∪ (rest.filter usablePath).toFinset).card :=
          Finset.card_le_card Finset.subset_union_left
        omega
      · rw [if_neg hfull]
        refine ih _ ?_
        by_cases hmem : path ∈ before
        · rwa [Finset.insert_eq_of_mem hmem]
        · rw [Finset.card_insert_of_notMem hmem]
          by_contra hlarge
          exact hfull ⟨by omega, hmem⟩
    · rw [if_pos (by simpa using husable), ih before hbefore, filter_cons_of_neg husable]

/-- The list of a push is turned off. -/
def PathsOff (payload : Json) : Prop :=
  commitsOmitted payload = true ∨ maxChangedPaths < (usablePaths payload).card ∨
    usablePaths payload = ∅

/-- The list is off in three cases, and else holds the usable paths. -/
theorem pathsField_pushPaths (payload : Json) :
    (PathsOff payload ∧ pathsField (pushPaths payload) = []) ∨
      (¬ PathsOff payload ∧ pathsField (pushPaths payload) =
        [("paths", .arr (((usablePaths payload).sort (· ≤ ·)).map .str))]) := by
  have hcollect := collectPaths_eq (changedPaths payload) ∅ (Nat.zero_le _)
  rw [Finset.empty_union] at hcollect
  unfold pushPaths PathsOff
  by_cases homitted : commitsOmitted payload = true
  · exact .inl ⟨.inl homitted, by rw [if_pos homitted]; rfl⟩
  · rw [if_neg homitted, ← changedPaths, hcollect, ← usablePaths]
    by_cases hlarge : (usablePaths payload).card ≤ maxChangedPaths
    · rw [if_pos hlarge, pathsField]
      by_cases hempty : usablePaths payload = ∅
      · exact .inl ⟨.inr (.inr hempty), if_pos hempty⟩
      · refine .inr ⟨?_, if_neg hempty⟩
        rintro (hyes | hlt | hnone)
        · exact homitted hyes
        · omega
        · exact hempty hnone
    · rw [if_neg hlarge]
      exact .inl ⟨.inr (.inl (not_le.mp hlarge)), rfl⟩

/-- The payload of a push that was accepted. -/
theorem paths_of_mapDelivery (hok : mapDelivery "push" payload = .ok mapped) :
    ∃ branch repository revision, mapped.payload =
      .obj ([("branch", .str branch)] ++ pathsField (pushPaths payload) ++
        [("repository_identity", .str repository), ("revision", .str revision)]) := by
  unfold mapDelivery at hok
  obtain ⟨repository, -, hok⟩ := bind_eq_ok.mp hok
  rw [if_pos rfl] at hok
  obtain ⟨reference, -, hok⟩ := bind_eq_ok.mp hok
  split at hok
  · cases hok
  · next branch =>
    obtain ⟨-, hok⟩ := ite_throw_bind_eq_ok.mp hok
    obtain ⟨revision, -, hok⟩ := bind_eq_ok.mp hok
    obtain ⟨-, hok⟩ := ite_throw_bind_eq_ok.mp hok
    cases hok
    exact ⟨_, _, _, rfl⟩

/-- The event carries no list of paths, or exactly the paths that the commits of the push changed.
-/
def PathsComplete (payload : Json) (mapped : MappedDelivery) : Prop :=
  mapped.payload.get "paths" = none ∨
    ∃ paths : List String, mapped.payload.get "paths" = some (.arr (paths.map .str)) ∧
      (∀ path, path ∈ paths ↔ path ∈ changedPaths payload) ∧ commitsOmitted payload = false

/-- The list of an accepted push is absent or complete exactly if every changed path is usable, or
the list is turned off: commits are omitted, too many paths are usable, or none is. -/
theorem push_paths_complete_iff (payload : Json) (mapped : MappedDelivery)
    (hok : mapDelivery "push" payload = .ok mapped) : PathsComplete payload mapped ↔
      (∀ path ∈ changedPaths payload, usablePath path = true) ∨
        commitsOmitted payload = true ∨ maxChangedPaths < (usablePaths payload).card ∨
        usablePaths payload = ∅ := by
  obtain ⟨branch, repository, revision, hpayload⟩ := paths_of_mapDelivery hok
  unfold PathsComplete
  rcases pathsField_pushPaths payload with ⟨hoff, hfield⟩ | ⟨hon, hfield⟩
  · rw [hpayload, hfield]
    exact ⟨fun _ => .inr hoff, fun _ => .inl rfl⟩
  · have hmem (path : String) : path ∈ (usablePaths payload).sort (· ≤ ·) ↔
        path ∈ changedPaths payload ∧ usablePath path = true := by
      simp [usablePaths]
    have hget : mapped.payload.get "paths" =
        some (.arr (((usablePaths payload).sort (· ≤ ·)).map .str)) := by
      rw [hpayload, hfield]
      rfl
    rw [hget]
    constructor
    · rintro (hnone | ⟨paths, hpaths, hall, -⟩)
      · cases hnone
      · have hsame : (usablePaths payload).sort (· ≤ ·) = paths :=
          map_injective_iff.mpr (fun _ _ => Json.str.inj) (Json.arr.inj (Option.some.inj hpaths))
        refine .inl fun path hpath => ((hmem path).mp ?_).2
        rw [hsame]
        exact (hall path).mpr hpath
    · rintro (hall | hoff)
      · refine .inr ⟨_, rfl, fun path => ?_, ?_⟩
        · rw [hmem]
          exact and_iff_left_of_imp (hall path)
        · exact Bool.eq_false_of_not_eq_true fun homitted => hon (.inl homitted)
      · exact absurd hoff hon

namespace Sample

/-- A push of commits. -/
def push (commits : List Json) : Json :=
  .obj [("after", .str "507956c8"), ("commits", .arr commits), ("ref", .str "refs/heads/main"),
    ("repository", .obj [("full_name", .str "owner/project")])]

/-- What the receiver makes of it if these are its usable paths. -/
def carried (paths : List String) : MappedDelivery where
  eventKind := "push"
  payload := .obj [("branch", .str "main"), ("paths", .arr (paths.map .str)),
    ("repository_identity", .str "owner/project"), ("revision", .str "507956c8")]
  revision := "507956c8"
  branch := "main"

/-- Two commits that change three paths, one of them both times. -/
def twoCommits : Json :=
  push [.obj [("added", .arr [.str "src/b", .str "a"])],
    .obj [("modified", .arr [.str "a"]), ("removed", .arr [.str "src/a"])]]

/-- A commit that adds a path with a blank in front. -/
def padded : Json :=
  push [.obj [("added", .arr [.str "a", .str " b"])]]

/-- The other members of a push do not depend on its commits. -/
theorem mapDelivery_push {commits : List Json} {paths : List String}
    (hpaths : pathsField (pushPaths (push commits)) = [("paths", .arr (paths.map .str))]) :
    mapDelivery "push" (push commits) = .ok (carried paths) := by
  have hrepository : usableText (((push commits).get "repository").bind (Json.get "full_name"))
      "repository.full_name" = .ok "owner/project" := by
    change usableText (some (.str "owner/project")) _ = _
    decide +kernel
  have href : usableText ((push commits).get "ref") "ref" = .ok "refs/heads/main" := by
    change usableText (some (.str "refs/heads/main")) _ = _
    decide +kernel
  have hafter : usableText ((push commits).get "after") "after" = .ok "507956c8" := by
    change usableText (some (.str "507956c8")) _ = _
    decide +kernel
  unfold mapDelivery
  rw [hrepository]
  simp only [href, hafter, hpaths]
  rfl

end Sample

open Webhook.Sample in
/-- The paths of both commits are carried, each once. -/
theorem paths_of_two_commits_are_carried :
    mapDelivery "push" twoCommits = .ok (carried ["a", "src/a", "src/b"]) ∧
      PathsComplete twoCommits (carried ["a", "src/a", "src/b"]) := by
  have hset : pushPaths twoCommits = some ["a", "src/a", "src/b"].toFinset := by decide +kernel
  have hok : mapDelivery "push" twoCommits = .ok (carried ["a", "src/a", "src/b"]) := by
    refine mapDelivery_push ?_
    rw [← twoCommits, hset, pathsField, if_neg (by decide),
      (toFinset_sort _ (by decide)).mpr (by decide)]
  exact ⟨hok, (push_paths_complete_iff _ _ hok).mpr (.inl (by decide +kernel))⟩

open Webhook.Sample in
/-- A path that begins with a blank is left out of a list that is carried. -/
theorem padded_path_is_missed :
    mapDelivery "push" padded = .ok (carried ["a"]) ∧ ¬ PathsComplete padded (carried ["a"]) := by
  refine ⟨mapDelivery_push (by decide +kernel), ?_⟩
  rintro (hnone | ⟨paths, hpaths, hall, -⟩)
  · cases hnone
  · have hmissed : Json.str " b" ∈ paths.map Json.str :=
      mem_map_of_mem ((hall " b").mpr (by decide +kernel))
    rw [← Json.arr.inj (Option.some.inj hpaths)] at hmissed
    exact absurd hmissed (by decide)

end Webhook

end McLoving
