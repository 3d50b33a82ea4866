import McLoving.Artifacts.Patterns
import Mathlib.Algebra.BigOperators.Group.List.Basic

/-!
# The identity of an artifact set

The members of a set are hashed in the order of their names.
-/

namespace McLoving.Artifacts

open List Except Bytes

def maxArtifactObjectNameBytes : ℕ := 512

def maxArtifactFilesPerAttempt : ℕ := 1024

def maxAttemptArtifactBytes : ℕ := 256 * 1048576

def artifactMediaType : String := "application/octet-stream"

structure ArtifactManifestMember where
  name : String
  bytes : UInt64
  mediaType : String
  deriving DecidableEq

/-- The checks of a member but for duplicates. -/
def ArtifactManifestMember.Admissible (member : ArtifactManifestMember) : Prop :=
  member.name ≠ "" ∧ member.name.utf8ByteSize ≤ maxArtifactObjectNameBytes ∧
    (∀ c ∈ member.name.toList, ¬ isControl c) ∧ member.mediaType = artifactMediaType

instance (member : ArtifactManifestMember) : Decidable member.Admissible :=
  letI : Decidable (∀ c ∈ member.name.toList, ¬ isControl c) := List.decidableBAll _ _
  inferInstanceAs (Decidable (_ ∧ _ ∧ _ ∧ _))

/-- The loop of `validate_manifest`, with the total and the names so far. -/
def validateMembers : List ArtifactManifestMember → ℕ → List String → Except String ℕ
  | [], total, _ => .ok total
  | member :: members, total, names => do
    Except.refuseIf (¬ member.Admissible ∨ member.name ∈ names)
      "invalid or duplicate artifact member"
    Except.refuseIf (u64Max < total + member.bytes.toNat) "artifact bytes overflow"
    Except.refuseIf (maxAttemptArtifactBytes < total + member.bytes.toNat) "artifact byte quota"
    validateMembers members (total + member.bytes.toNat) (member.name :: names)

/-- `validate_manifest`. -/
def validateManifest (members : List ArtifactManifestMember) : Except String ℕ := do
  Except.refuseIf (maxArtifactFilesPerAttempt < members.length) "too many artifact members"
  validateMembers members 0 []

/-- The bytes of a member. -/
def ArtifactManifestMember.stream (member : ArtifactManifestMember) : List UInt8 :=
  Bytes.field (Utf8.encode member.name) ++ Bytes.field (Utf8.encode member.mediaType) ++
    Bytes.bigEndian 8 member.bytes.toNat

/-- The bytes that `artifact_manifest_digest` hashes. -/
def artifactManifestStream (members : List ArtifactManifestMember) : List UInt8 :=
  Utf8.encode "mcloving.artifact-set.v2\x00" ++
    (members.insertionSort fun left right => left.name ≤ right.name).flatMap
      ArtifactManifestMember.stream

/-! ## Acceptance -/

/-- The sum of the sizes of the members. -/
def totalBytes (members : List ArtifactManifestMember) : ℕ :=
  (members.map fun member => member.bytes.toNat).sum

theorem validateMembers_eq_ok {members : List ArtifactManifestMember} {total result : ℕ}
    {names : List String} (htotal : total ≤ maxAttemptArtifactBytes) :
    validateMembers members total names = .ok result ↔
      (∀ member ∈ members, member.Admissible ∧ member.name ∉ names) ∧
        (members.map ArtifactManifestMember.name).Nodup ∧
        result = total + totalBytes members ∧ result ≤ maxAttemptArtifactBytes := by
  induction members generalizing total names with
  | nil =>
    simp only [validateMembers, totalBytes, Except.ok.injEq, not_mem_nil, false_imp_iff,
      implies_true, map_nil, nodup_nil, sum_nil, Nat.add_zero, true_and]
    constructor
    · rintro rfl
      exact ⟨rfl, htotal⟩
    · rintro ⟨rfl, -⟩
      rfl
  | cons member members ih =>
    rw [validateMembers, unit_bind_eq_ok, refuseIf_eq_ok, unit_bind_eq_ok,
      refuseIf_eq_ok, unit_bind_eq_ok, refuseIf_eq_ok]
    have hsum : totalBytes (member :: members) = member.bytes.toNat + totalBytes members := by
      simp [totalBytes]
    constructor
    · rintro ⟨hmember, -, hquota, hrest⟩
      rw [not_or, not_not] at hmember
      obtain ⟨hmembers, hnodup, hresult, hle⟩ := (ih (by omega)).mp hrest
      refine ⟨forall_mem_cons.mpr ⟨hmember, fun other hother => ?_⟩, ?_, by omega, hle⟩
      · exact ⟨(hmembers other hother).1, fun hname =>
          (hmembers other hother).2 (mem_cons_of_mem _ hname)⟩
      · rw [map_cons, nodup_cons]
        refine ⟨fun hname => ?_, hnodup⟩
        obtain ⟨other, hother, hsame⟩ := mem_map.mp hname
        exact (hmembers other hother).2 (by rw [hsame]; exact mem_cons_self)
    · rintro ⟨hmembers, hnodup, hresult, hle⟩
      obtain ⟨hmember, hmembers⟩ := forall_mem_cons.mp hmembers
      rw [map_cons, nodup_cons] at hnodup
      have hmax : maxAttemptArtifactBytes ≤ u64Max := by decide
      refine ⟨?_, by omega, by omega, (ih (by omega)).mpr ⟨fun other hother => ?_, hnodup.2, by omega,
        hle⟩⟩
      · rw [not_or, not_not]
        exact hmember
      · refine ⟨(hmembers other hother).1, fun hname => ?_⟩
        rcases mem_cons.mp hname with hsame | hname
        · exact hnodup.1 (hsame ▸ mem_map_of_mem hother)
        · exact (hmembers other hother).2 hname

/-- The accepted lists. -/
structure Accepted (members : List ArtifactManifestMember) : Prop where
  count : members.length ≤ maxArtifactFilesPerAttempt
  admissible : ∀ member ∈ members, member.Admissible
  names : (members.map ArtifactManifestMember.name).Nodup
  total : totalBytes members ≤ maxAttemptArtifactBytes

theorem validateManifest_eq_ok {members : List ArtifactManifestMember} {total : ℕ} :
    validateManifest members = .ok total ↔ Accepted members ∧ total = totalBytes members := by
  rw [validateManifest, unit_bind_eq_ok, refuseIf_eq_ok, Nat.not_lt,
    validateMembers_eq_ok (Nat.zero_le _), Nat.zero_add]
  constructor
  · rintro ⟨hcount, hmembers, hnodup, rfl, hle⟩
    exact ⟨⟨hcount, fun member hmem => (hmembers member hmem).1, hnodup, hle⟩, rfl⟩
  · rintro ⟨⟨hcount, hmembers, hnodup, hle⟩, rfl⟩
    exact ⟨hcount, fun member hmem => ⟨hmembers member hmem, not_mem_nil⟩, hnodup, rfl, hle⟩

variable {a b : List ArtifactManifestMember}

theorem totalBytes_perm (hperm : a.Perm b) : totalBytes a = totalBytes b := (hperm.map _).sum_eq

theorem Accepted.perm (haccepted : Accepted a) (hperm : a.Perm b) : Accepted b where
  count := hperm.length_eq ▸ haccepted.count
  admissible member hmem := haccepted.admissible member (hperm.mem_iff.mpr hmem)
  names := (hperm.map _).nodup_iff.mp haccepted.names
  total := totalBytes_perm hperm ▸ haccepted.total

/-! ## The bytes -/

/-- A member is read back from the front. -/
theorem stream_append_inj {a b : ArtifactManifestMember} {x y : List UInt8} (ha : a.Admissible)
    (hb : b.Admissible) (hsame : a.stream ++ x = b.stream ++ y) : a = b ∧ x = y := by
  have hsize (member : ArtifactManifestMember) (hmember : member.Admissible) :
      (Utf8.encode member.name).length < 2 ^ 64 ∧ (Utf8.encode member.mediaType).length < 2 ^ 64 := by
    rw [Utf8.length_encode, Utf8.length_encode, hmember.2.2.2]
    have hname := hmember.2.1
    unfold maxArtifactObjectNameBytes at hname
    exact ⟨by omega, by decide⟩
  obtain ⟨haname, hamedia⟩ := hsize a ha
  obtain ⟨hbname, hbmedia⟩ := hsize b hb
  simp only [ArtifactManifestMember.stream, append_assoc] at hsame
  obtain ⟨hname, hsame⟩ := field_append_inj haname hbname hsame
  obtain ⟨hmedia, hsame⟩ := field_append_inj hamedia hbmedia hsame
  obtain ⟨hbytes, hrest⟩ := append_inj hsame (by simp [length_bigEndian])
  have hnumber := bigEndian_injective a.bytes.toNat_lt b.bytes.toNat_lt hbytes
  have hname := Utf8.encode_injective hname
  have hmedia := Utf8.encode_injective hmedia
  have hbytes := UInt64.toNat_inj.mp hnumber
  cases a
  cases b
  cases hname
  cases hmedia
  cases hbytes
  exact ⟨rfl, hrest⟩

/-- The members are read back from their bytes. -/
theorem flatMap_stream_injective (ha : ∀ member ∈ a, member.Admissible)
    (hb : ∀ member ∈ b, member.Admissible)
    (hsame : a.flatMap ArtifactManifestMember.stream = b.flatMap ArtifactManifestMember.stream) :
    a = b := by
  have hne (member : ArtifactManifestMember) (rest : List UInt8) : member.stream ++ rest ≠ [] := by
    intro hempty
    have hlength := congrArg List.length hempty
    simp [ArtifactManifestMember.stream, length_bigEndian] at hlength
  induction a generalizing b with
  | nil =>
    cases b with
    | nil => rfl
    | cons member => exact absurd hsame.symm (hne member _)
  | cons member _ ih =>
    cases b with
    | nil => exact absurd hsame (hne member _)
    | cons member' =>
      have hboth := stream_append_inj (ha member mem_cons_self)
        (hb member' mem_cons_self) hsame
      rw [hboth.1, ih (fun other hmem => ha other (mem_cons_of_mem _ hmem))
        (fun other hmem => hb other (mem_cons_of_mem _ hmem)) hboth.2]

/-- Members with different names have one order. -/
theorem insertionSort_eq_of_perm (hperm : a.Perm b)
    (hnodup : (a.map ArtifactManifestMember.name).Nodup) :
    a.insertionSort (fun left right => left.name ≤ right.name) =
      b.insertionSort (fun left right => left.name ≤ right.name) := by
  have hsorted := Table.pairwise_sort ArtifactManifestMember.name
  have ha := perm_insertionSort (fun left right : ArtifactManifestMember =>
    left.name ≤ right.name) a
  have hb := perm_insertionSort (fun left right : ArtifactManifestMember =>
    left.name ≤ right.name) b
  refine List.Perm.eq_of_pairwise (fun left right hleft hright hle hge => ?_) (hsorted a) (hsorted b)
    (ha.trans (hperm.trans hb.symm))
  exact inj_on_of_nodup_map hnodup (ha.mem_iff.mp hleft)
    (hperm.mem_iff.mpr (hb.mem_iff.mp hright)) (le_antisymm hle hge)

/-- Two accepted lists are hashed as the same bytes exactly if they are permutations of each other;
the result of an acceptance is the sum of the sizes, which is within the quota; and acceptance does
not depend on the order. -/
theorem manifest_identity (a b : List ArtifactManifestMember) :
    (∀ total total', validateManifest a = .ok total → validateManifest b = .ok total' →
      (artifactManifestStream a = artifactManifestStream b ↔ a.Perm b)) ∧
    (∀ total, validateManifest a = .ok total →
      total = (a.map fun member => member.bytes.toNat).sum ∧ total ≤ maxAttemptArtifactBytes) ∧
    (a.Perm b → ∀ total, validateManifest a = .ok total ↔ validateManifest b = .ok total) := by
  refine ⟨fun total total' hatotal hbtotal => ?_, fun total htotal => ?_, fun hperm total => ?_⟩
  · obtain ⟨ha, -⟩ := validateManifest_eq_ok.mp hatotal
    obtain ⟨hb, -⟩ := validateManifest_eq_ok.mp hbtotal
    constructor
    · intro hsame
      have haperm := perm_insertionSort (fun left right : ArtifactManifestMember =>
        left.name ≤ right.name) a
      have hbperm := perm_insertionSort (fun left right : ArtifactManifestMember =>
        left.name ≤ right.name) b
      have hsorted := flatMap_stream_injective
        (fun member hmem => ha.admissible member (haperm.mem_iff.mp hmem))
        (fun member hmem => hb.admissible member (hbperm.mem_iff.mp hmem))
        (append_cancel_left hsame)
      rw [hsorted] at haperm
      exact haperm.symm.trans hbperm
    · intro hperm
      rw [artifactManifestStream, artifactManifestStream, insertionSort_eq_of_perm hperm ha.names]
  · obtain ⟨haccepted, rfl⟩ := validateManifest_eq_ok.mp htotal
    exact ⟨rfl, haccepted.total⟩
  · rw [validateManifest_eq_ok, validateManifest_eq_ok, totalBytes_perm hperm]
    exact and_congr_left fun _ => ⟨fun ha => ha.perm hperm, fun hb => hb.perm hperm.symm⟩

/-- Two members in either order. -/
theorem manifest_identity_of_two :
    artifactManifestStream [⟨"a/x", 1, artifactMediaType⟩, ⟨"a/y", 2, artifactMediaType⟩] =
      artifactManifestStream [⟨"a/y", 2, artifactMediaType⟩, ⟨"a/x", 1, artifactMediaType⟩] :=
  ((manifest_identity [⟨"a/x", 1, artifactMediaType⟩, ⟨"a/y", 2, artifactMediaType⟩]
    [⟨"a/y", 2, artifactMediaType⟩, ⟨"a/x", 1, artifactMediaType⟩]).1 3 3 (by decide +kernel)
    (by decide +kernel)).mpr (List.Perm.swap _ _ _)

end McLoving.Artifacts
