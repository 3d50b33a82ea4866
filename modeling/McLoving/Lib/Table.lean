import Mathlib.Algebra.Order.BigOperators.Group.List
import Mathlib.Algebra.Order.Ring.Nat
import Mathlib.Data.List.AList
import Mathlib.Data.List.Sort
import Mathlib.Order.Basic

/-!
# Keyed tables

A table holds finitely many rows, at most one under each key.  The operations are those of a
relational program: to look up, ask, count, list, sum up, update and insert.  Every fact about them
is stated through `lookup`.
-/

universe u v

/-- Finitely many rows of type `ρ`, at most one under each key of type `κ`. -/
abbrev Table (κ : Type u) (ρ : Type v) := AList fun _ : κ => ρ

namespace Table

open List Option AList

variable {κ : Type u} {ρ : Type v}

section Query

/-- The rows with their keys, in insertion order. -/
def rows (t : Table κ ρ) : List (κ × ρ) :=
  t.entries.map fun e => (e.1, e.2)

/-- Whether some row satisfies the condition. -/
def any (t : Table κ ρ) (p : κ → ρ → Bool) : Bool :=
  t.entries.any fun e => p e.1 e.2

/-- The rows that satisfy the condition. -/
def select (t : Table κ ρ) (p : κ → ρ → Bool) : List (κ × ρ) :=
  t.rows.filter fun r => p r.1 r.2

/-- The number of rows that satisfy the condition. -/
def count (t : Table κ ρ) (p : κ → ρ → Bool) : ℕ :=
  (t.select p).length

variable [DecidableEq κ]

variable {t : Table κ ρ} {p : κ → ρ → Bool}

/-- A pair is among the rows exactly when its row is stored under its key. -/
theorem mem_rows {k : κ} {r : ρ} : (k, r) ∈ t.rows ↔ t.lookup k = some r := by
  have hentry : (k, r) ∈ t.rows ↔ (⟨k, r⟩ : Sigma fun _ : κ => ρ) ∈ t.entries := by
    simp only [rows, List.mem_map, Prod.mk.injEq]
    constructor
    · rintro ⟨⟨k', r'⟩, hmem, rfl, rfl⟩
      exact hmem
    · exact fun hmem => ⟨_, hmem, rfl, rfl⟩
  rw [hentry, ← mem_lookup_iff, Option.mem_def]

/-- Selection keeps the stored rows that satisfy the condition. -/
theorem mem_select {k : κ} {r : ρ} : (k, r) ∈ t.select p ↔ t.lookup k = some r ∧ p k r = true := by
  rw [select, mem_filter, mem_rows]

omit [DecidableEq κ] in
theorem nodup_keys_select (t : Table κ ρ) (p : κ → ρ → Bool) :
    ((t.select p).map Prod.fst).Nodup := by
  have hkeys : t.rows.map Prod.fst = t.keys := by
    simp [rows, AList.keys, List.keys, Function.comp_def]
  have hnodup : (t.rows.map Prod.fst).Nodup := hkeys ▸ t.keys_nodup
  exact hnodup.sublist (filter_sublist.map _)

/-- Existence of a satisfying row, read through `lookup`. -/
theorem any_eq_true : t.any p = true ↔ ∃ k r, t.lookup k = some r ∧ p k r = true := by
  simp only [any, List.any_eq_true]
  constructor
  · rintro ⟨⟨k, r⟩, hmem, hp⟩
    exact ⟨k, r, mem_lookup_iff.mpr hmem, hp⟩
  · rintro ⟨k, r, hlook, hp⟩
    exact ⟨⟨k, r⟩, mem_lookup_iff.mp hlook, hp⟩

/-- Absence of a satisfying row, read through `lookup`. -/
theorem any_eq_false : t.any p = false ↔ ∀ k r, t.lookup k = some r → p k r = false := by
  rw [← Bool.not_eq_true, any_eq_true]
  simp only [not_exists, not_and, Bool.not_eq_true]

/-- No row satisfies the condition exactly when the count vanishes. -/
theorem count_eq_zero : t.count p = 0 ↔ ∀ k r, t.lookup k = some r → p k r = false := by
  rw [count, length_eq_zero_iff, eq_nil_iff_forall_not_mem]
  constructor
  · intro hnone k r hlook
    simpa [hlook] using mt mem_select.mpr (hnone (k, r))
  · rintro hnone ⟨k, r⟩ hmem
    obtain ⟨hlook, hp⟩ := mem_select.mp hmem
    simp [hnone k r hlook] at hp

/-- More than one row satisfies the condition only under two keys. -/
theorem exists_ne_of_one_lt_count (hcount : 1 < t.count p) :
    ∃ k r k' r', t.lookup k = some r ∧ p k r = true ∧ t.lookup k' = some r' ∧ p k' r' = true ∧
      k ≠ k' := by
  have hnodup := nodup_keys_select t p
  have hmem {k : κ} {r : ρ} (h : (k, r) ∈ t.select p) := mem_select.mp h
  rw [count] at hcount
  rcases hrows : t.select p with _ | ⟨⟨k, r⟩, _ | ⟨⟨k', r'⟩, rest⟩⟩
  · simp [hrows] at hcount
  · simp [hrows] at hcount
  · rw [hrows] at hmem hnodup
    obtain ⟨hlook, hp⟩ := hmem (k := k) (r := r) (by simp)
    obtain ⟨hlook', hp'⟩ := hmem (k := k') (r := r') (by simp)
    refine ⟨k, r, k', r', hlook, hp, hlook', hp', ?_⟩
    rintro rfl
    simp at hnodup

/-- The number of rows depends only on the rows that satisfy the condition. -/
theorem count_congr {t' : Table κ ρ} (hrows : ∀ k, (∃ r, t'.lookup k = some r ∧ p k r = true) ↔
      ∃ r, t.lookup k = some r ∧ p k r = true) : t'.count p = t.count p := by
  have hmem : ∀ (u : Table κ ρ) (k : κ), k ∈ (u.select p).map Prod.fst ↔
      ∃ r, u.lookup k = some r ∧ p k r = true := by
    intro u k
    simp only [List.mem_map, Prod.exists, mem_select]
    constructor
    · rintro ⟨_, r, hr, rfl⟩
      exact ⟨r, hr⟩
    · rintro ⟨r, hr⟩
      exact ⟨k, r, hr, rfl⟩
  have hperm : ((t'.select p).map Prod.fst).Perm ((t.select p).map Prod.fst) := by
    refine (perm_ext_iff_of_nodup (nodup_keys_select t' p) (nodup_keys_select t p)).mpr ?_
    intro k
    rw [hmem, hmem, hrows]
  simpa [count] using hperm.length_eq

end Query

/-- The first of the sorted rows comes before every row. -/
theorem head?_insertionSort {α : Type*} {r : α → α → Prop} [DecidableRel r] [Std.Total r]
    [IsTrans α r] {l : List α} {m : α} (hhead : (l.insertionSort r).head? = some m) :
    m ∈ l ∧ ∀ x ∈ l, r m x := by
  have hperm := perm_insertionSort r l
  have hsorted := pairwise_insertionSort r l
  rcases hlist : l.insertionSort r with _ | ⟨head, rest⟩
  · simp [hlist] at hhead
  · rw [hlist] at hhead hperm hsorted
    obtain rfl := by simpa using hhead
    refine ⟨hperm.mem_iff.mp mem_cons_self, fun x hx => ?_⟩
    rcases mem_cons.mp (hperm.mem_iff.mpr hx) with rfl | hmem
    · exact (Std.Total.total x x).elim id id
    · exact rel_of_pairwise_cons hsorted hmem

/-- The first of the rows in descending order of a key has the greatest key. -/
theorem head?_sort_desc {α β : Type*} [LinearOrder β] (key : α → β)
    [DecidableRel fun left right : α => key right ≤ key left] {l : List α} {m : α}
    (hhead : (l.insertionSort fun left right => key right ≤ key left).head? = some m) :
    m ∈ l ∧ ∀ x ∈ l, key x ≤ key m := by
  have htotal : Std.Total fun left right : α => key right ≤ key left :=
    ⟨fun left right => le_total (key right) (key left)⟩
  have htrans : IsTrans α fun left right : α => key right ≤ key left :=
    ⟨fun _ _ _ hab hbc => hbc.trans hab⟩
  exact head?_insertionSort hhead

/-- Rows in ascending order of a key. -/
theorem pairwise_sort {α β : Type*} [LinearOrder β] (key : α → β)
    [DecidableRel fun left right : α => key left ≤ key right] (l : List α) :
    (l.insertionSort fun left right => key left ≤ key right).Pairwise
      fun left right => key left ≤ key right := by
  have htotal : Std.Total fun left right : α => key left ≤ key right :=
    ⟨fun left right => le_total (key left) (key right)⟩
  have htrans : IsTrans α fun left right : α => key left ≤ key right :=
    ⟨fun _ _ _ hab hbc => hab.trans hbc⟩
  exact pairwise_insertionSort _ l

section Compare

/-- Two optional rows with the same image are both there or both missing. -/
theorem exists_of_map_eq {α β : Type*} {f : α → β} {x y : Option α} {row : α}
    (hmap : y.map f = x.map f) (hrow : x = some row) : ∃ row', y = some row' ∧ f row' = f row := by
  subst hrow
  rcases y with _ | row'
  · simp at hmap
  · exact ⟨row', rfl, by simpa using hmap⟩

end Compare

section Update

/-- Replaces every row that satisfies the condition by its image. -/
def update (t : Table κ ρ) (p : κ → ρ → Bool) (f : κ → ρ → ρ) : Table κ ρ where
  entries := t.entries.map fun e => ⟨e.1, if p e.1 e.2 then f e.1 e.2 else e.2⟩
  nodupKeys := by
    have hkeys : (t.entries.map fun e =>
        (⟨e.1, if p e.1 e.2 then f e.1 e.2 else e.2⟩ : Sigma fun _ : κ => ρ)).keys
          = t.entries.keys := by
      simp [List.keys, List.map_map, Function.comp_def]
    rw [List.NodupKeys, hkeys]
    exact t.nodupKeys

variable [DecidableEq κ]

/-- Looking up after an update: the stored row, changed where the condition holds. -/
@[simp]
theorem lookup_update (t : Table κ ρ) (p : κ → ρ → Bool) (f : κ → ρ → ρ) (k : κ) :
    (t.update p f).lookup k = (t.lookup k).map fun r => if p k r then f k r else r := by
  rcases hlook : t.lookup k with _ | r
  · have hmem : k ∉ t.update p f := by
      have hkey := AList.lookup_eq_none.mp hlook
      simpa [AList.mem_keys, AList.keys, update, List.keys, List.map_map, Function.comp_def]
        using hkey
    simpa using AList.lookup_eq_none.mpr hmem
  · refine mem_lookup_iff.mpr ?_
    have hentry := mem_lookup_iff.mp (mem_def.mpr hlook)
    exact mem_map.mpr ⟨⟨k, r⟩, hentry, rfl⟩

/-- Replaces the row stored under one key. -/
def modify (t : Table κ ρ) (k : κ) (f : ρ → ρ) : Table κ ρ :=
  t.update (fun k' _ => k' = k) fun _ => f

@[simp]
theorem lookup_modify (t : Table κ ρ) (k k' : κ) (f : ρ → ρ) :
    (t.modify k f).lookup k' = if k' = k then (t.lookup k').map f else t.lookup k' := by
  by_cases hk : k' = k
  · simp [modify, hk]
  · simp [modify, hk]

/-- Looking up after changing a row that is there. -/
theorem lookup_modify_of_eq {t : Table κ ρ} {k : κ} {row : ρ} (hrow : t.lookup k = some row)
    (f : ρ → ρ) (k' : κ) :
    (t.modify k f).lookup k' = if k' = k then some (f row) else t.lookup k' := by
  rw [lookup_modify]
  split
  · next heq => rw [heq, hrow, map_some]
  · rfl

/-- Looking up with the row under one key spelled out. -/
theorem lookup_eq_ite {t : Table κ ρ} {k : κ} {row : ρ} (hrow : t.lookup k = some row) (k' : κ) :
    t.lookup k' = if k' = k then some row else t.lookup k' := by
  split
  · next heq => rw [heq, hrow]
  · rfl

end Update

section Delete

/-- Removes every row that satisfies the condition. -/
def delete (t : Table κ ρ) (p : κ → ρ → Bool) : Table κ ρ where
  entries := t.entries.filter fun e => !p e.1 e.2
  nodupKeys := t.nodupKeys.sublist List.filter_sublist

variable [DecidableEq κ]

/-- Looking up after a deletion: the stored row, if it does not satisfy the condition. -/
@[simp]
theorem lookup_delete (t : Table κ ρ) (p : κ → ρ → Bool) (k : κ) :
    (t.delete p).lookup k = (t.lookup k).filter fun r => !p k r := by
  refine Option.ext fun r => ?_
  have hentry : (t.delete p).lookup k = some r ↔ t.lookup k = some r ∧ p k r = false := by
    rw [← mem_def, mem_lookup_iff, ← mem_def, mem_lookup_iff]
    simp [delete, mem_filter]
  rw [hentry, filter_eq_some_iff, Bool.not_eq_true']

end Delete

section Insert

variable [DecidableEq κ]

variable {t t' : Table κ ρ} {c k : κ} {q : ρ} {new : List (κ × ρ)}

theorem lookup_insert_of_none {row : ρ} (hnone : t.lookup c = none) (hq : t.lookup k = some q) :
    (t.insert c row).lookup k = some q := by
  refine (lookup_insert_ne ?_).trans hq
  rintro rfl
  cases hnone.symm.trans hq

/-- A row after one insertion is the new one or an old one under another key. -/
theorem lookup_insert_cases {row : ρ} (hq : (t.insert c row).lookup k = some q) :
    (k = c ∧ q = row) ∨ (k ≠ c ∧ t.lookup k = some q) := by
  by_cases hk : k = c
  · subst hk
    rw [lookup_insert] at hq
    exact .inl ⟨rfl, (Option.some.inj hq).symm⟩
  · rw [lookup_insert_ne hk] at hq
    exact .inr ⟨hk, hq⟩

/-- A row after a deletion is an old one under another key. -/
theorem lookup_erase_cases (hq : AList.lookup k (t.erase c) = some q) :
    k ≠ c ∧ t.lookup k = some q := by
  by_cases hk : k = c
  · rw [hk, lookup_erase] at hq
    cases hq
  · rw [lookup_erase_ne hk] at hq
    exact ⟨hk, hq⟩

/-- Inserts rows one after another; every key must be unused when its turn comes. -/
def insertAll : List (κ × ρ) → Table κ ρ → Option (Table κ ρ)
  | [], t => some t
  | (k, r) :: rest, t => if k ∈ t then none else insertAll rest (t.insert k r)

theorem insertAll_cons {r : ρ} {rest : List (κ × ρ)}
    (hins : insertAll ((k, r) :: rest) t = some t') :
    k ∉ t ∧ insertAll rest (t.insert k r) = some t' := by
  rw [insertAll] at hins
  split at hins
  · cases hins
  · exact ⟨‹_›, hins⟩

/-- After inserting, a key holds a new row or its old one. -/
theorem lookup_insertAll (hins : insertAll new t = some t') (k : κ) (r : ρ) :
    t'.lookup k = some r ↔ t.lookup k = some r ∨ (k, r) ∈ new := by
  induction new generalizing t with
  | nil =>
    cases hins
    simp
  | cons head _ ih =>
    obtain ⟨key, row⟩ := head
    obtain ⟨hfresh, hrest⟩ := insertAll_cons hins
    rw [ih hrest, mem_cons, Prod.mk.injEq]
    by_cases hkey : k = key
    · subst hkey
      have hnone := lookup_eq_none.mpr hfresh
      simp [lookup_insert, hnone, eq_comm]
    · simp [lookup_insert_ne hkey, hkey]

/-- Keys of inserted rows were unused before. -/
theorem lookup_eq_none_of_insertAll (hins : insertAll new t = some t') {r : ρ}
    (hmem : (k, r) ∈ new) : t.lookup k = none := by
  induction new generalizing t with
  | nil => cases hmem
  | cons head _ ih =>
    obtain ⟨key, row⟩ := head
    obtain ⟨hfresh, hrest⟩ := insertAll_cons hins
    rcases mem_cons.mp hmem with hhead | htail
    · obtain ⟨rfl, rfl⟩ := Prod.mk.inj hhead
      exact lookup_eq_none.mpr hfresh
    · have hnone := ih hrest htail
      by_cases hkey : k = key
      · subst hkey
        simp [lookup_insert] at hnone
      · rwa [lookup_insert_ne hkey] at hnone

theorem nodup_keys_of_insertAll (hins : insertAll new t = some t') : (new.map Prod.fst).Nodup := by
  induction new generalizing t with
  | nil => exact nodup_nil
  | cons head _ ih =>
    obtain ⟨key, row⟩ := head
    obtain ⟨-, hrest⟩ := insertAll_cons hins
    rw [map_cons, nodup_cons]
    refine ⟨fun hkey => ?_, ih hrest⟩
    obtain ⟨⟨k, r⟩, hmem, rfl⟩ := mem_map.mp hkey
    have hnone := lookup_eq_none_of_insertAll hrest hmem
    rw [lookup_insert] at hnone
    cases hnone

end Insert

end Table

namespace Table

open List AList

variable {κ : Type u} {ρ : Type v} {t : Table κ ρ} {k : κ} {row : ρ}

/-- The sum of a weight over all rows. -/
def total (t : Table κ ρ) (weight : ρ → ℕ) : ℕ :=
  (t.rows.map fun row => weight row.2).sum

theorem total_eq_sum_entries (t : Table κ ρ) (weight : ρ → ℕ) :
    t.total weight = (t.entries.map fun e => weight e.2).sum := by
  simp [total, rows, Function.comp_def]

variable [DecidableEq κ]

/-- A new row is selected besides the old ones if it passes. -/
theorem select_insert (p : κ → ρ → Bool) (hfresh : t.lookup k = none) :
    Table.select (t.insert k row) p = if p k row then (k, row) :: t.select p else t.select p := by
  have hkey := lookup_eq_none.mp hfresh
  rw [select, rows, entries_insert_of_notMem hkey, map_cons, filter_cons]
  rfl

/-- A new row may be inserted as it is after an update. -/
theorem modify_insert {f : ρ → ρ} (hfresh : t.lookup k = none) :
    Table.modify (t.insert k row) k f = t.insert k (f row) := by
  have hkey := lookup_eq_none.mp hfresh
  refine AList.ext ?_
  change List.map (fun e : Sigma fun _ : κ => ρ =>
    (⟨e.1, if decide (e.1 = k) then f e.2 else e.2⟩ : Sigma fun _ : κ => ρ)) _ = _
  rw [entries_insert_of_notMem hkey, entries_insert_of_notMem hkey, map_cons,
    if_pos (decide_eq_true rfl)]
  refine congrArg (List.cons _) ((map_congr_left fun e hmem => ?_).trans (map_id _))
  rw [if_neg]
  · rfl
  · rw [decide_eq_true_eq]
    rintro rfl
    exact hkey (mem_keys.mpr (mem_keys_of_mem hmem))

theorem total_insert (weight : ρ → ℕ) (hfresh : t.lookup k = none) :
    Table.total (t.insert k row) weight = weight row + t.total weight := by
  have hkey := lookup_eq_none.mp hfresh
  rw [total_eq_sum_entries, total_eq_sum_entries, entries_insert_of_notMem hkey]
  simp

/-- Entries under other keys are not changed. -/
theorem map_update_of_notMem {entries : List (Sigma fun _ : κ => ρ)} (f : ρ → ρ)
    (weight : ρ → ℕ) (hkey : k ∉ entries.keys) :
    (entries.map fun e => weight (if e.1 = k then f e.2 else e.2)) =
      entries.map fun e => weight e.2 := by
  refine map_congr_left fun e hmem => ?_
  have hne : e.1 ≠ k := by
    rintro rfl
    exact hkey (mem_keys_of_mem hmem)
  rw [if_neg hne]

theorem sum_update {entries : List (Sigma fun _ : κ => ρ)} (hnodup : entries.NodupKeys) (f : ρ → ρ)
    (weight : ρ → ℕ) (hmem : ⟨k, row⟩ ∈ entries) :
    (entries.map fun e => weight (if e.1 = k then f e.2 else e.2)).sum + weight row =
      (entries.map fun e => weight e.2).sum + weight (f row) := by
  induction entries with
  | nil => cases hmem
  | cons head _ ih =>
    obtain ⟨hfresh, hrest⟩ := nodupKeys_cons.mp hnodup
    simp only [map_cons, sum_cons]
    rcases mem_cons.mp hmem with rfl | htail
    · rw [map_update_of_notMem f weight hfresh, if_pos rfl]
      dsimp only
      omega
    · have hne : head.1 ≠ k := by
        rintro rfl
        exact hfresh (mem_keys_of_mem htail (s := ⟨head.1, row⟩))
      have htotal := ih hrest htail
      rw [if_neg hne]
      omega

/-- Changing one row changes the total by the difference of the weights. -/
theorem total_modify (weight : ρ → ℕ) (f : ρ → ρ) (hrow : t.lookup k = some row) :
    (t.modify k f).total weight + weight row = t.total weight + weight (f row) := by
  have hmem := mem_lookup_iff.mp (Option.mem_def.mpr hrow)
  rw [total_eq_sum_entries, total_eq_sum_entries, ← sum_update t.nodupKeys f weight hmem]
  simp [modify, update, Function.comp_def]

theorem le_total (weight : ρ → ℕ) (hrow : t.lookup k = some row) : weight row ≤ t.total weight := by
  have hmem := mem_lookup_iff.mp (Option.mem_def.mpr hrow)
  rw [total_eq_sum_entries]
  exact le_sum_of_mem (mem_map_of_mem hmem (f := fun e => weight e.2))

end Table
