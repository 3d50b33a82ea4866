import Mathlib.Data.List.Forall2
import Mathlib.Data.List.Nodup
import Mathlib.Order.Lattice

/-!
# Maps in key order, and choices of values

A finite map that lists its entries in strictly increasing order of their keys, and the assignments
of one value to each key of a list, in lexicographic order.
-/

universe u v w

/-- Finitely many values, listed by strictly increasing key. -/
@[ext]
structure OrderedMap (κ : Type u) (α : Type v) [LinearOrder κ] where
  entries : List (κ × α)
  sorted : entries.Pairwise fun a b => a.1 < b.1

namespace OrderedMap

open List

variable {κ : Type u} {α : Type v} {β : Type w} [LinearOrder κ]

instance : EmptyCollection (OrderedMap κ α) :=
  ⟨⟨[], List.Pairwise.nil⟩⟩

@[simp]
theorem entries_empty : (∅ : OrderedMap κ α).entries = [] := rfl

/-- The value of the first entry under a key. -/
def find (key : κ) : List (κ × α) → Option α
  | [] => none
  | entry :: rest => if entry.1 = key then some entry.2 else find key rest

/-- The value under a key. -/
def get? (m : OrderedMap κ α) (key : κ) : Option α :=
  find key m.entries

/-- An entry put in its place, replacing the one under the same key. -/
def insertEntry (key : κ) (value : α) : List (κ × α) → List (κ × α)
  | [] => [(key, value)]
  | entry :: rest =>
    if key < entry.1 then (key, value) :: entry :: rest
    else if key = entry.1 then (key, value) :: rest
    else entry :: insertEntry key value rest

/-! ## Inserting -/

variable {entries : List (κ × α)}

theorem mem_insertEntry {key : κ} {value : α} {e : κ × α}
    (hmem : e ∈ insertEntry key value entries) : e = (key, value) ∨ e ∈ entries := by
  induction entries with
  | nil => exact .inl (mem_singleton.mp hmem)
  | cons _ _ ih =>
    rw [insertEntry] at hmem
    split_ifs at hmem
    · exact mem_cons.mp hmem
    · exact (mem_cons.mp hmem).imp_right (mem_cons_of_mem _)
    · rcases mem_cons.mp hmem with rfl | hrest
      · exact .inr mem_cons_self
      · exact (ih hrest).imp_right (mem_cons_of_mem _)

theorem sorted_insertEntry (key : κ) (value : α) (hsorted : entries.Pairwise fun a b => a.1 < b.1) :
    (insertEntry key value entries).Pairwise fun a b => a.1 < b.1 := by
  induction entries with
  | nil => exact pairwise_singleton _ _
  | cons _ _ ih =>
    obtain ⟨hhead, hrest⟩ := pairwise_cons.mp hsorted
    rw [insertEntry]
    split_ifs with hlt heq
    · refine pairwise_cons.mpr ⟨fun e he => ?_, hsorted⟩
      rcases mem_cons.mp he with rfl | he
      · exact hlt
      · exact hlt.trans (hhead e he)
    · exact pairwise_cons.mpr ⟨fun e he => heq ▸ hhead e he, hrest⟩
    · refine pairwise_cons.mpr ⟨fun e he => ?_, ih hrest⟩
      rcases mem_insertEntry he with rfl | he
      · exact lt_of_le_of_ne (not_lt.mp hlt) (Ne.symm heq)
      · exact hhead e he

/-- An entry with the largest key goes to the end. -/
theorem insertEntry_of_lt {key : κ} (value : α) (hlt : ∀ entry ∈ entries, entry.1 < key) :
    insertEntry key value entries = entries ++ [(key, value)] := by
  induction entries with
  | nil => rfl
  | cons entry _ ih =>
    have hentry := hlt entry mem_cons_self
    rw [insertEntry, if_neg hentry.not_gt, if_neg hentry.ne',
      ih fun other hmem => hlt other (mem_cons_of_mem _ hmem), cons_append]

/-- The map with a value under a key, replacing what was there. -/
def insert (m : OrderedMap κ α) (key : κ) (value : α) : OrderedMap κ α :=
  ⟨insertEntry key value m.entries, sorted_insertEntry key value m.sorted⟩

/-- The map of a list of entries; a later entry replaces an earlier one under the same key. -/
def ofList (entries : List (κ × α)) : OrderedMap κ α :=
  entries.foldl (fun m e => m.insert e.1 e.2) ∅

end OrderedMap

namespace Cartesian

open List

variable {κ : Type u} {α : Type v}

/-- The assignments to the axes; the value of the first axis changes last. -/
def assignments : List (κ × List α) → List (List (κ × α))
  | [] => [[]]
  | axis :: rest => axis.2.flatMap fun value => (assignments rest).map ((axis.1, value) :: ·)

/-- The assignment gives each axis one of its values. -/
def Assigns (axes : List (κ × List α)) (assignment : List (κ × α)) : Prop :=
  List.Forall₂ (fun entry axis => entry.1 = axis.1 ∧ entry.2 ∈ axis.2) assignment axes

variable {axes : List (κ × List α)} {assignment : List (κ × α)}

theorem mem_assignments : assignment ∈ assignments axes ↔ Assigns axes assignment := by
  induction axes generalizing assignment with
  | nil => simp [assignments, Assigns]
  | cons axis _ ih =>
    simp only [assignments, mem_flatMap, mem_map, Assigns, List.forall₂_cons_right_iff]
    constructor
    · rintro ⟨value, hvalue, tail, htail, rfl⟩
      exact ⟨(axis.1, value), tail, ⟨rfl, hvalue⟩, ih.mp htail, rfl⟩
    · rintro ⟨⟨_, value⟩, tail, ⟨rfl, hvalue⟩, htail, rfl⟩
      exact ⟨value, hvalue, tail, ih.mpr htail, rfl⟩

theorem Assigns.exists_axis (hassigns : Assigns axes assignment) {entry : κ × α}
    (hmem : entry ∈ assignment) : ∃ axis ∈ axes, entry.1 = axis.1 ∧ entry.2 ∈ axis.2 := by
  induction hassigns with
  | nil => cases hmem
  | @cons _ axis _ _ hfirst _ ih =>
    rcases mem_cons.mp hmem with rfl | hmem
    · exact ⟨axis, mem_cons_self, hfirst⟩
    · obtain ⟨other, hother, hentry⟩ := ih hmem
      exact ⟨other, mem_cons_of_mem _ hother, hentry⟩

/-- Axes with increasing values are assigned in lexicographic order of the values. -/
theorem pairwise_assignments [LT α] (hvalues : ∀ axis ∈ axes, axis.2.Pairwise (· < ·)) :
    (assignments axes).Pairwise fun a b =>
      List.Lex (· < ·) (a.map Prod.snd) (b.map Prod.snd) := by
  induction axes with
  | nil => exact pairwise_singleton _ _
  | cons axis _ ih =>
    rw [assignments, pairwise_flatMap]
    refine ⟨fun value _ => pairwise_map.mpr ?_, ?_⟩
    · have hrest := ih fun other hmem => hvalues other (mem_cons_of_mem _ hmem)
      exact hrest.imp .cons
    · refine (hvalues axis mem_cons_self).imp fun {first second} hlt a ha b hb => ?_
      obtain ⟨_, -, rfl⟩ := mem_map.mp ha
      obtain ⟨_, -, rfl⟩ := mem_map.mp hb
      exact .rel hlt

end Cartesian
