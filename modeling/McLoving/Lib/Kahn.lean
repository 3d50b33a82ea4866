import Mathlib.Data.Finset.Card
import Mathlib.Logic.Relation
import Mathlib.Data.List.Sort
import Mathlib.Data.Set.Finite.List
import Mathlib.Order.WellFounded

/-!
# Counting down in-degrees

The walk over a directed graph takes the least vertex that is ready, counts it as visited and lowers
the in-degree of its children; a child whose in-degree reaches zero becomes ready.  A walk that
visits every vertex has listed the graph in topological order.  The vertices reachable along a list
of edges are found by saturation.
-/

universe u

namespace Kahn

open List

variable {α : Type u} [LinearOrder α]

/-- Lowers the in-degree of each child in turn; a child left at zero joins the ready vertices. -/
def release : List α → List α → (α → ℕ) → List α × (α → ℕ)
  | [], ready, indegree => (ready, indegree)
  | child :: rest, ready, indegree =>
    let degree := indegree child - 1
    release rest (if degree = 0 then ready.orderedInsert (· ≤ ·) child else ready)
      (Function.update indegree child degree)

/-- Visits ready vertices, least first, for at most the given number of rounds.  The result lists
the visited vertices, latest first. -/
def visit (children : α → List α) : ℕ → List α → (α → ℕ) → List α → List α
  | 0, _, _, visited => visited
  | _ + 1, [], _, visited => visited
  | rounds + 1, key :: ready, indegree, visited =>
    let next := release (children key) ready indegree
    visit children rounds next.1 next.2 (key :: visited)

/-! ## Checked subtraction -/

/-- `release` that stops where an in-degree of zero would be lowered. -/
def releaseChecked : List α → List α → (α → ℕ) → Option (List α × (α → ℕ))
  | [], ready, indegree => some (ready, indegree)
  | child :: rest, ready, indegree =>
    if indegree child = 0 then none
    else
      let degree := indegree child - 1
      releaseChecked rest (if degree = 0 then ready.orderedInsert (· ≤ ·) child else ready)
        (Function.update indegree child degree)

/-- `visit` that stops where an in-degree of zero would be lowered. -/
def visitChecked (children : α → List α) : ℕ → List α → (α → ℕ) → List α → Option (List α)
  | 0, _, _, visited => some visited
  | _ + 1, [], _, visited => some visited
  | rounds + 1, key :: ready, indegree, visited =>
    (releaseChecked (children key) ready indegree).bind fun next =>
      visitChecked children rounds next.1 next.2 (key :: visited)

variable {indegree : α → ℕ} {parents : α → List α} {visited : List α} {children ready : List α}

/-- Different children with positive in-degrees are released without an underflow. -/
theorem releaseChecked_eq (hnodup : children.Nodup)
    (hpos : ∀ child ∈ children, 0 < indegree child) :
    releaseChecked children ready indegree = some (release children ready indegree) := by
  induction children generalizing ready indegree with
  | nil => rfl
  | cons child _ ih =>
    obtain ⟨hfresh, hnodup⟩ := nodup_cons.mp hnodup
    have hchild := hpos child mem_cons_self
    rw [releaseChecked, if_neg (by omega), release]
    refine ih hnodup fun other hmem => ?_
    rw [Function.update_of_ne (ne_of_mem_of_not_mem hmem hfresh)]
    exact hpos other (mem_cons_of_mem _ hmem)

/-- Releasing different children lowers the in-degree of each by one. -/
theorem release_indegree {indegree : α → ℕ} (hnodup : children.Nodup)
    (vertex : α) : (release children ready indegree).2 vertex =
      if vertex ∈ children then indegree vertex - 1 else indegree vertex := by
  induction children generalizing ready indegree with
  | nil => rfl
  | cons child _ ih =>
    obtain ⟨hfresh, hnodup⟩ := nodup_cons.mp hnodup
    rw [release, ih hnodup]
    by_cases heq : vertex = child
    · subst heq
      simp [hfresh]
    · simp [heq]

/-- The children released to zero join the ready vertices. -/
theorem release_ready_perm {indegree : α → ℕ} (hnodup : children.Nodup) :
    (release children ready indegree).1.Perm
      (children.filter (fun child => indegree child - 1 = 0) ++ ready) := by
  induction children generalizing ready indegree with
  | nil => exact .rfl
  | cons child rest ih =>
    obtain ⟨hfresh, hnodup⟩ := nodup_cons.mp hnodup
    rw [release]
    refine (ih hnodup).trans ?_
    have hrest : rest.filter (fun other =>
        Function.update indegree child (indegree child - 1) other - 1 = 0) =
        rest.filter fun other => indegree other - 1 = 0 :=
      filter_congr fun other hmem => by
        rw [Function.update_of_ne (ne_of_mem_of_not_mem hmem hfresh)]
    rw [hrest]
    by_cases hzero : indegree child - 1 = 0
    · rw [if_pos hzero, filter_cons_of_pos (by simpa using hzero), cons_append]
      exact ((perm_orderedInsert _ _ _).append_left _).trans perm_middle
    · rw [if_neg hzero, filter_cons_of_neg (by simpa using hzero)]

/-! ## The walk -/

/-- The vertices of a graph with the parents and the children of each. -/
structure Graph (vertices : List α) (parents children : α → List α) : Prop where
  vertices_nodup : vertices.Nodup
  parents_nodup : ∀ vertex ∈ vertices, (parents vertex).Nodup
  children_nodup : ∀ vertex, (children vertex).Nodup
  mem_children : ∀ vertex child, child ∈ children vertex ↔ child ∈ vertices ∧ vertex ∈ parents child
  parents_mem : ∀ vertex ∈ vertices, ∀ parent ∈ parents vertex, parent ∈ vertices

/-- In a list with the latest vertex first, every vertex has its parents behind it. -/
def Ordered (parents : α → List α) : List α → Prop
  | [] => True
  | vertex :: earlier => (∀ parent ∈ parents vertex, parent ∈ earlier) ∧ Ordered parents earlier

/-- The state of a walk: the in-degree of a vertex counts its parents that are not visited, and the
vertices that are visited or ready are those with none. -/
structure Walk (vertices : List α) (parents : α → List α) (ready : List α) (indegree : α → ℕ)
    (visited : List α) : Prop where
  nodup : (visited ++ ready).Nodup
  subset : ∀ vertex ∈ visited ++ ready, vertex ∈ vertices
  indegree_eq : ∀ vertex ∈ vertices,
    indegree vertex = ((parents vertex).filter (· ∉ visited)).length
  mem_iff : ∀ vertex ∈ vertices, vertex ∈ visited ++ ready ↔ indegree vertex = 0
  ordered : Ordered parents visited

section Graph

variable {vertices : List α} {parents children : α → List α}

variable {visited ready : List α} {indegree : α → ℕ}

omit [LinearOrder α] in
/-- One parent less is left of a list without repetition that holds it. -/
theorem length_filter_cons_add_one [DecidableEq α] {parents : List α} {key : α}
    (hnodup : parents.Nodup) (hmem : key ∈ parents) (hfresh : key ∉ visited) :
    (parents.filter (· ∉ key :: visited)).length + 1 = (parents.filter (· ∉ visited)).length := by
  have hsplit : parents.filter (· ∉ key :: visited) = (parents.filter (· ∉ visited)).erase key := by
    rw [(hnodup.filter _).erase_eq_filter, filter_filter]
    exact filter_congr fun vertex _ => by simp [bne, Bool.beq_eq_decide_eq]
  rw [hsplit, length_erase_of_mem (by simpa using ⟨hmem, hfresh⟩)]
  have := length_pos_of_mem (l := parents.filter (· ∉ visited)) (a := key)
    (by simpa using ⟨hmem, hfresh⟩)
  omega

variable (hgraph : Graph vertices parents children)

include hgraph

/-- Before the first visit the vertices without parents are ready. -/
theorem Graph.walk_start
    (hready : ready.Perm (vertices.filter fun vertex => (parents vertex).length = 0)) :
    Walk vertices parents ready (fun vertex => (parents vertex).length) [] := by
  refine ⟨hready.nodup_iff.mpr (hgraph.vertices_nodup.filter _), ?_, ?_, ?_, trivial⟩
  · intro vertex hmem
    exact mem_of_mem_filter (hready.mem_iff.mp hmem)
  · intro vertex _
    simp
  · intro vertex hmem
    rw [nil_append, hready.mem_iff, mem_filter]
    simp [hmem]

/-- One visit keeps the state, and lowers no in-degree of zero. -/
theorem Graph.walk_step {key : α} (hwalk : Walk vertices parents (key :: ready) indegree visited) :
    (∀ child ∈ children key, 0 < indegree child) ∧
      Walk vertices parents (release (children key) ready indegree).1
        (release (children key) ready indegree).2 (key :: visited) := by
  have hkey : key ∈ vertices := hwalk.subset key (by simp)
  obtain ⟨hfresh, hrest⟩ := nodup_cons.mp (perm_middle.nodup_iff.mp hwalk.nodup)
  have hunvisited : key ∉ visited := fun hmem => hfresh (mem_append_left _ hmem)
  -- The visit takes one unvisited parent from each child and none from the other vertices.
  have hlowered : ∀ vertex ∈ vertices, indegree vertex =
      ((parents vertex).filter (· ∉ key :: visited)).length +
        if vertex ∈ children key then 1 else 0 := by
    intro vertex hmem
    rw [hwalk.indegree_eq vertex hmem]
    by_cases hchild : vertex ∈ children key
    · rw [if_pos hchild]
      exact (length_filter_cons_add_one (hgraph.parents_nodup vertex hmem)
        ((hgraph.mem_children key vertex).mp hchild).2 hunvisited).symm
    · rw [if_neg hchild, Nat.add_zero]
      refine congrArg List.length (filter_congr fun parent hparent => ?_)
      have hne : parent ≠ key := by
        rintro rfl
        exact hchild ((hgraph.mem_children parent vertex).mpr ⟨hmem, hparent⟩)
      simp [hne]
  have hpos : ∀ child ∈ children key, 0 < indegree child := by
    intro child hchild
    rw [hlowered child ((hgraph.mem_children key child).mp hchild).1, if_pos hchild]
    omega
  have hindegree := @release_indegree _ _ _ ready indegree (hgraph.children_nodup key)
  have hready := @release_ready_perm _ _ _ ready indegree (hgraph.children_nodup key)
  have hperm := hready.append_left (key :: visited)
  have hall : ∀ vertex, vertex ∈ key :: visited ++ (release (children key) ready indegree).1 ↔
      vertex ∈ visited ++ key :: ready ∨ vertex ∈ children key ∧ indegree vertex - 1 = 0 := by
    intro vertex
    rw [hperm.mem_iff]
    simp only [cons_append, mem_cons, mem_append, mem_filter, decide_eq_true_eq]
    tauto
  refine ⟨hpos, ?_, ?_, ?_, ?_, ?_, hwalk.ordered⟩
  · refine hperm.nodup_iff.mpr ?_
    have hdisjoint : ∀ child ∈ children key, child ∉ visited ++ key :: ready := by
      intro child hchild hmem
      have hzero := (hwalk.mem_iff child ((hgraph.mem_children key child).mp hchild).1).mp hmem
      have := hpos child hchild
      omega
    have hnew : ((children key).filter fun child => indegree child - 1 = 0).Nodup :=
      (hgraph.children_nodup key).filter _
    have hold : (key :: visited ++ ready).Nodup := perm_middle.nodup_iff.mp hwalk.nodup
    have hshuffle : (key :: visited ++ ((children key).filter
        (fun child => indegree child - 1 = 0) ++ ready)).Perm
        ((children key).filter (fun child => indegree child - 1 = 0) ++
          (key :: visited ++ ready)) := by
      rw [← append_assoc, ← append_assoc]
      exact perm_append_comm.append_right _
    refine hshuffle.nodup_iff.mpr (hnew.append hold fun child hmem hother => ?_)
    exact hdisjoint child (mem_of_mem_filter hmem) (perm_middle.mem_iff.mpr hother)
  · intro vertex hmem
    rcases (hall vertex).mp hmem with hmem | ⟨hchild, -⟩
    · exact hwalk.subset vertex hmem
    · exact ((hgraph.mem_children key vertex).mp hchild).1
  · intro vertex hmem
    rw [hindegree, hlowered vertex hmem]
    split_ifs
    · exact Nat.add_sub_cancel _ _
    · rfl
  · intro vertex hmem
    rw [hall, hwalk.mem_iff vertex hmem, hindegree]
    by_cases hchild : vertex ∈ children key
    · have := hpos vertex hchild
      simp only [hchild, true_and, if_true]
      omega
    · simp [hchild]
  · have hzero := (hwalk.mem_iff key hkey).mp (by simp)
    rw [hwalk.indegree_eq key hkey, length_eq_zero_iff, filter_eq_nil_iff] at hzero
    exact fun parent hparent => by simpa using hzero parent hparent

omit hgraph in
/-- When as many vertices are visited as there are, none is ready. -/
theorem Walk.ready_eq_nil (hwalk : Walk vertices parents ready indegree visited)
    (hall : vertices.length ≤ visited.length) : ready = [] := by
  have hle := (subperm_of_subset hwalk.nodup hwalk.subset).length_le
  rw [length_append] at hle
  exact length_eq_zero_iff.mp (by omega)

/-- A walk with a round for each vertex that is left ends with nothing ready, without an underflow.
-/
theorem Graph.walk_end {rounds : ℕ} (hwalk : Walk vertices parents ready indegree visited)
    (hrounds : vertices.length ≤ visited.length + rounds) :
    visitChecked children rounds ready indegree visited =
        some (visit children rounds ready indegree visited) ∧
      ∃ final, Walk vertices parents [] final (visit children rounds ready indegree visited) := by
  induction rounds generalizing ready visited indegree with
  | zero =>
    obtain rfl := hwalk.ready_eq_nil hrounds
    exact ⟨rfl, indegree, hwalk⟩
  | succ _ ih =>
    cases ready with
    | nil => exact ⟨rfl, indegree, hwalk⟩
    | cons key =>
      obtain ⟨hpos, hnext⟩ := hgraph.walk_step hwalk
      obtain ⟨hchecked, hfinal⟩ := ih hnext (by simp only [length_cons]; omega)
      refine ⟨?_, hfinal⟩
      rw [visitChecked, releaseChecked_eq (hgraph.children_nodup key) hpos, Option.bind_some]
      exact hchecked

/-- Further rounds visit nothing more. -/
theorem Graph.visit_add {rounds : ℕ} (hwalk : Walk vertices parents ready indegree visited)
    (hrounds : vertices.length ≤ visited.length + rounds) (more : ℕ) :
    visit children (rounds + more) ready indegree visited =
      visit children rounds ready indegree visited := by
  induction rounds generalizing ready visited indegree with
  | zero =>
    obtain rfl := hwalk.ready_eq_nil hrounds
    cases more with
    | zero => rfl
    | succ => simp only [visit]
  | succ _ ih =>
    rw [Nat.add_right_comm]
    cases ready with
    | nil => rfl
    | cons =>
      exact ih (hgraph.walk_step hwalk).2 (by simp only [length_cons]; omega)

end Graph

/-! ## Cycles -/

omit [LinearOrder α] in
/-- The ancestors of a vertex of an ordered list are in the list. -/
theorem Ordered.mem_of_reflTransGen (hordered : Ordered parents visited) {vertex ancestor : α}
    (hmem : vertex ∈ visited)
    (hpath : Relation.ReflTransGen (fun v p => p ∈ parents v) vertex ancestor) :
    ancestor ∈ visited := by
  have hclosed : ∀ v ∈ visited, ∀ p ∈ parents v, p ∈ visited := by
    clear hmem hpath
    induction visited with
    | nil => exact fun v hv => absurd hv not_mem_nil
    | cons _ _ ih =>
      intro v hv p hp
      rcases mem_cons.mp hv with rfl | hv
      · exact mem_cons_of_mem _ (hordered.1 p hp)
      · exact mem_cons_of_mem _ (ih hordered.2 v hv p hp)
  induction hpath with
  | refl => exact hmem
  | tail _ hstep ih => exact hclosed _ ih _ hstep

omit [LinearOrder α] in
/-- An ordered list without repetition has no cycle through its vertices. -/
theorem Ordered.not_transGen_self (hordered : Ordered parents visited) (hnodup : visited.Nodup)
    {vertex : α} (hmem : vertex ∈ visited) :
    ¬ Relation.TransGen (fun v p => p ∈ parents v) vertex vertex := by
  induction visited with
  | nil => cases hmem
  | cons _ _ ih =>
    obtain ⟨hfresh, hnodup⟩ := nodup_cons.mp hnodup
    rcases mem_cons.mp hmem with rfl | hmem
    · intro hcycle
      obtain ⟨parent, hparent, hpath⟩ := Relation.TransGen.head'_iff.mp hcycle
      exact hfresh (hordered.2.mem_of_reflTransGen (hordered.1 parent hparent) hpath)
    · exact ih hordered.2 hnodup hmem

/-- A finished walk has visited every vertex exactly when no vertex is its own ancestor. -/
theorem Graph.length_eq_iff {vertices : List α} {children : α → List α}
    (hgraph : Graph vertices parents children) (hwalk : Walk vertices parents [] indegree visited) :
    visited.length = vertices.length ↔
      ∀ vertex ∈ vertices, ¬ Relation.TransGen (fun v p => p ∈ parents v) vertex vertex := by
  obtain ⟨hnodup, hsubset, hindegree, hmem_iff, hordered⟩ := hwalk
  rw [append_nil] at hnodup hsubset hmem_iff
  constructor
  · intro hlength vertex hmem
    have hperm := (subperm_of_subset hnodup hsubset).perm_of_length_le hlength.ge
    exact hordered.not_transGen_self hnodup (hperm.mem_iff.mpr hmem)
  · intro hacyclic
    -- By induction along the parents, which is well founded on finitely many vertices without cycle.
    have hwf : WellFounded fun p v : {vertex // vertex ∈ vertices} =>
        Relation.TransGen (fun v p => p ∈ parents v) v.1 p.1 := by
      have : Finite {vertex // vertex ∈ vertices} := vertices.finite_toSet.to_subtype
      have : IsTrans {vertex // vertex ∈ vertices} fun p v =>
          Relation.TransGen (fun v p => p ∈ parents v) v.1 p.1 :=
        ⟨fun _ _ _ hab hbc => hbc.trans hab⟩
      have : Std.Irrefl fun p v : {vertex // vertex ∈ vertices} =>
          Relation.TransGen (fun v p => p ∈ parents v) v.1 p.1 :=
        ⟨fun vertex => hacyclic vertex.1 vertex.2⟩
      exact Finite.wellFounded_of_trans_of_irrefl _
    have hall : ∀ vertex : {vertex // vertex ∈ vertices}, vertex.1 ∈ visited := by
      intro vertex
      induction vertex using hwf.induction with
      | _ vertex ih =>
        rw [hmem_iff vertex.1 vertex.2, hindegree vertex.1 vertex.2, length_eq_zero_iff,
          filter_eq_nil_iff]
        intro parent hparent
        have hparent' := hgraph.parents_mem vertex.1 vertex.2 parent hparent
        simpa using ih ⟨parent, hparent'⟩ (.single hparent)
    have hback := subperm_of_subset hgraph.vertices_nodup fun vertex hmem => hall ⟨vertex, hmem⟩
    exact ((subperm_of_subset hnodup hsubset).antisymm hback).length_eq

end Kahn

namespace Reach

variable {α : Type u} [DecidableEq α]

/-- The targets of edges that leave a vertex of the list. -/
def successors (edges : List (α × α)) (seen : List α) : List α :=
  (edges.filter fun edge => edge.1 ∈ seen).map Prod.snd

/-- Adds successors for the given number of rounds. -/
def saturate (edges : List (α × α)) : ℕ → List α → List α
  | 0, seen => seen
  | rounds + 1, seen => saturate edges rounds (seen ∪ successors edges seen)

/-- The vertices reachable from a start along at least one edge. -/
def descendants (edges : List (α × α)) (start : α) : List α :=
  saturate edges edges.length (successors edges [start])

end Reach
