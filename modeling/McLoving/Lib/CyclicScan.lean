import Mathlib.Data.List.Sort

/-!
# Scanning a shrinking set in pages

A page begins behind a cursor and wraps around at the end of the sorted elements; the next cursor is
the last element of the page.  An element that stays comes closer to the cursor by the length of
every page that misses it, whatever else is removed in between.
-/

namespace CyclicScan

open List

variable {α β : Type*} [LinearOrder α]

/-- The element stands behind the cursor. -/
def behind (cursor : Option α) (x : α) : Bool :=
  cursor.all (· < x)

/-- The elements behind the cursor and then the others. -/
def turn (key : β → α) (cursor : Option α) (items : List β) : List β :=
  items.filter (fun x => behind cursor (key x)) ++ items.filter fun x => !behind cursor (key x)

/-- A scan from the cursor visits `x` before `y`. -/
def Precedes (cursor : Option α) (x y : α) : Prop :=
  (behind cursor x = true ∧ behind cursor y = false) ∨ (behind cursor x = behind cursor y ∧ x < y)

instance (cursor : Option α) (x y : α) : Decidable (Precedes cursor x y) :=
  inferInstanceAs (Decidable (_ ∨ _))

/-- The cursors of repeated calls on the sets that they find. -/
def cursorAt (limit : ℕ) (start : Option α) (sets : ℕ → List α) : ℕ → Option α
  | 0 => start
  | k + 1 => (((turn id (cursorAt limit start sets k) (sets k)).take limit).getLast?).or
      (cursorAt limit start sets k)

variable {cursor : Option α} {sorted later : List α} {c x p : α} {limit : ℕ}

theorem map_turn (key : β → α) (cursor : Option α) (items : List β) :
    (turn key cursor items).map key = turn id cursor (items.map key) := by
  simp [turn, filter_map, Function.comp_def]

theorem turn_perm (key : β → α) (cursor : Option α) (items : List β) :
    (turn key cursor items).Perm items :=
  filter_append_perm (fun x => behind cursor (key x)) items

/-- A scan visits sorted elements in its order. -/
theorem pairwise_turn (cursor : Option α) (hsorted : sorted.Pairwise (· < ·)) :
    (turn id cursor sorted).Pairwise (Precedes cursor) := by
  have hpart (side : Bool) :
      (sorted.filter fun x => behind cursor x == side).Pairwise (Precedes cursor) := by
    refine (hsorted.filter _).imp_of_mem fun hx hy hlt => .inr ⟨?_, hlt⟩
    rw [eq_of_beq (mem_filter.mp hx).2, eq_of_beq (mem_filter.mp hy).2]
  refine pairwise_append.mpr ⟨by simpa using hpart true, by simpa using hpart false, ?_⟩
  intro x hx y hy
  exact .inl ⟨(mem_filter.mp hx).2, by simpa using (mem_filter.mp hy).2⟩

theorem Precedes.asymm (hxp : Precedes cursor x p) : ¬ Precedes cursor p x := by
  unfold Precedes at *
  grind

/-- What a scan from `c` visits before `p`, a scan that visits `c` before `p` visits between them. -/
theorem Precedes.between (hcp : Precedes cursor c p) (hxp : Precedes (some c) x p) :
    Precedes cursor c x ∧ Precedes cursor x p := by
  cases cursor <;> simp [Precedes, behind] at * <;> grind

/-- The number of elements that a scan visits before `p`. -/
def distance (cursor : Option α) (sorted : List α) (p : α) : ℕ :=
  (sorted.filter fun x => Precedes cursor x p).length

/-- A scan visits the elements that precede `p`, then `p` and the rest. -/
theorem exists_turn_eq (cursor : Option α) (hsorted : sorted.Pairwise (· < ·)) (hp : p ∈ sorted) :
    ∃ before after, turn id cursor sorted = before ++ p :: after ∧
      before.length = distance cursor sorted p ∧ before.Pairwise (Precedes cursor) ∧
      ∀ x, x ∈ before ↔ x ∈ sorted ∧ Precedes cursor x p := by
  have hperm := turn_perm id cursor sorted
  obtain ⟨before, after, hturn⟩ := append_of_mem (hperm.mem_iff.mpr hp)
  have hpairwise := pairwise_turn cursor hsorted
  rw [hturn, pairwise_append, pairwise_cons] at hpairwise
  obtain ⟨hinner, ⟨hafter, -⟩, hbefore⟩ := hpairwise
  have hfilter : (turn id cursor sorted).filter (fun x => Precedes cursor x p) = before := by
    rw [hturn, filter_append, filter_eq_self.mpr, filter_eq_nil_iff.mpr, append_nil]
    · intro x hx
      rcases mem_cons.mp hx with rfl | hx
      · simpa using fun h => h.asymm h
      · simpa using (hafter x hx).asymm
    · exact fun x hx => decide_eq_true (hbefore x hx p mem_cons_self)
  refine ⟨before, after, hturn, ?_, hinner, fun x => ?_⟩
  · rw [distance, ← (hperm.filter _).length_eq, hfilter]
  · rw [← hfilter, mem_filter, hperm.mem_iff, decide_eq_true_eq]

/-- A page that misses `p` brings the next cursor closer to it by its length. -/
theorem distance_next (hsorted : sorted.Pairwise (· < ·)) (hlater : later.Pairwise (· < ·))
    (hsub : later ⊆ sorted) (hp : p ∈ sorted) (hlimit : 0 < limit)
    (hmissed : p ∉ (turn id cursor sorted).take limit) :
    distance ((((turn id cursor sorted).take limit).getLast?).or cursor) later p + limit ≤
      distance cursor sorted p := by
  obtain ⟨before, after, hturn, hlength, hpairwise, hmem⟩ := exists_turn_eq cursor hsorted hp
  have hle : limit ≤ before.length := by
    by_contra hlt
    refine hmissed ?_
    rw [hturn, take_append, mem_append]
    exact .inr (mem_take_iff_getElem.mpr ⟨0, by simp; omega, rfl⟩)
  obtain ⟨m, rfl⟩ : ∃ m, limit = m + 1 := ⟨limit - 1, by omega⟩
  -- `c` is the last element of the page
  obtain ⟨first, c, rest, rfl, rfl⟩ :
      ∃ first c rest, before = first ++ c :: rest ∧ first.length = m :=
    ⟨before.take m, before[m], before.drop (m + 1), by rw [← drop_eq_getElem_cons,
      take_append_drop], by rw [length_take]; omega⟩
  have hpage : (turn id cursor sorted).take (first.length + 1) = first ++ [c] := by
    rw [hturn, append_assoc, take_append, take_of_length_le (Nat.le_succ _)]
    simp
  rw [hpage, getLast?_append, getLast?_singleton, Option.some_or, Option.some_or, ← hlength]
  have hnext : (later.filter fun x => Precedes (some c) x p) ⊆ rest := by
    intro x hx
    obtain ⟨hx, hprecedes⟩ := mem_filter.mp hx
    have hc := ((hmem c).mp (by simp)).2
    obtain ⟨hcx, hxp⟩ := hc.between (of_decide_eq_true hprecedes)
    have hbefore := (hmem x).mpr ⟨hsub hx, hxp⟩
    rw [mem_append, mem_cons] at hbefore
    rcases hbefore with hfirst | rfl | hrest
    · exact absurd hcx ((pairwise_append.mp hpairwise).2.2 x hfirst c mem_cons_self).asymm
    · exact absurd hcx hcx.asymm
    · exact hrest
  have hnodup : later.Nodup := hlater.imp ne_of_lt
  have hcount := (subperm_of_subset (hnodup.filter _) hnext).length_le
  rw [length_append, length_cons, distance]
  omega

variable {sets : ℕ → List α}

/-- An element that stays is on one of the pages that would hold the elements of the beginning. -/
theorem exists_mem_page (start : Option α) (hsorted : ∀ k, (sets k).Pairwise (· < ·))
    (hshrink : ∀ k, sets (k + 1) ⊆ sets k) (hlimit : 0 < limit) {calls : ℕ}
    (hcalls : (sets 0).length ≤ calls * limit) (hp : p ∈ sets 0) (hstays : ∀ k < calls, p ∈ sets k) :
    ∃ k < calls, p ∈ (turn id (cursorAt limit start sets k) (sets k)).take limit := by
  by_contra hnone
  have hmissed : ∀ k < calls, p ∉ (turn id (cursorAt limit start sets k) (sets k)).take limit :=
    fun k hk hmem => hnone ⟨k, hk, hmem⟩
  have hcloser (k : ℕ) (hk : k ≤ calls) :
      distance (cursorAt limit start sets k) (sets k) p + k * limit ≤ distance start (sets 0) p := by
    induction k with
    | zero => simp [cursorAt]
    | succ k ih =>
      have hnext := distance_next (hsorted k) (hsorted (k + 1)) (hshrink k) (hstays k hk) hlimit
        (hmissed k hk)
      have hbefore := ih (by omega)
      rw [cursorAt, Nat.succ_mul]
      omega
  have hlast := hcloser calls le_rfl
  have hfew : distance start (sets 0) p < (sets 0).length := by
    refine length_filter_lt_length_iff_exists.mpr ⟨p, hp, ?_⟩
    simpa using fun h => h.asymm h
  omega

end CyclicScan
