import Mathlib.Logic.Relation
import Mathlib.Data.List.Induction
import Mathlib.Algebra.Order.Ring.Int
import Mathlib.Data.Set.Finite.Lemmas
import Mathlib.Order.Interval.Set.Basic

/-!
# Runs, histories and chains

A run takes finitely many labelled steps, each meeting a condition on the state it starts from.  A
history is the list of the labels: if a property holds at its end but not at its beginning, some
step begins it for good.  Records with a sequence number, the digest of the record before and one of
their own are determined by the position at their end, if digests do not collide.  And if members
have ordinals, and parents that have at most one child, whose ordinal is the next, the ordinals are
`1, …, k`, each once.
-/

universe u v

namespace Transition

variable {σ : Type u} {ι : Type v} {step : σ → ι → σ} {ok : σ → ι → Prop}

/-- One step that meets the condition leads from the first state to the second. -/
def Step (step : σ → ι → σ) (ok : σ → ι → Prop) (s s' : σ) : Prop :=
  ∃ op, ok s op ∧ step s op = s'

/-- Finitely many steps that meet the condition lead from the first state to the second. -/
def Run (step : σ → ι → σ) (ok : σ → ι → Prop) : σ → σ → Prop :=
  Relation.ReflTransGen (Step step ok)

namespace Run

theorem refl (s : σ) : Run step ok s s := Relation.ReflTransGen.refl

theorem single {s : σ} {op : ι} (hok : ok s op) : Run step ok s (step s op) :=
  Relation.ReflTransGen.single ⟨op, hok, rfl⟩

theorem trans {s s' s'' : σ} (hfst : Run step ok s s') (hsnd : Run step ok s' s'') :
    Run step ok s s'' :=
  Relation.ReflTransGen.trans hfst hsnd

theorem mono {ok' : σ → ι → Prop} {s s' : σ} (himp : ∀ s op, ok s op → ok' s op)
    (hrun : Run step ok s s') : Run step ok' s s' := by
  refine Relation.ReflTransGen.mono ?_ _ _ hrun
  rintro s s' ⟨op, hok, heq⟩
  exact ⟨op, himp s op hok, heq⟩

/-- What every step preserves, every run preserves. -/
theorem invariant {inv : σ → Prop} (hstep : ∀ s op, ok s op → inv s → inv (step s op))
    {s s' : σ} (hrun : Run step ok s s') (hinv : inv s) : inv s' := by
  induction hrun with
  | refl => exact hinv
  | tail _ hlast ih =>
    obtain ⟨op, hok, rfl⟩ := hlast
    exact hstep _ op hok ih

/-- A reflexive and transitive relation that holds across every step holds across every run. -/
theorem relation {inv : σ → Prop} {rel : σ → σ → Prop} (hrefl : ∀ s, rel s s)
    (htrans : ∀ s s' s'', rel s s' → rel s' s'' → rel s s'')
    (hinv : ∀ s op, ok s op → inv s → inv (step s op))
    (hstep : ∀ s op, ok s op → inv s → rel s (step s op))
    {s s' : σ} (hrun : Run step ok s s') (hs : inv s) : rel s s' := by
  induction hrun with
  | refl => exact hrefl s
  | tail hprev hlast ih =>
    obtain ⟨op, hok, rfl⟩ := hlast
    exact htrans _ _ _ ih (hstep _ op hok (invariant hinv hprev hs))

end Run

end Transition

namespace History

open List

variable {σ : Type u} {ι : Type v} (step : σ → ι → σ)

/-- The state at the end of a history. -/
def final (s : σ) (ops : List ι) : σ :=
  ops.foldl step s

@[simp]
theorem final_nil (s : σ) : final step s [] = s := rfl

@[simp]
theorem final_append (s : σ) (ops ops' : List ι) :
    final step s (ops ++ ops') = final step (final step s ops) ops' :=
  foldl_append

@[simp]
theorem final_cons (s : σ) (op : ι) (ops : List ι) :
    final step s (op :: ops) = final step (step s op) ops :=
  rfl

variable {step}

variable (step) in
/-- Every step of the history meets the condition in the state where it is taken. -/
def Along (guard : σ → ι → Prop) : σ → List ι → Prop
  | _, [] => True
  | s, op :: rest => guard s op ∧ Along guard (step s op) rest

variable {guard : σ → ι → Prop} {s : σ} {ops : List ι}

/-- The parts of a history meet the condition if the whole does. -/
theorem along_append {ops' : List ι} : Along step guard s (ops ++ ops') ↔
      Along step guard s ops ∧ Along step guard (final step s ops) ops' := by
  induction ops generalizing s with
  | nil => simp [Along]
  | cons _ _ ih => simp only [cons_append, Along, ih, final_cons, and_assoc]

/-- A condition holds along a history if it holds at every point of it. -/
theorem along_of_forall
    (hall : ∀ before op after, ops = before ++ op :: after → guard (final step s before) op) :
    Along step guard s ops := by
  induction ops generalizing s with
  | nil => exact trivial
  | cons op rest ih =>
    refine ⟨hall [] op rest rfl, ih fun before op' after heq => ?_⟩
    exact hall (op :: before) op' after (by rw [heq, cons_append])

/-- A reflexive and transitive relation that every permitted step respects relates the two ends of
every permitted history. -/
theorem relation_of_along {guard : σ → ι → Prop} {r : σ → σ → Prop} (hrefl : ∀ s, r s s)
    (htrans : ∀ {a b c}, r a b → r b c → r a c)
    (hstep : ∀ s op, guard s op → r s (step s op)) {s : σ} {ops : List ι}
    (halong : Along step guard s ops) : r s (final step s ops) := by
  induction ops generalizing s with
  | nil => exact hrefl s
  | cons op _ ih => exact htrans (hstep s op halong.1) (ih halong.2)

/-- What every step preserves holds at the end of every history. -/
theorem invariant {inv : σ → Prop} (hstep : ∀ s op, inv s → inv (step s op)) {s : σ}
    (hinv : inv s) (ops : List ι) : inv (final step s ops) := by
  induction ops generalizing s with
  | nil => exact hinv
  | cons op _ ih => exact ih (hstep s op hinv)

/-- What every step of a history preserves holds at its end. -/
theorem invariant_of_mem {inv : σ → Prop} {ops : List ι}
    (hstep : ∀ s, ∀ op ∈ ops, inv s → inv (step s op)) {s : σ} (hinv : inv s) :
    inv (final step s ops) := by
  induction ops generalizing s with
  | nil => exact hinv
  | cons op _ ih =>
    exact ih (fun s op hmem => hstep s op (mem_cons_of_mem _ hmem))
      (hstep s op mem_cons_self hinv)

/-- A property that holds at the end but not at the beginning was begun by some step, and held after
every later one. -/
theorem exists_begin {p : σ → Prop} (hstart : ¬ p s) (hend : p (final step s ops)) :
    ∃ before op after, ops = before ++ op :: after ∧ ¬ p (final step s before) ∧
      ∀ k ≤ after.length, p (final step s (before ++ op :: after.take k)) := by
  induction ops using List.reverseRecOn with
  | nil => exact absurd hend hstart
  | append_singleton init last ih =>
    by_cases hinit : p (final step s init)
    · obtain ⟨before, op, after, rfl, hbefore, hafter⟩ := ih hinit
      refine ⟨before, op, after ++ [last], by simp, hbefore, fun k hk => ?_⟩
      rcases Nat.lt_or_ge after.length k with hlt | hle
      · have hlen : k = (after ++ [last]).length := by
          rw [length_append, length_singleton] at hk ⊢
          omega
        rw [hlen, take_length]
        simpa using hend
      · rw [take_append_of_le_length hle]
        exact hafter k hle
    · refine ⟨init, last, [], rfl, hinit, fun k hk => ?_⟩
      rw [take_nil]
      exact hend

end History

namespace HashChain

open List

variable {α : Type u} {δ : Type v}

/-- What a chain reads of its records, and the digest that a record must have. -/
structure Scheme (α : Type u) (δ : Type v) where
  sequence : α → ℤ
  previous : α → δ
  digest : α → δ
  compute : α → δ

variable (scheme : Scheme α δ)

/-- The records lead from one position to another. -/
def Links : ℤ × δ → List α → ℤ × δ → Prop
  | start, [], finish => start = finish
  | start, record :: rest, finish =>
    scheme.sequence record = start.1 ∧ scheme.previous record = start.2 ∧
      scheme.digest record = scheme.compute record ∧
      Links (start.1 + 1, scheme.digest record) rest finish

variable {scheme} {start finish : ℤ × δ} {records records' : List α}

theorem links_append : Links scheme start (records ++ records') finish ↔
      ∃ middle, Links scheme start records middle ∧ Links scheme middle records' finish := by
  induction records generalizing start with
  | nil => simp [Links]
  | cons _ _ ih => simp only [cons_append, Links, ih]; grind

theorem links_concat {record : α} : Links scheme start (records ++ [record]) finish ↔
      ∃ middle, Links scheme start records middle ∧ scheme.sequence record = middle.1 ∧
        scheme.previous record = middle.2 ∧ scheme.digest record = scheme.compute record ∧
        (middle.1 + 1, scheme.digest record) = finish := by
  simp only [links_append, Links]

/-- The sequence number counts the records. -/
theorem Links.fst_eq (hlinks : Links scheme start records finish) :
    finish.1 = start.1 + records.length := by
  induction records generalizing start with
  | nil =>
    obtain rfl := hlinks
    simp
  | cons _ _ ih =>
    have hrest := ih hlinks.2.2.2
    rw [hrest, length_cons]
    omega

/-- The records are numbered one after another. -/
theorem Links.map_sequence (hlinks : Links scheme start records finish) :
    records.map scheme.sequence = (range records.length).map fun k : ℕ => start.1 + (k : ℤ) := by
  induction records generalizing start with
  | nil => rfl
  | cons record rest ih =>
    rw [length_cons, range_succ_eq_map, map_cons, map_cons, map_map, ih hlinks.2.2.2, hlinks.1]
    simp only [Function.comp_def, Nat.cast_zero, add_zero, Nat.cast_succ, cons.injEq, true_and]
    exact map_congr_left fun k _ => by omega

theorem Links.finish_eq {record : α} (hlinks : Links scheme start records finish)
    (hlast : records.getLast? = some record) :
    finish = (scheme.sequence record + 1, scheme.digest record) := by
  obtain ⟨initial, rfl⟩ := getLast?_eq_some_iff.mp hlast
  obtain ⟨middle, -, hsequence, -, -, hfinish⟩ := links_concat.mp hlinks
  rw [← hfinish, hsequence]

/-- Chains of the same length that end in the same position are equal, if records with equal digests
are. -/
theorem Links.eq_of_finish {start' : ℤ × δ} (hlinks : Links scheme start records finish)
    (hlinks' : Links scheme start' records' finish) (hlength : records.length = records'.length)
    (hdigest : ∀ a ∈ records, ∀ b ∈ records', scheme.digest a = scheme.digest b →
      scheme.compute a = scheme.compute b → a = b) : records = records' := by
  induction records using List.reverseRecOn generalizing records' finish with
  | nil => exact (eq_nil_of_length_eq_zero hlength.symm).symm
  | append_singleton _ record ih =>
    rcases records'.eq_nil_or_concat with rfl | ⟨initial, last, rfl⟩
    · simp at hlength
    · rw [concat_eq_append] at *
      obtain ⟨middle, hrecords, hsequence, hprevious, hcompute, hfinish⟩ := links_concat.mp hlinks
      obtain ⟨middle', hinitial, hsequence', hprevious', hcompute', hfinish'⟩ :=
        links_concat.mp hlinks'
      have hsame : scheme.digest record = scheme.digest last :=
        congrArg Prod.snd (hfinish.trans hfinish'.symm)
      obtain rfl := hdigest record (by simp) last (by simp) hsame
        (by rw [← hcompute, ← hcompute', hsame])
      have hmiddle : middle = middle' :=
        Prod.ext (hsequence.symm.trans hsequence') (hprevious.symm.trans hprevious')
      subst hmiddle
      rw [ih hrecords hinitial (by simpa using hlength) fun a ha b hb =>
        hdigest a (mem_append_left _ ha) b (mem_append_left _ hb)]

end HashChain

namespace Lineage

variable {ι : Type*}

/-- Members with ordinals and parents that form a lineage. -/
structure IsLineage (member : ι → Prop) (ordinal : ι → ℤ) (parent : ι → Option ι) : Prop where
  finite : {a | member a}.Finite
  first : ∀ {a}, member a → parent a = none → ordinal a = 1
  next : ∀ {a p}, member a → parent a = some p → member p ∧ ordinal a = ordinal p + 1
  unique_first : ∀ {a b}, member a → member b → parent a = none → parent b = none → a = b
  unique_next : ∀ {a b p}, member a → member b → parent a = some p → parent b = some p → a = b

namespace IsLineage

variable {member : ι → Prop} {ordinal : ι → ℤ} {parent : ι → Option ι}
  (hline : IsLineage member ordinal parent)
include hline

/-- Ordinals start at one: the member with the least ordinal has no parent. -/
theorem one_le_ordinal {a : ι} (ha : member a) : 1 ≤ ordinal a := by
  obtain ⟨m, hm, hmin⟩ := Set.exists_min_image {a | member a} ordinal hline.finite ⟨a, ha⟩
  have hroot : parent m = none := by
    rcases hparent : parent m with _ | p
    · rfl
    · obtain ⟨hp, hord⟩ := hline.next hm hparent
      have hle := hmin p hp
      omega
  have hle := hmin a ha
  rw [hline.first hm hroot] at hle
  exact hle

/-- The members without a parent are those with ordinal one. -/
theorem parent_eq_none_iff {a : ι} (ha : member a) : parent a = none ↔ ordinal a = 1 := by
  refine ⟨hline.first ha, fun hone => ?_⟩
  rcases hparent : parent a with _ | p
  · rfl
  · obtain ⟨hp, hord⟩ := hline.next ha hparent
    have hle := hline.one_le_ordinal hp
    omega

theorem exists_parent {a : ι} (ha : member a) (hlt : 1 < ordinal a) :
    ∃ p, parent a = some p ∧ member p ∧ ordinal a = ordinal p + 1 := by
  rcases hparent : parent a with _ | p
  · have hone := hline.first ha hparent
    omega
  · exact ⟨p, rfl, hline.next ha hparent⟩

theorem eq_of_ordinal_eq {a b : ι} (ha : member a) (hb : member b)
    (hord : ordinal a = ordinal b) : a = b := by
  -- Induction along the parents: equal ordinals have equal parents, and those one child.
  obtain ⟨n, hn⟩ : ∃ n : ℕ, ordinal a = n + 1 :=
    ⟨(ordinal a - 1).toNat, by have hle := hline.one_le_ordinal ha; omega⟩
  induction n generalizing a b with
  | zero =>
    exact hline.unique_first ha hb ((hline.parent_eq_none_iff ha).mpr (by omega))
      ((hline.parent_eq_none_iff hb).mpr (by omega))
  | succ _ ih =>
    obtain ⟨p, hpa, hp, hord_a⟩ := hline.exists_parent ha (by omega)
    obtain ⟨q, hqb, hq, hord_b⟩ := hline.exists_parent hb (by omega)
    obtain rfl := ih hp hq (by omega) (by omega)
    exact hline.unique_next ha hb hpa hqb

/-- A member is the parent of exactly the member with the next ordinal. -/
theorem parent_eq_some_iff {a b : ι} (ha : member a) (hb : member b) :
    parent b = some a ↔ ordinal b = ordinal a + 1 := by
  refine ⟨fun hparent => (hline.next hb hparent).2, fun hord => ?_⟩
  have hle := hline.one_le_ordinal ha
  obtain ⟨p, hparent, hp, hord'⟩ := hline.exists_parent hb (by omega)
  rw [hparent, hline.eq_of_ordinal_eq hp ha (by omega)]

/-- Below a member every ordinal is taken. -/
theorem exists_ordinal {a : ι} (ha : member a) {j : ℤ} (hone : 1 ≤ j) (hle : j ≤ ordinal a) :
    ∃ b, member b ∧ ordinal b = j := by
  obtain ⟨n, hn⟩ : ∃ n : ℕ, ordinal a = j + n := ⟨(ordinal a - j).toNat, by omega⟩
  induction n generalizing a with
  | zero => exact ⟨a, ha, by omega⟩
  | succ _ ih =>
    obtain ⟨p, -, hp, hord⟩ := hline.exists_parent ha (by omega)
    exact ih hp (by omega) (by omega)

/-- A lineage has a last member: all ordinals are at most its own, and only it has no child. -/
theorem exists_last {a : ι} (ha : member a) :
    ∃ last, member last ∧ (∀ b, member b → ordinal b ≤ ordinal last) ∧
      ∀ b, member b → (∀ c, member c → parent c ≠ some b) → b = last := by
  obtain ⟨last, hlast, hmax⟩ := Set.exists_max_image {a | member a} ordinal hline.finite ⟨a, ha⟩
  refine ⟨last, hlast, hmax, fun b hb hchildless => ?_⟩
  refine hline.eq_of_ordinal_eq hb hlast (le_antisymm (hmax b hb) ?_)
  by_contra hlt
  have hle := hline.one_le_ordinal hb
  obtain ⟨c, hc, hord⟩ := hline.exists_ordinal hlast (j := ordinal b + 1) (by omega) (by omega)
  exact hchildless c hc ((hline.parent_eq_some_iff hb hc).mpr hord)

end IsLineage

end Lineage
