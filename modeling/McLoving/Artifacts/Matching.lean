import McLoving.Artifacts.Patterns
import Mathlib.Data.List.Infix
import Mathlib.Logic.Function.Iterate
import Mathlib.Algebra.BigOperators.Group.List.Basic
import Mathlib.Tactic.Ring

/-!
# The meaning of patterns

The loop that matches a name goes back to the last star only; for names without a star of their own
it decides the documented meaning of the wildcards.
-/

namespace McLoving.Artifacts

open List Except Bytes
open Metered (charge)
open Metered (Costs)

/-! ## The meaning of a segment -/

/-- A name that a segment matches: `*` is any run of characters, `?` exactly one, and every other
character is itself. -/
inductive SegmentMatches : List Char → List Char → Prop
  | nil : SegmentMatches [] []
  | any {c : Char} {pattern name : List Char} (hrest : SegmentMatches pattern name) :
      SegmentMatches ('?' :: pattern) (c :: name)
  | run (skipped : List Char) {pattern name : List Char} (hrest : SegmentMatches pattern name) :
      SegmentMatches ('*' :: pattern) (skipped ++ name)
  | literal {c : Char} {pattern name : List Char} (hany : c ≠ '?') (hstar : c ≠ '*')
      (hrest : SegmentMatches pattern name) : SegmentMatches (c :: pattern) (c :: name)

/-- A name that a segment matches if every star of the segment that meets a star of the name stands
for that star alone.  A star that meets anything else is any run of characters. -/
inductive SegmentReads : List Char → List Char → Prop
  | nil : SegmentReads [] []
  | char {q c : Char} {pattern name : List Char} (hchar : q = '?' ∨ q = c)
      (hrest : SegmentReads pattern name) : SegmentReads (q :: pattern) (c :: name)
  | run (skipped : List Char) {pattern name : List Char}
      (hmeets : (skipped ++ name).head? ≠ some '*') (hrest : SegmentReads pattern name) :
      SegmentReads ('*' :: pattern) (skipped ++ name)

namespace SegmentReads

variable {pattern name w taken rest : List Char} {q c : Char}

/-- Reading a star of the name as itself is one way to match it. -/
theorem segmentMatches (hreads : SegmentReads pattern name) : SegmentMatches pattern name := by
  induction hreads with
  | nil => exact .nil
  | @char q c _ _ hchar _ ih =>
    by_cases hany : q = '?'
    · rw [hany]
      exact .any ih
    obtain rfl := hchar.resolve_left hany
    by_cases hstar : q = '*'
    · rw [hstar]
      exact .run ['*'] ih
    · exact .literal hany hstar ih
  | run skipped _ _ ih => exact .run skipped ih

/-- Without a star in the name no star meets one. -/
theorem of_segmentMatches (hmatches : SegmentMatches pattern name) (hname : '*' ∉ name) :
    SegmentReads pattern name := by
  induction hmatches with
  | nil => exact .nil
  | any _ ih => exact .char (.inl rfl) (ih fun hmem => hname (mem_cons_of_mem _ hmem))
  | run skipped _ ih =>
    exact .run skipped (fun hhead => hname (mem_of_mem_head? hhead))
      (ih fun hmem => hname (mem_append_right skipped hmem))
  | literal _ _ _ ih => exact .char (.inr rfl) (ih fun hmem => hname (mem_cons_of_mem _ hmem))

/-- A segment that begins with a character that the name has there. -/
theorem cons_iff (hchar : q = '?' ∨ q = c) :
    SegmentReads (q :: pattern) (c :: name) ↔ SegmentReads pattern name := by
  refine ⟨fun hreads => ?_, .char hchar⟩
  generalize hwhole : c :: name = whole at hreads
  cases hreads with
  | char _ hrest =>
    obtain ⟨-, rfl⟩ := cons.inj hwhole
    exact hrest
  | run _ hmeets =>
    obtain rfl := hchar.resolve_left (by decide)
    exact absurd (by rw [← hwhole]; rfl) hmeets

/-- A segment that begins with neither such a character nor a star. -/
theorem not_cons (hchar : ¬ (q = '?' ∨ q = c)) (hstar : q ≠ '*') :
    ¬ SegmentReads (q :: pattern) (c :: name) := by
  intro hreads
  generalize hwhole : c :: name = whole at hreads
  cases hreads with
  | char hchar' =>
    obtain ⟨rfl, -⟩ := cons.inj hwhole
    exact hchar hchar'
  | run => exact hstar rfl

/-- What a star reads ends somewhere in the name. -/
theorem exists_of_star (hreads : SegmentReads ('*' :: pattern) name) :
    ∃ skipped rest, name = skipped ++ rest ∧ SegmentReads pattern rest := by
  cases hreads with
  | @char _ c _ rest _ hrest => exact ⟨[c], rest, rfl, hrest⟩
  | run skipped _ hrest => exact ⟨skipped, _, rfl, hrest⟩

/-- Where the stars in front of a pattern met stars of a text, no reading of a later part of the text
comes to the pattern before the end of that text. -/
theorem of_append (hmet : Forall₂ (fun q c => q = '*' → c = '*') w taken)
    (hreads : SegmentReads (w ++ pattern) rest) (hrest : rest <:+ taken ++ name) :
    ∃ rest', rest' <:+ name ∧ SegmentReads pattern rest' := by
  induction hmet generalizing rest with
  | nil => exact ⟨rest, hrest, hreads⟩
  | @cons q c w taken hqc _ ih =>
    rw [cons_append] at hreads hrest
    generalize hwhole : q :: (w ++ pattern) = whole at hreads
    cases hreads with
    | nil => cases hwhole
    | @char _ d _ rest _ hreads =>
      obtain ⟨-, rfl⟩ := cons.inj hwhole
      refine ih hreads ?_
      rcases suffix_cons_iff.mp hrest with hsame | hsuffix
      · rw [(cons.inj hsame).2]
      · exact (suffix_cons d rest).trans hsuffix
    | run skipped hmeets hreads =>
      obtain ⟨rfl, rfl⟩ := cons.inj hwhole
      refine ih hreads ?_
      rcases suffix_cons_iff.mp hrest with hsame | hsuffix
      · exact absurd (by rw [hsame, hqc rfl]; rfl) hmeets
      · exact (suffix_append skipped _).trans hsuffix

end SegmentReads

/-! ## The loop -/

/-- Some longer run of the last star leads to a match. -/
def Resumes : Star → Prop
  | none => False
  | some (behind, met) =>
    ∃ taken rest, taken ≠ [] ∧ met = taken ++ rest ∧ SegmentReads behind rest

/-- The loop stands where it is after the last star took nothing more than it has, and every star
since then met a star of the name. -/
def Reached (width : ℕ) (star : Star) (pattern name : List Char) : Prop :=
  ∀ behind met, star = some (behind, met) → behind.length ≤ width ∧
    ∃ w taken, behind = w ++ pattern ∧ met = taken ++ name ∧
      Forall₂ (fun q c => q = '*' → c = '*') w taken

/-- The rounds that are left to the names that the last star may take. -/
def weight (width : ℕ) (name : List Char) : Star → ℕ
  | none => (name.length + 1) * (width + 1)
  | some (_, met) => met.length * (width + 1)

/-- What the loop decides. -/
def Decides (pattern name : List Char) (star : Star) (verdict : Bool) : Prop :=
  verdict = true ↔ SegmentReads pattern name ∨ Resumes star

theorem skipStars_costs (pattern : List Char) :
    ∃ rest, Costs (skipStars pattern) rest pattern.length ∧
      (rest.isEmpty = true ↔ SegmentReads pattern []) := by
  induction pattern with
  | nil => exact ⟨[], .pure [], by simp [SegmentReads.nil]⟩
  | cons q pattern ih =>
    unfold skipStars
    by_cases hstar : q = '*'
    · rw [if_pos hstar, hstar]
      obtain ⟨rest, hcosts, hrest⟩ := ih
      refine ⟨rest, hcosts.pay, hrest.trans ⟨.run [] (by simp), fun hreads => ?_⟩⟩
      obtain ⟨skipped, rest, hempty, hreads⟩ := hreads.exists_of_star
      rwa [(append_eq_nil_iff.mp hempty.symm).2] at hreads
    · rw [if_neg hstar]
      refine ⟨q :: pattern, (Costs.pure _).mono (Nat.zero_le _), by simp, fun hreads => ?_⟩
      generalize hwhole : [] = whole at hreads
      cases hreads with
      | char => cases hwhole
      | run => exact absurd rfl hstar

section Loop

variable {width : ℕ} {star : Star} {pattern name behind : List Char} {c : Char}

/-- A longer run of the last star comes back to the pattern in what is left of the name. -/
theorem Resumes.exists_reads (hreached : Reached width star pattern name) (hresumes : Resumes star) :
    ∃ rest, rest <:+ name ∧ SegmentReads pattern rest := by
  cases star with
  | none => cases hresumes
  | some pair =>
    obtain ⟨behind, met⟩ := pair
    obtain ⟨-, w, taken, rfl, rfl, hmet⟩ := hreached behind met rfl
    obtain ⟨longer, rest, -, hsplit, hreads⟩ := hresumes
    exact hreads.of_append hmet (hsplit ▸ suffix_append longer rest)

/-- A star that meets no star makes the last one superfluous. -/
theorem of_resumes (hreached : Reached width star ('*' :: pattern) (c :: name)) (hc : '*' ≠ c)
    (hresumes : Resumes star) : SegmentReads ('*' :: pattern) (c :: name) := by
  obtain ⟨rest, ⟨before, hbefore⟩, hreads⟩ := hresumes.exists_reads hreached
  obtain ⟨skipped, last, rfl, hlast⟩ := hreads.exists_of_star
  rw [← append_assoc] at hbefore
  rw [← hbefore]
  exact .run (before ++ skipped) (by rw [hbefore]; simpa using hc.symm) hlast

/-- One more character for the last star. -/
theorem resumes_iff_tail {met : List Char} (hmet : met ≠ []) : Resumes (some (behind, met)) ↔
      SegmentReads behind met.tail ∨ Resumes (some (behind, met.tail)) := by
  obtain ⟨c, met, rfl⟩ := exists_cons_of_ne_nil hmet
  constructor
  · rintro ⟨taken, rest, htaken, hsplit, hmatches⟩
    obtain ⟨d, taken, rfl⟩ := exists_cons_of_ne_nil htaken
    obtain ⟨rfl, rfl⟩ := cons.inj hsplit
    cases taken with
    | nil => exact .inl hmatches
    | cons d taken => exact .inr ⟨d :: taken, rest, by simp, rfl, hmatches⟩
  · rintro (hmatches | ⟨taken, rest, -, hsplit, hmatches⟩)
    · exact ⟨[c], met, by simp, rfl, hmatches⟩
    · exact ⟨c :: taken, rest, by simp, congrArg (c :: ·) hsplit, hmatches⟩

/-- The loop goes back to the last star, where nothing else matches. -/
theorem backtrack_costs {rounds bound : ℕ} (hreached : Reached width star pattern (c :: name))
    (hno : ¬ SegmentReads pattern (c :: name))
    (hweight : weight width (c :: name) star + pattern.length ≤ bound + 1)
    (ih : ∀ pattern name star, pattern.length ≤ width → Reached width star pattern name →
      weight width name star + pattern.length ≤ bound →
      ∃ verdict, Costs (matchLoop rounds pattern name star) verdict (bound + width) ∧
        Decides pattern name star verdict) :
    ∃ verdict, Costs (backtrack (matchLoop rounds) star) verdict (bound + width) ∧
      Decides pattern (c :: name) star verdict := by
  cases star with
  | none => exact ⟨false, (Costs.pure false).mono (Nat.zero_le _), by simp [Decides, hno, Resumes]⟩
  | some pair =>
    obtain ⟨behind, met⟩ := pair
    obtain ⟨hbehind, w, taken, hw, hmet, -⟩ := hreached behind met rfl
    have hne : met ≠ [] := by simp [hmet]
    have hlength : met.length = met.tail.length + 1 := by
      rw [length_tail]
      have hpositive := length_pos_iff.mpr hne
      omega
    have hless : weight width met.tail (some (behind, met.tail)) + behind.length ≤ bound := by
      simp only [weight] at hweight ⊢
      rw [hlength, Nat.add_mul] at hweight
      omega
    have hstart : Reached width (some (behind, met.tail)) behind met.tail := by
      intro behind' met' hsame
      cases hsame
      exact ⟨hbehind, [], [], rfl, rfl, .nil⟩
    obtain ⟨verdict, hcosts, hdecides⟩ := ih behind met.tail _ hbehind hstart hless
    refine ⟨verdict, hcosts, ?_⟩
    rw [Decides, resumes_iff_tail hne, or_iff_right hno]
    exact hdecides

theorem matchLoop_end (rounds : ℕ) (hpattern : pattern.length ≤ width)
    (hreached : Reached width star pattern []) :
    ∃ verdict, Costs (matchLoop (rounds + 1) pattern [] star) verdict (rounds + width) ∧
      Decides pattern [] star verdict := by
  obtain ⟨rest, hcosts, hrest⟩ := skipStars_costs pattern
  rw [matchLoop]
  refine ⟨rest.isEmpty, (hcosts.map List.isEmpty).mono (by omega), ?_⟩
  rw [Decides, hrest, iff_self_or]
  intro hresumes
  obtain ⟨rest, hsuffix, hreads⟩ := hresumes.exists_reads hreached
  rwa [suffix_nil.mp hsuffix] at hreads

theorem weight_pos (hreached : Reached width star pattern (c :: name)) :
    0 < weight width (c :: name) star := by
  cases star with
  | none => exact Nat.mul_pos (Nat.succ_pos _) (Nat.succ_pos _)
  | some pair =>
    obtain ⟨behind, met⟩ := pair
    obtain ⟨-, w, taken, -, rfl, -⟩ := hreached behind met rfl
    exact Nat.mul_pos (by simp) (Nat.succ_pos _)

/-- The loop after a character of the pattern and one of the name. -/
theorem Reached.advance {q : Char} (hchar : q = '?' ∨ q = c)
    (hreached : Reached width star (q :: pattern) (c :: name)) :
    Reached width star pattern name := by
  intro behind met hsame
  obtain ⟨hbehind, w, taken, rfl, rfl, hmet⟩ := hreached behind met hsame
  refine ⟨hbehind, w ++ [q], taken ++ [c], by simp, by simp, rel_append hmet (.cons ?_ .nil)⟩
  rintro rfl
  exact (hchar.resolve_left (by decide)).symm

theorem weight_advance {width : ℕ} {star : Star} {name : List Char} {c : Char} :
    weight width name star ≤ weight width (c :: name) star := by
  cases star with
  | none =>
    simp only [weight, length_cons]
    exact Nat.mul_le_mul_right _ (by omega)
  | some => exact le_rfl

/-- Meeting a star leaves no more rounds than before. -/
theorem weight_met (hreached : Reached width star pattern name) :
    weight width name (some (behind, name)) ≤ weight width name star := by
  cases star with
  | none =>
    simp only [weight]
    exact Nat.mul_le_mul_right _ (by omega)
  | some pair =>
    obtain ⟨behind', met⟩ := pair
    obtain ⟨-, w, taken, -, rfl, -⟩ := hreached behind' met rfl
    simp only [weight]
    exact Nat.mul_le_mul_right _ (by simp)

theorem star_iff_resumes (hc : '*' ≠ c) : SegmentReads ('*' :: pattern) (c :: name) ↔
      SegmentReads pattern (c :: name) ∨ Resumes (some (pattern, c :: name)) := by
  constructor
  · intro hreads
    obtain ⟨skipped, rest, hname, hreads⟩ := hreads.exists_of_star
    by_cases hskipped : skipped = []
    · rw [hskipped, nil_append] at hname
      exact .inl (hname ▸ hreads)
    · exact .inr ⟨skipped, rest, hskipped, hname, hreads⟩
  · rintro (hreads | ⟨taken, rest, -, hname, hreads⟩)
    · exact .run [] (by simpa using hc.symm) hreads
    · rw [hname]
      exact .run taken (by rw [← hname]; simpa using hc.symm) hreads

/-- The loop returns within its rounds, pays at most for each of them, and decides whether what is
left matches, now or with a longer run of the last star. -/
theorem matchLoop_costs (width rounds : ℕ) (pattern name : List Char) (star : Star)
    (hpattern : pattern.length ≤ width) (hreached : Reached width star pattern name)
    (hrounds : weight width name star + pattern.length ≤ rounds) :
    ∃ verdict, Costs (matchLoop (rounds + 1) pattern name star) verdict (rounds + width) ∧
      Decides pattern name star verdict := by
  induction rounds generalizing pattern name star with
  | zero =>
    cases name with
    | nil => exact matchLoop_end 0 hpattern hreached
    | cons =>
      have hpos := weight_pos hreached
      omega
  | succ rounds ih =>
    cases name with
    | nil => exact matchLoop_end (rounds + 1) hpattern hreached
    | cons c name =>
      cases pattern with
      | nil =>
        obtain ⟨verdict, hcosts, hdecides⟩ := backtrack_costs hreached (fun hreads => by cases hreads)
          hrounds ih
        exact ⟨verdict, hcosts.pay.mono (by omega), hdecides⟩
      | cons q pattern =>
        rw [length_cons] at hpattern hrounds
        rw [matchLoop]
        by_cases hchar : q = '?' ∨ q = c
        · rw [if_pos hchar]
          have hadvance := @weight_advance width star name c
          obtain ⟨verdict, hcosts, hdecides⟩ := ih pattern name star (by omega)
            (hreached.advance hchar) (by omega)
          refine ⟨verdict, hcosts.pay.mono (by omega), ?_⟩
          rw [Decides, SegmentReads.cons_iff hchar]
          exact hdecides
        · rw [if_neg hchar]
          by_cases hstar : q = '*'
          · subst hstar
            rw [if_pos rfl]
            have hc : '*' ≠ c := fun hsame => hchar (.inr hsame)
            have hless : weight width (c :: name) (some (pattern, c :: name)) ≤
                weight width (c :: name) star := weight_met hreached
            have hmet : Reached width (some (pattern, c :: name)) pattern (c :: name) := by
              intro behind met hsame
              cases hsame
              exact ⟨by omega, [], [], rfl, rfl, .nil⟩
            obtain ⟨verdict, hcosts, hdecides⟩ := ih pattern (c :: name)
              (some (pattern, c :: name)) (by omega) hmet (by omega)
            refine ⟨verdict, hcosts.pay.mono (by omega), ?_⟩
            rw [Decides, or_iff_left_of_imp (of_resumes hreached hc), star_iff_resumes hc]
            exact hdecides
          · rw [if_neg hstar]
            obtain ⟨verdict, hcosts, hdecides⟩ := backtrack_costs hreached
              (SegmentReads.not_cons hchar hstar) hrounds ih
            exact ⟨verdict, hcosts.pay.mono (by omega), hdecides⟩

theorem readName_costs (name : List Char) : Costs (readName name) () name.length := by
  induction name with
  | nil => exact .pure ()
  | cons _ _ ih => exact ih.pay

/-- What is paid for a segment and a name at most. -/
def segmentPrice (pattern name : List Char) : ℕ :=
  3 * ((name.length + 1) * (pattern.length + 1))

/-- The verdict of `segment_matches_compiled` with a sufficient budget. -/
def segmentVerdict (pattern name : List Char) : Bool :=
  (segmentMatchesCompiled pattern name ⟨segmentPrice pattern name, 0⟩).1.getD false

/-- A segment has one verdict at one price: whether it reads the name. -/
theorem segmentMatchesCompiled_costs (pattern name : List Char) :
    Costs (segmentMatchesCompiled pattern name) (segmentVerdict pattern name)
        (segmentPrice pattern name) ∧
      (segmentVerdict pattern name = true ↔ SegmentReads pattern name) := by
  have hrounds : (name.length + 2) * (pattern.length + 1) - 1 + 1 = loopRounds pattern name := by
    rw [loopRounds, Nat.sub_add_cancel (Nat.mul_pos (Nat.succ_pos _) (Nat.succ_pos _))]
  obtain ⟨verdict, hloop, hdecides⟩ := matchLoop_costs pattern.length
    ((name.length + 2) * (pattern.length + 1) - 1) pattern name none le_rfl
    (fun _ _ hsame => by cases hsame) (by simp only [weight, Nat.add_mul]; omega)
  rw [hrounds] at hloop
  have hcosts : Costs (segmentMatchesCompiled pattern name) verdict (segmentPrice pattern name) := by
    refine ((readName_costs name).bind hloop).mono ?_
    have hname : name.length ≤ name.length * (pattern.length + 1) :=
      Nat.le_mul_of_pos_right _ (by omega)
    simp only [segmentPrice, Nat.add_mul]
    omega
  have hverdict : segmentVerdict pattern name = verdict := by
    rw [segmentVerdict, hcosts.fst_eq le_rfl, Option.getD_some]
  rw [hverdict]
  exact ⟨hcosts, hdecides.trans (or_iff_left id)⟩

end Loop

/-! ## The cells of a table -/

/-- The cell of a segment, from the row below it. -/
def cell (descent : Bool) (segment : Segment) (next : List (List Char) → Bool) :
    List (List Char) → Bool
  | [] => descent || (segment = .recursive && next [])
  | name :: path =>
    match segment with
    | .recursive => next (name :: path) || cell descent segment next path
    | .literal pattern => next path && segmentVerdict pattern name

/-- The cell of a rest of the pattern and a rest of the path. -/
def table (descent : Bool) : List Segment → List (List Char) → Bool
  | [], path => !descent && path.isEmpty
  | segment :: segments, path => cell descent segment (table descent segments) path

/-- The values for every rest of a path. -/
def values (f : List (List Char) → Bool) : List (List Char) → List Bool
  | [] => [f []]
  | name :: path => f (name :: path) :: values f path

theorem headD_values (f : List (List Char) → Bool) (path : List (List Char)) :
    (values f path).headD false = f path := by
  cases path <;> rfl

/-- The characters of a path, with one more for each segment. -/
def pathSize (path : List (List Char)) : ℕ :=
  (path.map fun name => name.length + 1).sum

/-- The characters of a segment, with one more. -/
def Segment.width : Segment → ℕ
  | .recursive => 2
  | .literal pattern => pattern.length + 1

/-- What a segment compares with a name. -/
def Segment.compared : Segment → ℕ
  | .recursive => 0
  | .literal pattern => pattern.length + 1

theorem Segment.compared_le_width (segment : Segment) : segment.compared ≤ segment.width := by
  cases segment with
  | recursive => exact Nat.zero_le _
  | literal => exact le_rfl

/-- What is paid for a row at most. -/
def rowPrice (segment : Segment) (path : List (List Char)) : ℕ :=
  path.length + 1 + 3 * (pathSize path * segment.compared)

/-- What is paid for a table at most. -/
def tablePrice (path : List (List Char)) : List Segment → ℕ
  | [] => path.length + 1
  | segment :: segments => tablePrice path segments + rowPrice segment path

theorem baseRow_costs (descent : Bool) (path : List (List Char)) :
    Costs (baseRow descent path.length) (values (table descent []) path) (path.length + 1) := by
  induction path with
  | nil =>
    have hvalue : values (table descent []) [] = [!descent] := by simp [values, table]
    rw [hvalue]
    exact (Costs.pure [!descent]).pay
  | cons name path ih =>
    have hvalue : values (table descent []) (name :: path) =
        false :: values (table descent []) path := by simp [values, table]
    rw [hvalue]
    exact (ih.map (false :: ·)).pay

theorem fillCell_costs (descent : Bool) (segment : Segment) (next : List (List Char) → Bool)
    (name : List Char) (path : List (List Char)) :
    Costs (fillCell segment name (values next (name :: path))
        (values (cell descent segment next) path))
      (cell descent segment next (name :: path)) (3 * ((name.length + 1) * segment.compared)) := by
  cases segment with
  | recursive =>
    simp only [fillCell, headD_values]
    exact (Costs.pure _).mono (Nat.zero_le _)
  | literal pattern =>
    simp only [fillCell, values, tail_cons, headD_values, cell]
    cases next path with
    | true => exact (segmentMatchesCompiled_costs pattern name).1
    | false => exact (Costs.pure false).mono (Nat.zero_le _)

theorem row_costs (descent : Bool) (segment : Segment) (next : List (List Char) → Bool)
    (path : List (List Char)) :
    Costs (row descent segment path (values next path)) (values (cell descent segment next) path)
      (rowPrice segment path) := by
  induction path with
  | nil => exact (Costs.pure _).pay.mono (by simp [rowPrice])
  | cons name path ih =>
    have hcell := fillCell_costs descent segment next name path
    refine (ih.bind (hcell.map (· :: values (cell descent segment next) path)).pay).mono ?_
    simp only [rowPrice, pathSize, map_cons, sum_cons, length_cons, Nat.add_mul]
    omega

theorem rows_costs (descent : Bool) (path : List (List Char)) (segments : List Segment) :
    Costs (rows descent path segments) (values (table descent segments) path)
      (tablePrice path segments) := by
  induction segments with
  | nil => exact baseRow_costs descent path
  | cons segment _ ih => exact ih.bind (row_costs descent segment _ path)

/-- The evaluation of a pattern returns the first cell of its table. -/
theorem evaluate_costs (compiled : CompiledPattern) (path : List (List Char)) (descent : Bool) :
    Costs (compiled.evaluate path descent) (table descent compiled.segments path)
      (tablePrice path compiled.segments) := by
  rw [← headD_values (table descent compiled.segments) path]
  exact (rows_costs descent path compiled.segments).map (List.headD · false)

/-- The cells and comparisons of a table within the sizes of the pattern and of the path. -/
theorem tablePrice_le (path : List (List Char)) (segments : List Segment) :
    tablePrice path segments ≤ (segments.length + 1) * (path.length + 1) +
        3 * (pathSize path * (segments.map Segment.width).sum) := by
  induction segments with
  | nil => simp [tablePrice]
  | cons segment _ ih =>
    have hcompared := Nat.mul_le_mul_left (pathSize path) segment.compared_le_width
    simp only [tablePrice, rowPrice, length_cons, map_cons, sum_cons, Nat.mul_add,
      Nat.add_mul] at ih ⊢
    omega

/-! ## The meaning of a compiled pattern -/

section Walks

variable {accepts accepts' : List Char → List Char → Prop} {segments more : List Segment}
  {path : List (List Char)} {name : List Char}

/-- A path that a compiled pattern matches, with what its segments accept. -/
inductive Walks (accepts : List Char → List Char → Prop) : List Segment → List (List Char) → Prop
  | nil : Walks accepts [] []
  | recursive {segments : List Segment} {path : List (List Char)} (skipped : List (List Char))
      (hrest : Walks accepts segments path) :
      Walks accepts (.recursive :: segments) (skipped ++ path)
  | literal {pattern name : List Char} {segments : List Segment} {path : List (List Char)}
      (hname : accepts pattern name) (hrest : Walks accepts segments path) :
      Walks accepts (.literal pattern :: segments) (name :: path)

namespace Walks

theorem nil_iff : Walks accepts [] path ↔ path = [] := by
  constructor
  · intro hwalks
    cases hwalks
    rfl
  · rintro rfl
    exact .nil

theorem recursive_iff : Walks accepts (.recursive :: segments) path ↔
    ∃ skipped rest, path = skipped ++ rest ∧ Walks accepts segments rest := by
  constructor
  · intro hwalks
    cases hwalks with
    | recursive skipped hrest => exact ⟨skipped, _, rfl, hrest⟩
  · rintro ⟨skipped, rest, rfl, hrest⟩
    exact .recursive skipped hrest

theorem recursive_cons_iff : Walks accepts (.recursive :: segments) (name :: path) ↔
    Walks accepts segments (name :: path) ∨ Walks accepts (.recursive :: segments) path := by
  rw [recursive_iff, recursive_iff]
  constructor
  · rintro ⟨skipped, rest, hpath, hrest⟩
    cases skipped with
    | nil => exact .inl (by rwa [hpath])
    | cons _ skipped =>
      obtain ⟨-, rfl⟩ := List.cons.inj hpath
      exact .inr ⟨skipped, rest, rfl, hrest⟩
  · rintro (hrest | ⟨skipped, rest, rfl, hrest⟩)
    · exact ⟨[], name :: path, rfl, hrest⟩
    · exact ⟨name :: skipped, rest, rfl, hrest⟩

theorem literal_iff {pattern : List Char} : Walks accepts (.literal pattern :: segments) path ↔
    ∃ name rest, path = name :: rest ∧ accepts pattern name ∧ Walks accepts segments rest := by
  constructor
  · intro hwalks
    cases hwalks with
    | literal hname hrest => exact ⟨_, _, rfl, hname, hrest⟩
  · rintro ⟨name, rest, rfl, hname, hrest⟩
    exact .literal hname hrest

theorem imp (hwalks : Walks accepts segments path)
    (himp : ∀ pattern, ∀ name ∈ path, accepts pattern name → accepts' pattern name) :
    Walks accepts' segments path := by
  induction hwalks with
  | nil => exact .nil
  | recursive skipped _ ih =>
    exact .recursive skipped (ih fun pattern name hmem =>
      himp pattern name (mem_append_right skipped hmem))
  | literal hname _ ih =>
    refine .literal (himp _ _ mem_cons_self hname) (ih fun pattern name hmem =>
      himp pattern name (mem_cons_of_mem _ hmem))

theorem append_iff : Walks accepts (segments ++ more) path ↔
    ∃ first second, path = first ++ second ∧ Walks accepts segments first ∧
      Walks accepts more second := by
  induction segments generalizing path with
  | nil =>
    constructor
    · intro hwalks
      exact ⟨[], path, rfl, .nil, hwalks⟩
    · rintro ⟨first, second, rfl, hfirst, hsecond⟩
      rw [nil_iff.mp hfirst]
      exact hsecond
  | cons segment _ ih =>
    cases segment with
    | recursive =>
      rw [cons_append, recursive_iff]
      constructor
      · rintro ⟨skipped, rest, rfl, hrest⟩
        obtain ⟨first, second, rfl, hfirst, hsecond⟩ := ih.mp hrest
        exact ⟨skipped ++ first, second, by simp, .recursive skipped hfirst, hsecond⟩
      · rintro ⟨first, second, rfl, hfirst, hsecond⟩
        obtain ⟨skipped, rest, rfl, hrest⟩ := recursive_iff.mp hfirst
        exact ⟨skipped, rest ++ second, by simp, ih.mpr ⟨rest, second, rfl, hrest, hsecond⟩⟩
    | literal =>
      rw [cons_append, literal_iff]
      constructor
      · rintro ⟨name, rest, rfl, hname, hrest⟩
        obtain ⟨first, second, rfl, hfirst, hsecond⟩ := ih.mp hrest
        exact ⟨name :: first, second, rfl, .literal hname hfirst, hsecond⟩
      · rintro ⟨first, second, rfl, hfirst, hsecond⟩
        obtain ⟨name, rest, rfl, hname, hrest⟩ := literal_iff.mp hfirst
        exact ⟨name, rest ++ second, rfl, hname, ih.mpr ⟨rest, second, rfl, hrest, hsecond⟩⟩

theorem recursive_recursive_iff : Walks accepts (.recursive :: .recursive :: segments) path ↔
    Walks accepts (.recursive :: segments) path := by
  rw [recursive_iff]
  constructor
  · rintro ⟨skipped, rest, rfl, hrest⟩
    obtain ⟨skipped', rest, rfl, hinner⟩ := recursive_iff.mp hrest
    exact recursive_iff.mpr ⟨skipped ++ skipped', rest, by simp, hinner⟩
  · intro hwalks
    exact ⟨[], path, rfl, hwalks⟩

end Walks

end Walks

/-- The first cell says whether the pattern walks along the path with what its segments read. -/
theorem table_iff_walks (segments : List Segment) (path : List (List Char)) :
    table false segments path = true ↔ Walks SegmentReads segments path := by
  induction segments generalizing path with
  | nil =>
    rw [Walks.nil_iff]
    simp [table]
  | cons segment _ ih =>
    rw [table]
    cases segment with
    | recursive =>
      induction path with
      | nil =>
        rw [Walks.recursive_iff]
        simp only [cell, Bool.false_or, decide_true, Bool.true_and, ih]
        constructor
        · intro hwalks
          exact ⟨[], [], rfl, hwalks⟩
        · rintro ⟨skipped, rest, hempty, hwalks⟩
          rwa [(append_eq_nil_iff.mp hempty.symm).2] at hwalks
      | cons _ _ ihpath =>
        rw [cell, Bool.or_eq_true, ih, ihpath, Walks.recursive_cons_iff]
    | literal pattern =>
      rw [Walks.literal_iff]
      cases path with
      | nil => simp [cell]
      | cons name path =>
        rw [cell, Bool.and_eq_true, ih, (segmentMatchesCompiled_costs pattern name).2]
        constructor
        · rintro ⟨hwalks, hname⟩
          exact ⟨name, path, rfl, hname, hwalks⟩
        · rintro ⟨name', rest, hpath, hname, hwalks⟩
          obtain ⟨rfl, rfl⟩ := List.cons.inj hpath
          exact ⟨hwalks, hname⟩

end McLoving.Artifacts
