import McLoving.Artifacts.Matching

/-!
# The dialect of path patterns and its price

The documented meaning of a pattern, and where the code decides it.  A star of a name can take the
place of a star of the pattern, and then the code may miss the match.  Classifying a path has one
result and one price; the budget decides whether the result is returned.
-/

namespace McLoving.Artifacts

open List
open Metered (Costs)
open Pipeline (validatePattern firstFailure_eq_ok maxArtifactPatternBytes)

/-! ## The meaning of a pattern -/

/-- A path that a pattern matches, with what its segments accept: `**` is zero or more whole
segments, every other segment one. -/
inductive PathMatches (accepts : List Char → List Char → Prop) :
    List (List Char) → List (List Char) → Prop
  | nil : PathMatches accepts [] []
  | recursive {texts path : List (List Char)} (skipped : List (List Char))
      (hrest : PathMatches accepts texts path) :
      PathMatches accepts (['*', '*'] :: texts) (skipped ++ path)
  | segment {text name : List Char} {texts path : List (List Char)} (htext : text ≠ ['*', '*'])
      (hname : accepts text name) (hrest : PathMatches accepts texts path) :
      PathMatches accepts (text :: texts) (name :: path)

/-- The segment of a text. -/
def segmentOf (text : List Char) : Segment :=
  if text = ['*', '*'] then .recursive else .literal text

variable {texts path : List (List Char)} {accepts : List Char → List Char → Prop} {pattern : String}

theorem pathMatches_iff :
    PathMatches accepts texts path ↔ Walks accepts (texts.map segmentOf) path := by
  constructor
  · intro hmatches
    induction hmatches with
    | nil => exact .nil
    | recursive skipped _ ih => exact .recursive skipped ih
    | segment htext hname _ ih =>
      rw [map_cons, segmentOf, if_neg htext]
      exact .literal hname ih
  · intro hwalks
    induction texts generalizing path with
    | nil =>
      rw [Walks.nil_iff.mp hwalks]
      exact .nil
    | cons text _ ih =>
      rw [map_cons, segmentOf] at hwalks
      by_cases htext : text = ['*', '*']
      · rw [if_pos htext] at hwalks
        obtain ⟨skipped, rest, rfl, hrest⟩ := Walks.recursive_iff.mp hwalks
        rw [htext]
        exact .recursive skipped (ih hrest)
      · rw [if_neg htext] at hwalks
        obtain ⟨name, rest, rfl, hname, hrest⟩ := Walks.literal_iff.mp hwalks
        exact .segment htext hname (ih hrest)

/-! ## Compiling -/

/-- A compiled pattern walks as its texts do. -/
theorem walks_foldl {done : List Segment} : Walks accepts (texts.foldl pushSegment done) path ↔
      Walks accepts (done ++ texts.map segmentOf) path := by
  induction texts generalizing done with
  | nil => rw [foldl_nil, map_nil, append_nil]
  | cons text _ ih =>
    rw [foldl_cons, ih, map_cons, segmentOf, pushSegment]
    by_cases htext : text = ['*', '*']
    · rw [if_pos htext, if_pos htext]
      by_cases hlast : done.getLast? = some .recursive
      · obtain ⟨front, rfl⟩ := getLast?_eq_some_iff.mp hlast
        rw [if_pos hlast, append_assoc, append_assoc, Walks.append_iff, Walks.append_iff]
        simp only [singleton_append, Walks.recursive_recursive_iff]
      · rw [if_neg hlast, append_assoc, singleton_append]
    · rw [if_neg htext, if_neg htext, append_assoc, singleton_append]

theorem walks_new : Walks accepts (CompiledPattern.new pattern).segments path ↔
      Walks accepts ((splitPath pattern).map segmentOf) path :=
  walks_foldl

/-- The segments of a compiled pattern are those of its texts. -/
theorem mem_foldl_pushSegment {done : List Segment} {segment : Segment}
    (hmem : segment ∈ texts.foldl pushSegment done) :
    segment ∈ done ∨ ∃ text ∈ texts, segment = segmentOf text := by
  induction texts generalizing done with
  | nil => exact .inl hmem
  | cons text _ ih =>
    rcases ih hmem with hpushed | ⟨text', htext', hsegment⟩
    · unfold pushSegment at hpushed
      by_cases htext : text = ['*', '*']
      · rw [if_pos htext] at hpushed
        split_ifs at hpushed with hlast
        · exact .inl hpushed
        · rcases mem_append.mp hpushed with hdone | hnew
          · exact .inl hdone
          · rw [mem_singleton.mp hnew]
            exact .inr ⟨text, mem_cons_self, by rw [segmentOf, if_pos htext]⟩
      · rw [if_neg htext] at hpushed
        rcases mem_append.mp hpushed with hdone | hnew
        · exact .inl hdone
        · rw [mem_singleton.mp hnew]
          exact .inr ⟨text, mem_cons_self, by rw [segmentOf, if_neg htext]⟩
    · exact .inr ⟨text', mem_cons_of_mem _ htext', hsegment⟩

/-- A compiled pattern is no larger than its texts. -/
theorem width_foldl_pushSegment (texts : List (List Char)) (done : List Segment) :
    (texts.foldl pushSegment done).length ≤ done.length + texts.length ∧
      ((texts.foldl pushSegment done).map Segment.width).sum ≤
        (done.map Segment.width).sum + pathSize texts := by
  induction texts generalizing done with
  | nil => simp [pathSize]
  | cons text _ ih =>
    obtain ⟨hlength, hwidth⟩ := ih (pushSegment done text)
    have hpush : (pushSegment done text).length ≤ done.length + 1 ∧
        ((pushSegment done text).map Segment.width).sum ≤
          (done.map Segment.width).sum + (text.length + 1) := by
      unfold pushSegment
      by_cases htext : text = ['*', '*']
      · rw [if_pos htext]
        split_ifs with hlast
        · omega
        · simp [Segment.width, htext]
      · rw [if_neg htext]
        simp [Segment.width]
    rw [foldl_cons]
    simp only [pathSize, map_cons, sum_cons, length_cons] at hwidth ⊢
    omega

/-! ## Sizes -/

theorem pathSize_eq (hne : path ≠ []) : pathSize path = (['/'].intercalate path).length + 1 := by
  induction path with
  | nil => exact absurd rfl hne
  | cons _ path ih =>
    cases path with
    | nil => simp [pathSize]
    | cons =>
      have hrest := ih (by simp)
      rw [intercalate_cons_cons]
      simp only [pathSize, map_cons, sum_cons, length_append] at hrest ⊢
      simp only [length_singleton]
      omega

theorem pathSize_splitPath (path : String) : pathSize (splitPath path) = path.toList.length + 1 := by
  rw [splitPath, pathSize_eq (splitOn_ne_nil _ _), intercalate_splitOn]

theorem length_le_pathSize (path : List (List Char)) : path.length ≤ pathSize path := by
  induction path with
  | nil => exact le_rfl
  | cons _ _ ih =>
    simp only [pathSize, map_cons, sum_cons, length_cons] at ih ⊢
    omega

/-- A size that no path reaches, eight times the address space of a process.  Below it every accepted
pattern is within the budget. -/
def affordable : ℕ := 2 ^ 51

theorem size_of_validatePattern (hvalid : validatePattern pattern = .ok ()) :
    pathSize (splitPath pattern) ≤ 513 := by
  rw [validatePattern, firstFailure_eq_ok] at hvalid
  have hsize := hvalid _ (mem_append_left _ mem_cons_self)
  simp only [Bool.and_eq_true, decide_eq_true_eq] at hsize
  have hlength := Utf8.length_le_size pattern
  rw [pathSize_splitPath]
  have hbytes := hsize.2
  unfold maxArtifactPatternBytes at hbytes
  omega

/-- The table of an accepted pattern and an affordable path is within the largest budget. -/
theorem tablePrice_le_u64Max (hvalid : validatePattern pattern = .ok ())
    (hpath : pathSize path ≤ affordable + 1024) :
    tablePrice path (CompiledPattern.new pattern).segments ≤ u64Max := by
  have hpattern := size_of_validatePattern hvalid
  have hlengths := length_le_pathSize (splitPath pattern)
  obtain ⟨hlength, hwidth⟩ := width_foldl_pushSegment (splitPath pattern) []
  have hnames := length_le_pathSize path
  refine (tablePrice_le path _).trans ?_
  have hcells : ((CompiledPattern.new pattern).segments.length + 1) * (path.length + 1) ≤
      514 * (affordable + 1025) := by
    refine Nat.mul_le_mul ?_ (by omega)
    simp only [CompiledPattern.new, length_nil] at hlength ⊢
    omega
  have hcomparisons : pathSize path * ((CompiledPattern.new pattern).segments.map
      Segment.width).sum ≤ (affordable + 1024) * 513 := by
    refine Nat.mul_le_mul hpath ?_
    simp only [CompiledPattern.new, map_nil, sum_nil] at hwidth ⊢
    omega
  have hbound : 514 * (affordable + 1025) + 3 * ((affordable + 1024) * 513) ≤ u64Max := by decide
  exact (Nat.add_le_add hcells (Nat.mul_le_mul_left 3 hcomparisons)).trans hbound

variable {path : String}

theorem walks_of_patternMatches (hmatches : patternMatches pattern path = true) :
    Walks SegmentReads (CompiledPattern.new pattern).segments (splitPath path) := by
  unfold patternMatches at hmatches
  have hcosts := evaluate_costs (.new pattern) (splitPath path) false
  cases hresult : (CompiledPattern.new pattern).evaluate (splitPath path) false
      (MatchingBudget.new u64Max) with
  | mk result meter =>
    rw [hresult] at hmatches
    cases result with
    | none => cases hmatches
    | some =>
      rw [Option.getD_some] at hmatches
      rw [← table_iff_walks, ← hcosts.eq_of_some hresult, hmatches]

theorem patternMatches_iff_walks (hvalid : validatePattern pattern = .ok ())
    (hsize : pathSize (splitPath path) ≤ affordable + 1024) : patternMatches pattern path = true ↔
      Walks SegmentReads (CompiledPattern.new pattern).segments (splitPath path) := by
  unfold patternMatches
  rw [(evaluate_costs (.new pattern) (splitPath path) false).fst_eq
    (tablePrice_le_u64Max hvalid hsize), Option.getD_some, table_iff_walks]

theorem mem_intercalate_of_mem {c : Char} {text : List Char} (htext : text ∈ texts)
    (hc : c ∈ text) : c ∈ ['/'].intercalate texts := by
  induction texts with
  | nil => cases htext
  | cons _ texts ih =>
    cases texts with
    | nil =>
      rw [mem_singleton.mp htext] at hc
      simpa using hc
    | cons =>
      rw [intercalate_cons_cons, mem_append]
      rcases mem_cons.mp htext with rfl | hrest
      · exact .inl (mem_append_left _ hc)
      · exact .inr (ih hrest)

/-- A pattern matches a path as documented exactly if the documented match survives when every star
of the pattern that meets a star of a name stands for that star alone.  So it is for every path
without a star.  The path is small enough for its table to be within the budget. -/
theorem pattern_matches_dialect (pattern path : String) (hvalid : validatePattern pattern = .ok ())
    (hsize : path.utf8ByteSize < affordable) : ((patternMatches pattern path = true ↔
        PathMatches SegmentMatches (splitPath pattern) (splitPath path)) ↔
      (PathMatches SegmentMatches (splitPath pattern) (splitPath path) →
        PathMatches SegmentReads (splitPath pattern) (splitPath path))) ∧
    ('*' ∉ path.toList → PathMatches SegmentMatches (splitPath pattern) (splitPath path) →
      PathMatches SegmentReads (splitPath pattern) (splitPath path)) := by
  have hlength := Utf8.length_le_size path
  have haffordable : pathSize (splitPath path) ≤ affordable + 1024 := by
    rw [pathSize_splitPath]
    omega
  simp only [patternMatches_iff_walks hvalid haffordable, pathMatches_iff, walks_new]
  have hsound : Walks SegmentReads ((splitPath pattern).map segmentOf) (splitPath path) →
      Walks SegmentMatches ((splitPath pattern).map segmentOf) (splitPath path) :=
    fun hwalks => hwalks.imp fun _ _ _ hreads => hreads.segmentMatches
  refine ⟨⟨Iff.mpr, fun hkept => ⟨hsound, hkept⟩⟩, fun hplain hwalks => ?_⟩
  refine hwalks.imp fun _ name hmem hmatches => .of_segmentMatches hmatches fun hstar => ?_
  have hpath := mem_intercalate_of_mem hmem hstar
  rw [splitPath, intercalate_splitOn] at hpath
  exact hplain hpath

/-- A star of the pattern meets the star of a name, and another star of the pattern reads the rest. -/
theorem starred_log_matches_dialect : patternMatches "**/?*.*" "target/a*.log" = true ↔
      PathMatches SegmentMatches (splitPath "**/?*.*") (splitPath "target/a*.log") := by
  have hpattern : splitPath "**/?*.*" = [['*', '*'], ['?', '*', '.', '*']] := by decide +kernel
  have hpath : splitPath "target/a*.log" = [['t', 'a', 'r', 'g', 'e', 't']] ++
      [['a', '*', '.', 'l', 'o', 'g']] := by decide +kernel
  refine (pattern_matches_dialect _ _ (by decide +kernel) (by decide +kernel)).1.mpr fun _ => ?_
  rw [hpattern, hpath]
  refine .recursive _ (.segment (by decide) ?_ .nil)
  exact .char (.inl rfl) (.char (.inr rfl) (.char (.inr rfl) (.run ['l', 'o', 'g'] (by decide) .nil)))

/-- The star of the pattern is taken for the first character of the name, and the second one is left
over. -/
theorem star_misses_starred_name : validatePattern "*" = .ok () ∧
      PathMatches SegmentMatches (splitPath "*") (splitPath "*a") ∧
      patternMatches "*" "*a" = false := by
  have hpattern : splitPath "*" = [['*']] := by decide +kernel
  have hpath : splitPath "*a" = [['*', 'a'] ++ []] := by decide +kernel
  refine ⟨by decide +kernel, ?_, by decide +kernel⟩
  rw [hpattern, hpath]
  exact .segment (by decide) (.run ['*', 'a'] .nil) .nil

end McLoving.Artifacts

namespace McLoving.Artifacts

open List
open Metered (Costs Steady)
open Pipeline (ArtifactSpec)

/-! ## Prices -/

/-- Any one of the patterns has a true cell. -/
def anyTable (descent : Bool) (patterns : List CompiledPattern) (path : List (List Char)) : Bool :=
  patterns.any fun pattern => table descent pattern.segments path

theorem evaluateUnless_costs (found : Bool) (pattern : CompiledPattern) (path : List (List Char))
    (descent : Bool) : Costs (pattern.evaluateUnless found path descent)
      (found || table descent pattern.segments path) (tablePrice path pattern.segments) := by
  cases found with
  | true => exact (Costs.pure true).mono (Nat.zero_le _)
  | false => exact evaluate_costs pattern path descent

theorem classifyPatterns_costs (path : List (List Char)) (patterns : List CompiledPattern)
    (matched descends : Bool) : ∃ bound, Costs (classifyPatterns path patterns matched descends)
      (matched || anyTable false patterns path, descends || anyTable true patterns path) bound := by
  induction patterns generalizing matched descends with
  | nil =>
    refine ⟨0, ?_⟩
    simp only [anyTable, any_nil, Bool.or_false]
    exact .pure (matched, descends)
  | cons pattern _ ih =>
    obtain ⟨bound, hrest⟩ := ih (matched || table false pattern.segments path)
      (descends || table true pattern.segments path)
    simp only [Bool.or_assoc] at hrest
    exact ⟨_, (evaluateUnless_costs matched pattern path false).bind
      ((evaluateUnless_costs descends pattern path true).bind hrest)⟩

/-- The names of the declarations that match and whether a pattern permits descent. -/
def classification (path : List (List Char)) (declarations : List (String × List CompiledPattern)) :
    List String × Bool :=
  ((declarations.filter fun declaration => anyTable false declaration.2 path).map Prod.fst,
    declarations.any fun declaration => anyTable true declaration.2 path)

theorem classifyDeclarations_costs (path : List (List Char))
    (declarations : List (String × List CompiledPattern)) (names : List String) (descends : Bool) :
    ∃ bound, Costs (classifyDeclarations path declarations names descends)
      (names ++ (classification path declarations).1,
        descends || (classification path declarations).2) bound := by
  induction declarations generalizing names descends with
  | nil =>
    refine ⟨0, ?_⟩
    simp only [classification, filter_nil, map_nil, append_nil, any_nil, Bool.or_false]
    exact .pure (names, descends)
  | cons declaration _ ih =>
    obtain ⟨name, patterns⟩ := declaration
    obtain ⟨bound, hpatterns⟩ := classifyPatterns_costs path patterns false descends
    obtain ⟨bound', hrest⟩ := ih (if anyTable false patterns path then names ++ [name] else names)
      (descends || anyTable true patterns path)
    refine ⟨bound + bound', hpatterns.bind ?_⟩
    rw [Bool.false_or]
    convert hrest using 2
    · cases hmatched : anyTable false patterns path with
      | true => simp [classification, hmatched]
      | false => simp [classification, hmatched]
    · simp [classification, Bool.or_assoc]

theorem classify_costs (compiled : CompiledArtifacts) (path : String) :
    ∃ bound, Costs (compiled.classify path)
      (classification (splitPath path) compiled.declarations) bound := by
  obtain ⟨bound, hcosts⟩ := classifyDeclarations_costs (splitPath path) compiled.declarations [] false
  exact ⟨bound, hcosts⟩

/-! ## The verdicts with the largest budget -/

/-- The verdict of a pattern with the largest budget. -/
def verdict (path : List (List Char)) (descent : Bool) (pattern : CompiledPattern) : Bool :=
  (pattern.evaluate path descent (MatchingBudget.new u64Max)).1.getD false

variable {path : List (List Char)} {meter meter' : Meter}

/-- What is returned from a budget is the verdict with the largest one. -/
theorem verdict_of_evaluate {descent found : Bool} {pattern : CompiledPattern}
    (hle : meter.remaining ≤ u64Max)
    (hreturns : pattern.evaluate path descent meter = (some found, meter')) :
    verdict path descent pattern = found := by
  have hlargest : (pattern.evaluate path descent (MatchingBudget.new u64Max)).1 = some found :=
    (evaluate_costs pattern path descent).steady.fst_of_le hreturns hle
  rw [verdict, hlargest, Option.getD_some]

theorem verdict_of_evaluateUnless {descent found found' : Bool} {pattern : CompiledPattern}
    (hle : meter.remaining ≤ u64Max)
    (hreturns : pattern.evaluateUnless found path descent meter = (some found', meter')) :
    found' = (found || verdict path descent pattern) ∧ meter'.remaining ≤ u64Max := by
  have hsteady := (evaluateUnless_costs found pattern path descent).steady
  have hremaining := hsteady.remaining_le meter
  rw [hreturns] at hremaining
  refine ⟨?_, hremaining.trans hle⟩
  cases found with
  | true => exact (Option.some.inj (Prod.mk.inj hreturns).1).symm
  | false => exact (verdict_of_evaluate hle hreturns).symm

theorem verdict_of_classifyPatterns {patterns : List CompiledPattern} {matched descends : Bool}
    {found : Bool × Bool} (hle : meter.remaining ≤ u64Max)
    (hreturns : classifyPatterns path patterns matched descends meter = (some found, meter')) :
    found = (matched || patterns.any (verdict path false),
        descends || patterns.any (verdict path true)) ∧
      meter'.remaining ≤ u64Max := by
  induction patterns generalizing matched descends meter with
  | nil =>
    obtain ⟨hfound, rfl⟩ := Prod.mk.inj hreturns
    simp only [any_nil, Bool.or_false]
    exact ⟨(Option.some.inj hfound).symm, hle⟩
  | cons _ _ ih =>
    obtain ⟨matched', meter₁, hmatched, hreturns⟩ := Metered.bind_eq_some hreturns
    obtain ⟨descends', meter₂, hdescends, hreturns⟩ := Metered.bind_eq_some hreturns
    obtain ⟨rfl, hle₁⟩ := verdict_of_evaluateUnless hle hmatched
    obtain ⟨rfl, hle₂⟩ := verdict_of_evaluateUnless hle₁ hdescends
    simpa only [any_cons, Bool.or_assoc] using ih hle₂ hreturns

theorem verdict_of_classifyDeclarations {declarations : List (String × List CompiledPattern)}
    {names : List String} {descends : Bool} {found : List String × Bool}
    (hle : meter.remaining ≤ u64Max)
    (hreturns : classifyDeclarations path declarations names descends meter =
      (some found, meter')) : found = (names ++ (declarations.filter fun declaration =>
        declaration.2.any (verdict path false)).map Prod.fst,
      descends || declarations.any fun declaration => declaration.2.any (verdict path true)) := by
  induction declarations generalizing names descends meter with
  | nil =>
    obtain ⟨hfound, -⟩ := Prod.mk.inj hreturns
    simp only [filter_nil, map_nil, append_nil, any_nil, Bool.or_false]
    exact (Option.some.inj hfound).symm
  | cons declaration _ ih =>
    obtain ⟨name, patterns⟩ := declaration
    obtain ⟨pair, between, hpatterns, hreturns⟩ := Metered.bind_eq_some hreturns
    obtain ⟨rfl, hbetween⟩ := verdict_of_classifyPatterns hle hpatterns
    rw [ih hbetween hreturns, Bool.false_or, any_cons, Bool.or_assoc]
    cases hmatched : patterns.any (verdict path false) with
    | true => simp [hmatched]
    | false => simp [hmatched]

/-- The budget only ever refuses: a larger one changes neither what is returned nor what is spent,
nothing is spent that was not there, and what is returned is what the patterns say by themselves. -/
theorem budget_only_refuses (specs : List ArtifactSpec) (path : String) (b b' spent : ℕ)
    (hle : b ≤ b') (hmax : b' + spent ≤ u64Max) : (∀ names descends meter,
      (CompiledArtifacts.new specs).classify path ⟨b, spent⟩ = (some (names, descends), meter) →
        (∃ meter', (CompiledArtifacts.new specs).classify path ⟨b', spent⟩ =
            (some (names, descends), meter') ∧ meter'.spent = meter.spent) ∧
        names = (specs.filter fun spec =>
          spec.paths.any fun pattern => patternMatches pattern path).map ArtifactSpec.name ∧
        descends = specs.any fun spec =>
          spec.paths.any fun pattern => patternMayDescend pattern path) ∧
    ((CompiledArtifacts.new specs).classify path ⟨b, spent⟩).2.spent ≤ spent + b ∧
    (∀ meter, ((CompiledArtifacts.new specs).classify path meter).2.spent +
      ((CompiledArtifacts.new specs).classify path meter).2.remaining =
        meter.spent + meter.remaining) ∧
    (∀ (pattern : CompiledPattern) (segments : List (List Char)) (descent : Bool) meter,
      (pattern.evaluate segments descent meter).2.spent +
        (pattern.evaluate segments descent meter).2.remaining = meter.spent + meter.remaining) ∧
    (∀ (pattern name : List Char) meter, (segmentMatchesCompiled pattern name meter).2.spent +
        (segmentMatchesCompiled pattern name meter).2.remaining =
          meter.spent + meter.remaining) := by
  obtain ⟨bound, hcosts⟩ := classify_costs (CompiledArtifacts.new specs) path
  have hsteady := hcosts.steady
  refine ⟨fun names descends meter hreturns => ⟨hsteady.enlarge hle hreturns, ?_⟩, ?_,
    hsteady.balance, fun pattern segments descent =>
      (evaluate_costs pattern segments descent).steady.balance,
    fun pattern name => (segmentMatchesCompiled_costs pattern name).1.steady.balance⟩
  · have hfound := verdict_of_classifyDeclarations (by dsimp only; omega) hreturns
    simp only [CompiledArtifacts.new, filter_map, any_map, map_map, nil_append,
      Bool.false_or, Function.comp_def] at hfound
    exact Prod.mk.inj hfound
  · have hbalance := hsteady.balance ⟨b, spent⟩
    dsimp only at hbalance
    omega

/-- A declaration that is classified with a budget of a hundred cells, and so with a thousand. -/
theorem logs_within_budget :
    ∃ meter, (CompiledArtifacts.new [⟨"logs", ["a/*.log"]⟩]).classify "a/x.log" ⟨1000, 0⟩ =
        (some (["logs"], false), meter) ∧ meter.spent ≤ 100 := by
  have hreturns : (CompiledArtifacts.new [⟨"logs", ["a/*.log"]⟩]).classify "a/x.log" ⟨100, 0⟩ =
      (some (["logs"], false), ⟨63, 37⟩) := by decide +kernel
  obtain ⟨hresult, -⟩ := budget_only_refuses [⟨"logs", ["a/*.log"]⟩] "a/x.log" 100 1000 0
    (by decide) (by decide)
  obtain ⟨⟨meter, hmeter, hspent⟩, -⟩ := hresult _ _ _ hreturns
  exact ⟨meter, hmeter, by rw [hspent]; decide⟩

end McLoving.Artifacts
