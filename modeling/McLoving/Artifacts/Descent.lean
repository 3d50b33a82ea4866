import McLoving.Artifacts.Dialect

/-!
# Descent into directories

A directory is entered if a pattern could match below it.  That is so exactly if some names below
the directory complete it to a path that the pattern matches, and so a walk that enters only such
directories misses no file.
-/

namespace McLoving.Artifacts

open List
open Pipeline (ArtifactSpec validatePattern firstFailure_eq_ok)

/-! ## Completions -/

/-- A name that a segment matches: a letter for every wildcard. -/
def completing (pattern : List Char) : List Char :=
  pattern.map fun c => if c = '*' ∨ c = '?' then 'x' else c

theorem reads_completing (pattern : List Char) : SegmentReads pattern (completing pattern) := by
  unfold completing
  induction pattern with
  | nil => exact .nil
  | cons c _ ih =>
    rw [map_cons]
    by_cases hstar : c = '*'
    · rw [if_pos (.inl hstar), hstar]
      exact .run ['x'] (by simp) ih
    · by_cases hany : c = '?'
      · exact .char (.inl hany) ih
      · rw [if_neg (by tauto)]
        exact .char (.inr rfl) ih

/-- A name of a file or a directory. -/
def Named (name : List Char) : Prop :=
  name ≠ [] ∧ '/' ∉ name

theorem named_completing {pattern : List Char} (hpattern : Named pattern) :
    Named (completing pattern) := by
  refine ⟨by simpa [completing] using hpattern.1, fun hmem => ?_⟩
  obtain ⟨c, hc, hsame⟩ := mem_map.mp hmem
  split_ifs at hsame with hwild
  · exact absurd hsame (by decide)
  · rw [hsame] at hc
    exact hpattern.2 hc

/-- The segments of an accepted pattern. -/
def Proper (segments : List Segment) : Prop :=
  ∀ pattern, Segment.literal pattern ∈ segments → Named pattern

variable {segments : List Segment} {path names : List (List Char)} {pattern : String}
variable {name : List Char}

/-- Names that a rest of a pattern matches. -/
theorem exists_completion (hproper : Proper segments) (hne : segments ≠ []) :
    ∃ more, more ≠ [] ∧ (∀ name ∈ more, Named name) ∧
      pathSize more ≤ (segments.map Segment.width).sum ∧ Walks SegmentReads segments more := by
  induction segments with
  | nil => exact absurd rfl hne
  | cons segment segments ih =>
    have hrest : Proper segments := fun pattern hmem => hproper pattern (mem_cons_of_mem _ hmem)
    by_cases hempty : segments = []
    · subst hempty
      cases segment with
      | recursive =>
        refine ⟨[['x']], by simp, by simp [Named], by simp [pathSize, Segment.width], ?_⟩
        exact .recursive [['x']] .nil
      | literal pattern =>
        have hnamed := named_completing (hproper pattern mem_cons_self)
        refine ⟨[completing pattern], by simp, by simpa using hnamed, ?_,
          .literal (reads_completing pattern) .nil⟩
        simp [pathSize, Segment.width, completing]
    · obtain ⟨more, hmore, hnames, hsize, hwalks⟩ := ih hrest hempty
      cases segment with
      | recursive =>
        refine ⟨more, hmore, hnames, ?_, .recursive [] hwalks⟩
        rw [map_cons, sum_cons]
        omega
      | literal pattern =>
        have hnamed := named_completing (hproper pattern mem_cons_self)
        refine ⟨completing pattern :: more, by simp, forall_mem_cons.mpr ⟨hnamed, hnames⟩, ?_,
          .literal (reads_completing pattern) hwalks⟩
        simp only [pathSize, completing, Segment.width, map_cons, sum_cons, length_map] at hsize ⊢
        omega

/-- A true cell for descent has a completion. -/
theorem exists_of_table (hproper : Proper segments) (htable : table true segments path = true) :
    ∃ more, more ≠ [] ∧ (∀ name ∈ more, Named name) ∧
      pathSize more ≤ (segments.map Segment.width).sum ∧
      Walks SegmentReads segments (path ++ more) := by
  induction segments generalizing path with
  | nil => simp [table] at htable
  | cons segment segments ih =>
    have hrest : Proper segments := fun pattern hmem => hproper pattern (mem_cons_of_mem _ hmem)
    rw [table] at htable
    rw [map_cons, sum_cons]
    cases segment with
    | recursive =>
      induction path with
      | nil => exact exists_completion hproper (by simp)
      | cons _ _ ihpath =>
        rw [cell, Bool.or_eq_true] at htable
        rcases htable with hnext | hcell
        · obtain ⟨more, hmore, hnames, hsize, hwalks⟩ := ih hrest hnext
          exact ⟨more, hmore, hnames, by omega, .recursive [] hwalks⟩
        · obtain ⟨more, hmore, hnames, hsize, hwalks⟩ := ihpath hcell
          exact ⟨more, hmore, hnames, hsize, Walks.recursive_cons_iff.mpr (.inr hwalks)⟩
    | literal =>
      cases path with
      | nil => exact exists_completion hproper (by simp)
      | cons =>
        rw [cell, Bool.and_eq_true] at htable
        obtain ⟨more, hmore, hnames, hsize, hwalks⟩ := ih hrest htable.1
        exact ⟨more, hmore, hnames, by omega,
          .literal ((segmentMatchesCompiled_costs _ _).2.mp htable.2) hwalks⟩

/-- Every completion makes the cell true. -/
theorem table_of_walks {more : List (List Char)} (hmore : more ≠ [])
    (hwalks : Walks SegmentReads segments (path ++ more)) : table true segments path = true := by
  induction segments generalizing path with
  | nil =>
    have hempty := Walks.nil_iff.mp hwalks
    exact absurd (append_eq_nil_iff.mp hempty).2 hmore
  | cons segment _ ih =>
    rw [table]
    cases segment with
    | recursive =>
      induction path with
      | nil => rfl
      | cons _ _ ihpath =>
        rw [cell, Bool.or_eq_true]
        rcases Walks.recursive_cons_iff.mp hwalks with hnext | hrest
        · exact .inl (ih hnext)
        · exact .inr (ihpath hrest)
    | literal =>
      cases path with
      | nil => rfl
      | cons =>
        obtain ⟨name', rest, hpath, hname, hrest⟩ := Walks.literal_iff.mp hwalks
        obtain ⟨rfl, rfl⟩ := List.cons.inj hpath
        rw [cell, Bool.and_eq_true]
        exact ⟨ih hrest, (segmentMatchesCompiled_costs _ _).2.mpr hname⟩

/-! ## Paths below a directory -/

/-- The path of names below a directory. -/
def under (directory : String) (names : List (List Char)) : String :=
  String.ofList (directory.toList ++ names.flatMap ('/' :: ·))

theorem splitOn_append_flatMap (text : List Char) (hnames : ∀ name ∈ names, '/' ∉ name) :
    (text ++ names.flatMap ('/' :: ·)).splitOn '/' = text.splitOn '/' ++ names := by
  induction names generalizing text with
  | nil => simp
  | cons name names ih =>
    obtain ⟨hname, hrest⟩ := forall_mem_cons.mp hnames
    have hfront : text ++ (name :: names).flatMap ('/' :: ·) =
        text ++ '/' :: (name ++ names.flatMap ('/' :: ·)) := by simp
    rw [hfront, splitOn_append_cons_self, ih name hrest, splitOn_eq_singleton hname,
      singleton_append]

theorem splitPath_under (directory : String) (hnames : ∀ name ∈ names, Named name) :
    splitPath (under directory names) = splitPath directory ++ names := by
  rw [splitPath, under, String.toList_ofList,
    splitOn_append_flatMap _ fun name hmem => (hnames name hmem).2, splitPath]

/-- The parts of a split text do not have the separator. -/
theorem not_mem_of_mem_splitOn {text part : List Char} (hmem : part ∈ text.splitOn '/') :
    '/' ∉ part := by
  induction text generalizing part with
  | nil =>
    rw [splitOn_nil, mem_singleton] at hmem
    simp [hmem]
  | cons c text ih =>
    rw [splitOn_cons_eq_if_modifyHead] at hmem
    split_ifs at hmem with hseparator
    · rcases mem_cons.mp hmem with rfl | hrest
      · simp
      · exact ih hrest
    · have hc : '/' ≠ c := by
        rintro rfl
        exact hseparator (beq_self_eq_true _)
      obtain ⟨first, rest, hsplit⟩ := exists_cons_of_ne_nil (splitOn_ne_nil '/' text)
      rw [hsplit, modifyHead_cons] at hmem
      rcases mem_cons.mp hmem with rfl | hrest
      · have hfirst : '/' ∉ first := ih (by rw [hsplit]; exact mem_cons_self)
        simp [hc, hfirst]
      · exact ih (by rw [hsplit]; exact mem_cons_of_mem _ hrest)

theorem proper_of_validatePattern (hvalid : validatePattern pattern = .ok ()) :
    Proper (CompiledPattern.new pattern).segments := by
  intro text hmem
  obtain ⟨text', htext', hsame⟩ := (mem_foldl_pushSegment hmem).resolve_left (not_mem_nil)
  unfold segmentOf at hsame
  split_ifs at hsame with hrecursive
  obtain rfl := Segment.literal.inj hsame
  refine ⟨?_, not_mem_of_mem_splitOn htext'⟩
  rw [validatePattern, firstFailure_eq_ok, forall_mem_append] at hvalid
  have hcheck := hvalid.2 (!text.isEmpty, "path pattern has an empty segment")
    (mem_flatMap.mpr ⟨text, htext', mem_cons_self⟩)
  rw [Bool.not_eq_true', isEmpty_eq_false_iff] at hcheck
  exact hcheck

theorem patternMayDescend_iff_table {directory : String} (hvalid : validatePattern pattern = .ok ())
    (hsize : pathSize (splitPath directory) ≤ affordable + 1024) :
    patternMayDescend pattern directory = true ↔
      table true (CompiledPattern.new pattern).segments (splitPath directory) = true := by
  unfold patternMayDescend
  rw [(evaluate_costs (.new pattern) (splitPath directory) true).fst_eq
    (tablePrice_le_u64Max hvalid hsize), Option.getD_some]

/-- A pattern permits descent exactly if some names complete the directory to a path that it
matches. -/
theorem mayDescend_iff_completion {directory : String} (hvalid : validatePattern pattern = .ok ())
    (hsize : directory.utf8ByteSize < affordable) : patternMayDescend pattern directory = true ↔
      ∃ names, names ≠ [] ∧ (∀ name ∈ names, Named name) ∧
        patternMatches pattern (under directory names) = true := by
  have hlength := Utf8.length_le_size directory
  have hdirectory : pathSize (splitPath directory) ≤ affordable := by
    rw [pathSize_splitPath]
    omega
  rw [patternMayDescend_iff_table hvalid (hdirectory.trans (Nat.le_add_right _ _))]
  constructor
  · intro htable
    obtain ⟨names, hne, hnames, hnamesSize, hwalks⟩ :=
      exists_of_table (proper_of_validatePattern hvalid) htable
    refine ⟨names, hne, hnames, ?_⟩
    have hsplit := splitPath_under directory hnames
    have hpattern := size_of_validatePattern hvalid
    have hwidth := (width_foldl_pushSegment (splitPath pattern) []).2
    rw [patternMatches_iff_walks hvalid, hsplit]
    · exact hwalks
    · rw [hsplit]
      simp only [pathSize, CompiledPattern.new, map_append, sum_append, map_nil,
        sum_nil] at hdirectory hnamesSize hpattern hwidth ⊢
      omega
  · rintro ⟨names, hne, hnames, hmatches⟩
    have hwalks := walks_of_patternMatches hmatches
    rw [splitPath_under directory hnames] at hwalks
    exact table_of_walks hne hwalks

/-! ## Walks -/

/-- What a directory holds. -/
inductive Entry where
  | file (name : List Char)
  | directory (name : List Char) (entries : List Entry)

/-- The path of names from the workspace on. -/
def joinPath (names : List (List Char)) : String :=
  String.ofList (['/'].intercalate names)

mutual

/-- A walk through an entry: every file is visited, and a directory is entered if its classification
reports descent. -/
def walkEntry (compiled : CompiledArtifacts) (above : List (List Char)) :
    Entry → Metered (List (List (List Char)))
  | .file name => do
    let _ ← compiled.classify (joinPath (above ++ [name]))
    return [above ++ [name]]
  | .directory name entries => do
    let found ← compiled.classify (joinPath (above ++ [name]))
    if found.2 then walkEntries compiled (above ++ [name]) entries else return []

/-- A walk through the entries of a directory. -/
def walkEntries (compiled : CompiledArtifacts) (above : List (List Char)) :
    List Entry → Metered (List (List (List Char)))
  | [] => pure []
  | entry :: entries => do
    let first ← walkEntry compiled above entry
    let rest ← walkEntries compiled above entries
    return first ++ rest

end

/-- A file below a directory. -/
inductive HasFile : List Entry → List (List Char) → Prop
  | here {entries : List Entry} {name : List Char} (hname : Named name)
      (hmem : .file name ∈ entries) : HasFile entries [name]
  | inside {entries below : List Entry} {name : List Char} {path : List (List Char)}
      (hname : Named name) (hmem : .directory name below ∈ entries) (hfile : HasFile below path) :
      HasFile entries (name :: path)

theorem HasFile.named {entries : List Entry} (hfile : HasFile entries path) :
    path ≠ [] ∧ ∀ name ∈ path, Named name := by
  induction hfile with
  | here hname => exact ⟨by simp, by simpa using hname⟩
  | inside hname _ _ ih => exact ⟨by simp, forall_mem_cons.mpr ⟨hname, ih.2⟩⟩

theorem splitPath_joinPath (hne : names ≠ []) (hnames : ∀ name ∈ names, Named name) :
    splitPath (joinPath names) = names := by
  rw [splitPath, joinPath, String.toList_ofList]
  exact splitOn_intercalate '/' (fun name hmem => (hnames name hmem).2) hne

/-- A walk through a directory has walked through each of its entries. -/
theorem walkEntry_of_walkEntries {compiled : CompiledArtifacts} {above : List (List Char)}
    {entries : List Entry} {entry : Entry} (hmem : entry ∈ entries) {meter meter' : Meter}
    {visited : List (List (List Char))}
    (hwalk : walkEntries compiled above entries meter = (some visited, meter')) :
    ∃ before after part, walkEntry compiled above entry before = (some part, after) ∧
      ∀ path ∈ part, path ∈ visited := by
  induction entries generalizing meter meter' visited with
  | nil => cases hmem
  | cons _ _ ih =>
    rw [walkEntries] at hwalk
    obtain ⟨part, between, hfirst, hwalk⟩ := Metered.bind_eq_some hwalk
    obtain ⟨rest, after, hrest, hwalk⟩ := Metered.bind_eq_some hwalk
    obtain ⟨hvisited, -⟩ := Prod.mk.inj hwalk
    obtain rfl := Option.some.inj hvisited
    rcases mem_cons.mp hmem with rfl | hmem
    · exact ⟨meter, between, part, hfirst, fun path => mem_append_left rest⟩
    · obtain ⟨before, after, inner, hinner, hsub⟩ := ih hmem hrest
      exact ⟨before, after, inner, hinner, fun path hpath =>
        mem_append_right part (hsub path hpath)⟩

/-- A classification reports descent where a declared pattern matches further below. -/
theorem descends_of_walks {specs : List ArtifactSpec} {spec : ArtifactSpec} (hspec : spec ∈ specs)
    (hpattern : pattern ∈ spec.paths) {more : List (List Char)} (hmore : more ≠ [])
    (hwalks : Walks SegmentReads (CompiledPattern.new pattern).segments (path ++ more)) :
    (classification path (CompiledArtifacts.new specs).declarations).2 = true := by
  simp only [classification, CompiledArtifacts.new, any_map, any_eq_true,
    Function.comp_apply, anyTable]
  exact ⟨spec, hspec, pattern, hpattern, table_of_walks hmore hwalks⟩

/-- A walk visits every file that a declared pattern matches. -/
theorem mem_of_walkEntries {specs : List ArtifactSpec} {spec : ArtifactSpec} {pattern : String}
    (hspec : spec ∈ specs) (hpattern : pattern ∈ spec.paths) {above : List (List Char)}
    (habove : ∀ name ∈ above, Named name) {entries : List Entry} {path : List (List Char)}
    (hfile : HasFile entries path)
    (hwalks : Walks SegmentReads (CompiledPattern.new pattern).segments (above ++ path))
    {meter meter' : Meter} {visited : List (List (List Char))}
    (hwalk : walkEntries (.new specs) above entries meter = (some visited, meter')) :
    above ++ path ∈ visited := by
  induction hfile generalizing above meter meter' visited with
  | here _ hmem =>
    obtain ⟨before, after, part, hentry, hsub⟩ := walkEntry_of_walkEntries hmem hwalk
    rw [walkEntry] at hentry
    obtain ⟨found, between, -, hentry⟩ := Metered.bind_eq_some hentry
    obtain ⟨hpart, -⟩ := Prod.mk.inj hentry
    obtain rfl := Option.some.inj hpart
    exact hsub _ mem_cons_self
  | @inside _ _ name _ hname hmem hfile ih =>
    obtain ⟨before, after, part, hentry, hsub⟩ := walkEntry_of_walkEntries hmem hwalk
    rw [walkEntry] at hentry
    obtain ⟨found, between, hclassify, hentry⟩ := Metered.bind_eq_some hentry
    have hnamed : ∀ inner ∈ above ++ [name], Named inner := by
      rw [forall_mem_append]
      exact ⟨habove, by simpa using hname⟩
    rw [append_cons] at hwalks ⊢
    obtain ⟨bound, hcosts⟩ := classify_costs (CompiledArtifacts.new specs)
      (joinPath (above ++ [name]))
    have hfound := hcosts.eq_of_some hclassify
    rw [splitPath_joinPath (by simp) hnamed] at hfound
    have hdescends : found.2 = true := by
      rw [hfound]
      exact descends_of_walks hspec hpattern hfile.named.1 hwalks
    rw [if_pos hdescends] at hentry
    exact hsub _ (ih hnamed hwalks hentry)

/-- A pattern permits descent exactly if some names below complete the directory to a path it
matches; and a walk that enters only directories with descent visits every file that some declared
pattern matches.  The path of the directory is of a size that a process can hold. -/
theorem descent_is_exact : (∀ pattern directory, validatePattern pattern = .ok () →
      (∀ name ∈ splitPath directory, name ≠ []) → directory.utf8ByteSize < affordable →
      (patternMayDescend pattern directory = true ↔
        ∃ names, names ≠ [] ∧ (∀ name ∈ names, Named name) ∧
          patternMatches pattern (under directory names) = true)) ∧
    (∀ (specs : List ArtifactSpec) (entries : List Entry) budget visited budget',
      walkEntries (.new specs) [] entries budget = (some visited, budget') →
      ∀ path, HasFile entries path →
        (∃ spec ∈ specs, ∃ pattern ∈ spec.paths, patternMatches pattern (joinPath path) = true) →
        path ∈ visited) := by
  refine ⟨fun pattern directory hvalid _ hsize => mayDescend_iff_completion hvalid hsize, ?_⟩
  rintro specs entries budget visited budget' hwalk path hfile
    ⟨spec, hspec, pattern, hpattern, hmatches⟩
  have hwalks := walks_of_patternMatches hmatches
  rw [splitPath_joinPath hfile.named.1 hfile.named.2] at hwalks
  exact @mem_of_walkEntries specs spec pattern hspec hpattern [] (by simp) entries path hfile hwalks
    budget budget' visited hwalk

/-- The whole of a directory and a declared pattern. -/
theorem target_descent_is_exact : patternMayDescend "target/**/*.log" "target/debug" = true ↔
      ∃ names, names ≠ [] ∧ (∀ name ∈ names, Named name) ∧
        patternMatches "target/**/*.log" (under "target/debug" names) = true :=
  descent_is_exact.1 "target/**/*.log" "target/debug" (by decide +kernel) (by decide +kernel)
    (by decide +kernel)

end McLoving.Artifacts
