import McLoving.Dag.Acyclic
import McLoving.Lib.OrderedMap
import Mathlib.Algebra.BigOperators.Group.List.Basic

/-!
# Matrices

A matrix names a list of values for each of its axes and is compiled into one cell for each choice
of values.  The key of a cell spells the choice out.
-/

namespace McLoving

open List Json Except Split

def maxMatrixAxes : ℕ := 8
def maxMatrixValuesPerAxis : ℕ := 32
def maxMatrixCells : ℕ := 256

@[ext]
structure MatrixCell where
  nodeKey : String
  values : OrderedMap String String

namespace MatrixCells

/-- The loop over the axes: their checks, and their values in order.  `cells` is the number of cells
of the axes before. -/
def normalizeAxes :
    List (String × List String) → ℕ → Except DagContractError (List (String × List String))
  | [], _ => .ok []
  | axis :: rest, cells => do
    let path := s!"$.axes.{axis.1}"
    validateText path axis.1
    if axis.2.isEmpty || axis.2.length > maxMatrixValuesPerAxis then
      .error ⟨.matrixValueLimit, path,
        s!"matrix values per axis must be between 1 and {maxMatrixValuesPerAxis}"⟩
    else
      axis.2.forM (validateText path)
      let values := axis.2.insertionSort (· ≤ ·)
      if (values.zip values.tail).any fun pair => pair.1 = pair.2 then
        .error ⟨.duplicateMatrixValue, path, "matrix values must be unique"⟩
      else if cells * values.length > maxMatrixCells then
        .error ⟨.matrixCellLimit, "$.axes", s!"matrix product exceeds {maxMatrixCells} cells"⟩
      else
        let normalized ← normalizeAxes rest (cells * values.length)
        return (axis.1, values) :: normalized

/-- The products with each value of one more axis. -/
def extendProducts (products : List (OrderedMap String String)) (axis : String × List String) :
    List (OrderedMap String String) :=
  products.flatMap fun product => axis.2.map fun value => product.insert axis.1 value

/-- The node key of a choice of values. -/
def cellKey (nodePrefix : String) (entries : List (String × String)) : String :=
  let dimensions := ",".intercalate (entries.map fun entry => entry.1 ++ "=" ++ entry.2)
  nodePrefix ++ "[" ++ dimensions ++ "]"

/-- The cell of a choice of values. -/
def matrixCell (nodePrefix : String) (values : OrderedMap String String) :
    Except DagContractError MatrixCell := do
  validateNodeKey "$.node_key" (cellKey nodePrefix values.entries)
  return ⟨cellKey nodePrefix values.entries, values⟩

end MatrixCells

open MatrixCells in
/-- `compile_matrix`.  At most 256 cells times 32 values are counted, so the product does not
overflow. -/
def compileMatrix (nodePrefix : String) (axes : OrderedMap String (List String)) :
    Except DagContractError (List MatrixCell) := do
  validateText "$.node_prefix" nodePrefix
  if axes.entries.isEmpty || axes.entries.length > maxMatrixAxes then
    .error ⟨.matrixAxisLimit, "$.axes", s!"matrix axis count must be between 1 and {maxMatrixAxes}"⟩
  else
    let normalized ← normalizeAxes axes.entries 1
    (normalized.foldl extendProducts [∅]).mapM (matrixCell nodePrefix)

namespace MatrixCells

/-! ## Axes -/

/-- What the loop over the axes accepts and returns. -/
structure Normalized (axes : List (String × List String)) (cells : ℕ)
    (normalized : List (String × List String)) : Prop where
  eq : normalized = axes.map fun axis => (axis.1, axis.2.insertionSort (· ≤ ·))
  increasing : ∀ axis ∈ normalized, axis.2.Pairwise (· < ·)
  texts : ∀ axis ∈ axes, TextChars axis.1 ∧ ∀ value ∈ axis.2, TextChars value
  bound : axes ≠ [] → cells * (axes.map fun axis => axis.2.length).prod ≤ maxMatrixCells

section Axes

variable {path : String} {axes axes' : List (String × List String)} {cells : ℕ}

/-- There is one way to refuse a text. -/
theorem validateText_cases (path value : String) :
    validateText path value = .ok () ∨ validateText path value = .error ⟨.invalidText, path,
      "must be bounded ASCII letters, digits, dot, underscore, or hyphen"⟩ := by
  unfold validateText validateChars
  split_ifs
  · exact .inr rfl
  · exact .inl rfl

/-- Texts are refused with the same error, whichever of them is not accepted. -/
theorem forM_validateText (values : List String) : values.forM (validateText path) =
      if ∀ value ∈ values, validateText path value = .ok () then .ok () else
        .error ⟨.invalidText, path,
          "must be bounded ASCII letters, digits, dot, underscore, or hyphen"⟩ := by
  induction values with
  | nil => rfl
  | cons value rest ih =>
    change (validateText path value >>= fun _ => rest.forM (validateText path)) = _
    rw [ih]
    rcases validateText_cases path value with hvalue | herror
    · simp only [hvalue, forall_mem_cons, true_and]
      rfl
    · have hnot : ¬ ∀ other ∈ value :: rest, validateText path other = .ok () := by
        intro hall
        cases herror.symm.trans (hall value mem_cons_self)
      rw [if_neg hnot, herror]
      rfl

/-- A sorted list without equal neighbours is strictly increasing. -/
theorem pairwise_lt_of_zip {values : List String} (hsorted : values.Pairwise (· ≤ ·))
    (hzip : ¬ ((values.zip values.tail).any fun pair => pair.1 = pair.2) = true) :
    values.Pairwise (· < ·) := by
  induction values with
  | nil => exact .nil
  | cons first rest ih =>
    obtain ⟨hfirst, hrest⟩ := pairwise_cons.mp hsorted
    cases rest with
    | nil => exact pairwise_singleton _ _
    | cons second =>
      simp only [tail_cons, zip_cons_cons, any_cons, Bool.or_eq_true, not_or,
        decide_eq_true_eq] at hzip
      have hincreasing := ih hrest hzip.2
      have hlt := lt_of_le_of_ne (hfirst second mem_cons_self) hzip.1
      refine pairwise_cons.mpr ⟨fun value hmem => ?_, hincreasing⟩
      rcases mem_cons.mp hmem with rfl | hmem
      · exact hlt
      · exact hlt.trans ((pairwise_cons.mp hincreasing).1 value hmem)

/-- The order in which the values of an axis are listed does not matter. -/
theorem normalizeAxes_perm
    (hperm : List.Forall₂ (fun axis axis' => axis.1 = axis'.1 ∧ axis.2.Perm axis'.2) axes axes') :
    normalizeAxes axes cells = normalizeAxes axes' cells := by
  induction hperm generalizing cells with
  | nil => rfl
  | @cons axis axis' _ _ haxis _ ih =>
    obtain ⟨name, values⟩ := axis
    obtain ⟨name', values'⟩ := axis'
    obtain ⟨rfl, hvalues⟩ := haxis
    have hsort : values.insertionSort (· ≤ ·) = values'.insertionSort (· ≤ ·) :=
      List.Perm.eq_of_pairwise (fun _ _ _ _ hle hge => le_antisymm hle hge)
        (pairwise_insertionSort _ _) (pairwise_insertionSort _ _)
        (((perm_insertionSort _ _).trans hvalues).trans (perm_insertionSort _ _).symm)
    have hempty : values.isEmpty = values'.isEmpty := by
      rw [Bool.eq_iff_iff, isEmpty_iff_length_eq_zero, isEmpty_iff_length_eq_zero,
        hvalues.length_eq]
    rw [normalizeAxes, normalizeAxes]
    simp only [forM_validateText, hvalues.mem_iff, hsort, hempty, hvalues.length_eq, ih]

theorem normalized_of_ok {normalized : List (String × List String)}
    (hok : normalizeAxes axes cells = .ok normalized) : Normalized axes cells normalized := by
  induction axes generalizing cells normalized with
  | nil =>
    cases hok
    exact ⟨rfl, by simp, by simp, fun hne => absurd rfl hne⟩
  | cons axis rest ih =>
    rw [normalizeAxes] at hok
    obtain ⟨hname, hok⟩ := unit_bind_eq_ok.mp hok
    split_ifs at hok with hlimit
    obtain ⟨htexts, hok⟩ := unit_bind_eq_ok.mp hok
    dsimp only at hok
    split_ifs at hok with hequal hmany
    obtain ⟨tail, htail, hok⟩ := bind_eq_ok.mp hok
    cases hok
    have hrest := ih htail
    have hvalues : ∀ value ∈ axis.2, validateText s!"$.axes.{axis.1}" value = .ok () := by
      rw [forM_validateText] at htexts
      by_contra hbad
      rw [if_neg hbad] at htexts
      cases htexts
    refine ⟨by rw [hrest.eq, map_cons], ?_, ?_, fun _ => ?_⟩
    · refine forall_mem_cons.mpr ⟨?_, hrest.increasing⟩
      exact pairwise_lt_of_zip (pairwise_insertionSort _ _) hequal
    · refine forall_mem_cons.mpr ⟨⟨textChars_of_validateText hname, ?_⟩, hrest.texts⟩
      exact fun value hmem => textChars_of_validateText (hvalues value hmem)
    · rw [length_insertionSort] at hmany
      rw [map_cons, prod_cons, ← Nat.mul_assoc]
      by_cases hend : rest = []
      · subst hend
        simpa using hmany
      · have hbound := hrest.bound hend
        rwa [length_insertionSort] at hbound

end Axes

/-! ## Products -/

/-- Extending products by axes with larger and larger keys lists the assignments behind each. -/
theorem entries_foldl_extendProducts {axes : List (String × List String)}
    {products : List (OrderedMap String String)} (hkeys : axes.Pairwise fun a b => a.1 < b.1)
    (hlt : ∀ product ∈ products, ∀ entry ∈ product.entries, ∀ axis ∈ axes, entry.1 < axis.1) :
    (axes.foldl extendProducts products).map OrderedMap.entries = products.flatMap fun product =>
        (Cartesian.assignments axes).map (product.entries ++ ·) := by
  induction axes generalizing products with
  | nil => simp [Cartesian.assignments, map_eq_flatMap]
  | cons axis rest ih =>
    obtain ⟨haxis, hrest⟩ := pairwise_cons.mp hkeys
    have hinsert : ∀ product ∈ products, ∀ value,
        (product.insert axis.1 value).entries = product.entries ++ [(axis.1, value)] :=
      fun product hmem value => OrderedMap.insertEntry_of_lt value fun entry hentry =>
        hlt product hmem entry hentry axis mem_cons_self
    have hextended : ∀ product ∈ extendProducts products axis, ∀ entry ∈ product.entries,
        ∀ other ∈ rest, entry.1 < other.1 := by
      intro product hproduct entry hentry other hother
      obtain ⟨before, hbefore, hproduct⟩ := mem_flatMap.mp hproduct
      obtain ⟨value, -, rfl⟩ := mem_map.mp hproduct
      rw [hinsert before hbefore, mem_append, mem_singleton] at hentry
      rcases hentry with hentry | rfl
      · exact hlt before hbefore entry hentry other (mem_cons_of_mem _ hother)
      · exact haxis other hother
    rw [foldl_cons, ih hrest hextended, extendProducts, flatMap_assoc]
    refine flatMap_congr fun product hmem => ?_
    rw [flatMap_map, Cartesian.assignments, map_flatMap]
    refine flatMap_congr fun value _ => ?_
    rw [hinsert product hmem, map_map]
    exact map_congr_left fun tail _ => by simp

theorem mapM_matrixCell {nodePrefix : String} {products : List (OrderedMap String String)}
    {cells : List MatrixCell} (hok : products.mapM (matrixCell nodePrefix) = .ok cells) :
    cells = products.map fun values => ⟨cellKey nodePrefix values.entries, values⟩ := by
  induction products generalizing cells with
  | nil =>
    rw [mapM_nil] at hok
    exact (ok.inj hok).symm
  | cons _ _ ih =>
    rw [mapM_cons] at hok
    obtain ⟨cell, hcell, hok⟩ := bind_eq_ok.mp hok
    obtain ⟨tail, htail, hok⟩ := bind_eq_ok.mp hok
    obtain ⟨-, hcell⟩ := unit_bind_eq_ok.mp hcell
    rw [← ok.inj hok, ← ok.inj hcell, ih htail, map_cons]

/-! ## Keys -/

/-- One dimension of a key. -/
def dimensionChars (entry : String × String) : List Char :=
  entry.1.toList ++ '=' :: entry.2.toList

theorem toList_cellKey (nodePrefix : String) (entries : List (String × String)) :
    (cellKey nodePrefix entries).toList = nodePrefix.toList ++
      '[' :: ([','].intercalate (entries.map dimensionChars) ++ [']']) := by
  have hdimensions : (entries.map fun entry => entry.1 ++ "=" ++ entry.2).map String.toList =
      entries.map dimensionChars := by
    rw [map_map]
    exact map_congr_left fun entry _ => by simp [dimensionChars]
  simp [cellKey, String.toList_intercalate, hdimensions]

/-- The key determines the name in front of it and the choice of values. -/
theorem cellKey_injective {nodePrefix nodePrefix' : String}
    {entries entries' : List (String × String)}
    (hprefixes : TextChars nodePrefix) (hprefixes' : TextChars nodePrefix')
    (htexts : ∀ entry ∈ entries, TextChars entry.1 ∧ TextChars entry.2)
    (htexts' : ∀ entry ∈ entries', TextChars entry.1 ∧ TextChars entry.2)
    (hne : entries ≠ []) (hne' : entries' ≠ [])
    (heq : cellKey nodePrefix entries = cellKey nodePrefix' entries') :
    nodePrefix = nodePrefix' ∧ entries = entries' := by
  have hfree : ∀ {c : Char}, (isAsciiAlphanumeric c || ['.', '_', '-'].contains c) = false →
      c ≠ '=' → ∀ {choice : List (String × String)},
      (∀ entry ∈ choice, TextChars entry.1 ∧ TextChars entry.2) →
      ∀ part ∈ choice.map dimensionChars, c ∉ part := by
    intro c hc hother choice hchoice part hpart hmem
    obtain ⟨entry, hentry, rfl⟩ := mem_map.mp hpart
    rw [dimensionChars, mem_append, mem_cons] at hmem
    rcases hmem with hmem | hmem | hmem
    · exact (hchoice entry hentry).1.notMem hc hmem
    · exact hother hmem
    · exact (hchoice entry hentry).2.notMem hc hmem
  have hread : ∀ {choice : List (String × String)},
      (∀ entry ∈ choice, TextChars entry.1 ∧ TextChars entry.2) →
      (choice.map dimensionChars).map (once '=') =
        choice.map fun entry => some (entry.1.toList, entry.2.toList) := by
    intro choice hchoice
    rw [map_map]
    exact map_congr_left fun entry hentry =>
      once_append _ ((hchoice entry hentry).1.notMem (by decide))
  have hchars := congrArg String.toList heq
  rw [toList_cellKey, toList_cellKey] at hchars
  have hbracket := congrArg (once '[') hchars
  rw [once_append _ (hprefixes.notMem (by decide)),
    once_append _ (hprefixes'.notMem (by decide))] at hbracket
  obtain ⟨hnames, hrest⟩ := Prod.mk.inj (Option.some.inj hbracket)
  have hjoined := append_cancel_right hrest
  have hsplit := congrArg (List.splitOn ',') hjoined
  rw [splitOn_intercalate _ (hfree (by decide) (by decide) htexts) (by simpa using hne),
    splitOn_intercalate _ (hfree (by decide) (by decide) htexts') (by simpa using hne')]
    at hsplit
  have hparts := congrArg (List.map (once '=')) hsplit
  rw [hread htexts, hread htexts'] at hparts
  refine ⟨String.toList_inj.mp hnames, map_injective_iff.mpr ?_ hparts⟩
  rintro ⟨a, b⟩ ⟨a', b'⟩ hpair
  simpa [String.toList_inj] using hpair

/-! ## Compiled matrices -/

/-- What compiling a matrix returns. -/
structure Compiled (nodePrefix : String) (axes : OrderedMap String (List String))
    (normalized : List (String × List String)) (cells : List MatrixCell) : Prop where
  text : TextChars nodePrefix
  axes_ne_nil : axes.entries ≠ []
  checked : Normalized axes.entries 1 normalized
  entries : cells.map (fun cell => cell.values.entries) = Cartesian.assignments normalized
  key : ∀ cell ∈ cells, cell.nodeKey = cellKey nodePrefix cell.values.entries

section Compiled

variable {nodePrefix : String} {axes : OrderedMap String (List String)} {cells : List MatrixCell}

theorem compiled_of_ok (hok : compileMatrix nodePrefix axes = .ok cells) :
    ∃ normalized, Compiled nodePrefix axes normalized cells := by
  obtain ⟨htext, hok⟩ := unit_bind_eq_ok.mp hok
  split_ifs at hok with hcount
  obtain ⟨normalized, hnormalized, hok⟩ := bind_eq_ok.mp hok
  have haxes := normalized_of_ok hnormalized
  have hcells := mapM_matrixCell hok
  refine ⟨normalized, textChars_of_validateText htext, ?_, haxes, ?_, ?_⟩
  · rintro hnil
    simp [hnil] at hcount
  · have hkeys : normalized.Pairwise fun a b => a.1 < b.1 := by
      rw [haxes.eq, pairwise_map]
      exact axes.sorted
    have hproducts := @entries_foldl_extendProducts _ [∅] hkeys (by simp)
    rw [hcells, map_map]
    simpa [Function.comp_def] using hproducts
  · intro cell hmem
    rw [hcells] at hmem
    obtain ⟨values, -, rfl⟩ := mem_map.mp hmem
    rfl

variable {normalized : List (String × List String)}
  (hcompiled : Compiled nodePrefix axes normalized cells)

include hcompiled

theorem Compiled.mem_values_iff (values : OrderedMap String String) :
    values ∈ cells.map MatrixCell.values ↔ Cartesian.Assigns axes.entries values.entries := by
  have hassigns : Cartesian.Assigns normalized values.entries ↔
      Cartesian.Assigns axes.entries values.entries := by
    unfold Cartesian.Assigns
    rw [hcompiled.checked.eq, List.forall₂_map_right_iff]
    simp only [mem_insertionSort]
  rw [← hassigns, ← Cartesian.mem_assignments, ← hcompiled.entries]
  simp only [mem_map]
  constructor
  · rintro ⟨cell, hmem, rfl⟩
    exact ⟨cell, hmem, rfl⟩
  · rintro ⟨cell, hmem, heq⟩
    exact ⟨cell, hmem, OrderedMap.ext heq⟩

theorem Compiled.pairwise_lex : cells.Pairwise fun cell cell' =>
    List.Lex (· < ·) (cell.values.entries.map Prod.snd) (cell'.values.entries.map Prod.snd) := by
  have hordered := Cartesian.pairwise_assignments hcompiled.checked.increasing
  rw [← hcompiled.entries, pairwise_map] at hordered
  exact hordered

/-- The names and values of a cell are texts, and there is one at least. -/
theorem Compiled.texts {cell : MatrixCell} (hmem : cell ∈ cells) :
    (∀ entry ∈ cell.values.entries, TextChars entry.1 ∧ TextChars entry.2) ∧
      cell.values.entries ≠ [] := by
  have hassigns := (hcompiled.mem_values_iff cell.values).mp (mem_map_of_mem hmem)
  refine ⟨fun entry hentry => ?_, fun hnil => ?_⟩
  · obtain ⟨axis, haxis, hname, hvalue⟩ := hassigns.exists_axis hentry
    obtain ⟨htext, htexts⟩ := hcompiled.checked.texts axis haxis
    exact ⟨hname ▸ htext, htexts entry.2 hvalue⟩
  · rw [hnil] at hassigns
    exact hcompiled.axes_ne_nil (List.forall₂_nil_left_iff.mp hassigns)

end Compiled

end MatrixCells

open MatrixCells in
/-- The cells of an accepted matrix are the choices of one value for each axis, each once, with
different keys, in the lexicographic order of the values.  The key of a cell determines its choice,
also among the cells of different matrices.  The order in which values are listed does not matter,
and a matrix of more than 256 cells is refused. -/
theorem matrix_is_cartesian_product (nodePrefix : String) (axes : OrderedMap String (List String)) :
    (∀ cells, compileMatrix nodePrefix axes = .ok cells →
      (∀ values : OrderedMap String String, values ∈ cells.map MatrixCell.values ↔
        Cartesian.Assigns axes.entries values.entries) ∧
      (cells.map MatrixCell.values).Nodup ∧ (cells.map MatrixCell.nodeKey).Nodup ∧
      (∀ nodePrefix' axes' cells', compileMatrix nodePrefix' axes' = .ok cells' →
        ∀ cell ∈ cells, ∀ cell' ∈ cells', cell.nodeKey = cell'.nodeKey →
          nodePrefix = nodePrefix' ∧ cell.values = cell'.values) ∧
      cells.Pairwise fun cell cell' => List.Lex (· < ·) (cell.values.entries.map Prod.snd)
        (cell'.values.entries.map Prod.snd)) ∧
    (∀ axes' : OrderedMap String (List String),
      List.Forall₂ (fun axis axis' => axis.1 = axis'.1 ∧ axis.2.Perm axis'.2)
        axes.entries axes'.entries →
      compileMatrix nodePrefix axes = compileMatrix nodePrefix axes') ∧
    (maxMatrixCells < (axes.entries.map fun axis => axis.2.length).prod →
      ∃ error, compileMatrix nodePrefix axes = .error error) := by
  have hdetermines : ∀ {cells nodePrefix' axes' cells'}, compileMatrix nodePrefix axes = .ok cells →
      compileMatrix nodePrefix' axes' = .ok cells' → ∀ cell ∈ cells, ∀ cell' ∈ cells',
        cell.nodeKey = cell'.nodeKey → nodePrefix = nodePrefix' ∧ cell.values = cell'.values := by
    intro cells nodePrefix' axes' cells' hok hok' cell hmem cell' hmem' hkey
    obtain ⟨normalized, hcompiled⟩ := compiled_of_ok hok
    obtain ⟨normalized', hcompiled'⟩ := compiled_of_ok hok'
    rw [hcompiled.key cell hmem, hcompiled'.key cell' hmem'] at hkey
    obtain ⟨htexts, hne⟩ := hcompiled.texts hmem
    obtain ⟨htexts', hne'⟩ := hcompiled'.texts hmem'
    have hboth := cellKey_injective hcompiled.text hcompiled'.text htexts htexts' hne hne' hkey
    exact ⟨hboth.1, OrderedMap.ext hboth.2⟩
  refine ⟨fun cells hok => ?_, fun axes' hperm => ?_, fun hmany => ?_⟩
  · obtain ⟨normalized, hcompiled⟩ := compiled_of_ok hok
    have hordered := hcompiled.pairwise_lex
    have hdistinct : (cells.map MatrixCell.values).Nodup := by
      refine pairwise_map.mpr (hordered.imp fun hlex heq => ?_)
      rw [heq] at hlex
      exact (hlex.imp fun _ _ hlt => ne_of_lt hlt).to_ne rfl
    refine ⟨hcompiled.mem_values_iff, hdistinct, ?_, fun _ _ _ hok' => hdetermines hok hok', hordered⟩
    refine hdistinct.of_map.map_on fun cell hmem cell' hmem' hkey => ?_
    exact MatrixCell.ext hkey (hdetermines hok hok cell hmem cell' hmem' hkey).2
  · have hlength := hperm.length_eq
    have hempty : axes.entries.isEmpty = axes'.entries.isEmpty := by
      rw [Bool.eq_iff_iff, isEmpty_iff_length_eq_zero, isEmpty_iff_length_eq_zero, hlength]
    unfold compileMatrix
    rw [normalizeAxes_perm hperm, hlength, hempty]
  · rcases hresult : compileMatrix nodePrefix axes with error | cells
    · exact ⟨error, rfl⟩
    · obtain ⟨normalized, hcompiled⟩ := compiled_of_ok hresult
      have hbound := hcompiled.checked.bound hcompiled.axes_ne_nil
      omega

/-- A matrix over two systems and one processor. -/
def MatrixCells.systems : OrderedMap String (List String) :=
  .ofList [("os", ["mac", "linux"]), ("cpu", ["arm"])]

open MatrixCells in
/-- The two cells of the matrix have different values. -/
theorem systems_has_two_cells : ∃ cells, compileMatrix "build" systems = .ok cells ∧
    cells.map MatrixCell.nodeKey = ["build[cpu=arm,os=linux]", "build[cpu=arm,os=mac]"] ∧
    (cells.map MatrixCell.values).Nodup := by
  have hkeys : (compileMatrix "build" systems).map (List.map MatrixCell.nodeKey) =
      .ok ["build[cpu=arm,os=linux]", "build[cpu=arm,os=mac]"] := by
    decide +kernel
  rcases hcells : compileMatrix "build" systems with error | cells
  · rw [hcells] at hkeys
    cases hkeys
  · rw [hcells] at hkeys
    exact ⟨cells, rfl, ok.inj hkeys,
      ((matrix_is_cartesian_product "build" systems).1 cells hcells).2.1⟩

end McLoving
