import McLoving.Dag.Contract
import McLoving.Lib.Except

/-!
# Declared artifacts

The path patterns of declared artifacts, the checks they pass before a pipeline is admitted, and
their evaluation against the paths of a workspace, paid from one budget.
-/

namespace McLoving.Pipeline

/-- The first check of a list that fails, reported behind a label. -/
def firstFailure (label : String) (checks : List (Bool × String)) : Except String Unit :=
  match checks.find? fun check => !check.1 with
  | some check => .error (label ++ check.2)
  | none => .ok ()

/-- A list of checks passes exactly when each of them does. -/
theorem firstFailure_eq_ok {label : String} {checks : List (Bool × String)} :
    firstFailure label checks = .ok () ↔ ∀ check ∈ checks, check.1 = true := by
  unfold firstFailure
  cases hfind : checks.find? fun check => !check.1 with
  | some check =>
    have hfails := List.find?_some hfind
    have hmem := List.mem_of_find?_eq_some hfind
    constructor
    · intro hok
      cases hok
    · intro hall
      rw [hall check hmem] at hfails
      cases hfails
  | none =>
    refine ⟨fun _ check hmem => ?_, fun _ => rfl⟩
    have hpass := List.find?_eq_none.mp hfind check hmem
    simpa using hpass

/-- Whether a text contains another one. -/
def containsText (needle : String) (text : List Char) : Bool :=
  text.tails.any needle.toList.isPrefixOf

def maxArtifactPatternBytes : ℕ := 512

structure ArtifactSpec where
  name : String
  paths : List String
  deriving DecidableEq

/-- The label of the errors of artifact declarations. -/
def artifactLabel : String := "invalid artifact declaration: "

/-- The checks of one segment of a path pattern. -/
def segmentChecks (segment : List Char) : List (Bool × String) :=
  [(!segment.isEmpty, "path pattern has an empty segment"),
    (segment != ['.'] && segment != ['.', '.'], "path pattern must not name . or .."),
    (!containsText "**" segment || segment == ['*', '*'],
      "** must stand alone as a whole path segment")]

def validatePattern (pattern : String) : Except String Unit :=
  firstFailure artifactLabel
    ([(!pattern.isEmpty && pattern.utf8ByteSize ≤ maxArtifactPatternBytes,
        "path pattern must be 1 to 512 bytes"),
      (!pattern.toList.any fun c => c.val < 0x20 || c.val == 0x7f,
        "path pattern contains a control character"),
      (!pattern.toList.contains '\\', "path pattern must use forward slashes"),
      (pattern.toList.head? != some '/', "path pattern must be workspace-relative")] ++
      (pattern.toList.splitOn '/').flatMap segmentChecks)

end McLoving.Pipeline

namespace McLoving.Artifacts

open Metered (charge)
open Pipeline (ArtifactSpec)

/-! ## Compiled patterns -/

inductive Segment where
  | recursive
  | literal (pattern : List Char)
  deriving DecidableEq

structure CompiledPattern where
  segments : List Segment
  deriving DecidableEq

structure CompiledArtifacts where
  declarations : List (String × List CompiledPattern)
  deriving DecidableEq

abbrev MatchingBudget := Meter

/-- `MatchingBudget::new`. -/
def MatchingBudget.new (cells : ℕ) : MatchingBudget :=
  ⟨cells, 0⟩

/-- The segment of a pattern behind the segments before it; adjacent `**` are one. -/
def pushSegment (segments : List Segment) (text : List Char) : List Segment :=
  if text = ['*', '*'] then
    if segments.getLast? = some .recursive then segments else segments ++ [.recursive]
  else segments ++ [.literal text]

/-- `str::split` at the separator of paths. -/
def splitPath (path : String) : List (List Char) :=
  path.toList.splitOn '/'

/-- `CompiledPattern::new`. -/
def CompiledPattern.new (pattern : String) : CompiledPattern :=
  ⟨(splitPath pattern).foldl pushSegment []⟩

/-- `CompiledArtifacts::new`. -/
def CompiledArtifacts.new (specs : List ArtifactSpec) : CompiledArtifacts :=
  ⟨specs.map fun spec => (spec.name, spec.paths.map CompiledPattern.new)⟩

/-! ## Segments -/

/-- The loop over the stars behind the end of a name. -/
def skipStars : List Char → Metered (List Char)
  | [] => pure []
  | c :: pattern =>
    if c = '*' then do
      charge
      skipStars pattern
    else pure (c :: pattern)

/-- The star that a loop goes back to: the pattern behind it and the name it was met at. -/
abbrev Star := Option (List Char × List Char)

/-- The loop goes on behind the last star, which takes one more character. -/
def backtrack (loop : List Char → List Char → Star → Metered Bool) : Star → Metered Bool
  | some (behind, met) => loop behind met.tail (some (behind, met.tail))
  | none => pure false

/-- The loop of `segment_matches_compiled`, with what is left of the pattern and of the name.  The
rounds are those that the loop can take. -/
def matchLoop : ℕ → List Char → List Char → Star → Metered Bool
  | 0, _, _, _ => fun budget => (none, budget)
  | _ + 1, pattern, [], _ => do
    let rest ← skipStars pattern
    return rest.isEmpty
  | rounds + 1, [], _ :: _, star => do
    charge
    backtrack (matchLoop rounds) star
  | rounds + 1, q :: pattern, c :: name, star => do
    charge
    if q = '?' ∨ q = c then matchLoop rounds pattern name star
    else if q = '*' then matchLoop rounds pattern (c :: name) (some (pattern, c :: name))
    else backtrack (matchLoop rounds) star

/-- The rounds of the loop for a pattern and a name of given lengths. -/
def loopRounds (pattern name : List Char) : ℕ :=
  (name.length + 2) * (pattern.length + 1)

/-- The characters of a name, each of which is paid for. -/
def readName : List Char → Metered Unit
  | [] => pure ()
  | _ :: name => do
    charge
    readName name

def segmentMatchesCompiled (pattern name : List Char) : Metered Bool := do
  readName name
  matchLoop (loopRounds pattern name) pattern name none

/-! ## Paths -/

/-- The row below the pattern, for a path of so many segments. -/
def baseRow (descent : Bool) : ℕ → Metered (List Bool)
  | 0 => do
    charge
    return [!descent]
  | n + 1 => do
    charge
    let rest ← baseRow descent n
    return false :: rest

/-- The cell of a segment at a name, from the row below it and the cells behind it. -/
def fillCell (segment : Segment) (name : List Char) (next rest : List Bool) : Metered Bool :=
  match segment with
  | .recursive => pure (next.headD false || rest.headD false)
  | .literal pattern =>
    if next.tail.headD false then segmentMatchesCompiled pattern name else pure false

/-- The row of a segment from the row below it, filled from the end of the path. -/
def row (descent : Bool) (segment : Segment) : List (List Char) → List Bool → Metered (List Bool)
  | [], next => do
    charge
    return [descent || (segment = .recursive && next.headD false)]
  | name :: path, next => do
    let rest ← row descent segment path next.tail
    charge
    let cell ← fillCell segment name next rest
    return cell :: rest

/-- The rows of the segments, from the last one on. -/
def rows (descent : Bool) (path : List (List Char)) : List Segment → Metered (List Bool)
  | [] => baseRow descent path.length
  | segment :: segments => do
    let next ← rows descent path segments
    row descent segment path next

/-- `CompiledPattern::evaluate`. -/
def CompiledPattern.evaluate (compiled : CompiledPattern) (path : List (List Char))
    (descent : Bool) : Metered Bool := do
  let first ← rows descent path compiled.segments
  return first.headD false

/-- `u64::MAX`. -/
def u64Max : ℕ := 2 ^ 64 - 1

def patternMatches (pattern path : String) : Bool :=
  ((CompiledPattern.new pattern).evaluate (splitPath path) false
    (MatchingBudget.new u64Max)).1.getD false

def patternMayDescend (pattern path : String) : Bool :=
  ((CompiledPattern.new pattern).evaluate (splitPath path) true
    (MatchingBudget.new u64Max)).1.getD false

/-! ## Declarations -/

/-- An evaluation that is left out once a pattern was found. -/
def CompiledPattern.evaluateUnless (found : Bool) (compiled : CompiledPattern)
    (path : List (List Char)) (descent : Bool) : Metered Bool :=
  if found then pure true else compiled.evaluate path descent

/-- The loop of `classify` over the patterns of a declaration. -/
def classifyPatterns (path : List (List Char)) :
    List CompiledPattern → Bool → Bool → Metered (Bool × Bool)
  | [], matched, descends => pure (matched, descends)
  | pattern :: patterns, matched, descends => do
    let matched ← pattern.evaluateUnless matched path false
    let descends ← pattern.evaluateUnless descends path true
    classifyPatterns path patterns matched descends

/-- The loop of `classify` over the declarations. -/
def classifyDeclarations (path : List (List Char)) :
    List (String × List CompiledPattern) → List String → Bool → Metered (List String × Bool)
  | [], names, descends => pure (names, descends)
  | (name, patterns) :: rest, names, descends => do
    let found ← classifyPatterns path patterns false descends
    classifyDeclarations path rest (if found.1 then names ++ [name] else names) found.2

/-- `CompiledArtifacts::classify`. -/
def CompiledArtifacts.classify (compiled : CompiledArtifacts) (path : String) :
    Metered (List String × Bool) :=
  classifyDeclarations (splitPath path) compiled.declarations [] false

end McLoving.Artifacts
