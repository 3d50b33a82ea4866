import McLoving.Triggers.JenkinsHash
import McLoving.Triggers.Calendar

/-!
# Cron expressions

An expression is read into bit sets.  A shift takes its amount modulo the width.
-/

namespace McLoving.Cron

/-- Why no sets are returned: the expression is refused, or a loop runs on after its rounds. -/
inductive CronStop where
  | refused (error : TriggerError)
  | running
  deriving DecidableEq

/-- A refusal as `InvalidTriggerIngress`. -/
def invalid (message : String) : CronStop :=
  .refused (.invalid message)

/-- The result of a loop that may run on. -/
def returned {α : Type} : Option α → Except CronStop α
  | none => .error .running
  | some value => .ok value

def fieldLower : List ℤ := [0, 0, 1, 1, 0]

def fieldUpper : List ℤ := [59, 23, 31, 12, 7]

/-! ## Numbers -/

/-- The value of decimal digits. -/
def decimalValue (digits : List Char) : ℕ :=
  digits.foldl (fun value c => value * 10 + (c.toNat - '0'.toNat)) 0

/-- The sign of a number and what follows it. -/
def splitSign : List Char → ℤ × List Char
  | '+' :: digits => (1, digits)
  | '-' :: digits => (-1, digits)
  | digits => (1, digits)

/-- `str::parse::<i32>`. -/
def parseI32 (text : List Char) : Option ℤ :=
  let sign := (splitSign text).1
  let digits := (splitSign text).2
  let value := sign * decimalValue digits
  if digits ≠ [] ∧ (digits.all fun c => '0' ≤ c && c ≤ '9') ∧ -2 ^ 31 ≤ value ∧ value ≤ i32Max then
    some value
  else none

def parsePositive (text : List Char) : Except CronStop ℤ :=
  match parseI32 text with
  | none => .error (invalid s!"schedule step '{String.ofList text}' is not an integer")
  | some value =>
    if value ≤ 0 then .error (invalid "schedule step must be positive") else .ok value

def parseBounded (text : List Char) (lower upper : ℤ) : Except CronStop ℤ :=
  match parseI32 text with
  | none => .error (invalid s!"schedule value '{String.ofList text}' is not an integer")
  | some value =>
    if value < lower ∨ upper < value then
      .error (invalid s!"schedule value {value} is outside {lower}..{upper}")
    else .ok value

/-! ## Parts -/

/-- `1u64 << value`. -/
def bit (value : ℤ) : ℕ :=
  2 ^ (value % 64).toNat

/-- The loop over the cursor. -/
def rangeLoop (limit step : ℤ) : ℕ → ℤ → ℕ → Option ℕ
  | 0, _, _ => none
  | rounds + 1, cursor, bits =>
    if cursor ≤ limit then
      rangeLoop limit step rounds (wrap32 (cursor + step)) (bits ||| bit cursor)
    else some bits

def rangeBits (rounds : ℕ) (start limit step : ℤ) : Except CronStop ℕ :=
  returned (rangeLoop limit step rounds start 0)

/-- The end and the step behind the first hyphen of a range. -/
def splitStep (rest : List Char) : Except CronStop (List Char × ℤ) :=
  match Split.once '/' rest with
  | some (endText, stepText) => do
    let step ← parsePositive stepText
    return (endText, step)
  | none => .ok (rest, 1)

/-- The range and the step behind the parenthesis of a hashed range; a missing step is zero. -/
def splitHashStep (inner : List Char) : Except CronStop (List Char × ℤ) :=
  match Split.last [')', '/'] inner with
  | some (rangeText, stepText) => do
    let step ← parsePositive stepText
    return (rangeText, step)
  | none =>
    match Split.stripSuffix [')'] inner with
    | some rangeText => .ok (rangeText, 0)
    | none => .error (invalid "schedule H range is malformed")

/-- The largest value that a hashed part takes. -/
def hashUpper (index : ℕ) (upper : ℤ) : ℤ :=
  if index = 2 then 28 else if index = 4 then 6 else upper

/-- A single value `start` behind a draw below `n`. -/
def hashedValue (rounds : ℕ) (start n : ℤ) (hash : JenkinsHash) :
    Except CronStop (ℕ × JenkinsHash) := do
  let drawn ← returned (hash.next rounds n.toNat)
  return (bit (start + drawn.1), drawn.2)

/-- The loop from a draw below the step behind `start`. -/
def hashedRange (rounds : ℕ) (start limit step : ℤ) (hash : JenkinsHash) :
    Except CronStop (ℕ × JenkinsHash) := do
  let drawn ← returned (hash.next rounds step.toNat)
  let bits ← rangeBits rounds (start + drawn.1) limit step
  return (bits, drawn.2)

/-- `parse_hash_part` behind `H(`. -/
def parseHashRange (rounds : ℕ) (inner : List Char) (lower upper : ℤ) (hash : JenkinsHash) :
    Except CronStop (ℕ × JenkinsHash) := do
  let split ← splitHashStep inner
  match Split.once '-' split.1 with
  | none => .error (invalid "schedule H range requires start-end")
  | some (startText, endText) => do
    let start ← parseBounded startText lower upper
    let limit ← parseBounded endText lower upper
    Except.refuseIf (limit < start) (invalid "schedule H range end precedes start")
    if split.2 = 0 then hashedValue rounds start (limit - start + 1) hash
    else do
      Except.refuseIf (limit - start + 1 < split.2) (invalid "schedule H step exceeds named range")
      hashedRange rounds start limit split.2 hash

/-- `parse_hash_part`, with the largest value of the hashed parts of the field. -/
def parseHashPart (rounds : ℕ) (part : List Char) (lower upper : ℤ) (hash : JenkinsHash) :
    Except CronStop (ℕ × JenkinsHash) :=
  if part = ['H'] then hashedValue rounds lower (upper - lower + 1) hash
  else
    match Split.stripPrefix ['H', '/'] part with
    | some rest => do
      let step ← parsePositive rest
      Except.refuseIf (upper - lower + 1 < step) (invalid "schedule H step exceeds field range")
      hashedRange rounds lower upper step hash
    | none =>
      match Split.stripPrefix ['H', '('] part with
      | some inner => parseHashRange rounds inner lower upper hash
      | none => .error (invalid s!"unsupported schedule hash field '{String.ofList part}'")

/-- A part without a hash. -/
def parsePlainPart (rounds : ℕ) (part : List Char) (lower upper : ℤ) : Except CronStop ℕ :=
  match Split.once '-' part with
  | some (startText, rest) => do
    let start ← parseBounded startText lower upper
    let split ← splitStep rest
    let limit ← parseBounded split.1 lower upper
    Except.refuseIf (limit < start) (invalid "schedule range end precedes start")
    rangeBits rounds start limit split.2
  | none =>
    match Split.once '/' part with
    | some (startText, stepText) => do
      let start ← parseBounded startText lower upper
      let step ← parsePositive stepText
      rangeBits rounds start upper step
    | none => do
      let value ← parseBounded part lower upper
      return bit value

def parseFieldPart (rounds index : ℕ) (lower upper : ℤ) (part : List Char) (hash : JenkinsHash) :
    Except CronStop (ℕ × JenkinsHash) :=
  if part = [] then .error (invalid "schedule field part is empty")
  else if part = ['*'] then do
    let bits ← rangeBits rounds lower upper 1
    return (bits, hash)
  else
    match Split.stripPrefix ['*', '/'] part with
    | some rest => do
      let step ← parsePositive rest
      let bits ← rangeBits rounds lower upper step
      return (bits, hash)
    | none =>
      if part.head? = some 'H' then
        parseHashPart rounds part lower (hashUpper index upper) hash
      else do
        let bits ← parsePlainPart rounds part lower upper
        return (bits, hash)

/-! ## Fields -/

/-- The loop of `parse_field` over the parts of a field. -/
def parseParts (rounds index : ℕ) (lower upper : ℤ) :
    List (List Char) → ℕ → JenkinsHash → Except CronStop (ℕ × JenkinsHash)
  | [], bits, hash => .ok (bits, hash)
  | part :: parts, bits, hash => do
    let read ← parseFieldPart rounds index lower upper part hash
    parseParts rounds index lower upper parts (bits ||| read.1) read.2

def parseField (rounds index : ℕ) (field : List Char) (hash : JenkinsHash) :
    Except CronStop (ℕ × JenkinsHash) :=
  parseParts rounds index (fieldLower.getD index 0) (fieldUpper.getD index 0) (field.splitOn ',') 0
    hash

/-- The loop of `parse_cron_expression` over the fields from an index on. -/
def parseFields (rounds : ℕ) : ℕ → List (List Char) → JenkinsHash → Except CronStop (List ℕ)
  | _, [], _ => .ok []
  | index, field :: fields, hash => do
    let read ← parseField rounds index field hash
    Except.refuseIf (read.1 = 0) (invalid s!"schedule field {index} matches no values")
    let bits ← parseFields rounds (index + 1) fields read.2
    return read.1 :: bits

/-- `str::split_ascii_whitespace`. -/
def splitAsciiWhitespace (text : List Char) : List (List Char) :=
  (text.splitOnP fun c => c == ' ' || c == '\t' || c == '\n' || c == '\x0c' || c == '\r').filter
    fun field => !field.isEmpty

/-- The complement of a `u64`. -/
def not64 (bits : ℕ) : ℕ :=
  (2 ^ 64 - 1) ^^^ bits

/-- Sunday is zero, also where it is written as seven. -/
def foldSunday (bits : ℕ) : ℕ :=
  if bits.testBit 7 then (bits ||| 1) &&& not64 (2 ^ 7) else bits

/-- `parse_cron_expression`, from the state of the seed. -/
def parseCronExpression (rounds : ℕ) (expression : String) (hash : JenkinsHash) :
    Except CronStop CronBits := do
  let fields := splitAsciiWhitespace expression.toList
  Except.refuseIf (fields.length ≠ 5) (invalid "schedule expression must contain exactly five fields")
  let bits ← parseFields rounds 0 fields hash
  return ⟨bits.getD 0 0, bits.getD 1 0, bits.getD 2 0, bits.getD 3 0, foldSunday (bits.getD 4 0)⟩

/-- `JenkinsHash::from_seed`, of the digest of the seed. -/
def JenkinsHash.fromSeed (md5 : List UInt8 → Fin 16 → UInt8) (seed : String) : JenkinsHash :=
  let digest := md5 seed.toUTF8.toList
  let folded := List.ofFn fun i : Fin 8 => digest (i.castAdd 8) ^^^ digest (i.natAdd 8)
  let value := folded.foldl (fun value byte => value * 2 ^ 8 % 2 ^ 64 + byte.toNat) 0
  ⟨(value ^^^ 0x5DEECE66D) &&& (2 ^ 48 - 1)⟩

end McLoving.Cron
