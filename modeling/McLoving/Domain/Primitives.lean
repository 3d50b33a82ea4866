import McLoving.Lib.Bytes
import Mathlib.Tactic.IntervalCases

/-!
# Text, JSON values, identifiers and workspace snapshots

A JSON object lists its members in key order, as the ordered maps behind `serde_json::Value` and
`jsonb` do.  Numbers are the integers the controller itself reads and writes.  SHA-256, the hash
PostgreSQL breaks ties with and the URL parser are parameters of the model.  The compact text of a
value can be read back from the front, so two values with the same bytes are equal.
-/

namespace McLoving

/-! ## Text -/

/-- The code points that `char::is_whitespace` accepts. -/
def isWhitespace (c : Char) : Bool :=
  (0x09 ≤ c.val && c.val ≤ 0x0d) || c.val == 0x20 || c.val == 0x85 || c.val == 0xa0 ||
    c.val == 0x1680 || (0x2000 ≤ c.val && c.val ≤ 0x200a) || c.val == 0x2028 ||
    c.val == 0x2029 || c.val == 0x202f || c.val == 0x205f || c.val == 0x3000

/-- The code points that `char::is_control` accepts. -/
def isControl (c : Char) : Bool :=
  c.val ≤ 0x1f || (0x7f ≤ c.val && c.val ≤ 0x9f)

/-- `str::trim`. -/
def trim (text : String) : String :=
  String.ofList ((text.toList.dropWhile isWhitespace).reverse.dropWhile isWhitespace).reverse

/-- The ASCII letters and digits. -/
def isAsciiAlphanumeric (c : Char) : Bool :=
  ('a' ≤ c && c ≤ 'z') || ('A' ≤ c && c ≤ 'Z') || ('0' ≤ c && c ≤ '9')

/-! ## JSON -/

/-- A JSON value. -/
inductive Json where
  | null
  | bool (value : Bool)
  | num (value : ℤ)
  | str (value : String)
  | arr (items : List Json)
  | obj (fields : List (String × Json))
  deriving Repr, Inhabited

namespace Json

mutual

/-- Structural equality of two values. -/
def beq : Json → Json → Bool
  | .null, .null => true
  | .bool a, .bool b => a == b
  | .num a, .num b => a == b
  | .str a, .str b => a == b
  | .arr a, .arr b => beqItems a b
  | .obj a, .obj b => beqFields a b
  | _, _ => false

/-- Structural equality of two arrays. -/
def beqItems : List Json → List Json → Bool
  | [], [] => true
  | a :: as, b :: bs => beq a b && beqItems as bs
  | _, _ => false

/-- Structural equality of the members of two objects. -/
def beqFields : List (String × Json) → List (String × Json) → Bool
  | [], [] => true
  | (k, a) :: as, (l, b) :: bs => k == l && beq a b && beqFields as bs
  | _, _ => false

end

mutual

/-- `beq` decides equality. -/
theorem beq_eq_true : ∀ a b : Json, beq a b = true ↔ a = b
  | .null, b => by cases b <;> simp [beq]
  | .bool _, b => by cases b <;> simp [beq]
  | .num _, b => by cases b <;> simp [beq]
  | .str _, b => by cases b <;> simp [beq]
  | .arr as, b => by cases b <;> simp [beq, beqItems_eq_true as]
  | .obj as, b => by cases b <;> simp [beq, beqFields_eq_true as]

theorem beqItems_eq_true : ∀ as bs : List Json, beqItems as bs = true ↔ as = bs
  | [], bs => by cases bs <;> simp [beqItems]
  | a :: as, bs => by cases bs <;> simp [beqItems, beq_eq_true a, beqItems_eq_true as]

/-- `beqFields` decides equality of object members. -/
theorem beqFields_eq_true : ∀ as bs : List (String × Json), beqFields as bs = true ↔ as = bs
  | [], bs => by cases bs <;> simp [beqFields]
  | (k, a) :: as, bs => by
    cases bs with
    | nil => simp [beqFields]
    | cons =>
      simp [beqFields, beq_eq_true a, beqFields_eq_true as, Prod.ext_iff, and_assoc]

end

instance : DecidableEq Json := fun a b => decidable_of_iff _ (beq_eq_true a b)

/-- `Value::get` with a key: the member of an object. -/
def get (key : String) : Json → Option Json
  | .obj fields => fields.lookup key
  | _ => none

/-- `Value::as_str`. -/
def asStr : Json → Option String
  | .str value => some value
  | _ => none

/-- `Value::as_array`. -/
def asArray : Json → Option (List Json)
  | .arr items => some items
  | _ => none

/-- The text member that `value ->> key` is compared with.  A member that is not a string renders
to text that none of the compared constants equals. -/
def textField (key : String) (value : Json) : Option String :=
  (value.get key).bind asStr

/-- One hexadecimal digit of an escape sequence. -/
private def hexDigit (n : ℕ) : Char :=
  Char.ofNat (if n < 10 then 48 + n else 87 + n)

/-- The characters `serde_json` writes for one character of a string. -/
def escapeChar (c : Char) : List Char :=
  if c = '"' then ['\\', '"']
  else if c = '\\' then ['\\', '\\']
  else if c.val = 0x08 then ['\\', 'b']
  else if c.val = 0x0c then ['\\', 'f']
  else if c = '\n' then ['\\', 'n']
  else if c = '\r' then ['\\', 'r']
  else if c = '\t' then ['\\', 't']
  else if c.val < 0x20 then
    ['\\', 'u', '0', '0', hexDigit (c.toNat / 16), hexDigit (c.toNat % 16)]
  else [c]

/-- A quoted, escaped string. -/
def renderText (text : String) : String :=
  String.ofList ('"' :: text.toList.flatMap escapeChar ++ ['"'])

mutual

/-- The compact text that `serde_json::to_vec` writes. -/
def render : Json → String
  | .null => "null"
  | .bool value => if value then "true" else "false"
  | .num value => toString value
  | .str value => renderText value
  | .arr items => "[" ++ renderItems items ++ "]"
  | .obj fields => "\x7b" ++ renderFields fields ++ "\x7d"

/-- The comma-separated items of an array. -/
def renderItems : List Json → String
  | [] => ""
  | [item] => render item
  | item :: rest => render item ++ "," ++ renderItems rest

/-- The comma-separated members of an object. -/
def renderFields : List (String × Json) → String
  | [] => ""
  | [(key, value)] => renderText key ++ ":" ++ render value
  | (key, value) :: rest => renderText key ++ ":" ++ render value ++ "," ++ renderFields rest

end

/-- The bytes of `serde_json::to_vec`. -/
def toBytes (value : Json) : List UInt8 :=
  value.render.toUTF8.toList

end Json

/-- A UUID, as its 128-bit value. -/
abbrev Uuid := ℕ

/-- A database time in microseconds. -/
abbrev Timestamp := ℤ

/-- A whole number of seconds as a database interval. -/
def seconds (n : ℤ) : Timestamp :=
  n * 1000000

/-- The largest value of a `bigint` column and of an `i64`. -/
def i64Max : ℤ :=
  2 ^ 63 - 1

/-- A SHA-256 digest: exactly thirty-two bytes. -/
structure Digest where
  bytes : List UInt8
  length_eq : bytes.length = 32
  deriving DecidableEq

/-- The digest of thirty-two equal bytes. -/
def Digest.replicate (byte : UInt8) : Digest :=
  ⟨List.replicate 32 byte, List.length_replicate⟩

/-- The parts of a parsed URL that admission inspects. -/
structure Url where
  scheme : String
  hostStr : Option String
  username : String
  password : Option String
  fragment : Option String

/-- What the controller takes from other software. -/
class Platform where
  /-- `Sha256::digest`. -/
  sha256 : List UInt8 → Digest
  /-- `hashtextextended(id::text, seed)`. -/
  hashTextExtended : Uuid → ℤ → ℤ
  /-- `Url::parse`. -/
  parseUrl : String → Option Url
  /-- The failure of `AhoCorasickBuilder::build` for these patterns. -/
  buildAutomaton : List (List UInt8) → Except String Unit := fun _ => .ok ()

/-- The digest of a JSON value's compact encoding. -/
def Json.sha256 [Platform] (value : Json) : Digest :=
  Platform.sha256 value.toBytes

/-- The lowercase hexadecimal digits of a number, most significant first. -/
def hexDigits : ℕ → ℕ → List Char
  | 0, _ => []
  | width + 1, n =>
    hexDigits width (n / 16) ++ [Char.ofNat (if n % 16 < 10 then 48 + n % 16 else 87 + n % 16)]

/-- `Uuid::to_string`: the hyphenated lowercase form. -/
def Uuid.toText (id : Uuid) : String :=
  let digits := hexDigits 32 id
  String.ofList (digits.take 8 ++ '-' :: (digits.drop 8).take 4 ++ '-' :: (digits.drop 12).take 4 ++
    '-' :: (digits.drop 16).take 4 ++ '-' :: digits.drop 20)

/-- Whether a text is the canonical form of a UUID that is not nil. -/
def isCanonicalUuid (text : String) : Bool :=
  let isHex (c : Char) : Bool := ('0' ≤ c && c ≤ '9') || ('a' ≤ c && c ≤ 'f')
  let indexed := text.toList.zipIdx
  text.length == 36 &&
    indexed.all (fun (c, i) => if i ∈ [8, 13, 18, 23] then c == '-' else isHex c) &&
    indexed.any fun (c, _) => c != '-' && c != '0'

/-- The capability a workspace-transfer node requires. -/
def workspaceTransferCapability : String := "workspace-transfer-v1"

/-- The capability that ties the work nodes of a build to one agent. -/
def workspaceAffinityCapability : String := "workspace-affinity-v1"

/-- The session feature behind workspace affinity. -/
def workspaceAffinityFeature : String := "build-workspace-affinity-v1"

def maxWorkspaceBytes : ℕ := 8 * 1024
def maxWorkspaceEntries : ℕ := 32
def maxWorkspacePathBytes : ℕ := 256
def maxWorkspaceDepth : ℕ := 8
def maxWorkspaceEncodedBytes : ℕ := 48 * 1024

/-- One directory or file of a snapshot. -/
inductive WorkspaceEntry where
  | directory (path : String)
  | file (path : String) (executable : Bool) (contents : List UInt8)
  deriving DecidableEq

namespace WorkspaceEntry

def path : WorkspaceEntry → String
  | directory path => path
  | file path _ _ => path

def isDirectory : WorkspaceEntry → Bool
  | directory _ => true
  | file .. => false

/-- The bytes a file contributes to the content bound. -/
def size : WorkspaceEntry → ℕ
  | directory _ => 0
  | file _ _ contents => contents.length

end WorkspaceEntry

/-- A complete workspace: its version and its entries. -/
structure WorkspaceSnapshot where
  version : ℕ
  entries : List WorkspaceEntry
  deriving DecidableEq

/-- What remains of one entry in a receipt. -/
inductive WorkspaceEntryReceipt where
  | directory (path : String)
  | file (path : String) (executable : Bool) (sizeBytes : ℕ) (digest : Digest)
  deriving DecidableEq

namespace WorkspaceEntryReceipt

def path : WorkspaceEntryReceipt → String
  | directory path => path
  | file path _ _ _ => path

def isDirectory : WorkspaceEntryReceipt → Bool
  | directory _ => true
  | file .. => false

def size : WorkspaceEntryReceipt → ℕ
  | directory _ => 0
  | file _ _ sizeBytes _ => sizeBytes

end WorkspaceEntryReceipt

/-- The content identity of a snapshot without its bytes. -/
structure WorkspaceSnapshotReceipt where
  version : ℕ
  digest : Digest
  totalBytes : ℕ
  entries : List WorkspaceEntryReceipt
  deriving DecidableEq

/-- What one attempt reports about its workspace. -/
structure WorkspaceTransferResult where
  version : ℕ
  organizationId : String
  buildId : String
  namespaceId : String
  generation : ℕ
  inputDigest : Digest
  snapshot : Option WorkspaceSnapshot
  error : Option String
  deriving DecidableEq

/-! ## Validation -/

/-- `str::split('/')`. -/
def splitPath (path : String) : List String :=
  (path.toList.splitOn '/').map String.ofList

/-- `validate_path`. -/
def validatePath (path : String) : Except String Unit :=
  let parts := splitPath path
  if path.isEmpty || path.utf8ByteSize > maxWorkspacePathBytes
      || parts.length > maxWorkspaceDepth
      || path.toList.any (fun c => isControl c || c == '\\' || c == ':')
      || parts.any (fun part => part == "" || part == "." || part == "..")
      || parts.head? == some "spool" || parts.head? == some ".agent-results" then
    .error "unsafe, reserved, or out-of-bound relative path"
  else .ok ()

/-- The proper ancestors of a path, nearest first. -/
def pathAncestors (path : String) : List String :=
  let parts := splitPath path
  (List.range (parts.length - 1)).reverse.map fun n =>
    String.intercalate "/" (parts.take (n + 1))

/-- The walk that `WorkspaceSnapshot::validate` and `WorkspaceSnapshotReceipt::validate` share:
valid, strictly increasing paths whose ancestors are directories listed before them, and content
within the bound.  The texts are those of the two callers; a receipt tests the bound before the
path, a snapshot after it. -/
def validateEntries (sizeFirst : Bool) (ordered parent bound : String) :
    List (String × Bool × ℕ) → List (String × Bool) → Option String → ℕ → Except String ℕ
  | [], _, _, total => .ok total
  | (path, directory, size) :: rest, seen, previous, total => do
    if sizeFirst && total + size > maxWorkspaceBytes then .error bound
    else
      validatePath path
      if previous.any fun value => ¬ value < path then .error ordered
      else if (pathAncestors path).any fun ancestor => seen.lookup ancestor ≠ some true then
        .error parent
      else if total + size > maxWorkspaceBytes then .error bound
      else
        validateEntries sizeFirst ordered parent bound rest ((path, directory) :: seen)
          (some path) (total + size)

namespace WorkspaceEntry

/-- The JSON form of an entry, members in declaration order. -/
def toJson : WorkspaceEntry → Json
  | directory path => .obj [("kind", .str "directory"), ("path", .str path)]
  | file path executable contents =>
    .obj [("kind", .str "file"), ("path", .str path), ("executable", .bool executable),
      ("contents", .arr (contents.map fun byte => .num byte.toNat))]

end WorkspaceEntry

namespace WorkspaceSnapshot

/-- The JSON form of a snapshot, members in declaration order. -/
def toJson (snapshot : WorkspaceSnapshot) : Json :=
  .obj [("version", .num snapshot.version),
    ("entries", .arr (snapshot.entries.map WorkspaceEntry.toJson))]

/-- `WorkspaceSnapshot::validate`. -/
def validate (snapshot : WorkspaceSnapshot) : Except String Unit := do
  if snapshot.version ≠ 1 || snapshot.entries.length > maxWorkspaceEntries then
    .error "unsupported snapshot version or entry bound"
  else
    let _ ← validateEntries false "paths must be unique and lexically ordered"
      "every parent must be an explicit directory" "workspace content bound exceeded"
      (snapshot.entries.map fun entry => (entry.path, entry.isDirectory, entry.size)) [] none 0
    if snapshot.toJson.render.utf8ByteSize > maxWorkspaceEncodedBytes then
      .error "encoded snapshot bound exceeded"
    else .ok ()

/-- `WorkspaceSnapshot::digest`. -/
def digest [Platform] (snapshot : WorkspaceSnapshot) : Except String Digest := do
  snapshot.validate
  return snapshot.toJson.sha256

/-- `WorkspaceSnapshot::receipt`. -/
def receipt [Platform] (snapshot : WorkspaceSnapshot) : Except String WorkspaceSnapshotReceipt := do
  let digest ← snapshot.digest
  return {
    version := 1
    digest := digest
    totalBytes := (snapshot.entries.map WorkspaceEntry.size).sum
    entries := snapshot.entries.map fun entry =>
      match entry with
      | .directory path => .directory path
      | .file path executable contents =>
        .file path executable contents.length (Platform.sha256 contents) }

/-- The workspace a build starts from. -/
def initial : WorkspaceSnapshot :=
  { version := 1, entries := [] }

end WorkspaceSnapshot

/-- `WorkspaceSnapshotReceipt::validate`. -/
def WorkspaceSnapshotReceipt.validate (receipt : WorkspaceSnapshotReceipt) :
    Except String Unit := do
  if receipt.version ≠ 1 || receipt.entries.length > maxWorkspaceEntries then
    .error "unsupported receipt version or entry bound"
  else
    let total ← validateEntries true "receipt paths must be unique and lexically ordered"
      "receipt parent must be an explicit directory" "receipt content bound exceeded"
      (receipt.entries.map fun entry => (entry.path, entry.isDirectory, entry.size)) [] none 0
    if total ≠ receipt.totalBytes then .error "receipt total differs from file sizes"
    else .ok ()

/-- `validate_identity`. -/
def validateIdentity (version : ℕ) (organization build workspaceNamespace : String)
    (generation : ℕ) : Except String Unit :=
  if version ≠ 1 || generation > 64 then
    .error "unsupported transfer version or generation"
  else if [organization, build, workspaceNamespace].all isCanonicalUuid then .ok ()
  else .error "noncanonical or nil transfer identity"

/-- The JSON array of a digest's bytes. -/
def Digest.toJson (digest : Digest) : Json :=
  .arr (digest.bytes.map fun byte => .num byte.toNat)

/-- A present value or `null`. -/
def optionJson {α : Type} (encode : α → Json) : Option α → Json
  | some value => encode value
  | none => .null

namespace WorkspaceTransferResult

/-- The JSON form of a transfer result, members in declaration order. -/
def toJson (result : WorkspaceTransferResult) : Json :=
  .obj [("version", .num result.version), ("organization_id", .str result.organizationId),
    ("build_id", .str result.buildId), ("namespace_id", .str result.namespaceId),
    ("generation", .num result.generation), ("input_digest", result.inputDigest.toJson),
    ("snapshot", optionJson WorkspaceSnapshot.toJson result.snapshot),
    ("error", optionJson Json.str result.error)]

/-- `WorkspaceTransferResult::validate`. -/
def validate (result : WorkspaceTransferResult) : Except String Unit := do
  validateIdentity result.version result.organizationId result.buildId result.namespaceId
    result.generation
  match result.snapshot, result.error with
  | some snapshot, none => snapshot.validate
  | none, some error =>
    if error.isEmpty || error.utf8ByteSize > 1024 then
      .error "transfer must carry a snapshot or an explicit bounded error"
    else .ok ()
  | _, _ => .error "transfer must carry a snapshot or an explicit bounded error"
  if result.toJson.render.utf8ByteSize > 60 * 1024 then
    .error "encoded transfer result bound exceeded"
  else .ok ()

end WorkspaceTransferResult

/-! ## Decoding -/

namespace Json

/-- A number that fits an unsigned integer of the given width. -/
def asUnsigned (bits : ℕ) : Json → Option ℕ
  | .num value => if 0 ≤ value ∧ value < 2 ^ bits then some value.toNat else none
  | _ => none

/-- An array of bytes. -/
def asBytes : Json → Option (List UInt8)
  | .arr items => items.mapM fun item => (item.asUnsigned 8).map UInt8.ofNat
  | _ => none

/-- An array of exactly thirty-two bytes. -/
def asDigest (value : Json) : Option Digest :=
  value.asBytes.bind fun bytes =>
    if hlength : bytes.length = 32 then some ⟨bytes, hlength⟩ else none

/-- An optional member: absent and `null` both decode to nothing. -/
def optionalField {α : Type} (key : String) (decode : Json → Option α) (value : Json) :
    Option (Option α) :=
  match value.get key with
  | none | some .null => some none
  | some member => (decode member).map some

/-- Whether an object has only the named members. -/
def onlyFields (expected : List String) : Json → Bool
  | .obj fields => fields.all fun field => expected.contains field.1
  | _ => false

end Json

/-- Decodes one tagged entry. -/
def WorkspaceEntry.ofJson (value : Json) : Option WorkspaceEntry := do
  match ← value.textField "kind" with
  | "directory" =>
    guard (value.onlyFields ["kind", "path"])
    return .directory (← value.textField "path")
  | "file" =>
    guard (value.onlyFields ["kind", "path", "executable", "contents"])
    let path ← value.textField "path"
    let .bool executable ← value.get "executable" | none
    return .file path executable (← (← value.get "contents").asBytes)
  | _ => none

/-- Decodes a snapshot. -/
def WorkspaceSnapshot.ofJson (value : Json) : Option WorkspaceSnapshot := do
  guard (value.onlyFields ["version", "entries"])
  let version ← (← value.get "version").asUnsigned 32
  let entries ← (← (← value.get "entries").asArray).mapM WorkspaceEntry.ofJson
  return { version, entries }

/-- Decodes a transfer result. -/
def WorkspaceTransferResult.ofJson (value : Json) : Option WorkspaceTransferResult := do
  guard (value.onlyFields ["version", "organization_id", "build_id", "namespace_id", "generation",
    "input_digest", "snapshot", "error"])
  return {
    version := ← (← value.get "version").asUnsigned 32
    organizationId := ← value.textField "organization_id"
    buildId := ← value.textField "build_id"
    namespaceId := ← value.textField "namespace_id"
    generation := ← (← value.get "generation").asUnsigned 64
    inputDigest := ← (← value.get "input_digest").asDigest
    snapshot := ← value.optionalField "snapshot" WorkspaceSnapshot.ofJson
    error := ← value.optionalField "error" Json.asStr }

end McLoving

namespace McLoving.Json

open List

/-! ## Strings -/

/-- The value of a hexadecimal digit. -/
private def digitValue (c : Char) : ℕ :=
  if c.isDigit then c.toNat - 48 else c.toNat - 87

/-- The character that an escape sequence stands for, and what follows it. -/
private def readEscape : List Char → Option (Char × List Char)
  | 'u' :: _ :: _ :: high :: low :: rest =>
    some (Char.ofNat (16 * digitValue high + digitValue low), rest)
  | c :: rest =>
    some (if c = 'b' then Char.ofNat 0x08 else if c = 'f' then Char.ofNat 0x0c
      else if c = 'n' then '\n' else if c = 'r' then '\r' else if c = 't' then '\t' else c, rest)
  | [] => none

/-- The first character of an escaped string, and what follows it. -/
private def readChar : List Char → Option (Char × List Char)
  | c :: rest =>
    if c = '"' then none else if c = '\\' then readEscape rest else some (c, rest)
  | [] => none

variable {n : ℕ} {x y : List Char} {c : Char}

/-- An escaped control character is read back. -/
private theorem readChar_control (hn : n < 0x20) (rest : List Char) :
    readChar (escapeChar (Char.ofNat n) ++ rest) = some (Char.ofNat n, rest) := by
  interval_cases n <;> rfl

/-- Every escaped character is read back. -/
private theorem readChar_escapeChar (c : Char) (rest : List Char) :
    readChar (escapeChar c ++ rest) = some (c, rest) := by
  by_cases hcontrol : c.toNat < 0x20
  · rw [← Char.ofNat_toNat c]
    exact readChar_control hcontrol rest
  · by_cases hquote : c = '"'
    · subst hquote
      rfl
    · by_cases hslash : c = '\\'
      · subst hslash
        rfl
      · have hplain : escapeChar c = [c] := by
          have hval : ¬ c.val < 0x20 := hcontrol
          unfold escapeChar
          rw [if_neg hquote, if_neg hslash, if_neg, if_neg, if_neg, if_neg, if_neg, if_neg hval]
          all_goals
            intro heq
            subst_vars
            first
              | exact hval (by rw [heq]; decide)
              | exact hval (by decide)
        rw [hplain, singleton_append, readChar, if_neg hquote, if_neg hslash]

/-- An escaped string can be read up to its quotation mark. -/
theorem escape_cancel {left right : List Char}
    (hsame : left.flatMap escapeChar ++ '"' :: x = right.flatMap escapeChar ++ '"' :: y) :
    left = right ∧ x = y := by
  induction left generalizing right with
  | nil =>
    cases right with
    | nil => exact ⟨rfl, (cons.inj hsame).2⟩
    | cons =>
      have hread := congrArg readChar hsame
      rw [flatMap_cons, append_assoc, readChar_escapeChar] at hread
      cases hread
  | cons _ _ ih =>
    have hread := congrArg readChar hsame
    rw [flatMap_cons, append_assoc, readChar_escapeChar] at hread
    cases right with
    | nil => cases hread
    | cons =>
      rw [flatMap_cons, append_assoc, readChar_escapeChar] at hread
      obtain ⟨rfl, hrest⟩ := Prod.mk.inj (Option.some.inj hread)
      obtain ⟨rfl, hxy⟩ := ih hrest
      exact ⟨rfl, hxy⟩

/-- A text is read back from the front. -/
theorem renderText_cancel {left right : String}
    (hsame : (renderText left).toList ++ x = (renderText right).toList ++ y) :
    left = right ∧ x = y := by
  simp only [renderText, String.toList_ofList, cons_append, append_assoc, nil_append] at hsame
  obtain ⟨hchars, hxy⟩ := escape_cancel (cons.inj hsame).2
  exact ⟨String.toList_injective hchars, hxy⟩

/-! ## Numbers -/

/-- No digit follows. -/
def Breaks (rest : List Char) : Prop :=
  ∀ c ∈ rest.head?, c.isDigit = false

/-- What begins with another character breaks a number. -/
theorem breaks_cons (hc : c.isDigit = false) (rest : List Char) : Breaks (c :: rest) := by
  intro d hd
  obtain rfl := Option.some.inj hd
  exact hc

/-- The digits end where the number breaks. -/
theorem takeWhile_isDigit {digits rest : List Char} (hdigits : ∀ c ∈ digits, c.isDigit = true)
    (hrest : Breaks rest) : (digits ++ rest).takeWhile Char.isDigit = digits := by
  rw [takeWhile_append_of_pos hdigits]
  cases rest with
  | nil => simp
  | cons c => simp [hrest c rfl]

/-- A natural number is read back where no digit follows. -/
theorem nat_cancel {m : ℕ} (hx : Breaks x) (hy : Breaks y)
    (hsame : Nat.toDigits 10 m ++ x = Nat.toDigits 10 n ++ y) : m = n ∧ x = y := by
  have hdigits (k : ℕ) : ∀ c ∈ Nat.toDigits 10 k, c.isDigit = true :=
    fun c hc => Nat.isDigit_of_mem_toDigits (by decide) (by decide) hc
  have hhead := congrArg (List.takeWhile Char.isDigit) hsame
  rw [takeWhile_isDigit (hdigits m) hx, takeWhile_isDigit (hdigits n) hy] at hhead
  have hvalue := congrArg (Nat.ofDigitChars 10 · 0) hhead
  simp only [Nat.ofDigitChars_ten_toDigits] at hvalue
  subst hvalue
  exact ⟨rfl, append_cancel_left hsame⟩

/-- The text of a natural number. -/
theorem toList_nat (n : ℕ) : (toString (n : ℤ)).toList = Nat.toDigits 10 n := by
  change (toString n).toList = _
  rw [Nat.toString_eq_ofList_toDigits, String.toList_ofList]

/-- The text of a negative number. -/
theorem toList_negSucc (n : ℕ) :
    (toString (Int.negSucc n)).toList = '-' :: Nat.toDigits 10 (n + 1) := by
  change ("-" ++ toString (n + 1)).toList = _
  rw [String.toList_append, Nat.toString_eq_ofList_toDigits, String.toList_ofList,
    String.toList_ofList]
  rfl

/-- Digits do not begin with a sign. -/
theorem toDigits_ne_sign (hsame : Nat.toDigits 10 n ++ x = '-' :: y) : False := by
  cases hdigits : Nat.toDigits 10 n with
  | nil => exact absurd hdigits Nat.toDigits_ne_nil
  | cons c =>
    rw [hdigits, cons_append] at hsame
    have hdigit : c.isDigit = true :=
      Nat.isDigit_of_mem_toDigits (b := 10) (n := n) (by decide) (by decide)
        (hdigits ▸ mem_cons_self)
    rw [(cons.inj hsame).1] at hdigit
    cases hdigit

/-- A number can be read where no digit follows. -/
theorem int_cancel {m n : ℤ} (hx : Breaks x) (hy : Breaks y)
    (hsame : (toString m).toList ++ x = (toString n).toList ++ y) : m = n ∧ x = y := by
  cases m with
  | ofNat =>
    cases n with
    | ofNat =>
      rw [Int.ofNat_eq_natCast, Int.ofNat_eq_natCast, toList_nat, toList_nat] at hsame
      obtain ⟨rfl, hxy⟩ := nat_cancel hx hy hsame
      exact ⟨rfl, hxy⟩
    | negSucc =>
      rw [Int.ofNat_eq_natCast, toList_nat, toList_negSucc] at hsame
      exact (toDigits_ne_sign hsame).elim
  | negSucc =>
    cases n with
    | ofNat =>
      rw [Int.ofNat_eq_natCast, toList_nat, toList_negSucc] at hsame
      exact (toDigits_ne_sign hsame.symm).elim
    | negSucc =>
      rw [toList_negSucc, toList_negSucc] at hsame
      obtain ⟨hsucc, hxy⟩ := nat_cancel hx hy (cons.inj hsame).2
      obtain rfl := Nat.succ.inj hsucc
      exact ⟨rfl, hxy⟩

/-! ## Values -/

/-- The kinds of values that the first character tells apart. -/
private def kind : Json → ℕ
  | .null => 0
  | .bool _ => 1
  | .num _ => 2
  | .str _ => 3
  | .arr _ => 4
  | .obj _ => 5

/-- The kind of the value that begins with a character; a value begins neither with a comma nor with
the end of an array or object. -/
private def kindOf (c : Char) : ℕ :=
  if c = 'n' then 0 else if c = 't' || c = 'f' then 1 else if c.isDigit || c = '-' then 2
  else if c = '"' then 3 else if c = '[' then 4 else if c = '\x7b' then 5 else 6

/-- Digits begin a number. -/
private theorem kindOf_digit (hdigit : c.isDigit = true) : kindOf c = 2 := by
  have hne (d : Char) (hd : d.isDigit = false) : c ≠ d := by
    rintro rfl
    rw [hdigit] at hd
    cases hd
  simp [kindOf, hne 'n' rfl, hne 't' rfl, hne 'f' rfl, hdigit]

/-- The first character of a text tells the kind of its value. -/
private theorem exists_head_render (value : Json) :
    ∃ c rest, (render value).toList = c :: rest ∧ kindOf c = value.kind := by
  cases value with
  | null => exact ⟨'n', ['u', 'l', 'l'], rfl, rfl⟩
  | bool value =>
    cases value with
    | true => exact ⟨'t', ['r', 'u', 'e'], rfl, rfl⟩
    | false => exact ⟨'f', ['a', 'l', 's', 'e'], rfl, rfl⟩
  | num value =>
    cases value with
    | ofNat n =>
      cases hdigits : Nat.toDigits 10 n with
      | nil => exact absurd hdigits Nat.toDigits_ne_nil
      | cons c digits =>
        refine ⟨c, digits, ?_, kindOf_digit ?_⟩
        · rw [render, Int.ofNat_eq_natCast, toList_nat, hdigits]
        · exact Nat.isDigit_of_mem_toDigits (b := 10) (n := n) (by decide) (by decide)
            (hdigits ▸ List.mem_cons_self)
    | negSucc n =>
      refine ⟨'-', Nat.toDigits 10 (n + 1), ?_, rfl⟩
      rw [render, toList_negSucc]
  | str value =>
    refine ⟨'"', value.toList.flatMap escapeChar ++ ['"'], ?_, rfl⟩
    simp [render, renderText]
  | arr items =>
    refine ⟨'[', (renderItems items ++ "]").toList, ?_, rfl⟩
    rw [render, String.append_assoc, String.toList_append]
    rfl
  | obj fields =>
    refine ⟨'\x7b', (renderFields fields ++ "\x7d").toList, ?_, rfl⟩
    rw [render, String.append_assoc, String.toList_append]
    rfl

/-- Texts that begin the same are of values of one kind. -/
private theorem kind_eq {left right : Json}
    (hsame : (render left).toList ++ x = (render right).toList ++ y) : left.kind = right.kind := by
  obtain ⟨c, rest, hleft, hc⟩ := exists_head_render left
  obtain ⟨d, rest', hright, hd⟩ := exists_head_render right
  rw [hleft, hright, cons_append, cons_append] at hsame
  rw [← hc, ← hd, (cons.inj hsame).1]

/-- A value does not begin with the end of an array or object. -/
private theorem render_ne_end {value : Json} (hc : kindOf c = 6)
    (hsame : (render value).toList ++ x = c :: y) : False := by
  obtain ⟨d, rest, hvalue, hd⟩ := exists_head_render value
  rw [hvalue, cons_append] at hsame
  rw [(cons.inj hsame).1, hc] at hd
  cases value <;> cases hd

/-- The text of an array. -/
private theorem toList_arr (items : List Json) (x : List Char) :
    (render (.arr items)).toList ++ x = '[' :: ((renderItems items).toList ++ ']' :: x) := by
  simp [render]

/-- The text of an object. -/
private theorem toList_obj (fields : List (String × Json)) (x : List Char) :
    (render (.obj fields)).toList ++ x =
      '\x7b' :: ((renderFields fields).toList ++ '\x7d' :: x) := by
  simp [render]

section Elements

variable {τ : Type} {text : List τ → String} {rest rest' : List τ}

/-- The text after an element: a comma and more elements, or nothing. -/
private def tailText (text : List τ → String) : List τ → List Char
  | [] => []
  | item :: rest => ',' :: (text (item :: rest)).toList

/-- No digit follows an element. -/
private theorem breaks_tailText (hc : c.isDigit = false) (rest : List τ) (x : List Char) :
    Breaks (tailText text rest ++ c :: x) := by
  cases rest with
  | nil => exact breaks_cons hc _
  | cons => exact breaks_cons rfl _

/-- What follows an element can be read back if the elements can. -/
private theorem tailText_cancel (hc : c ≠ ',')
    (hrest : (text rest).toList ++ c :: x = (text rest').toList ++ c :: y → rest = rest' ∧ x = y)
    (htail : tailText text rest ++ c :: x = tailText text rest' ++ c :: y) :
    rest = rest' ∧ x = y := by
  cases rest with
  | nil =>
    cases rest' with
    | nil => exact ⟨rfl, (cons.inj htail).2⟩
    | cons => exact absurd (cons.inj htail).1 hc
  | cons =>
    cases rest' with
    | nil => exact absurd (cons.inj htail).1.symm hc
    | cons => exact hrest (cons.inj htail).2

end Elements

/-- The text of an item and of what follows it. -/
private theorem toList_renderItems (item : Json) (rest : List Json) :
    (renderItems (item :: rest)).toList = (render item).toList ++ tailText renderItems rest := by
  cases rest with
  | nil => simp [renderItems, tailText]
  | cons => simp [renderItems, tailText]

/-- The text of a member and of what follows it. -/
private theorem toList_renderFields (field : String × Json) (rest : List (String × Json)) :
    (renderFields (field :: rest)).toList = (renderText field.1).toList ++
        ':' :: ((render field.2).toList ++ tailText renderFields rest) := by
  cases rest with
  | nil => simp [renderFields, tailText]
  | cons => simp [renderFields, tailText]

/-- A value can be read back from the front of a text, where no digit follows. -/
def Reads (value : Json) : Prop :=
  ∀ ⦃other : Json⦄ ⦃x y : List Char⦄, Breaks x → Breaks y →
    (render value).toList ++ x = (render other).toList ++ y → value = other ∧ x = y

/-- The items of an array can be read back up to its end. -/
def ReadsItems (items : List Json) : Prop :=
  ∀ ⦃others : List Json⦄ ⦃x y : List Char⦄,
    (renderItems items).toList ++ ']' :: x = (renderItems others).toList ++ ']' :: y →
      items = others ∧ x = y

/-- The members of an object can be read back up to its end. -/
def ReadsFields (fields : List (String × Json)) : Prop :=
  ∀ ⦃others : List (String × Json)⦄ ⦃x y : List Char⦄,
    (renderFields fields).toList ++ '\x7d' :: x = (renderFields others).toList ++ '\x7d' :: y →
      fields = others ∧ x = y

private theorem reads_null : Reads .null := by
  intro other x y _ _ hsame
  have hkind := kind_eq hsame
  cases other with
  | null => exact ⟨rfl, append_cancel_left hsame⟩
  | _ => cases hkind

private theorem reads_bool (value : Bool) : Reads (.bool value) := by
  intro other x y _ _ hsame
  have hkind := kind_eq hsame
  cases other with
  | bool value' =>
    have hhead := congrArg List.head? hsame
    obtain rfl : value = value' := by
      cases value <;> cases value' <;> first | rfl | cases hhead
    exact ⟨rfl, append_cancel_left hsame⟩
  | _ => cases hkind

private theorem reads_num (value : ℤ) : Reads (.num value) := by
  intro other x y hx hy hsame
  have hkind := kind_eq hsame
  cases other with
  | num =>
    rw [render, render] at hsame
    obtain ⟨rfl, hxy⟩ := int_cancel hx hy hsame
    exact ⟨rfl, hxy⟩
  | _ => cases hkind

private theorem reads_str (value : String) : Reads (.str value) := by
  intro other x y _ _ hsame
  have hkind := kind_eq hsame
  cases other with
  | str =>
    rw [render, render] at hsame
    obtain ⟨rfl, hxy⟩ := renderText_cancel hsame
    exact ⟨rfl, hxy⟩
  | _ => cases hkind

private theorem reads_arr {items : List Json} (hitems : ReadsItems items) : Reads (.arr items) := by
  intro other x y _ _ hsame
  have hkind := kind_eq hsame
  cases other with
  | arr =>
    rw [toList_arr, toList_arr] at hsame
    obtain ⟨rfl, hxy⟩ := hitems (cons.inj hsame).2
    exact ⟨rfl, hxy⟩
  | _ => cases hkind

private theorem reads_obj {fields : List (String × Json)} (hfields : ReadsFields fields) :
    Reads (.obj fields) := by
  intro other x y _ _ hsame
  have hkind := kind_eq hsame
  cases other with
  | obj =>
    rw [toList_obj, toList_obj] at hsame
    obtain ⟨rfl, hxy⟩ := hfields (cons.inj hsame).2
    exact ⟨rfl, hxy⟩
  | _ => cases hkind

private theorem readsItems_nil : ReadsItems [] := by
  intro others x y hsame
  cases others with
  | nil => exact ⟨rfl, (cons.inj (append_cancel_left hsame)).2⟩
  | cons =>
    rw [toList_renderItems, append_assoc] at hsame
    exact (render_ne_end rfl hsame.symm).elim

private theorem readsItems_cons {item : Json} {rest : List Json} (hitem : Reads item)
    (hrest : ReadsItems rest) : ReadsItems (item :: rest) := by
  intro others x y hsame
  rw [toList_renderItems, append_assoc] at hsame
  cases others with
  | nil => exact (render_ne_end rfl hsame).elim
  | cons _ rest' =>
    rw [toList_renderItems, append_assoc] at hsame
    obtain ⟨rfl, htail⟩ := hitem (breaks_tailText rfl rest x) (breaks_tailText rfl rest' y) hsame
    obtain ⟨rfl, hxy⟩ := tailText_cancel (by decide) (@hrest rest' x y) htail
    exact ⟨rfl, hxy⟩

private theorem readsFields_nil : ReadsFields [] := by
  intro others x y hsame
  cases others with
  | nil => exact ⟨rfl, (cons.inj (append_cancel_left hsame)).2⟩
  | cons =>
    rw [toList_renderFields, renderText, String.toList_ofList] at hsame
    cases (cons.inj hsame).1

private theorem readsFields_cons {field : String × Json} {rest : List (String × Json)}
    (hvalue : Reads field.2) (hrest : ReadsFields rest) : ReadsFields (field :: rest) := by
  intro others x y hsame
  rw [toList_renderFields] at hsame
  cases others with
  | nil =>
    rw [renderText, String.toList_ofList] at hsame
    cases (cons.inj hsame).1
  | cons field' rest' =>
    rw [toList_renderFields, append_assoc, append_assoc] at hsame
    obtain ⟨hkey, hvalues⟩ := renderText_cancel hsame
    rw [cons_append, cons_append, append_assoc, append_assoc] at hvalues
    obtain ⟨hsnd, htail⟩ := hvalue (breaks_tailText rfl rest x) (breaks_tailText rfl rest' y)
      (cons.inj hvalues).2
    obtain rfl := Prod.ext hkey hsnd
    obtain ⟨rfl, hxy⟩ := tailText_cancel (by decide) (@hrest rest' x y) htail
    exact ⟨rfl, hxy⟩

mutual

/-- Every value is read back. -/
theorem reads : ∀ value : Json, Reads value
  | .null => reads_null
  | .bool value => reads_bool value
  | .num value => reads_num value
  | .str value => reads_str value
  | .arr items => reads_arr (readsItems items)
  | .obj fields => reads_obj (readsFields fields)

theorem readsItems : ∀ items : List Json, ReadsItems items
  | [] => readsItems_nil
  | item :: rest => readsItems_cons (reads item) (readsItems rest)

theorem readsFields : ∀ fields : List (String × Json), ReadsFields fields
  | [] => readsFields_nil
  | (_, value) :: rest => readsFields_cons (reads value) (readsFields rest)

end

/-- The bytes of a value determine it. -/
theorem toBytes_injective {left right : Json} (hsame : left.toBytes = right.toBytes) :
    left = right := by
  have htext : (render left).toList ++ [] = (render right).toList ++ [] :=
    congrArg (String.toList · ++ []) (Utf8.bytes_injective hsame)
  have hend : Breaks [] := fun c hc => absurd hc (Option.not_mem_none c)
  exact (reads left hend hend htext).1

end McLoving.Json
