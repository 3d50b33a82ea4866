import McLoving.Store.Schema
import McLoving.Lib.Except

/-!
# Schedule slots

The checks of trigger input, the calendar of a schedule and the enumeration of its slots, for any
reading of expressions and of civil time.
-/

namespace McLoving

inductive TriggerKind where
  | scmWebhook
  | schedule
  | upstream
  | remoteApi
  | plugin
  deriving DecidableEq

/-- `TriggerKind::as_str`. -/
def TriggerKind.asStr : TriggerKind → String
  | .scmWebhook => "scm_webhook"
  | .schedule => "schedule"
  | .upstream => "upstream"
  | .remoteApi => "remote_api"
  | .plugin => "plugin"

/-- The errors of trigger ingress. -/
inductive TriggerError where
  | invalid (message : String)
  | conflict (message : String)
  | paused (triggerId : Uuid) (generation : ℤ)
  | store (error : StoreError)
  deriving DecidableEq

/-- The members of an object. -/
def Json.asObject : Json → Option (List (String × Json))
  | .obj fields => some fields
  | _ => none

/-- `Value::as_i64`. -/
def Json.asI64 : Json → Option ℤ
  | .num value => if -2 ^ 63 ≤ value && value < 2 ^ 63 then some value else none
  | _ => none

namespace Ingress

/-! ## Limits -/

def maxTextBytes : ℕ := 512

/-! ## Texts, objects and digests -/

def validateText (field value : String) (maximum : ℕ) : Except TriggerError Unit :=
  if canonicalBounded value maximum then .ok ()
  else .error (.invalid
    s!"{field} must be non-empty, canonical, and at most {maximum} bytes")

def validateDigest (field : String) (digest : Digest) : Except TriggerError Unit :=
  if digest.bytes = List.replicate 32 0 then .error (.invalid s!"{field} cannot be all zero")
  else .ok ()

/-- The value of a hexadecimal digit. -/
def hexValue (c : Char) : Option ℕ :=
  if '0' ≤ c && c ≤ '9' then some (c.toNat - 48)
  else if 'a' ≤ c && c ≤ 'f' then some (c.toNat - 87)
  else if 'A' ≤ c && c ≤ 'F' then some (c.toNat - 55)
  else none

/-- `hex::decode`. -/
def hexDecode : List Char → Option (List UInt8)
  | [] => some []
  | [_] => none
  | high :: low :: rest => do
    let high ← hexValue high
    let low ← hexValue low
    let bytes ← hexDecode rest
    return UInt8.ofNat (16 * high + low) :: bytes

def parseConfigurationDigest (configuration : Json) (field : String) : Except TriggerError Digest :=
  match (configuration.get field).bind Json.asStr with
  | none => .error (.invalid s!"trigger configuration requires '{field}'")
  | some value =>
    match hexDecode value.toList with
    | none => .error (.invalid s!"trigger configuration '{field}' is not hexadecimal")
    | some bytes =>
      if hlength : bytes.length = 32 then do
        validateDigest field ⟨bytes, hlength⟩
        return ⟨bytes, hlength⟩
      else .error (.invalid s!"trigger configuration '{field}' is not SHA-256 sized")

/-- `Uuid::parse_str` accepts the text: 32 hexadecimal digits, plain or hyphenated, the latter also
in braces or after `urn:uuid:`. -/
def isUuidText (text : String) : Bool :=
  let isHex (c : Char) : Bool := (hexValue c).isSome
  let isHyphenated (cs : List Char) : Bool :=
    cs.length == 36 && cs.zipIdx.all fun (c, i) =>
      if i ∈ [8, 13, 18, 23] then c == '-' else isHex c
  let cs := text.toList
  (cs.length == 32 && cs.all isHex) || isHyphenated cs ||
    (cs.length == 38 && cs.head? == some '\x7b' && cs.getLast? == some '\x7d' &&
      isHyphenated (cs.drop 1).dropLast) ||
    (cs.take 9 == "urn:uuid:".toList && isHyphenated (cs.drop 9))

end Ingress

/-- The sets of the five fields of an expression, with one bit for each value. -/
structure CronBits where
  minutes : ℕ
  hours : ℕ
  daysOfMonth : ℕ
  months : ℕ
  daysOfWeek : ℕ
  deriving DecidableEq

structure ScheduleCalendar where
  timezone : String
  calendar : String
  expression : String
  bits : CronBits
  hashSeed : String
  horizonSlots : ℤ
  deriving DecidableEq

/-- The civil time of an instant in a time zone. -/
structure CivilTime where
  minute : ℕ
  hour : ℕ
  dayOfMonth : ℕ
  month : ℕ
  dayOfWeek : ℕ
  deriving DecidableEq

/-- How expressions and instants are read. -/
class CalendarPlatform where
  /-- `parse_cron_expression`, of an expression and the seed of its hashed fields. -/
  parseCronExpression : String → String → Except TriggerError CronBits
  /-- The fields of `timezone(zone, ts)`. -/
  civil : String → ℤ → CivilTime

namespace ScheduleCalendar

def validateTextValue (field value : String) (max : ℕ) : Except TriggerError Unit :=
  if value.isEmpty || max < value.utf8ByteSize || trim value ≠ value then
    .error (.invalid (s!"schedule configuration '{field}' must be a non-empty trimmed string of " ++
      s!"at most {max} bytes"))
  else .ok ()

def requiredText (configuration : Json) (field : String) (max : ℕ) : Except TriggerError String :=
  match (configuration.get field).bind Json.asStr with
  | none => .error (.invalid s!"schedule configuration requires '{field}'")
  | some value => do
    validateTextValue field value max
    return value

def defaultScheduleHorizon : ℤ := 64

def maxScheduleHorizon : ℤ := 4096

/-- The number of open slots that a configuration asks for. -/
def configuredHorizon (configuration : Json) : Except TriggerError ℤ :=
  match configuration.get "horizon_slots" with
  | none => .ok defaultScheduleHorizon
  | some value =>
    match value.asI64 with
    | none => .error (.invalid "horizon_slots must be a positive integer")
    | some horizon =>
      if 1 ≤ horizon && horizon ≤ maxScheduleHorizon then .ok horizon
      else .error (.invalid s!"horizon_slots must be between 1 and {maxScheduleHorizon}")

def hashSeedFromConfiguration (configuration : Json) (expression : String) :
    Except TriggerError String :=
  match (configuration.get "jenkins_full_item_name").bind Json.asStr with
  | some name => do
    validateTextValue "jenkins_full_item_name" name 512
    return name
  | none =>
    if expression.toList.contains 'H' then
      requiredText configuration "schedule_identity_sha256" 64
    else .ok ""

/-- `ScheduleCalendar::from_configuration`. -/
def fromConfiguration [CalendarPlatform] (configuration : Json) :
    Except TriggerError ScheduleCalendar := do
  let timezone ← requiredText configuration "timezone" 128
  let calendar ← requiredText configuration "calendar" 128
  let expression ← requiredText configuration "expression" 512
  let horizonSlots ← configuredHorizon configuration
  let hashSeed ← hashSeedFromConfiguration configuration expression
  let bits ← CalendarPlatform.parseCronExpression expression hashSeed
  return { timezone, calendar, expression, bits, hashSeed, horizonSlots }

end ScheduleCalendar

/-- `ScheduleCalendar::matches_local`. -/
def ScheduleCalendar.matchesLocal (calendar : ScheduleCalendar) (time : CivilTime) : Bool :=
  calendar.bits.minutes.testBit time.minute && calendar.bits.hours.testBit time.hour &&
    calendar.bits.months.testBit time.month &&
    calendar.bits.daysOfMonth.testBit time.dayOfMonth &&
    calendar.bits.daysOfWeek.testBit (time.dayOfWeek % 7)

/-- Whether the calendar matches the minute that begins at the instant. -/
def ScheduleCalendar.matchesAt [CalendarPlatform] (calendar : ScheduleCalendar)
    (unixMs : ℤ) : Bool :=
  calendar.matchesLocal (CalendarPlatform.civil calendar.timezone unixMs)

/-! ## Enumeration -/

/-- The number of minutes that `enumerate_schedule_slots` searches. -/
def searchMinutes (limit : ℤ) : ℤ :=
  max (60 * 24 * 2) (min (limit * 8) (60 * 24 * 400))

/-- The first minute after an instant. -/
def nextMinute (unixMs : ℤ) : ℤ :=
  (unixMs / 60000 + 1) * 60000

/-- The minutes that `enumerate_schedule_slots` looks at. -/
def searchedMinutes (fromUnixMs limit : ℤ) : List ℤ :=
  let start := nextMinute (max (fromUnixMs - 1) 0)
  (List.range ((searchMinutes limit).toNat + 1)).map fun i => start + 60000 * i

/-- `enumerate_schedule_slots`, which compares with the limit behind each slot that it takes. -/
def enumerateScheduleSlots [CalendarPlatform] (calendar : ScheduleCalendar)
    (fromUnixMs limit : ℤ) : Except TriggerError (List ℤ) :=
  let slots := ((searchedMinutes fromUnixMs limit).filter fun slot =>
    fromUnixMs ≤ slot && calendar.matchesAt slot).take (max limit 1).toNat
  if slots.isEmpty && 0 < limit then
    .error (.invalid "native schedule calendar produced no upcoming slots in the search window")
  else .ok slots

end McLoving
