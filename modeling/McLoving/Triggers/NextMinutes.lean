import McLoving.Triggers.Cron

/-!
# The window of the enumeration

The window grows with the number of slots asked for and not with the period of the expression, so a
calendar may have no slot in it, also one that passes the check of its trigger.
-/

namespace McLoving

/-- The members a configuration may have. -/
def TriggerKind.allowedConfiguration : TriggerKind → List String
  | .scmWebhook => ["provider", "repository_identity", "filter"]
  | .schedule => ["timezone", "calendar", "expression", "schedule_identity_sha256",
      "resolver_implementation_sha256", "horizon_slots", "jenkins_hash_algorithm_version",
      "jenkins_full_item_name", "jenkins_hash_inputs_sha256", "filter"]
  | .upstream => ["upstream_pipeline_id", "filter"]
  | .remoteApi => ["audience", "filter"]
  | .plugin => []

/-- The members a filter may have. -/
def TriggerKind.allowedFilter : TriggerKind → List String
  | .scmWebhook => ["event_kinds", "branches", "path_prefixes"]
  | .schedule => ["event_kinds"]
  | .upstream => ["event_kinds", "statuses"]
  | .remoteApi => ["event_kinds", "request_methods"]
  | .plugin => []

namespace Ingress

/-- The values of one filter member: an array of at most 128 different texts. -/
def checkFilterField (field : String) (value : Json) : Except TriggerError Unit :=
  match value.asArray with
  | none => .error (.invalid s!"trigger filter '{field}' must be an array")
  | some items =>
    if 128 < items.length then
      .error (.invalid s!"trigger filter '{field}' exceeds 128 entries")
    else do
      let texts ← items.mapM fun item =>
        match item.asStr with
        | none => .error (.invalid s!"trigger filter '{field}' contains a non-string")
        | some text => do
          Ingress.validateText s!"filter.{field}" text maxTextBytes
          return text
      if !decide texts.Nodup then
        throw (.invalid s!"trigger filter '{field}' must contain unique values")

/-- `validate_filter_configuration`. -/
def validateFilterConfiguration (kind : TriggerKind) (filter : Json) : Except TriggerError Unit :=
  match filter.asObject with
  | none => .error (.invalid "trigger filter must be an object")
  | some fields =>
    match fields.find? fun (key, _) => !kind.allowedFilter.contains key with
    | some (key, _) => .error (.invalid s!"unsupported {kind.asStr} trigger filter '{key}'")
    | none => fields.forM fun (field, value) => checkFilterField field value

/-- A text member that the configuration of a trigger kind must have. -/
def requireText (kind : TriggerKind) (configuration : Json) (field : String)
    (maximum : ℕ) : Except TriggerError String :=
  match (configuration.get field).bind Json.asStr with
  | none => .error (.invalid s!"{kind.asStr} trigger configuration requires '{field}'")
  | some value => do
    Ingress.validateText field value maxTextBytes
    Ingress.validateText field value maximum
    return value

def jenkinsCronHashV1 : String := "jenkins-core-2.516.1:cron-hash-v1"

/-- The members that seed hashed fields of a schedule come together or not at all. -/
def checkHashEvidence (configuration : Json) : Except TriggerError Unit := do
  let fields := ["jenkins_hash_algorithm_version", "jenkins_full_item_name",
    "jenkins_hash_inputs_sha256"]
  let supplied := fields.countP fun field => (configuration.get field).isSome
  if supplied ≠ 0 && supplied ≠ 3 then
    throw (.invalid
      "Jenkins hash evidence must supply algorithm, full item name, and input digest together")
  if supplied = 3 then
    let algorithm ← requireText .schedule configuration "jenkins_hash_algorithm_version" maxTextBytes
    let _ ← requireText .schedule configuration "jenkins_full_item_name" maxTextBytes
    let _ ← parseConfigurationDigest configuration "jenkins_hash_inputs_sha256"
    if algorithm ≠ jenkinsCronHashV1 then
      throw (.invalid s!"unsupported jenkins_hash_algorithm_version '{algorithm}'")

/-- `validate_kind_configuration`. -/
def validateKindConfiguration [CalendarPlatform] (kind : TriggerKind) (configuration : Json) :
    Except TriggerError Unit :=
  match configuration.asObject with
  | none => .error (.invalid "trigger configuration must be an object")
  | some fields =>
    match fields.find? fun (key, _) => !kind.allowedConfiguration.contains key with
    | some (key, _) =>
      .error (.invalid s!"unsupported {kind.asStr} trigger configuration field '{key}'")
    | none =>
      match kind with
      | .scmWebhook => do
        let _ ← requireText kind configuration "provider" maxTextBytes
        let _ ← requireText kind configuration "repository_identity" maxTextBytes
      | .schedule => do
        let _ ← requireText kind configuration "timezone" 128
        let _ ← requireText kind configuration "calendar" 128
        let _ ← requireText kind configuration "expression" maxTextBytes
        let _ ← requireText kind configuration "schedule_identity_sha256" maxTextBytes
        let _ ← requireText kind configuration "resolver_implementation_sha256" maxTextBytes
        let _ ← parseConfigurationDigest configuration "schedule_identity_sha256"
        let _ ← parseConfigurationDigest configuration "resolver_implementation_sha256"
        checkHashEvidence configuration
        let _ ← ScheduleCalendar.fromConfiguration configuration
      | .upstream => do
        let upstream ← requireText kind configuration "upstream_pipeline_id" maxTextBytes
        if !isUuidText upstream then
          throw (.invalid "upstream_pipeline_id must be a UUID")
      | .remoteApi => do
        let _ ← requireText kind configuration "audience" maxTextBytes
      | .plugin =>
        .error (.invalid "plugin trigger class has no installed admitted implementation")

end Ingress

open List

/-- A whole minute at which the calendar matches. -/
def ScheduleCalendar.MatchesMinute [CalendarPlatform] (calendar : ScheduleCalendar) (minute : ℤ) :
    Prop :=
  60000 ∣ minute ∧ calendar.matchesAt minute = true

/-- The first matching minutes from an instant on, in their order. -/
structure FirstMinutes [CalendarPlatform] (calendar : ScheduleCalendar) (fromUnixMs : ℤ)
    (slots : List ℤ) : Prop where
  increasing : slots.Pairwise (· < ·)
  matching : ∀ slot ∈ slots, fromUnixMs ≤ slot ∧ calendar.MatchesMinute slot
  complete : ∀ slot ∈ slots, ∀ minute ≤ slot, fromUnixMs ≤ minute →
    calendar.MatchesMinute minute → minute ∈ slots

/-- The longest year, in milliseconds. -/
def yearMs : ℤ := 366 * 24 * 60 * 60000

/-- A minute of the window that `enumerate_schedule_slots` searches. -/
def Searched (fromUnixMs limit minute : ℤ) : Prop :=
  fromUnixMs ≤ minute ∧ 0 < minute ∧
    minute ≤ nextMinute (max (fromUnixMs - 1) 0) + 60000 * searchMinutes limit

/-- What is asked of an enumeration: the slots are the first matching minutes, and there is one when
a minute of the next year matches. -/
def FindsNextMinutes [CalendarPlatform] (calendar : ScheduleCalendar) (fromUnixMs limit : ℤ) : Prop :=
  (∀ slots, enumerateScheduleSlots calendar fromUnixMs limit = .ok slots →
    slots.length ≤ limit ∧ FirstMinutes calendar fromUnixMs slots) ∧
  ((∃ minute, fromUnixMs ≤ minute ∧ minute ≤ fromUnixMs + yearMs ∧ calendar.MatchesMinute minute) →
    ∃ slots, slots ≠ [] ∧ enumerateScheduleSlots calendar fromUnixMs limit = .ok slots)

theorem searchMinutes_pos (limit : ℤ) : 0 < searchMinutes limit := by
  unfold searchMinutes
  omega

theorem searchedMinutes_eq (fromUnixMs limit : ℤ) : searchedMinutes fromUnixMs limit =
    (List.range ((searchMinutes limit).toNat + 1)).map fun i : ℕ =>
      nextMinute (max (fromUnixMs - 1) 0) + 60000 * (i : ℤ) := by
  simp [searchedMinutes, Function.comp_def, ← map_eq_flatMap]

/-- In an increasing list a member in front of one of a beginning is in that beginning. -/
theorem mem_take_of_le {slots : List ℤ} (hslots : slots.Pairwise (· < ·)) {n : ℕ} {slot minute : ℤ}
    (hslot : slot ∈ slots.take n) (hmem : minute ∈ slots) (hle : minute ≤ slot) :
    minute ∈ slots.take n := by
  rw [← take_append_drop n slots, mem_append] at hmem
  refine hmem.resolve_right fun hdrop => ?_
  rw [← take_append_drop n slots, pairwise_append] at hslots
  have hlt := hslots.2.2 slot hslot minute hdrop
  omega

section Window

variable [CalendarPlatform] {calendar : ScheduleCalendar} {fromUnixMs limit minute : ℤ}

/-- The matching minutes of the window. -/
def windowSlots (calendar : ScheduleCalendar) (fromUnixMs limit : ℤ) : List ℤ :=
  (searchedMinutes fromUnixMs limit).filter fun slot => fromUnixMs ≤ slot && calendar.matchesAt slot

theorem mem_windowSlots : minute ∈ windowSlots calendar fromUnixMs limit ↔
    Searched fromUnixMs limit minute ∧ calendar.MatchesMinute minute := by
  have hpos := searchMinutes_pos limit
  simp only [windowSlots, searchedMinutes_eq, mem_filter, mem_map, mem_range,
    Bool.and_eq_true, decide_eq_true_eq, Searched, ScheduleCalendar.MatchesMinute, nextMinute]
  constructor
  · rintro ⟨⟨i, hi, rfl⟩, hfrom, hmatches⟩
    exact ⟨⟨hfrom, by omega, by omega⟩, by omega, hmatches⟩
  · rintro ⟨⟨hfrom, hminute, hend⟩, ⟨k, rfl⟩, hmatches⟩
    refine ⟨⟨(k - (max (fromUnixMs - 1) 0 / 60000 + 1)).toNat, ?_, ?_⟩, hfrom, hmatches⟩
    · omega
    · omega

theorem pairwise_windowSlots : (windowSlots calendar fromUnixMs limit).Pairwise (· < ·) := by
  unfold windowSlots
  rw [searchedMinutes_eq]
  refine List.Pairwise.filter _ (pairwise_map.mpr ?_)
  refine pairwise_lt_range.imp fun {i j} hlt => ?_
  omega

theorem enumerateScheduleSlots_eq (hlimit : 0 < limit) :
    enumerateScheduleSlots calendar fromUnixMs limit =
      if windowSlots calendar fromUnixMs limit = [] then
        .error (.invalid "native schedule calendar produced no upcoming slots in the search window")
      else .ok ((windowSlots calendar fromUnixMs limit).take limit.toNat) := by
  have hne : limit.toNat ≠ 0 := by omega
  have hmax : max limit 1 = limit := by omega
  unfold enumerateScheduleSlots
  simp [windowSlots, hlimit, hmax, hne]

end Window

/-- With a limit of at least one, an enumeration finds the next minutes exactly if a minute of its
window matches whenever one of the next year does, and, whenever one of the window matches, none
does between the start and the epoch. -/
theorem findsNextMinutes_iff_searched [CalendarPlatform] (calendar : ScheduleCalendar)
    (fromUnixMs limit : ℤ) (hlimit : 1 ≤ limit) : FindsNextMinutes calendar fromUnixMs limit ↔
      ((∃ minute, fromUnixMs ≤ minute ∧ minute ≤ fromUnixMs + yearMs ∧
          calendar.MatchesMinute minute) →
        ∃ minute, Searched fromUnixMs limit minute ∧ calendar.MatchesMinute minute) ∧
      ((∃ minute, Searched fromUnixMs limit minute ∧ calendar.MatchesMinute minute) →
        ∀ minute, fromUnixMs ≤ minute → minute ≤ 0 → ¬ calendar.MatchesMinute minute) := by
  have hsome : (∃ minute, Searched fromUnixMs limit minute ∧ calendar.MatchesMinute minute) ↔
      windowSlots calendar fromUnixMs limit ≠ [] := by
    simp only [← mem_windowSlots]
    exact ⟨fun ⟨_, hmem⟩ => ne_nil_of_mem hmem, exists_mem_of_ne_nil _⟩
  rw [hsome, FindsNextMinutes, enumerateScheduleSlots_eq (by omega)]
  by_cases hempty : windowSlots calendar fromUnixMs limit = []
  · simp [hempty]
  · obtain ⟨first, hfirst⟩ := exists_mem_of_ne_nil _ hempty
    have htake : (windowSlots calendar fromUnixMs limit).take limit.toNat ≠ [] := by
      simp only [ne_eq, take_eq_nil_iff, hempty, or_false]
      omega
    obtain ⟨slot, hslot⟩ := exists_mem_of_ne_nil _ htake
    have hsearched := (mem_windowSlots.mp (mem_of_mem_take hslot)).1
    rw [if_neg hempty]
    constructor
    · rintro ⟨hreturned, -⟩
      refine ⟨fun _ => hempty, fun _ minute hfrom hnonpos hmatches => ?_⟩
      obtain ⟨-, hslots⟩ := hreturned _ rfl
      have hle : minute ≤ slot := by
        have := hsearched.2.1
        omega
      have hmem := hslots.complete slot hslot minute hle hfrom hmatches
      have hpos := (mem_windowSlots.mp (mem_of_mem_take hmem)).1.2.1
      omega
    · rintro ⟨-, hnone⟩
      refine ⟨fun slots hok => ?_, fun _ => ⟨_, htake, rfl⟩⟩
      cases hok
      refine ⟨?_, ?_⟩
      · have hlength := length_take_le limit.toNat (windowSlots calendar fromUnixMs limit)
        omega
      · refine ⟨pairwise_windowSlots.sublist (take_sublist _ _), fun found hfound => ?_, ?_⟩
        · obtain ⟨hfound, hmatches⟩ := mem_windowSlots.mp (mem_of_mem_take hfound)
          exact ⟨hfound.1, hmatches⟩
        · intro found hfound minute hle hfrom hmatches
          have hend := (mem_windowSlots.mp (mem_of_mem_take hfound)).1.2.2
          have hpos : 0 < minute := by
            by_contra hnonpos
            exact hnone hempty minute hfrom (by omega) hmatches
          have hmem : minute ∈ windowSlots calendar fromUnixMs limit :=
            mem_windowSlots.mpr ⟨⟨hfrom, hpos, by omega⟩, hmatches⟩
          exact mem_take_of_le pairwise_windowSlots hfound hmem hle

namespace Sample

/-- Expressions are read as the calendar reads them, and the civil time is that of UTC. -/
@[reducible]
def utc : CalendarPlatform where
  parseCronExpression expression seed :=
    match Cron.parseCronExpression 64 expression (Cron.JenkinsHash.fromSeed (fun _ _ => 0) seed) with
    | .ok bits => .ok bits
    | .error (.refused error) => .error error
    | .error .running => .error (.invalid "running")
  civil _ unixMs :=
    let days := (unixMs / 86400000).toNat
    -- Years begin in March here, so that a leap day is the last of its year.
    let dayOfEra := (days + 719468) % 146097
    let yearOfEra := (dayOfEra - dayOfEra / 1460 + dayOfEra / 36524 - dayOfEra / 146096) / 365
    let dayOfYear := dayOfEra - (365 * yearOfEra + yearOfEra / 4 - yearOfEra / 100)
    let month := (5 * dayOfYear + 2) / 153
    { minute := (unixMs / 60000 % 60).toNat
      hour := (unixMs / 3600000 % 24).toNat
      dayOfMonth := dayOfYear - (153 * month + 2) / 5 + 1
      month := if month < 10 then month + 3 else month - 9
      dayOfWeek := (days + 4) % 7 }

/-- A schedule at midnight between Saturday and Sunday. -/
def weekly : Json :=
  .obj [("timezone", .str "UTC"), ("calendar", .str "gregorian"), ("expression", .str "0 0 * * 0"),
    ("schedule_identity_sha256",
      .str "aaaaaaaaaaaaaaaaaaaaaaaaaaaaaaaaaaaaaaaaaaaaaaaaaaaaaaaaaaaaaaaa"),
    ("resolver_implementation_sha256",
      .str "bbbbbbbbbbbbbbbbbbbbbbbbbbbbbbbbbbbbbbbbbbbbbbbbbbbbbbbbbbbbbbbb"),
    ("filter", .obj [])]

/-- The calendar of the schedule. -/
def weeklyCalendar : ScheduleCalendar :=
  ⟨"UTC", "gregorian", "0 0 * * 0", ⟨1, 1, 2 ^ 32 - 2, 2 ^ 13 - 2, 1⟩, "", 64⟩

end Sample

open Sample in
/-- On the Saturday the weekly calendar finds the slot of the Sunday. -/
theorem findsNextMinutes_saturday : @FindsNextMinutes utc weeklyCalendar 172860000 64 := by
  refine (@findsNextMinutes_iff_searched utc weeklyCalendar 172860000 64 (by norm_num)).mpr
    ⟨fun _ => ⟨259200000, ⟨by norm_num, by norm_num, by decide +kernel⟩, ⟨4320, by norm_num⟩,
      by decide +kernel⟩, ?_⟩
  intro _ minute hfrom hnonpos
  omega

open Sample in
/-- The weekly schedule is accepted on a Saturday, when its window holds the Sunday.  On the Sunday,
a minute after the slot, the window of two days ends before the next one and nothing is found. -/
theorem weekly_schedule_finds_no_slot :
    @Ingress.validateKindConfiguration utc .schedule weekly = .ok () ∧
      Ingress.validateFilterConfiguration .schedule (.obj []) = .ok () ∧
      @ScheduleCalendar.fromConfiguration utc weekly = .ok weeklyCalendar ∧
      @enumerateScheduleSlots utc weeklyCalendar 172860000 64 = .ok [259200000] ∧
      ¬ @FindsNextMinutes utc weeklyCalendar 259260000 64 := by
  have hnone : @enumerateScheduleSlots utc weeklyCalendar 259260000 64 = .error (.invalid
        "native schedule calendar produced no upcoming slots in the search window") := by
    decide +kernel
  have hnext : @ScheduleCalendar.MatchesMinute utc weeklyCalendar 864000000 :=
    ⟨⟨14400, by norm_num⟩, by decide +kernel⟩
  refine ⟨by decide +kernel, rfl, by decide +kernel, by decide +kernel, fun hfinds => ?_⟩
  obtain ⟨slots, -, hok⟩ := hfinds.2 ⟨864000000, by norm_num, by norm_num [yearMs], hnext⟩
  rw [hnone] at hok
  cases hok

end McLoving
