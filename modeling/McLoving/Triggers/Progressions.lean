import McLoving.Triggers.Cron

/-!
# What cron expressions denote

Every part of a field stands for an arithmetic progression.  The bits of a field are the union of
the progressions of its parts, as long as no step takes the cursor out of its type.
-/

namespace McLoving.Cron

open List Except Split

/-! ## Progressions -/

/-- The values from `start` on, `step` apart, up to `limit`. -/
structure Progression where
  start : ℤ
  limit : ℤ
  step : ℤ
  deriving DecidableEq

namespace Progression

/-- A value of a progression. -/
def Holds (progression : Progression) (value : ℤ) : Prop :=
  ∃ k : ℕ, value = progression.start + k * progression.step ∧ value ≤ progression.limit

/-- The cursors of the loop for which a bit is set and the step is added. -/
inductive Visits (limit step : ℤ) : ℤ → ℤ → Prop
  | now {cursor : ℤ} (hle : cursor ≤ limit) : Visits limit step cursor cursor
  | later {cursor visited : ℤ} (hle : cursor ≤ limit)
      (hvisits : Visits limit step (wrap32 (cursor + step)) visited) :
      Visits limit step cursor visited

/-- No addition overflows and every shift is within the width. -/
def Exact (progression : Progression) : Prop :=
  ∀ visited, Visits progression.limit progression.step progression.start visited →
    visited + progression.step ≤ i32Max ∧ 0 ≤ visited ∧ visited < 64

/-- The loop returns the bits. -/
def Runs (progression : Progression) (bits : ℕ) : Prop :=
  ∃ rounds, rangeLoop progression.limit progression.step rounds progression.start 0 = some bits

/-- A progression of values of a field, without a step over the end of the type. -/
structure Within (lower upper : ℤ) (progression : Progression) : Prop where
  lower_le : lower ≤ progression.start
  le_upper : progression.limit ≤ upper
  step_pos : 0 < progression.step

end Progression

section Loop

variable {limit step : ℤ}

/-- A cursor from which the next one does not overflow. -/
def Sound (limit step cursor : ℤ) : Prop :=
  0 ≤ cursor ∧ (cursor ≤ limit → cursor + step ≤ i32Max)

variable {cursor : ℤ}

theorem Sound.next (hsound : Sound limit step cursor) (hlimit : limit ≤ 59) (hstep : 0 < step)
    (hle : cursor ≤ limit) :
    wrap32 (cursor + step) = cursor + step ∧ Sound limit step (cursor + step) := by
  obtain ⟨hnonneg, hfits⟩ := hsound
  have hsum := hfits hle
  unfold i32Max at hsum
  refine ⟨wrap32_eq (by omega) (by omega), by omega, fun hnext => ?_⟩
  unfold i32Max
  omega

theorem testBit_bit (hnonneg : 0 ≤ cursor) (hlt : cursor < 64) (v : ℕ) :
    (bit cursor).testBit v = true ↔ (v : ℤ) = cursor := by
  rw [bit, Nat.testBit_two_pow, decide_eq_true_iff]
  omega

/-- The loop adds the values from its cursor on. -/
theorem testBit_rangeLoop (hlimit : limit ≤ 59) (hstep : 0 < step) {rounds : ℕ} {bits out : ℕ}
    (hsound : Sound limit step cursor) (hloop : rangeLoop limit step rounds cursor bits = some out)
    (v : ℕ) :
    out.testBit v = true ↔ bits.testBit v = true ∨ Progression.Holds ⟨cursor, limit, step⟩ v := by
  induction rounds generalizing cursor bits with
  | zero => cases hloop
  | succ _ ih =>
    rw [rangeLoop] at hloop
    split_ifs at hloop with hle
    · obtain ⟨hwrap, hnext⟩ := hsound.next hlimit hstep hle
      rw [hwrap] at hloop
      rw [ih hnext hloop, Nat.testBit_or, Bool.or_eq_true,
        testBit_bit hsound.1 (by omega), or_assoc]
      refine or_congr_right ⟨?_, ?_⟩
      · rintro (hv | ⟨k, hv, hend⟩)
        · exact ⟨0, by simpa using hv, by rw [hv]; exact hle⟩
        · refine ⟨k + 1, ?_, hend⟩
          rw [hv]
          push_cast
          ring
      · rintro ⟨k, hv, hend⟩
        cases k with
        | zero => exact .inl (by simpa using hv)
        | succ k =>
          refine .inr ⟨k, ?_, hend⟩
          rw [hv]
          push_cast
          ring
    · cases hloop
      refine ⟨.inl, fun hbits => hbits.resolve_right ?_⟩
      rintro ⟨k, hv, hend⟩
      dsimp only at hv hend
      have hk : 0 ≤ (k : ℤ) * step := by positivity
      omega

theorem Sound.of_visits (hlimit : limit ≤ 59) (hstep : 0 < step) {visited : ℤ}
    (hsound : Sound limit step cursor) (hvisits : Progression.Visits limit step cursor visited) :
    Sound limit step visited ∧ visited ≤ limit := by
  induction hvisits with
  | now hle => exact ⟨hsound, hle⟩
  | later hle _ ih =>
    obtain ⟨hwrap, hnext⟩ := hsound.next hlimit hstep hle
    rw [hwrap] at ih
    exact ih hnext

end Loop

/-! ## Parts -/

/-- The forms of a part. -/
inductive Part where
  | every
  | everyStep (step : ℤ)
  | value (start : ℤ)
  | fromStep (start step : ℤ)
  | range (start limit : ℤ)
  | rangeStep (start limit step : ℤ)
  | hashed
  | hashedStep (step : ℤ)
  | hashedRange (start limit : ℤ)
  | hashedRangeStep (start limit step : ℤ)
  deriving DecidableEq

namespace Part

/-- How a part is written. -/
inductive Written : Part → List Char → Prop
  | every : Written .every ['*']
  | everyStep {text : List Char} {step : ℤ} (hstep : parseI32 text = some step) :
      Written (.everyStep step) ('*' :: '/' :: text)
  | value {text : List Char} {start : ℤ} (hstart : parseI32 text = some start) :
      Written (.value start) text
  | fromStep {startText stepText : List Char} {start step : ℤ}
      (hstart : parseI32 startText = some start) (hstep : parseI32 stepText = some step) :
      Written (.fromStep start step) (startText ++ '/' :: stepText)
  | range {startText endText : List Char} {start limit : ℤ}
      (hstart : parseI32 startText = some start) (hlimit : parseI32 endText = some limit) :
      Written (.range start limit) (startText ++ '-' :: endText)
  | rangeStep {startText endText stepText : List Char} {start limit step : ℤ}
      (hstart : parseI32 startText = some start) (hlimit : parseI32 endText = some limit)
      (hstep : parseI32 stepText = some step) :
      Written (.rangeStep start limit step) (startText ++ '-' :: (endText ++ '/' :: stepText))
  | hashed : Written .hashed ['H']
  | hashedStep {text : List Char} {step : ℤ} (hstep : parseI32 text = some step) :
      Written (.hashedStep step) ('H' :: '/' :: text)
  | hashedRange {startText endText : List Char} {start limit : ℤ}
      (hstart : parseI32 startText = some start) (hlimit : parseI32 endText = some limit) :
      Written (.hashedRange start limit)
        ('H' :: '(' :: (startText ++ '-' :: endText ++ [')']))
  | hashedRangeStep {startText endText stepText : List Char} {start limit step : ℤ}
      (hstart : parseI32 startText = some start) (hlimit : parseI32 endText = some limit)
      (hstep : parseI32 stepText = some step) :
      Written (.hashedRangeStep start limit step)
        ('H' :: '(' :: (startText ++ '-' :: endText ++ [')', '/'] ++ stepText))

/-- The bound of the number that a hashed part draws. -/
def bound (lower upper : ℤ) : Part → Option ℤ
  | .hashed => some (upper - lower + 1)
  | .hashedStep step => some step
  | .hashedRange start limit => some (limit - start + 1)
  | .hashedRangeStep _ _ step => some step
  | _ => none

/-- The progression of a part, with the number it draws and the largest hashed value. -/
def progression (lower upper hashed drawn : ℤ) : Part → Progression
  | .every => ⟨lower, upper, 1⟩
  | .everyStep step => ⟨lower, upper, step⟩
  | .value start => ⟨start, start, 1⟩
  | .fromStep start step => ⟨start, upper, step⟩
  | .range start limit => ⟨start, limit, 1⟩
  | .rangeStep start limit step => ⟨start, limit, step⟩
  | .hashed => ⟨lower + drawn, lower + drawn, 1⟩
  | .hashedStep step => ⟨lower + drawn, hashed, step⟩
  | .hashedRange start _ => ⟨start + drawn, start + drawn, 1⟩
  | .hashedRangeStep start limit step => ⟨start + drawn, limit, step⟩

/-- The first value and the step of a part without a hash have an `i32` as their sum. -/
def Fits (lower : ℤ) : Part → Prop
  | .everyStep step => lower + step ≤ i32Max
  | .fromStep start step => start + step ≤ i32Max
  | .rangeStep start _ step => start + step ≤ i32Max
  | _ => True

/-- The number that a part draws from the stream. -/
def Draws (lower hashed : ℤ) (part : Part) (hash : JenkinsHash) (drawn : ℤ) (hash' : JenkinsHash) :
    Prop :=
  match part.bound lower hashed with
  | none => drawn = 0 ∧ hash' = hash
  | some n => ∃ rounds, hash.next rounds n.toNat = some (drawn, hash')

theorem Draws.unique {lower hashed : ℤ} {part : Part} {hash hash' hash'' : JenkinsHash}
    {drawn drawn' : ℤ} (hdraws : part.Draws lower hashed hash drawn hash')
    (hdraws' : part.Draws lower hashed hash drawn' hash'') : drawn = drawn' ∧ hash' = hash'' := by
  unfold Draws at hdraws hdraws'
  cases hbound : part.bound lower hashed with
  | none =>
    rw [hbound] at hdraws hdraws'
    exact ⟨hdraws.1.trans hdraws'.1.symm, hdraws.2.trans hdraws'.2.symm⟩
  | some =>
    rw [hbound] at hdraws hdraws'
    obtain ⟨rounds, hnext⟩ := hdraws
    obtain ⟨rounds', hnext'⟩ := hdraws'
    exact Prod.mk.inj (next_unique hnext hnext')

end Part

/-! ## Reading parts -/

theorem returned_eq_ok {α : Type} {result : Option α} {value : α} :
    returned result = .ok value ↔ result = some value := by
  cases result with
  | none => simp [returned]
  | some => simp [returned]

theorem parsePositive_eq_ok {text : List Char} {step : ℤ} :
    parsePositive text = .ok step ↔ parseI32 text = some step ∧ 0 < step := by
  unfold parsePositive
  cases parseI32 text with
  | none => simp
  | some =>
    dsimp only
    split_ifs with hle
    · simp only [Option.some.injEq, false_iff, not_and]
      rintro rfl
      omega
    · simp only [Except.ok.injEq, Option.some.injEq]
      refine ⟨?_, And.left⟩
      rintro rfl
      exact ⟨rfl, by omega⟩

variable {lower upper value : ℤ} {rounds bits index : ℕ} {hash hash' : JenkinsHash}
variable {progression : Progression}

theorem parseBounded_eq_ok {text : List Char} : parseBounded text lower upper = .ok value ↔
      parseI32 text = some value ∧ lower ≤ value ∧ value ≤ upper := by
  unfold parseBounded
  cases parseI32 text with
  | none => simp
  | some =>
    dsimp only
    split_ifs with hout
    · simp only [Option.some.injEq, false_iff, not_and]
      rintro rfl
      omega
    · simp only [Except.ok.injEq, Option.some.injEq]
      refine ⟨?_, And.left⟩
      rintro rfl
      exact ⟨rfl, by omega⟩

/-- A single value is the progression that ends where it starts. -/
theorem runs_bit (hlower : 0 ≤ value) (hupper : value ≤ 59) :
    Progression.Runs ⟨value, value, 1⟩ (bit value) := by
  have hwrap : wrap32 (value + 1) = value + 1 := wrap32_eq (by omega) (by omega)
  refine ⟨2, ?_⟩
  rw [rangeLoop, if_pos le_rfl, hwrap, rangeLoop, if_neg (by dsimp only; omega), Nat.zero_or]

theorem rangeBits_eq_ok {start limit step : ℤ}
    (hbits : rangeBits rounds start limit step = .ok bits) :
    Progression.Runs ⟨start, limit, step⟩ bits :=
  ⟨rounds, returned_eq_ok.mp hbits⟩

/-- The range of a field: its values and the largest of its hashed ones. -/
structure FieldRange (lower upper hashed : ℤ) : Prop where
  nonneg : 0 ≤ lower
  lower_le : lower ≤ hashed
  hashed_le : hashed ≤ upper
  upper_le : upper ≤ 59

/-- The reading of a part: what its text says, what it draws, and the loop that gives its bits. -/
structure Part.Reads (lower upper hashed : ℤ) (text : List Char) (hash : JenkinsHash) (part : Part)
    (drawn : ℤ) (bits : ℕ) (hash' : JenkinsHash) : Prop where
  written : part.Written text
  draws : part.Draws lower hashed hash drawn hash'
  runs : (part.progression lower upper hashed drawn).Runs bits
  within : (part.progression lower upper hashed drawn).Within lower upper
  fits : part.Fits lower ↔ ((part.progression lower upper hashed drawn).start ≤
        (part.progression lower upper hashed drawn).limit →
      (part.progression lower upper hashed drawn).start +
        (part.progression lower upper hashed drawn).step ≤ i32Max)

section Reading

variable {lower upper hashed : ℤ} {rounds : ℕ} {text : List Char} {hash hash' : JenkinsHash}
  {bits : ℕ}

/-- A draw below a number of the field. -/
theorem drawn_bounds {n drawn : ℤ} (hn : 0 < n) (hle : n ≤ 60)
    (hnext : hash.next rounds n.toNat = some (drawn, hash')) : 0 ≤ drawn ∧ drawn < n := by
  have hbounds := next_bounds (by omega) (by omega) hnext
  omega

theorem parsePlainPart_eq_ok (hrange : FieldRange lower upper hashed)
    (hbits : parsePlainPart rounds text lower upper = .ok bits) :
    ∃ part : Part, part.Reads lower upper hashed text hash 0 bits hash := by
  obtain ⟨hnonneg, hlower, hhashed, hupper⟩ := hrange
  unfold parsePlainPart at hbits
  cases hhyphen : Split.once '-' text with
  | some parts =>
    obtain ⟨startText, rest⟩ := parts
    rw [hhyphen] at hbits
    obtain ⟨start, hstart, hbits⟩ := bind_eq_ok.mp hbits
    obtain ⟨⟨endText, step⟩, hsplit, hbits⟩ := bind_eq_ok.mp hbits
    obtain ⟨limit, hlimit, hbits⟩ := bind_eq_ok.mp hbits
    obtain ⟨hordered, hbits⟩ := unit_bind_eq_ok.mp hbits
    rw [refuseIf_eq_ok] at hordered
    obtain ⟨hstart, hstartLower, hstartUpper⟩ := parseBounded_eq_ok.mp hstart
    obtain ⟨hlimit, hlimitLower, hlimitUpper⟩ := parseBounded_eq_ok.mp hlimit
    have htext := eq_of_once hhyphen
    have hruns := rangeBits_eq_ok hbits
    unfold splitStep at hsplit
    cases hslash : Split.once '/' rest with
    | some parts =>
      obtain ⟨before, stepText⟩ := parts
      rw [hslash] at hsplit
      obtain ⟨found, hstep, hpair⟩ := bind_eq_ok.mp hsplit
      obtain ⟨rfl, rfl⟩ := Prod.mk.inj (Except.ok.inj hpair)
      obtain ⟨hstep, hpos⟩ := parsePositive_eq_ok.mp hstep
      rw [htext, eq_of_once hslash]
      refine ⟨.rangeStep start limit found, .rangeStep hstart hlimit hstep, ⟨rfl, rfl⟩, hruns,
        ⟨hstartLower, hlimitUpper, hpos⟩, ?_⟩
      simp only [Part.Fits, Part.progression]
      omega
    | none =>
      rw [hslash] at hsplit
      cases hsplit
      rw [htext]
      refine ⟨.range start limit, .range hstart hlimit, ⟨rfl, rfl⟩, hruns,
        ⟨hstartLower, hlimitUpper, one_pos⟩, ?_⟩
      simp only [Part.Fits, Part.progression, i32Max, true_iff]
      omega
  | none =>
    rw [hhyphen] at hbits
    dsimp only at hbits
    cases hslash : Split.once '/' text with
    | some parts =>
      obtain ⟨startText, stepText⟩ := parts
      rw [hslash] at hbits
      obtain ⟨start, hstart, hbits⟩ := bind_eq_ok.mp hbits
      obtain ⟨step, hstep, hbits⟩ := bind_eq_ok.mp hbits
      obtain ⟨hstart, hstartLower, hstartUpper⟩ := parseBounded_eq_ok.mp hstart
      obtain ⟨hstep, hpos⟩ := parsePositive_eq_ok.mp hstep
      rw [eq_of_once hslash]
      refine ⟨.fromStep start step, .fromStep hstart hstep, ⟨rfl, rfl⟩, rangeBits_eq_ok hbits,
        ⟨hstartLower, le_rfl, hpos⟩, ?_⟩
      simp only [Part.Fits, Part.progression]
      omega
    | none =>
      rw [hslash] at hbits
      obtain ⟨value, hvalue, hbits⟩ := bind_eq_ok.mp hbits
      obtain ⟨hvalue, hvalueLower, hvalueUpper⟩ := parseBounded_eq_ok.mp hvalue
      cases hbits
      refine ⟨.value value, .value hvalue, ⟨rfl, rfl⟩, runs_bit (by omega) (by omega),
        ⟨hvalueLower, hvalueUpper, one_pos⟩, ?_⟩
      simp only [Part.Fits, Part.progression, i32Max, true_iff]
      omega

theorem hashedValue_eq_ok {start n : ℤ}
    (hread : hashedValue rounds start n hash = .ok (bits, hash')) :
    ∃ drawn, hash.next rounds n.toNat = some (drawn, hash') ∧ bits = bit (start + drawn) := by
  obtain ⟨⟨drawn, next⟩, hdrawn, hpair⟩ := bind_eq_ok.mp hread
  cases hpair
  exact ⟨drawn, returned_eq_ok.mp hdrawn, rfl⟩

theorem hashedRange_eq_ok {start limit step : ℤ}
    (hread : hashedRange rounds start limit step hash = .ok (bits, hash')) :
    ∃ drawn, hash.next rounds step.toNat = some (drawn, hash') ∧
      Progression.Runs ⟨start + drawn, limit, step⟩ bits := by
  obtain ⟨⟨drawn, next⟩, hdrawn, hread⟩ := bind_eq_ok.mp hread
  obtain ⟨found, hbits, hpair⟩ := bind_eq_ok.mp hread
  cases hpair
  exact ⟨drawn, returned_eq_ok.mp hdrawn, rangeBits_eq_ok hbits⟩

/-- The range and the step of a hashed range. -/
theorem splitHashStep_eq_ok {inner rangeText : List Char} {step : ℤ}
    (hsplit : splitHashStep inner = .ok (rangeText, step)) :
    (step = 0 ∧ inner = rangeText ++ [')']) ∨ ∃ stepText, parseI32 stepText = some step ∧ 0 < step ∧
        inner = rangeText ++ [')', '/'] ++ stepText := by
  unfold splitHashStep at hsplit
  cases hlast : Split.last [')', '/'] inner with
  | some parts =>
    obtain ⟨before, stepText⟩ := parts
    rw [hlast] at hsplit
    obtain ⟨found, hstep, hpair⟩ := Except.bind_eq_ok.mp hsplit
    cases hpair
    obtain ⟨hstep, hpos⟩ := parsePositive_eq_ok.mp hstep
    exact .inr ⟨stepText, hstep, hpos, Split.eq_of_last hlast⟩
  | none =>
    rw [hlast] at hsplit
    dsimp only at hsplit
    cases hsuffix : Split.stripSuffix [')'] inner with
    | none =>
      rw [hsuffix] at hsplit
      cases hsplit
    | some =>
      rw [hsuffix] at hsplit
      cases hsplit
      exact .inl ⟨rfl, Split.eq_of_stripSuffix hsuffix⟩

theorem parseHashRange_eq_ok (hrange : FieldRange lower upper hashed) {inner : List Char}
    (hread : parseHashRange rounds inner lower hashed hash = .ok (bits, hash')) :
    ∃ (part : Part) (drawn : ℤ),
      part.Reads lower upper hashed ('H' :: '(' :: inner) hash drawn bits hash' := by
  obtain ⟨hnonneg, hlower, hhashed, hupper⟩ := hrange
  obtain ⟨⟨rangeText, step⟩, hsplit, hread⟩ := Except.bind_eq_ok.mp hread
  dsimp only at hread
  cases hhyphen : Split.once '-' rangeText with
  | none =>
    rw [hhyphen] at hread
    cases hread
  | some parts =>
    obtain ⟨startText, endText⟩ := parts
    rw [hhyphen] at hread
    obtain ⟨start, hstart, hread⟩ := Except.bind_eq_ok.mp hread
    obtain ⟨limit, hlimit, hread⟩ := Except.bind_eq_ok.mp hread
    obtain ⟨hordered, hread⟩ := Except.unit_bind_eq_ok.mp hread
    rw [Except.refuseIf_eq_ok] at hordered
    obtain ⟨hstart, hstartLower, hstartUpper⟩ := parseBounded_eq_ok.mp hstart
    obtain ⟨hlimit, hlimitLower, hlimitUpper⟩ := parseBounded_eq_ok.mp hlimit
    have htext := Split.eq_of_once hhyphen
    rcases splitHashStep_eq_ok hsplit with ⟨rfl, hinner⟩ | ⟨stepText, hstep, hpos, hinner⟩
    · rw [if_pos rfl] at hread
      obtain ⟨drawn, hdrawn, rfl⟩ := hashedValue_eq_ok hread
      have hbounds := drawn_bounds (by omega) (by omega) hdrawn
      rw [hinner, htext]
      refine ⟨.hashedRange start limit, drawn, .hashedRange hstart hlimit, ⟨rounds, hdrawn⟩,
        runs_bit (by omega) (by omega), ⟨?_, ?_, one_pos⟩, ?_⟩
      all_goals
        simp only [Part.Fits, Part.progression, i32Max, true_iff]
        omega
    · rw [if_neg hpos.ne'] at hread
      obtain ⟨hsmall, hread⟩ := Except.unit_bind_eq_ok.mp hread
      rw [Except.refuseIf_eq_ok] at hsmall
      obtain ⟨drawn, hdrawn, hruns⟩ := hashedRange_eq_ok hread
      have hbounds := drawn_bounds hpos (by omega) hdrawn
      rw [hinner, htext]
      refine ⟨.hashedRangeStep start limit step, drawn, .hashedRangeStep hstart hlimit hstep,
        ⟨rounds, hdrawn⟩, hruns, ⟨?_, ?_, hpos⟩, ?_⟩
      all_goals
        simp only [Part.Fits, Part.progression, i32Max, true_iff]
        omega

theorem parseHashPart_eq_ok (hrange : FieldRange lower upper hashed)
    (hread : parseHashPart rounds text lower hashed hash = .ok (bits, hash')) :
    ∃ (part : Part) (drawn : ℤ), part.Reads lower upper hashed text hash drawn bits hash' := by
  have hrange' := hrange
  obtain ⟨hnonneg, hlower, hhashed, hupper⟩ := hrange
  unfold parseHashPart at hread
  split_ifs at hread with hwhole
  · obtain ⟨drawn, hdrawn, rfl⟩ := hashedValue_eq_ok hread
    have hbounds := drawn_bounds (by omega) (by omega) hdrawn
    rw [hwhole]
    refine ⟨.hashed, drawn, .hashed, ⟨rounds, hdrawn⟩, runs_bit (by omega) (by omega),
      ⟨?_, ?_, one_pos⟩, ?_⟩
    all_goals
      simp only [Part.Fits, Part.progression, i32Max, true_iff]
      omega
  · cases hslash : Split.stripPrefix ['H', '/'] text with
    | some =>
      rw [hslash] at hread
      obtain ⟨step, hstep, hread⟩ := bind_eq_ok.mp hread
      obtain ⟨hsmall, hread⟩ := unit_bind_eq_ok.mp hread
      rw [refuseIf_eq_ok] at hsmall
      obtain ⟨hstep, hpos⟩ := parsePositive_eq_ok.mp hstep
      obtain ⟨drawn, hdrawn, hruns⟩ := hashedRange_eq_ok hread
      have hbounds := drawn_bounds hpos (by omega) hdrawn
      rw [eq_of_stripPrefix hslash]
      refine ⟨.hashedStep step, drawn, .hashedStep hstep, ⟨rounds, hdrawn⟩, hruns,
        ⟨?_, hhashed, hpos⟩, ?_⟩
      all_goals
        simp only [Part.Fits, Part.progression, i32Max, true_iff]
        omega
    | none =>
      rw [hslash] at hread
      dsimp only at hread
      cases hparenthesis : Split.stripPrefix ['H', '('] text with
      | none =>
        rw [hparenthesis] at hread
        cases hread
      | some =>
        rw [hparenthesis] at hread
        rw [eq_of_stripPrefix hparenthesis]
        exact parseHashRange_eq_ok hrange' hread

/-- A part that is read is written in one of the forms, and the loop runs over its progression. -/
theorem parseFieldPart_eq_ok {index : ℕ} (hrange : FieldRange lower upper (hashUpper index upper))
    (hread : parseFieldPart rounds index lower upper text hash = .ok (bits, hash')) :
    ∃ (part : Part) (drawn : ℤ),
      part.Reads lower upper (hashUpper index upper) text hash drawn bits hash' := by
  obtain ⟨hnonneg, hlower, hhashed, hupper⟩ := id hrange
  unfold parseFieldPart at hread
  by_cases hempty : text = []
  · rw [if_pos hempty] at hread
    cases hread
  rw [if_neg hempty] at hread
  by_cases hstar : text = ['*']
  · rw [if_pos hstar] at hread
    obtain ⟨found, hbits, hpair⟩ := bind_eq_ok.mp hread
    cases hpair
    rw [hstar]
    refine ⟨.every, 0, .every, ⟨rfl, rfl⟩, rangeBits_eq_ok hbits, ⟨le_rfl, le_rfl, one_pos⟩, ?_⟩
    simp only [Part.Fits, Part.progression, i32Max, true_iff]
    omega
  · rw [if_neg hstar] at hread
    cases hslash : Split.stripPrefix ['*', '/'] text with
    | some =>
      rw [hslash] at hread
      obtain ⟨step, hstep, hread⟩ := bind_eq_ok.mp hread
      obtain ⟨found, hbits, hpair⟩ := bind_eq_ok.mp hread
      cases hpair
      obtain ⟨hstep, hpos⟩ := parsePositive_eq_ok.mp hstep
      rw [eq_of_stripPrefix hslash]
      refine ⟨.everyStep step, 0, .everyStep hstep, ⟨rfl, rfl⟩, rangeBits_eq_ok hbits,
        ⟨le_rfl, le_rfl, hpos⟩, ?_⟩
      simp only [Part.Fits, Part.progression]
      omega
    | none =>
      rw [hslash] at hread
      dsimp only at hread
      split_ifs at hread with hhash
      · exact parseHashPart_eq_ok hrange hread
      · obtain ⟨found, hbits, hpair⟩ := bind_eq_ok.mp hread
        cases hpair
        obtain ⟨part, hpart⟩ := parsePlainPart_eq_ok hrange hbits
        exact ⟨part, 0, hpart⟩

end Reading

/-! ## Fields -/

/-- The smallest value of a field. -/
def lowerAt (index : ℕ) : ℤ :=
  fieldLower.getD index 0

/-- The largest value that is written in a field. -/
def upperAt (index : ℕ) : ℤ :=
  fieldUpper.getD index 0

/-- The largest value that a hashed part of a field takes. -/
def hashedAt (index : ℕ) : ℤ :=
  hashUpper index (upperAt index)

theorem fieldRange_at (hindex : index < 5) :
    FieldRange (lowerAt index) (upperAt index) (hashedAt index) := by
  interval_cases index <;> constructor <;> decide

/-- The progressions of the parts of a field, whose hashed parts draw from left to right. -/
inductive PartsDenote (index : ℕ) : JenkinsHash → List Part → List Progression → JenkinsHash → Prop
  | nil (hash : JenkinsHash) : PartsDenote index hash [] [] hash
  | cons {hash hash' hash'' : JenkinsHash} {part : Part} {parts : List Part} {drawn : ℤ}
      {progressions : List Progression}
      (hdraws : part.Draws (lowerAt index) (hashedAt index) hash drawn hash')
      (hrest : PartsDenote index hash' parts progressions hash'') :
      PartsDenote index hash (part :: parts)
        (part.progression (lowerAt index) (upperAt index) (hashedAt index) drawn :: progressions)
        hash''

/-- The progressions of the fields from an index on. -/
inductive FieldsDenote : ℕ → JenkinsHash → List (List Part) → List (List Progression) → Prop
  | nil (index : ℕ) (hash : JenkinsHash) : FieldsDenote index hash [] []
  | cons {index : ℕ} {hash hash' : JenkinsHash} {parts : List Part} {fields : List (List Part)}
      {progressions : List Progression} {rest : List (List Progression)}
      (hfield : PartsDenote index hash parts progressions hash')
      (hrest : FieldsDenote (index + 1) hash' fields rest) :
      FieldsDenote index hash (parts :: fields) (progressions :: rest)

theorem PartsDenote.unique {hash'' : JenkinsHash} {parts : List Part}
    {progressions progressions' : List Progression}
    (hdenotes : PartsDenote index hash parts progressions hash')
    (hdenotes' : PartsDenote index hash parts progressions' hash'') :
    progressions = progressions' ∧ hash' = hash'' := by
  induction hdenotes generalizing progressions' with
  | nil =>
    cases hdenotes'
    exact ⟨rfl, rfl⟩
  | cons hdraws _ ih =>
    cases hdenotes' with
    | cons hdraws' hrest' =>
      obtain ⟨rfl, rfl⟩ := hdraws.unique hdraws'
      obtain ⟨rfl, rfl⟩ := ih hrest'
      exact ⟨rfl, rfl⟩

/-- The parts of an expression determine its progressions. -/
theorem FieldsDenote.unique {parts : List (List Part)}
    {progressions progressions' : List (List Progression)}
    (hdenotes : FieldsDenote index hash parts progressions)
    (hdenotes' : FieldsDenote index hash parts progressions') : progressions = progressions' := by
  induction hdenotes generalizing progressions' with
  | nil =>
    cases hdenotes'
    rfl
  | cons hfield _ ih =>
    cases hdenotes' with
    | cons hfield' hrest' =>
      obtain ⟨rfl, rfl⟩ := hfield.unique hfield'
      rw [ih hrest']

/-- The loop over an exact progression sets its values. -/
theorem testBit_of_runs (hlower : 0 ≤ lower) (hupper : upper ≤ 59)
    (hwithin : progression.Within lower upper) (hexact : progression.Exact)
    (hruns : progression.Runs bits) (v : ℕ) : bits.testBit v = true ↔ progression.Holds v := by
  obtain ⟨rounds, hloop⟩ := hruns
  have hsound : Sound progression.limit progression.step progression.start :=
    ⟨hlower.trans hwithin.lower_le, fun hle => (hexact _ (.now hle)).1⟩
  rw [testBit_rangeLoop (hwithin.le_upper.trans hupper) hwithin.step_pos hsound hloop,
    Nat.zero_testBit]
  simp

/-- A progression of a field is exact if its first step does not overflow. -/
theorem exact_iff (hlower : 0 ≤ lower) (hupper : upper ≤ 59)
    (hwithin : progression.Within lower upper) :
    progression.Exact ↔ (progression.start ≤ progression.limit →
      progression.start + progression.step ≤ i32Max) := by
  have hlimit := hwithin.le_upper.trans hupper
  constructor
  · intro hexact hle
    exact (hexact _ (.now hle)).1
  · intro hfits visited hvisits
    obtain ⟨⟨hnonneg, hsum⟩, hle⟩ := Sound.of_visits hlimit hwithin.step_pos
      ⟨hlower.trans hwithin.lower_le, hfits⟩ hvisits
    exact ⟨hsum hle, hnonneg, by omega⟩

/-- The reading of the parts of a field, behind the bits of the parts before them. -/
structure PartsRead (index : ℕ) (texts : List (List Char)) (hash : JenkinsHash) (parts : List Part)
    (progressions : List Progression) (bits out : ℕ) (hash' : JenkinsHash) : Prop where
  written : List.Forall₂ (fun text part => part.Written text) texts parts
  denotes : PartsDenote index hash parts progressions hash'
  within : ∀ p ∈ progressions, p.Within (lowerAt index) (upperAt index)
  exact_iff : (∀ p ∈ progressions, p.Exact) ↔ ∀ part ∈ parts, part.Fits (lowerAt index)
  union : (∀ p ∈ progressions, p.Exact) → ∀ v : ℕ,
    out.testBit v = true ↔ bits.testBit v = true ∨ ∃ p ∈ progressions, p.Holds v

theorem parseParts_eq_ok (hindex : index < 5) {texts : List (List Char)} {out : ℕ}
    (hread : parseParts rounds index (lowerAt index) (upperAt index) texts bits hash =
      .ok (out, hash')) :
    ∃ parts progressions, PartsRead index texts hash parts progressions bits out hash' := by
  induction texts generalizing bits hash with
  | nil =>
    obtain ⟨rfl, rfl⟩ := Prod.mk.inj (Except.ok.inj hread)
    exact ⟨[], [], .nil, .nil hash, by simp, by simp, by simp⟩
  | cons text _ ih =>
    obtain ⟨⟨set, next⟩, hpart, hread⟩ := bind_eq_ok.mp hread
    have hrange := fieldRange_at hindex
    obtain ⟨part, drawn, hreads⟩ : ∃ (part : Part) (drawn : ℤ), part.Reads (lowerAt index)
        (upperAt index) (hashedAt index) text hash drawn set next :=
      parseFieldPart_eq_ok hrange hpart
    obtain ⟨parts, progressions, hwritten, hdenotes, hwithin, hexact, hunion⟩ := ih hread
    refine ⟨part :: parts, _ :: progressions, .cons hreads.written hwritten,
      .cons hreads.draws hdenotes, forall_mem_cons.mpr ⟨hreads.within, hwithin⟩, ?_, ?_⟩
    · rw [forall_mem_cons, forall_mem_cons, hexact,
        exact_iff hrange.nonneg hrange.upper_le hreads.within, hreads.fits]
    · intro hall v
      obtain ⟨hfirst, hrest⟩ := forall_mem_cons.mp hall
      rw [hunion hrest v, Nat.testBit_or, Bool.or_eq_true,
        testBit_of_runs hrange.nonneg hrange.upper_le hreads.within hfirst hreads.runs v, or_assoc,
        exists_mem_cons_iff]

/-! ## Expressions -/

/-- The value of a field that a value stands for: seven is Sunday, as zero is. -/
def foldedAt (index : ℕ) (value : ℤ) : ℤ :=
  if index = 4 ∧ value = 7 then 0 else value

/-- The largest value of a field. -/
def largestAt (index : ℕ) : ℤ :=
  if index = 4 then 6 else upperAt index

/-- The set of a field is what its progressions say. -/
structure FieldCorrect (index : ℕ) (progressions : List Progression) (bits : ℕ) : Prop where
  union : ∀ v : ℕ, bits.testBit v = true ↔
    ∃ p ∈ progressions, ∃ value, p.Holds value ∧ (v : ℤ) = foldedAt index value
  range : ∀ v : ℕ, bits.testBit v = true → lowerAt index ≤ v ∧ v ≤ largestAt index
  nonempty : ∃ v : ℕ, bits.testBit v = true
  exact : ∀ p ∈ progressions, p.Exact

/-- The set of a field as it is returned. -/
def foldAt (index bits : ℕ) : ℕ :=
  if index = 4 then foldSunday bits else bits

theorem testBit_foldSunday (hle : ∀ v, bits.testBit v = true → v ≤ 7) (v : ℕ) :
    (foldSunday bits).testBit v = true ↔
      ∃ w, bits.testBit w = true ∧ v = if w = 7 then 0 else w := by
  unfold foldSunday
  by_cases hseven : bits.testBit 7 = true
  · rw [if_pos hseven, not64, Nat.testBit_and, Nat.testBit_or, Nat.testBit_xor,
      Nat.testBit_two_pow_sub_one, Nat.testBit_two_pow]
    simp only [Bool.and_eq_true, Bool.or_eq_true, Nat.testBit_one_eq_true_iff_self_eq_zero,
      bne_iff_ne, ne_eq, decide_eq_decide]
    constructor
    · rintro ⟨hv | hv, hmask⟩
      · refine ⟨v, hv, ?_⟩
        have hvle := hle v hv
        rw [if_neg (by omega)]
      · exact ⟨7, hseven, by simpa using hv⟩
    · rintro ⟨w, hw, rfl⟩
      have hwle := hle w hw
      split_ifs with heq
      · simp
      · exact ⟨.inl hw, by omega⟩
  · rw [if_neg hseven]
    constructor
    · intro hv
      refine ⟨v, hv, (if_neg ?_).symm⟩
      rintro rfl
      exact hseven hv
    · rintro ⟨w, hw, rfl⟩
      rwa [if_neg (by rintro rfl; exact hseven hw)]

theorem holds_bounds (hwithin : progression.Within lower upper) (hholds : progression.Holds value) :
    lower ≤ value ∧ value ≤ upper := by
  obtain ⟨k, hvalue, hle⟩ := hholds
  obtain ⟨hlower, hupper, hstep⟩ := hwithin
  have hk : 0 ≤ (k : ℤ) * progression.step := by positivity
  exact ⟨by omega, by omega⟩

/-- Folding maps the values of a field into it. -/
theorem foldedAt_bounds (hlower : lowerAt index ≤ value) (hupper : value ≤ upperAt index) :
    lowerAt index ≤ foldedAt index value ∧ foldedAt index value ≤ largestAt index := by
  unfold foldedAt largestAt
  by_cases hindex : index = 4
  · subst hindex
    change 0 ≤ value at hlower
    change value ≤ 7 at hupper
    change 0 ≤ _ ∧ _
    split_ifs <;> omega
  · rw [if_neg fun hboth => hindex hboth.1, if_neg hindex]
    exact ⟨hlower, hupper⟩

theorem testBit_foldAt (hle : ∀ v : ℕ, bits.testBit v = true → (v : ℤ) ≤ upperAt index) (v : ℕ) :
    (foldAt index bits).testBit v = true ↔
      ∃ w : ℕ, bits.testBit w = true ∧ (v : ℤ) = foldedAt index w := by
  unfold foldAt foldedAt
  by_cases hindex : index = 4
  · subst hindex
    have hseven : upperAt 4 = 7 := rfl
    rw [if_pos rfl, testBit_foldSunday fun w hw => by have := hle w hw; omega]
    refine exists_congr fun w => and_congr_right fun _ => ?_
    split_ifs <;> omega
  · rw [if_neg hindex]
    constructor
    · intro hv
      exact ⟨v, hv, by rw [if_neg fun hboth => hindex hboth.1]⟩
    · rintro ⟨w, hw, hv⟩
      rw [if_neg fun hboth => hindex hboth.1] at hv
      rwa [Int.ofNat_inj.mp hv]

/-- A field that was read is correct exactly if the first steps of its parts do not overflow. -/
theorem fieldCorrect_iff (hindex : index < 5) {texts : List (List Char)} {parts : List Part}
    {progressions : List Progression} {out : ℕ}
    (hread : PartsRead index texts hash parts progressions 0 out hash') (hout : out ≠ 0) :
    FieldCorrect index progressions (foldAt index out) ↔
      ∀ part ∈ parts, part.Fits (lowerAt index) := by
  constructor
  · intro hcorrect
    exact hread.exact_iff.mp hcorrect.exact
  · intro hfits
    have hexact := hread.exact_iff.mpr hfits
    have hvalues (v : ℕ) : out.testBit v = true ↔ ∃ p ∈ progressions, p.Holds v := by
      rw [hread.union hexact v, Nat.zero_testBit]
      simp
    have hupper (v : ℕ) (hv : out.testBit v = true) : (v : ℤ) ≤ upperAt index := by
      obtain ⟨p, hp, hholds⟩ := (hvalues v).mp hv
      exact (holds_bounds (hread.within p hp) hholds).2
    have hbits := testBit_foldAt hupper
    have hunion (v : ℕ) : (foldAt index out).testBit v = true ↔
        ∃ p ∈ progressions, ∃ value, p.Holds value ∧ (v : ℤ) = foldedAt index value := by
      rw [hbits]
      constructor
      · rintro ⟨w, hw, hv⟩
        obtain ⟨p, hp, hholds⟩ := (hvalues w).mp hw
        exact ⟨p, hp, w, hholds, hv⟩
      · rintro ⟨p, hp, value, hholds, hv⟩
        have hbounds := holds_bounds (hread.within p hp) hholds
        have hnonneg := (fieldRange_at hindex).nonneg.trans hbounds.1
        have hcast := Int.toNat_of_nonneg hnonneg
        exact ⟨value.toNat, (hvalues _).mpr ⟨p, hp, by rwa [hcast]⟩, by rwa [hcast]⟩
    refine ⟨hunion, fun v hv => ?_, ?_, hexact⟩
    · obtain ⟨p, hp, value, hholds, hvalue⟩ := (hunion v).mp hv
      have hbounds := holds_bounds (hread.within p hp) hholds
      rw [hvalue]
      exact foldedAt_bounds hbounds.1 hbounds.2
    · obtain ⟨w, hw⟩ := Nat.exists_testBit_of_ne_zero hout
      obtain ⟨p, hp, hholds⟩ := (hvalues w).mp hw
      have hbounds := holds_bounds (hread.within p hp) hholds
      have hfolded := foldedAt_bounds hbounds.1 hbounds.2
      have hnonneg := (fieldRange_at hindex).nonneg.trans hfolded.1
      refine ⟨(foldedAt index w).toNat, (hbits _).mpr ⟨w, hw, ?_⟩⟩
      exact Int.toNat_of_nonneg hnonneg

/-- The parts of an expression as they are written. -/
def WrittenIn (expression : String) (parts : List (List Part)) : Prop :=
  List.Forall₂ (fun field parts => List.Forall₂ (fun text part => part.Written text)
    (field.splitOn ',') parts) (splitAsciiWhitespace expression.toList) parts

/-- The set of a field. -/
def bitsAt (bits : CronBits) (index : ℕ) : ℕ :=
  [bits.minutes, bits.hours, bits.daysOfMonth, bits.months, bits.daysOfWeek].getD index 0

/-- The sets are what the parts denote, with the draws from the state of the seed. -/
def Denotes (hash : JenkinsHash) (parts : List (List Part)) (bits : CronBits) : Prop :=
  ∃ progressions, FieldsDenote 0 hash parts progressions ∧
    ∀ index < 5, FieldCorrect index (progressions.getD index []) (bitsAt bits index)

/-- The fields of an accepted expression, each with its parts and progressions. -/
theorem parseFields_eq_ok {fields : List (List Char)} {bits : List ℕ}
    (hread : parseFields rounds index fields hash = .ok bits) (hindex : index + fields.length ≤ 5) :
    ∃ parts progressions,
      List.Forall₂ (fun field parts => List.Forall₂ (fun text part => part.Written text)
        (field.splitOn ',') parts) fields parts ∧
      FieldsDenote index hash parts progressions ∧
      ∀ k < fields.length,
        (FieldCorrect (index + k) (progressions.getD k []) (foldAt (index + k) (bits.getD k 0)) ↔
          ∀ part ∈ parts.getD k [], part.Fits (lowerAt (index + k))) := by
  induction fields generalizing index hash bits with
  | nil => exact ⟨[], [], .nil, .nil index hash, by simp⟩
  | cons _ _ ih =>
    rw [length_cons] at hindex
    obtain ⟨⟨out, next⟩, hfield, hread⟩ := bind_eq_ok.mp hread
    obtain ⟨hout, hread⟩ := unit_bind_eq_ok.mp hread
    rw [refuseIf_eq_ok] at hout
    obtain ⟨rest, hrest, hbits⟩ := bind_eq_ok.mp hread
    cases hbits
    obtain ⟨parts, progressions, hparts⟩ := parseParts_eq_ok (by omega) hfield
    obtain ⟨others, otherProgressions, hwritten, hdenotes, hcorrect⟩ := ih hrest (by omega)
    refine ⟨parts :: others, progressions :: otherProgressions, .cons hparts.written hwritten,
      .cons hparts.denotes hdenotes, fun k hk => ?_⟩
    cases k with
    | zero => exact fieldCorrect_iff (by omega) hparts hout
    | succ k =>
      have hstep := hcorrect k (by simpa using hk)
      rw [Nat.add_right_comm, Nat.add_assoc] at hstep
      exact hstep

/-- The parts of an accepted expression are written in its fields.  Its sets are what the parts
denote, in range, not empty and computed without overflow, exactly if the first value and the step
of every `*/s`, `a/s` and `a-b/s` have an `i32` as their sum. -/
theorem cron_fields_denote_iff (md5 : List UInt8 → Fin 16 → UInt8) (rounds : ℕ)
    (expression seed : String) (bits : CronBits)
    (haccepted : parseCronExpression rounds expression (.fromSeed md5 seed) = .ok bits) :
    ∃ parts, WrittenIn expression parts ∧ (Denotes (.fromSeed md5 seed) parts bits ↔
        ∀ index < 5, ∀ part ∈ parts.getD index [], part.Fits (lowerAt index)) := by
  obtain ⟨hfive, haccepted⟩ := unit_bind_eq_ok.mp haccepted
  rw [refuseIf_eq_ok, not_not] at hfive
  obtain ⟨sets, hsets, hbits⟩ := bind_eq_ok.mp haccepted
  cases hbits
  obtain ⟨parts, progressions, hwritten, hdenotes, hcorrect⟩ :=
    parseFields_eq_ok hsets (by rw [hfive])
  rw [hfive] at hcorrect
  have hfield (index : ℕ) (hindex : index < 5) : bitsAt ⟨sets.getD 0 0, sets.getD 1 0,
      sets.getD 2 0, sets.getD 3 0, foldSunday (sets.getD 4 0)⟩ index =
      foldAt index (sets.getD index 0) := by
    interval_cases index <;> rfl
  refine ⟨parts, hwritten, ?_, ?_⟩
  · rintro ⟨progressions', hdenotes', hall⟩ index hindex
    obtain rfl := hdenotes.unique hdenotes'
    have hone := hall index hindex
    rw [hfield index hindex] at hone
    have hiff := hcorrect index hindex
    rw [Nat.zero_add] at hiff
    exact hiff.mp hone
  · intro hfits
    refine ⟨progressions, hdenotes, fun index hindex => ?_⟩
    have hiff := hcorrect index hindex
    rw [Nat.zero_add] at hiff
    rw [hfield index hindex]
    exact hiff.mpr (hfits index hindex)

/-- An expression with hashed, stepped and listed parts. -/
theorem nightly_fields_denote_iff : ∃ parts, WrittenIn "H/15 9-17/2 * 1,6 5-7" parts ∧
      (Denotes (.fromSeed (fun _ _ => 0) "nightly") parts
          ⟨35185445863425, 174592, 4294967294, 66, 97⟩ ↔
        ∀ index < 5, ∀ part ∈ parts.getD index [], part.Fits (lowerAt index)) :=
  cron_fields_denote_iff (fun _ _ => 0) 100 "H/15 9-17/2 * 1,6 5-7" "nightly"
    ⟨35185445863425, 174592, 4294967294, 66, 97⟩ (by decide +kernel)

/-- The step from the fifth minute on overflows: the cursor turns negative, and the last bit of the
word and the minutes from zero to four are set too. -/
theorem step_over_the_type_sets_other_bits :
    parseCronExpression 200 "5/2147483647 * * * *" (.fromSeed (fun _ _ => 0) "") =
        .ok ⟨2 ^ 63 + 63, 16777215, 4294967294, 8190, 127⟩ ∧
      WrittenIn "5/2147483647 * * * *"
        [[.fromStep 5 2147483647], [.every], [.every], [.every], [.every]] ∧
      ¬ Denotes (.fromSeed (fun _ _ => 0) "")
        [[.fromStep 5 2147483647], [.every], [.every], [.every], [.every]]
        ⟨2 ^ 63 + 63, 16777215, 4294967294, 8190, 127⟩ := by
  refine ⟨by decide +kernel, ?_, ?_⟩
  · have hfields : splitAsciiWhitespace "5/2147483647 * * * *".toList =
        [['5'] ++ '/' :: "2147483647".toList, ['*'], ['*'], ['*'], ['*']] := by decide +kernel
    have hsplit : (['5'] ++ '/' :: "2147483647".toList).splitOn ',' =
        [['5'] ++ '/' :: "2147483647".toList] := by decide +kernel
    have hstar : List.Forall₂ (fun text part => Part.Written part text) (List.splitOn ',' ['*'])
        [.every] := .cons .every .nil
    have hstep : List.Forall₂ (fun text part => Part.Written part text)
        ((['5'] ++ '/' :: "2147483647".toList).splitOn ',') [.fromStep 5 2147483647] := by
      rw [hsplit]
      exact .cons (.fromStep (by decide +kernel) (by decide +kernel)) .nil
    unfold WrittenIn
    rw [hfields]
    exact .cons hstep (.cons hstar (.cons hstar (.cons hstar (.cons hstar .nil))))
  · rintro ⟨progressions, hdenotes, hcorrect⟩
    cases hdenotes with
    | cons hfield =>
      cases hfield with
      | cons =>
        have hexact : Progression.Exact ⟨5, 59, 2147483647⟩ :=
          (hcorrect 0 (by decide)).exact _ (mem_cons_self ..)
        have hsum := (hexact 5 (.now (by decide))).1
        revert hsum
        decide

end McLoving.Cron
