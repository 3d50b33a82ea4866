import McLoving.Agent.Journal
import Mathlib.Algebra.Order.BigOperators.Group.Finset
import Mathlib.Data.Finset.Prod

/-!
# The log streams of an attempt

The chunks of an attempt share one row of sequences.  While a step runs, the live tail
reserves chunks up to its ceiling; afterwards terminal passes, which may be interrupted and
repeated, reserve what is left of each stream in full chunks, so the sequences suffice.
-/

namespace McLoving.Logs

open List

open Agent (LogStream)

/-! ## Bounds -/

def maxLogChunkBytes : ℕ := 1048576

def maxAttemptOutputBytes : ℕ := 64 * 1048576

def maxLogChunksPerAttempt : ℕ := 96

def maxLiveAttemptLogChunks : ℕ := 262144

def liveTailSequenceHeadroom : ℕ := 128

def logChunkBound (liveLogStream : Bool) : ℕ :=
  if liveLogStream then maxLiveAttemptLogChunks else maxLogChunksPerAttempt

def liveTailSequenceCeiling : ℕ := logChunkBound true - liveTailSequenceHeadroom

/-- The ceiling of a step's tail, from the next sequence at its start. -/
def stepCeiling (next stepsRemaining : ℕ) : ℕ :=
  min (next + (liveTailSequenceCeiling - next) / max stepsRemaining 1) liveTailSequenceCeiling

/-! ## Reservations -/

/-- A reserved chunk, and whether the live tail reserved it. -/
structure Reservation where
  sequence : ℕ
  stepOrdinal : ℕ
  stream : LogStream
  offset : ℕ
  bytes : ℕ
  byTail : Bool
  deriving DecidableEq

def nextLogSequence (rows : List Reservation) : ℕ :=
  rows.foldr (fun row next => max (row.sequence + 1) next) 0

/-- The end of the reserved ranges of a stream. -/
def covered (rows : List Reservation) (place : ℕ × LogStream) : ℕ :=
  rows.foldr (fun row most => if (row.stepOrdinal, row.stream) = place then
    max (row.offset + row.bytes) most else most) 0

/-- The next chunk of a stream. -/
def reserve (rows : List Reservation) (place : ℕ × LogStream) (bytes : ℕ) (byTail : Bool) :
    List Reservation :=
  ⟨nextLogSequence rows, place.1, place.2, covered rows place, bytes, byTail⟩ :: rows

/-- One stream in a tick of the tail: `length` bytes are in the file, and `headroom` of the step's
output limit are left. -/
def tick (rows : List Reservation) (ceiling length headroom : ℕ) (place : ℕ × LogStream) :
    List Reservation :=
  let available := length - covered rows place
  if available = 0 || headroom = 0 then rows
  else if ceiling ≤ nextLogSequence rows then rows
  else reserve rows place (min (min available maxLogChunkBytes) headroom) true

/-- The remainder in `SpoolPublisher::publish`, interrupted after some chunks. -/
def publish (chunkBound size : ℕ) (place : ℕ × LogStream) :
    ℕ → List Reservation → Except String (List Reservation)
  | 0, rows => .ok rows
  | chunks + 1, rows =>
    if covered rows place < size then
      if chunkBound ≤ nextLogSequence rows then
        .error "log chunk count exceeds the per-attempt quota"
      else
        publish chunkBound size place chunks
          (reserve rows place (min (size - covered rows place) maxLogChunkBytes) false)
    else .ok rows

/-- An attempt with the lengths of its finished spools. -/
structure Attempt where
  liveLogStream : Bool
  steps : ℕ
  size : ℕ × LogStream → ℕ

/-- The streams of an attempt. -/
def Attempt.places (attempt : Attempt) : Finset (ℕ × LogStream) :=
  Finset.range attempt.steps ×ˢ {.stdout, .stderr}

/-- What happens to the logs of an attempt: a tick of a tail that was opened at some sequence with
some steps remaining, or a terminal pass over a stream that makes at most some chunks. -/
inductive Event where
  | tick (opened stepsRemaining length headroom : ℕ) (place : ℕ × LogStream)
  | pass (place : ℕ × LogStream) (chunks : ℕ)

/-- The reservations after an event.  The file of a stream is never longer than its finished spool.
-/
def Attempt.step (attempt : Attempt) (rows : List Reservation) :
    Event → Except String (List Reservation)
  | .tick opened stepsRemaining length headroom place =>
    if attempt.liveLogStream && place.1 < attempt.steps then
      .ok (tick rows (stepCeiling opened stepsRemaining) (min length (attempt.size place)) headroom
        place)
    else .ok rows
  | .pass place chunks =>
    if place.1 < attempt.steps then
      publish (logChunkBound attempt.liveLogStream) (attempt.size place) place chunks rows
    else .ok rows

/-! ## What a chunk costs -/

variable {attempt : Attempt} {rows rows' : List Reservation} {place : ℕ × LogStream}

theorem Attempt.mem_places : place ∈ attempt.places ↔ place.1 < attempt.steps := by
  rcases place with ⟨step, _ | _⟩ <;> simp [Attempt.places]

@[simp]
theorem nextLogSequence_reserve (bytes : ℕ) (byTail : Bool) :
    nextLogSequence (reserve rows place bytes byTail) = nextLogSequence rows + 1 :=
  max_eq_left (Nat.le_succ _)

theorem covered_reserve (bytes : ℕ) (byTail : Bool) (other : ℕ × LogStream) :
    covered (reserve rows place bytes byTail) other =
      if other = place then covered rows place + bytes else covered rows other := by
  change (if place = other then max (covered rows place + bytes) (covered rows other)
    else covered rows other) = _
  by_cases heq : place = other
  · subst heq
    rw [if_pos rfl, if_pos rfl, max_eq_left (Nat.le_add_right _ _)]
  · rw [if_neg heq, if_neg (Ne.symm heq)]

/-- What the terminal chunks of a stream may have cost: the covered bytes, rounded up once the
stream is complete. -/
def charge (attempt : Attempt) (rows : List Reservation) (place : ℕ × LogStream) : ℕ :=
  covered rows place +
    if covered rows place = attempt.size place then maxLogChunkBytes - 1 else 0

/-- The number of terminal chunks. -/
def terminalChunks (rows : List Reservation) : ℕ :=
  rows.countP fun row => !row.byTail

@[simp]
theorem terminalChunks_reserve (bytes : ℕ) (byTail : Bool) :
    terminalChunks (reserve rows place bytes byTail) =
      terminalChunks rows + if byTail then 0 else 1 := by
  cases byTail <;> simp [terminalChunks, reserve]

/-- What holds of the reservations at every time. -/
structure Within (attempt : Attempt) (rows : List Reservation) : Prop where
  sequences : ∀ row ∈ rows, row.sequence < nextLogSequence rows
  tail : ∀ row ∈ rows, row.byTail = true →
    attempt.liveLogStream = true ∧ row.sequence < liveTailSequenceCeiling
  next : nextLogSequence rows ≤
    (if attempt.liveLogStream then liveTailSequenceCeiling else 0) + terminalChunks rows
  size : ∀ place, covered rows place ≤ attempt.size place
  charged : terminalChunks rows * maxLogChunkBytes ≤
    ∑ place ∈ attempt.places, charge attempt rows place

/-- The charge grows at one stream only. -/
theorem sum_charge_reserve (hplace : place ∈ attempt.places) {bytes cost : ℕ} {byTail : Bool}
    (hcost : charge attempt rows place + cost ≤
      charge attempt (reserve rows place bytes byTail) place) :
    ∑ other ∈ attempt.places, charge attempt rows other + cost ≤
      ∑ other ∈ attempt.places, charge attempt (reserve rows place bytes byTail) other := by
  rw [← Finset.add_sum_erase _ _ hplace, ← Finset.add_sum_erase _ (charge attempt _) hplace]
  have hothers : ∑ other ∈ attempt.places.erase place, charge attempt rows other =
      ∑ other ∈ attempt.places.erase place,
        charge attempt (reserve rows place bytes byTail) other := by
    refine Finset.sum_congr rfl fun other hother => ?_
    rw [charge, charge, covered_reserve, if_neg (Finset.ne_of_mem_erase hother)]
  omega

/-- A reservation that is paid for keeps the bounds. -/
theorem Within.reserve (hwithin : Within attempt rows) (hplace : place ∈ attempt.places)
    {bytes : ℕ} {byTail : Bool} (hpositive : 0 < bytes)
    (hsize : covered rows place + bytes ≤ attempt.size place) (htail : byTail = true →
      attempt.liveLogStream = true ∧ nextLogSequence rows < liveTailSequenceCeiling)
    (hchunk : byTail = false →
      maxLogChunkBytes ≤ bytes ∨ covered rows place + bytes = attempt.size place) :
    Within attempt (reserve rows place bytes byTail) where
  sequences := by
    rw [nextLogSequence_reserve]
    refine forall_mem_cons.mpr ⟨Nat.lt_succ_self _, fun row hmem => ?_⟩
    exact Nat.lt_succ_of_lt (hwithin.sequences row hmem)
  tail := forall_mem_cons.mpr ⟨htail, hwithin.tail⟩
  next := by
    have hnext := hwithin.next
    rw [nextLogSequence_reserve, terminalChunks_reserve]
    cases byTail with
    | false =>
      rw [if_neg Bool.false_ne_true]
      omega
    | true =>
      obtain ⟨hlive, hlt⟩ := htail rfl
      rw [if_pos hlive]
      omega
  size := by
    intro other
    rw [covered_reserve]
    split
    · next heq => rwa [heq]
    · exact hwithin.size other
  charged := by
    have hcost : charge attempt rows place + (if byTail then 0 else maxLogChunkBytes) ≤
        charge attempt (Logs.reserve rows place bytes byTail) place := by
      rw [charge, charge, covered_reserve, if_pos rfl, if_neg (by omega)]
      cases byTail with
      | true =>
        rw [if_pos rfl]
        omega
      | false =>
        rw [if_neg Bool.false_ne_true]
        rcases hchunk rfl with hfull | hlast
        · omega
        · rw [if_pos hlast]
          have : 0 < maxLogChunkBytes := by decide
          omega
    have hsum := sum_charge_reserve hplace hcost
    rw [terminalChunks_reserve, Nat.add_mul]
    refine le_trans (Nat.add_le_add hwithin.charged ?_) hsum
    cases byTail <;> simp

theorem within_nil (attempt : Attempt) : Within attempt [] where
  sequences := forall_mem_nil _
  tail := forall_mem_nil _
  next := Nat.zero_le _
  size := fun _ => Nat.zero_le _
  charged := by
    rw [terminalChunks, countP_nil, Nat.zero_mul]
    exact Nat.zero_le _

theorem Within.tick (hwithin : Within attempt rows) (hplace : place ∈ attempt.places)
    (hlive : attempt.liveLogStream = true) (opened stepsRemaining headroom : ℕ) {length : ℕ}
    (hlength : length ≤ attempt.size place) :
    Within attempt (tick rows (stepCeiling opened stepsRemaining) length headroom place) := by
  unfold Logs.tick
  dsimp only
  split_ifs with hempty hceiling
  · exact hwithin
  · exact hwithin
  · have hbelow : stepCeiling opened stepsRemaining ≤ liveTailSequenceCeiling := min_le_right _ _
    have hchunk : 0 < maxLogChunkBytes := by decide
    simp only [Bool.or_eq_true, decide_eq_true_eq, not_or] at hempty
    refine hwithin.reserve hplace (by omega) (by omega) (fun _ => ⟨hlive, by omega⟩) ?_
    intro hterminal
    cases hterminal

section Budget

variable (hsteps : attempt.steps ≤ 16)
variable (houtput : ∑ place ∈ attempt.places, attempt.size place ≤ maxAttemptOutputBytes)

include hsteps houtput

/-- The terminal chunks of an attempt of sixteen steps and 64 MiB are fewer than 96. -/
theorem Within.terminalChunks_lt (hwithin : Within attempt rows) :
    terminalChunks rows < maxLogChunksPerAttempt := by
  have hcard : attempt.places.card ≤ 32 := by
    have htwo : ({.stdout, .stderr} : Finset LogStream).card = 2 := rfl
    rw [Attempt.places, Finset.card_product, Finset.card_range, htwo]
    omega
  have hcharge : ∑ place ∈ attempt.places, charge attempt rows place ≤
      ∑ place ∈ attempt.places, attempt.size place + 32 * (maxLogChunkBytes - 1) :=
    calc ∑ place ∈ attempt.places, charge attempt rows place
        ≤ ∑ place ∈ attempt.places, (attempt.size place + (maxLogChunkBytes - 1)) := by
          refine Finset.sum_le_sum fun place _ => Nat.add_le_add (hwithin.size place) ?_
          split <;> omega
      _ = ∑ place ∈ attempt.places, attempt.size place +
            attempt.places.card * (maxLogChunkBytes - 1) := by
          rw [Finset.sum_add_distrib, Finset.sum_const_nat fun _ _ => rfl]
      _ ≤ _ := Nat.add_le_add_left (Nat.mul_le_mul_right _ hcard) _
  have hcharged := hwithin.charged
  unfold maxLogChunkBytes at hcharged hcharge
  unfold maxAttemptOutputBytes at houtput
  unfold maxLogChunksPerAttempt
  omega

/-- There is a sequence for the next terminal chunk. -/
theorem Within.next_lt (hwithin : Within attempt rows) :
    nextLogSequence rows < logChunkBound attempt.liveLogStream := by
  have hnext := hwithin.next
  have hfewer := hwithin.terminalChunks_lt hsteps houtput
  have hheadroom : liveTailSequenceCeiling + maxLogChunksPerAttempt < logChunkBound true := by decide
  cases hlive : attempt.liveLogStream with
  | false =>
    rw [hlive, if_neg Bool.false_ne_true] at hnext
    exact lt_of_le_of_lt (hnext.trans_eq (Nat.zero_add _)) hfewer
  | true =>
    rw [hlive, if_pos rfl] at hnext
    omega

/-- A terminal pass does not fail, and one of enough chunks completes its stream. -/
theorem Within.publish (hwithin : Within attempt rows) (hplace : place ∈ attempt.places)
    (chunks : ℕ) :
    ∃ rows', publish (logChunkBound attempt.liveLogStream) (attempt.size place) place chunks rows =
        .ok rows' ∧ Within attempt rows' ∧
      (attempt.size place ≤ covered rows place + chunks →
        covered rows' place = attempt.size place) := by
  induction chunks generalizing rows with
  | zero => exact ⟨rows, rfl, hwithin, fun hle => le_antisymm (hwithin.size place) hle⟩
  | succ _ ih =>
    unfold Logs.publish
    have hchunk : 0 < maxLogChunkBytes := by decide
    split_ifs with hopen hfull
    · exact absurd (hwithin.next_lt hsteps houtput) (not_lt.mpr hfull)
    · have hreserved : Within attempt (Logs.reserve rows place
          (min (attempt.size place - covered rows place) maxLogChunkBytes) false) :=
        hwithin.reserve hplace (by omega) (by omega) (fun htail => by cases htail)
          fun _ => by omega
      obtain ⟨rows', hok, hwithin', hcomplete⟩ := ih hreserved
      refine ⟨rows', hok, hwithin', fun hle => hcomplete ?_⟩
      rw [covered_reserve, if_pos rfl]
      omega
    · exact ⟨rows, rfl, hwithin, fun _ => le_antisymm (hwithin.size place) (not_lt.mp hopen)⟩

theorem Within.step (hwithin : Within attempt rows) (event : Event) :
    ∃ rows', attempt.step rows event = .ok rows' ∧ Within attempt rows' := by
  cases event with
  | tick =>
    rw [Attempt.step]
    split_ifs with hcalled
    · simp only [Bool.and_eq_true, decide_eq_true_eq] at hcalled
      exact ⟨_, rfl, hwithin.tick (Attempt.mem_places.mpr hcalled.2) hcalled.1 _ _ _
        (min_le_right _ _)⟩
    · exact ⟨rows, rfl, hwithin⟩
  | pass _ chunks =>
    rw [Attempt.step]
    split_ifs with hstep
    · obtain ⟨rows', hok, hwithin', -⟩ :=
        hwithin.publish hsteps houtput (Attempt.mem_places.mpr hstep) chunks
      exact ⟨rows', hok, hwithin'⟩
    · exact ⟨rows, rfl, hwithin⟩

theorem Within.run (hwithin : Within attempt rows) (events : List Event) :
    ∃ rows', events.foldlM attempt.step rows = .ok rows' ∧ Within attempt rows' := by
  induction events generalizing rows with
  | nil => exact ⟨rows, rfl, hwithin⟩
  | cons event _ ih =>
    obtain ⟨next, hstep, hnext⟩ := hwithin.step hsteps houtput event
    obtain ⟨rows', hrest, hwithin'⟩ := ih hnext
    refine ⟨rows', ?_, hwithin'⟩
    rw [foldlM_cons, hstep]
    exact hrest

end Budget

/-- After every schedule of ticks and passes over an attempt of at most sixteen steps and 64 MiB no
pass has failed, the sequences are within their bounds, and a pass of enough chunks completes any
stream. -/
theorem sequence_budget_suffices {attempt : Attempt} (hsteps : attempt.steps ≤ 16)
    (houtput : ∑ place ∈ attempt.places, attempt.size place ≤ maxAttemptOutputBytes)
    (events : List Event) : ∃ rows, events.foldlM attempt.step [] = .ok rows ∧
      (∀ row ∈ rows, row.sequence < logChunkBound attempt.liveLogStream) ∧
      (attempt.liveLogStream = false → rows.length < maxLogChunksPerAttempt) ∧
      (∀ row ∈ rows, row.byTail = true → row.sequence < liveTailSequenceCeiling) ∧
      ∀ place, place.1 < attempt.steps → ∃ rows',
        publish (logChunkBound attempt.liveLogStream) (attempt.size place) place
          (attempt.size place) rows = .ok rows' ∧ covered rows' place = attempt.size place := by
  obtain ⟨rows, hok, hwithin⟩ := (within_nil attempt).run hsteps houtput events
  refine ⟨rows, hok, fun row hmem => ?_, fun hlive => ?_, fun row hmem htail => ?_,
    fun place hstep => ?_⟩
  · exact (hwithin.sequences row hmem).trans (hwithin.next_lt hsteps houtput)
  · have hall : terminalChunks rows = rows.length := countP_eq_length.mpr fun row hmem => by
      rw [Bool.not_eq_true', Bool.eq_false_iff]
      intro htail
      rw [(hwithin.tail row hmem htail).1] at hlive
      cases hlive
    exact hall ▸ hwithin.terminalChunks_lt hsteps houtput
  · exact (hwithin.tail row hmem htail).2
  · obtain ⟨rows', hpass, -, hcomplete⟩ := hwithin.publish hsteps houtput
      (Attempt.mem_places.mpr hstep) (attempt.size place)
    exact ⟨rows', hpass, hcomplete (Nat.le_add_left _ _)⟩

/-- Sixteen steps of 4 MiB each. -/
def Sample.sixteenSteps : Attempt :=
  ⟨false, 16, fun place => if place.2 = .stdout then 3 * 1048576 + 1 else 1048575⟩

/-- Two passes over the sixteen steps succeed. -/
theorem sixteen_steps_fit : ∃ rows, [Event.pass (15, .stdout) 4, .pass (0, .stderr) 1].foldlM
    Sample.sixteenSteps.step [] = .ok rows ∧ rows.length < 96 := by
  have houtput : ∑ place ∈ Sample.sixteenSteps.places, Sample.sixteenSteps.size place ≤
      maxAttemptOutputBytes := by decide +kernel
  obtain ⟨rows, hok, -, hfew, -⟩ := @sequence_budget_suffices Sample.sixteenSteps le_rfl houtput
    [.pass (15, .stdout) 4, .pass (0, .stderr) 1]
  exact ⟨rows, hok, hfew rfl⟩

end McLoving.Logs
