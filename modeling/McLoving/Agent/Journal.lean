import McLoving.Domain.Primitives
import McLoving.Lib.Except
import McLoving.Lib.History
import McLoving.Lib.Table

/-!
# The agent's journal

The durable tables of an agent: the attempts it accepted under their fences, the descriptors of
their spools and the reservations of their log chunks.  Each call is one transaction: a call that
fails leaves the tables as they were, and opening the file again changes nothing.  A call leaves the
rows of the attempts, writes one row or accepts an attempt under a new fence.
-/

namespace McLoving.Agent

/-! ## Rows -/

inductive AttemptPhase where
  | accepted
  | running
  | finalizing
  | succeeded
  | failed
  | cancelling
  | aborted
  | reconciliationRequired
  deriving DecidableEq, Repr

/-- `AttemptPhase::is_terminal`. -/
def AttemptPhase.isTerminal : AttemptPhase → Bool
  | .succeeded | .failed | .aborted => true
  | _ => false

/-- The phases in which an attempt executes. -/
def AttemptPhase.isExecuting : AttemptPhase → Bool
  | .accepted | .running => true
  | _ => false

def validTransition : AttemptPhase → AttemptPhase → Bool
  | .accepted, .running | .accepted, .finalizing | .accepted, .cancelling
  | .accepted, .reconciliationRequired => true
  -- The next step of an attempt with several steps rebinds the process of a running row.
  | .running, .running | .running, .finalizing | .running, .cancelling
  | .running, .reconciliationRequired => true
  | .finalizing, .succeeded | .finalizing, .failed | .finalizing, .cancelling
  | .finalizing, .reconciliationRequired => true
  | .cancelling, .aborted | .cancelling, .reconciliationRequired => true
  | .reconciliationRequired, .running | .reconciliationRequired, .finalizing
  | .reconciliationRequired, .cancelling | .reconciliationRequired, .aborted => true
  | _, _ => false

/-- The primary key of `attempts`. -/
structure AttemptKey where
  organizationId : String
  attemptId : String
  fenceToken : ℕ
  deriving DecidableEq, Repr

/-- Whether two keys belong to one attempt. -/
def AttemptKey.sameAttempt (key other : AttemptKey) : Bool :=
  key.organizationId = other.organizationId && key.attemptId = other.attemptId

/-- A row of `attempts`. -/
structure AttemptRow where
  sessionEpoch : ℕ
  payloadDigest : Digest
  phase : AttemptPhase
  workspace : String
  processId : Option ℕ
  processBirthIdentity : Option String
  currentStep : Option ℕ
  containerName : Option String
  containerContext : Option String
  acquisitionDirectory : Option String
  liveLogStream : Bool
  acceptedAtUnixMs : ℕ
  deriving DecidableEq

/-- A row of `log_spool` or of `result_spool`. -/
structure SpoolRow where
  relativePath : String
  digest : Digest
  bytes : ℕ
  deriving DecidableEq

/-- The streams of a step. -/
inductive LogStream where
  | stdout
  | stderr
  deriving DecidableEq, Repr

/-- A row of `log_reservations`. -/
structure ReservationRow where
  stepOrdinal : ℕ
  stream : LogStream
  offset : ℕ
  bytes : ℕ
  digest : Digest
  acknowledged : Bool
  deriving DecidableEq

/-- The database of a journal. -/
structure Journal where
  lastSessionEpoch : ℕ
  attempts : Table AttemptKey AttemptRow
  logSpool : Table (AttemptKey × ℕ) SpoolRow
  resultSpool : Table AttemptKey SpoolRow
  logReservationRows : Table (AttemptKey × ℕ) ReservationRow

/-- A new journal. -/
def Journal.initial : Journal :=
  ⟨0, ∅, ∅, ∅, ∅⟩

/-- `JournalError`, as far as the calls below return it. -/
inductive JournalError where
  | sqlite
  | authorityOverflow
  | acceptanceConflict
  | staleAuthority
  | invalidTransition (source target : AttemptPhase)
  | invalidFinalizationPhase
  | spoolConflict
  | invalidRelativePath
  | spoolRetirementBeforeTerminal
  | invalidProcessIdentity
  deriving DecidableEq, Repr

/-! ## Arguments -/

structure Acceptance where
  organizationId : String
  attemptId : String
  fenceToken : ℕ
  sessionEpoch : ℕ
  payloadDigest : Digest
  workspace : String
  deriving DecidableEq

/-- The key that an acceptance asks for. -/
def Acceptance.key (acceptance : Acceptance) : AttemptKey :=
  ⟨acceptance.organizationId, acceptance.attemptId, acceptance.fenceToken⟩

structure AcceptanceAck where
  organizationId : String
  attemptId : String
  fenceToken : ℕ
  sessionEpoch : ℕ
  acceptedAtUnixMs : ℕ
  deriving DecidableEq

structure SpoolEntry where
  sequence : ℕ
  relativePath : String
  digest : Digest
  bytes : ℕ
  deriving DecidableEq

structure LogReservation where
  sequence : ℕ
  stepOrdinal : ℕ
  stream : LogStream
  offset : ℕ
  bytes : ℕ
  digest : Digest
  acknowledged : Bool
  deriving DecidableEq

structure StepStart where
  ordinal : ℕ
  container : Option (String × String)
  acquisitionDirectory : Option String
  deriving DecidableEq

/-- `Finalization`, without the authority that it names. -/
structure Finalization where
  phase : AttemptPhase
  processId : Option ℕ
  logs : List SpoolEntry
  result : SpoolEntry
  deriving DecidableEq

def toSqlInteger (value : ℕ) : Except JournalError ℕ :=
  if value < 2 ^ 63 then .ok value else .error .authorityOverflow

/-- The integer that a query computes: a sum that overflows is not an integer in SQLite. -/
def queriedInteger (value : ℕ) : Except JournalError ℕ :=
  if value < 2 ^ 63 then .ok value else .error .sqlite

/-- `validate_relative_path`.  Empty components and inner dots disappear from the components of a
path; a leading dot does not. -/
def validateRelativePath (path : String) : Except JournalError Unit :=
  let components := path.toList.splitOn '/'
  if path = "" || components.head? = some [] || components.head? = some ['.'] ||
      components.contains ['.', '.'] then
    .error .invalidRelativePath
  else .ok ()

def maxProcessBirthIdentityBytes : ℕ := 256

def validateProcessBirthIdentity (processId : Option ℕ) (identity : Option String) :
    Except JournalError Unit :=
  if identity.any fun identity => processId.isNone || identity = "" ||
      maxProcessBirthIdentityBytes < identity.utf8ByteSize then
    .error .invalidProcessIdentity
  else .ok ()

namespace Journal

variable (journal : Journal)

/-! ## Attempts -/

def reserveSessionEpoch (minimum : ℕ) : Except JournalError (Journal × ℕ) := do
  let minimum ← toSqlInteger minimum
  let next ← toSqlInteger (journal.lastSessionEpoch + 1)
  return ({ journal with lastSessionEpoch := max next minimum }, max next minimum)

/-- The row of an attempt with the highest fence. -/
def latest (organizationId attemptId : String) : Option (AttemptKey × AttemptRow) :=
  ((journal.attempts.select fun key _ =>
    key.organizationId = organizationId && key.attemptId = attemptId).insertionSort
      fun left right => right.1.fenceToken ≤ left.1.fenceToken).head?

/-- The row that an acceptance inserts. -/
def acceptedRow (acceptance : Acceptance) (now : ℕ) : AttemptRow where
  sessionEpoch := acceptance.sessionEpoch
  payloadDigest := acceptance.payloadDigest
  phase := .accepted
  workspace := acceptance.workspace
  processId := none
  processBirthIdentity := none
  currentStep := none
  containerName := none
  containerContext := none
  acquisitionDirectory := none
  liveLogStream := false
  acceptedAtUnixMs := now

/-- The rows of the older fences wait for reconciliation. -/
def supersede (key : AttemptKey) : Table AttemptKey AttemptRow :=
  journal.attempts.update
    (fun other row => other.sameAttempt key && other.fenceToken < key.fenceToken &&
      !row.phase.isTerminal)
    fun _ row => { row with phase := .reconciliationRequired }

def accept (acceptance : Acceptance) (now : ℕ) : Except JournalError (Journal × AcceptanceAck) := do
  validateRelativePath acceptance.workspace
  let _ ← toSqlInteger acceptance.fenceToken
  let _ ← toSqlInteger acceptance.sessionEpoch
  let latest := journal.latest acceptance.organizationId acceptance.attemptId
  if latest.any fun row => acceptance.fenceToken < row.1.fenceToken ||
      acceptance.sessionEpoch < row.2.sessionEpoch then
    throw .acceptanceConflict
  match journal.attempts.lookup acceptance.key with
  | some row =>
    if row.sessionEpoch ≠ acceptance.sessionEpoch || row.payloadDigest ≠ acceptance.payloadDigest ||
        row.workspace ≠ acceptance.workspace then
      throw .acceptanceConflict
    return (journal, ⟨acceptance.organizationId, acceptance.attemptId, acceptance.fenceToken,
      acceptance.sessionEpoch, row.acceptedAtUnixMs⟩)
  | none =>
    if latest.any fun row => acceptance.fenceToken ≤ row.1.fenceToken then
      throw .acceptanceConflict
    return ({ journal with
      attempts := (journal.supersede acceptance.key).insert acceptance.key
        (acceptedRow acceptance now) },
      ⟨acceptance.organizationId, acceptance.attemptId, acceptance.fenceToken,
        acceptance.sessionEpoch, now⟩)

/-- The row that an authority selects. -/
def authorized (key : AttemptKey) (sessionEpoch : ℕ) : Except JournalError AttemptRow := do
  let _ ← toSqlInteger key.fenceToken
  let _ ← toSqlInteger sessionEpoch
  match (journal.attempts.lookup key).filter fun row => row.sessionEpoch = sessionEpoch with
  | none => throw .staleAuthority
  | some row => return row

/-- The birth identity that a transition keeps. -/
def keptIdentity (row : AttemptRow) (processId : Option ℕ) : Option String :=
  if row.processId = processId && processId.isSome then row.processBirthIdentity else none

/-- The update of the phase and of the process. -/
def setPhase (key : AttemptKey) (phase : AttemptPhase) (processId : Option ℕ)
    (identity : Option String) : Journal :=
  { journal with
    attempts := journal.attempts.modify key fun row =>
      { row with phase := phase, processId := processId, processBirthIdentity := identity } }

def transitionInner (key : AttemptKey) (sessionEpoch : ℕ) (phase : AttemptPhase)
    (processId : Option ℕ) (identity : Option String) : Except JournalError Journal := do
  let row ← journal.authorized key sessionEpoch
  let identity := identity.or (keptIdentity row processId)
  validateProcessBirthIdentity processId identity
  if row.phase = phase && row.processId = processId && row.processBirthIdentity = identity then
    return journal
  else if !validTransition row.phase phase then
    throw (.invalidTransition row.phase phase)
  else
    return journal.setPhase key phase processId identity

def transition (key : AttemptKey) (sessionEpoch : ℕ) (phase : AttemptPhase)
    (processId : Option ℕ) : Except JournalError Journal :=
  journal.transitionInner key sessionEpoch phase processId none

def transitionWithProcessIdentity (key : AttemptKey) (sessionEpoch : ℕ) (phase : AttemptPhase)
    (processId : ℕ) (birthIdentity : String) : Except JournalError Journal := do
  validateProcessBirthIdentity (some processId) (some birthIdentity)
  journal.transitionInner key sessionEpoch phase (some processId) (some birthIdentity)

/-- An update of the row that an authority selects, if the row executes. -/
def updateExecuting (key : AttemptKey) (sessionEpoch : ℕ) (f : AttemptRow → AttemptRow) :
    Except JournalError Journal := do
  let row ← journal.authorized key sessionEpoch
  if !row.phase.isExecuting then
    throw .staleAuthority
  return { journal with attempts := journal.attempts.modify key f }

def recordStepStart (key : AttemptKey) (sessionEpoch : ℕ) (step : StepStart) :
    Except JournalError Journal :=
  journal.updateExecuting key sessionEpoch fun row =>
    { row with
      currentStep := some step.ordinal, containerName := step.container.map Prod.fst,
      containerContext := step.container.map Prod.snd,
      acquisitionDirectory := step.acquisitionDirectory }

def markLiveLogStream (key : AttemptKey) (sessionEpoch : ℕ) : Except JournalError Journal :=
  journal.updateExecuting key sessionEpoch fun row => { row with liveLogStream := true }

/-! ## Spools -/

/-- The row of a descriptor. -/
def spoolRow (entry : SpoolEntry) : Except JournalError SpoolRow := do
  let bytes ← toSqlInteger entry.bytes
  return ⟨entry.relativePath, entry.digest, bytes⟩

/-- `record_log_row`: a sequence keeps its first descriptor. -/
def recordLogRow (key : AttemptKey) (entry : SpoolEntry) : Except JournalError Journal := do
  let sequence ← toSqlInteger entry.sequence
  let row ← spoolRow entry
  match journal.logSpool.lookup (key, sequence) with
  | none => return { journal with logSpool := journal.logSpool.insert (key, sequence) row }
  | some existing => if existing ≠ row then throw .spoolConflict else return journal

/-- The insertion of the result's descriptor: an attempt keeps its first result. -/
def recordResultRow (key : AttemptKey) (entry : SpoolEntry) : Except JournalError Journal := do
  let row ← spoolRow entry
  match journal.resultSpool.lookup key with
  | none => return { journal with resultSpool := journal.resultSpool.insert key row }
  | some existing => if existing ≠ row then throw .spoolConflict else return journal

def beginFinalization (key : AttemptKey) (sessionEpoch : ℕ) (finalization : Finalization) :
    Except JournalError Journal := do
  if finalization.phase ≠ .finalizing && finalization.phase ≠ .cancelling then
    throw .invalidFinalizationPhase
  finalization.logs.forM fun entry => validateRelativePath entry.relativePath
  validateRelativePath finalization.result.relativePath
  let row ← journal.authorized key sessionEpoch
  if row.phase ≠ finalization.phase && !validTransition row.phase finalization.phase then
    throw (.invalidTransition row.phase finalization.phase)
  let identity := keptIdentity row finalization.processId
  validateProcessBirthIdentity finalization.processId identity
  let spooled ← finalization.logs.foldlM (fun journal entry => recordLogRow journal key entry)
    journal
  let spooled ← spooled.recordResultRow key finalization.result
  return spooled.setPhase key finalization.phase finalization.processId identity

def ensureActiveAuthority (key : AttemptKey) (sessionEpoch : ℕ) : Except JournalError Unit := do
  let row ← journal.authorized key sessionEpoch
  if row.phase.isTerminal then
    throw .staleAuthority

/-- `record_logs`, of which `record_log` is the case of one entry. -/
def recordLogs (key : AttemptKey) (sessionEpoch : ℕ) (entries : List SpoolEntry) :
    Except JournalError Journal := do
  entries.forM fun entry => validateRelativePath entry.relativePath
  journal.ensureActiveAuthority key sessionEpoch
  entries.foldlM (fun journal entry => recordLogRow journal key entry) journal

def recordResult (key : AttemptKey) (sessionEpoch : ℕ) (entry : SpoolEntry) :
    Except JournalError Journal := do
  validateRelativePath entry.relativePath
  journal.ensureActiveAuthority key sessionEpoch
  journal.recordResultRow key entry

def retireTerminalSpools (key : AttemptKey) (sessionEpoch : ℕ) : Except JournalError Journal := do
  let row ← journal.authorized key sessionEpoch
  if !row.phase.isTerminal then
    throw .spoolRetirementBeforeTerminal
  return { journal with
    logSpool := journal.logSpool.delete fun other _ => other.1 = key
    resultSpool := journal.resultSpool.erase key
    logReservationRows := journal.logReservationRows.delete fun other _ => other.1 = key }

/-! ## Log chunks -/

/-- The reserved chunks of an attempt, in sequence order. -/
def reservations (key : AttemptKey) : List LogReservation :=
  ((journal.logReservationRows.select fun other _ => other.1 = key).insertionSort
    fun left right => left.1.2 ≤ right.1.2).map fun row =>
      ⟨row.1.2, row.2.stepOrdinal, row.2.stream, row.2.offset, row.2.bytes, row.2.digest,
        row.2.acknowledged⟩

/-- The end of the reserved ranges of a stream. -/
def covered (key : AttemptKey) (stepOrdinal : ℕ) (stream : LogStream) : ℕ :=
  ((journal.reservations key).filter fun reservation =>
    reservation.stepOrdinal = stepOrdinal && reservation.stream = stream).foldl
      (fun covered reservation => max covered (reservation.offset + reservation.bytes)) 0

def reserveLogChunk (key : AttemptKey) (sessionEpoch : ℕ) (reservation : LogReservation) :
    Except JournalError Journal := do
  if reservation.bytes = 0 then
    throw .spoolConflict
  journal.ensureActiveAuthority key sessionEpoch
  let covered ← queriedInteger
    (journal.covered key reservation.stepOrdinal reservation.stream)
  if covered ≠ reservation.offset then
    throw .spoolConflict
  let sequence ← toSqlInteger reservation.sequence
  let offset ← toSqlInteger reservation.offset
  let bytes ← toSqlInteger reservation.bytes
  if (journal.logReservationRows.lookup (key, sequence)).isSome then
    throw .spoolConflict
  return { journal with
    logReservationRows := journal.logReservationRows.insert (key, sequence)
      ⟨reservation.stepOrdinal, reservation.stream, offset, bytes, reservation.digest, false⟩ }

def acknowledgeLogChunk (key : AttemptKey) (sequence : ℕ) : Except JournalError Journal := do
  let _ ← toSqlInteger key.fenceToken
  let _ ← toSqlInteger sequence
  return { journal with
    logReservationRows := journal.logReservationRows.modify (key, sequence) fun row =>
      { row with acknowledged := true } }

end Journal

/-! ## Calls -/

/-- The calls that write a journal, and its reopening. -/
inductive JournalCall where
  | reopen
  | reserveSessionEpoch (minimum : ℕ)
  | accept (acceptance : Acceptance) (now : ℕ)
  | transition (key : AttemptKey) (sessionEpoch : ℕ) (phase : AttemptPhase) (processId : Option ℕ)
  | transitionWithProcessIdentity (key : AttemptKey) (sessionEpoch : ℕ) (phase : AttemptPhase)
      (processId : ℕ) (birthIdentity : String)
  | recordStepStart (key : AttemptKey) (sessionEpoch : ℕ) (step : StepStart)
  | markLiveLogStream (key : AttemptKey) (sessionEpoch : ℕ)
  | beginFinalization (key : AttemptKey) (sessionEpoch : ℕ) (finalization : Finalization)
  | recordLogs (key : AttemptKey) (sessionEpoch : ℕ) (entries : List SpoolEntry)
  | recordResult (key : AttemptKey) (sessionEpoch : ℕ) (entry : SpoolEntry)
  | retireTerminalSpools (key : AttemptKey) (sessionEpoch : ℕ)
  | reserveLogChunk (key : AttemptKey) (sessionEpoch : ℕ) (reservation : LogReservation)
  | acknowledgeLogChunk (key : AttemptKey) (sequence : ℕ)

/-- The journal that a call leaves, or its error. -/
def Journal.call (journal : Journal) : JournalCall → Except JournalError Journal
  | .reopen => .ok journal
  | .reserveSessionEpoch minimum => (journal.reserveSessionEpoch minimum).map Prod.fst
  | .accept acceptance now => (journal.accept acceptance now).map Prod.fst
  | .transition key sessionEpoch phase processId =>
    journal.transition key sessionEpoch phase processId
  | .transitionWithProcessIdentity key sessionEpoch phase processId birthIdentity =>
    journal.transitionWithProcessIdentity key sessionEpoch phase processId birthIdentity
  | .recordStepStart key sessionEpoch step => journal.recordStepStart key sessionEpoch step
  | .markLiveLogStream key sessionEpoch => journal.markLiveLogStream key sessionEpoch
  | .beginFinalization key sessionEpoch finalization =>
    journal.beginFinalization key sessionEpoch finalization
  | .recordLogs key sessionEpoch entries => journal.recordLogs key sessionEpoch entries
  | .recordResult key sessionEpoch entry => journal.recordResult key sessionEpoch entry
  | .retireTerminalSpools key sessionEpoch => journal.retireTerminalSpools key sessionEpoch
  | .reserveLogChunk key sessionEpoch reservation =>
    journal.reserveLogChunk key sessionEpoch reservation
  | .acknowledgeLogChunk key sequence => journal.acknowledgeLogChunk key sequence

/-- The journal after a call: a call that fails has no effect. -/
def Journal.step (journal : Journal) (call : JournalCall) : Journal :=
  (journal.call call).toOption.getD journal

/-- The journal after a sequence of calls on a new one. -/
def Journal.after (calls : List JournalCall) : Journal :=
  History.final Journal.step .initial calls

open List Except Table AList Journal

variable {journal journal' : Journal} {key : AttemptKey} {row : AttemptRow} {sessionEpoch now : ℕ}
variable {call : JournalCall} {entry : SpoolEntry} {acceptance : Acceptance} {ack : AcceptanceAck}

/-! ## Values and rows -/

theorem toSqlInteger_eq_ok {value value' : ℕ} (hok : toSqlInteger value = .ok value') :
    value' = value ∧ value < 2 ^ 63 := by
  unfold toSqlInteger at hok
  split_ifs at hok with hlt
  exact ⟨(ok.inj hok).symm, hlt⟩

theorem queriedInteger_eq_ok {value value' : ℕ} (hok : queriedInteger value = .ok value') :
    value' = value ∧ value < 2 ^ 63 := by
  unfold queriedInteger at hok
  split_ifs at hok with hlt
  exact ⟨(ok.inj hok).symm, hlt⟩

/-- The row that an authority selects has its session. -/
theorem authorized_eq_ok (hok : journal.authorized key sessionEpoch = .ok row) :
    journal.attempts.lookup key = some row ∧ row.sessionEpoch = sessionEpoch := by
  unfold authorized at hok
  simp only [bind_eq_ok] at hok
  obtain ⟨-, -, -, -, hok⟩ := hok
  split at hok
  · cases hok
  · next hrow =>
    cases hok
    rw [Option.filter_eq_some_iff] at hrow
    exact ⟨hrow.1, of_decide_eq_true hrow.2⟩

theorem ensureActiveAuthority_eq_ok
    (hok : journal.ensureActiveAuthority key sessionEpoch = .ok ()) :
    ∃ row, journal.attempts.lookup key = some row ∧ row.sessionEpoch = sessionEpoch ∧
      row.phase.isTerminal = false := by
  unfold ensureActiveAuthority at hok
  obtain ⟨row, hrow, hok⟩ := bind_eq_ok.mp hok
  obtain ⟨hlookup, hsession⟩ := authorized_eq_ok hrow
  refine ⟨row, hlookup, hsession, Bool.eq_false_iff.mpr fun hterminal => ?_⟩
  rw [if_pos hterminal] at hok
  cases hok

/-- A reserved chunk continues its stream under an unused number. -/
theorem reserveLogChunk_eq_ok {reservation : LogReservation}
    (hok : journal.reserveLogChunk key sessionEpoch reservation = .ok journal') :
    0 < reservation.bytes ∧
    (∃ row, journal.attempts.lookup key = some row ∧ row.sessionEpoch = sessionEpoch ∧
      row.phase.isTerminal = false) ∧
    journal.covered key reservation.stepOrdinal reservation.stream = reservation.offset ∧
    reservation.sequence < 2 ^ 63 ∧ reservation.offset < 2 ^ 63 ∧ reservation.bytes < 2 ^ 63 ∧
    journal.logReservationRows.lookup (key, reservation.sequence) = none ∧
    journal' = { journal with
      logReservationRows := journal.logReservationRows.insert (key, reservation.sequence)
        ⟨reservation.stepOrdinal, reservation.stream, reservation.offset, reservation.bytes,
          reservation.digest, false⟩ } := by
  unfold reserveLogChunk at hok
  simp only [bind_eq_ok, ite_throw_bind_eq_ok] at hok
  obtain ⟨hbytes, ⟨⟩, hactive, covered, hcovered, hoffset, sequence, hsequence, offset, hstart,
    bytes, hlength, hfresh, hok⟩ := hok
  obtain ⟨rfl, hnumber⟩ := toSqlInteger_eq_ok hsequence
  obtain ⟨rfl, hfrom⟩ := toSqlInteger_eq_ok hstart
  obtain ⟨rfl, hlong⟩ := toSqlInteger_eq_ok hlength
  obtain ⟨rfl, -⟩ := queriedInteger_eq_ok hcovered
  rw [Option.not_isSome_iff_eq_none] at hfresh
  exact ⟨Nat.pos_of_ne_zero hbytes, ensureActiveAuthority_eq_ok hactive, not_not.mp hoffset,
    hnumber, hfrom, hlong, hfresh, (ok.inj hok).symm⟩

/-- The row that a descriptor is stored as. -/
def SpoolEntry.stored (entry : SpoolEntry) : SpoolRow :=
  ⟨entry.relativePath, entry.digest, entry.bytes⟩

theorem spoolRow_eq_ok {spoolRow : SpoolRow} (hok : Journal.spoolRow entry = .ok spoolRow) :
    spoolRow = entry.stored := by
  obtain ⟨bytes, hbytes, hok⟩ := bind_eq_ok.mp hok
  obtain ⟨rfl, -⟩ := toSqlInteger_eq_ok hbytes
  exact (ok.inj hok).symm

/-- A recorded descriptor joins those that were there. -/
theorem recordLogRow_eq_ok (hok : journal.recordLogRow key entry = .ok journal') :
    ∃ spool, journal' = { journal with logSpool := spool } ∧
      (∀ place row, journal.logSpool.lookup place = some row → spool.lookup place = some row) ∧
      spool.lookup (key, entry.sequence) = some entry.stored := by
  unfold recordLogRow at hok
  simp only [bind_eq_ok] at hok
  obtain ⟨sequence, hsequence, stored, hstored, hok⟩ := hok
  obtain ⟨rfl, -⟩ := toSqlInteger_eq_ok hsequence
  obtain rfl := spoolRow_eq_ok hstored
  split at hok
  · next hnone =>
    exact ⟨_, (ok.inj hok).symm, fun _ _ => lookup_insert_of_none hnone, lookup_insert _⟩
  · next existing hexisting =>
    split_ifs at hok with hsame
    obtain rfl := not_not.mp hsame
    exact ⟨_, (ok.inj hok).symm, fun _ _ => id, hexisting⟩

/-- A recorded result is the result that was there, if there was one. -/
theorem recordResultRow_eq_ok (hok : journal.recordResultRow key entry = .ok journal') :
    ∃ spool, journal' = { journal with resultSpool := spool } ∧
      (∀ place row, journal.resultSpool.lookup place = some row → spool.lookup place = some row) ∧
      spool.lookup key = some entry.stored := by
  unfold recordResultRow at hok
  simp only [bind_eq_ok] at hok
  obtain ⟨stored, hstored, hok⟩ := hok
  obtain rfl := spoolRow_eq_ok hstored
  split at hok
  · next hnone =>
    exact ⟨_, (ok.inj hok).symm, fun _ _ => lookup_insert_of_none hnone, lookup_insert _⟩
  · next existing hexisting =>
    split_ifs at hok with hsame
    obtain rfl := not_not.mp hsame
    exact ⟨_, (ok.inj hok).symm, fun _ _ => id, hexisting⟩

theorem foldlM_recordLogRow_eq_ok {entries : List SpoolEntry}
    (hok : entries.foldlM (fun journal entry => Journal.recordLogRow journal key entry) journal =
      .ok journal') : ∃ spool, journal' = { journal with logSpool := spool } ∧
      (∀ place row, journal.logSpool.lookup place = some row → spool.lookup place = some row) ∧
      ∀ entry ∈ entries, spool.lookup (key, entry.sequence) = some entry.stored := by
  induction entries generalizing journal with
  | nil => exact ⟨_, (ok.inj hok).symm, fun _ _ => id, forall_mem_nil _⟩
  | cons _ _ ih =>
    rw [foldlM_cons, bind_eq_ok] at hok
    obtain ⟨next, hnext, hrest⟩ := hok
    obtain ⟨spool, rfl, hkept, hentry⟩ := recordLogRow_eq_ok hnext
    obtain ⟨spool', rfl, hkept', hentries⟩ := ih hrest
    exact ⟨spool', rfl, fun place row hrow => hkept' place row (hkept place row hrow),
      forall_mem_cons.mpr ⟨hkept' _ _ hentry, hentries⟩⟩

/-! ## Keys -/

variable {organizationId attemptId : String} {newest : AttemptKey × AttemptRow} {other : AttemptKey}

/-- The latest row has the highest fence of its attempt. -/
theorem le_latest (hlatest : journal.latest organizationId attemptId = some newest)
    (hrow : journal.attempts.lookup key = some row)
    (horganization : key.organizationId = organizationId) (hattempt : key.attemptId = attemptId) :
    key.fenceToken ≤ newest.1.fenceToken := by
  obtain ⟨-, hfirst⟩ := head?_sort_desc
    (fun found : AttemptKey × AttemptRow => found.1.fenceToken) hlatest
  exact hfirst (key, row) (mem_select.mpr ⟨hrow, by simp [horganization, hattempt]⟩)

/-- An attempt without a latest row has no rows. -/
theorem lookup_of_latest_eq_none (hnone : journal.latest organizationId attemptId = none)
    (horganization : key.organizationId = organizationId) (hattempt : key.attemptId = attemptId) :
    journal.attempts.lookup key = none := by
  rw [latest, head?_eq_none_iff, ← length_eq_zero_iff,
    length_insertionSort, length_eq_zero_iff] at hnone
  refine Option.eq_none_iff_forall_not_mem.mpr fun row hrow => ?_
  have hmem : (key, row) ∈ journal.attempts.select fun key _ =>
      key.organizationId = organizationId && key.attemptId = attemptId :=
    mem_select.mpr ⟨hrow, by simp [horganization, hattempt]⟩
  rw [hnone] at hmem
  cases hmem

theorem sameAttempt_iff : key.sameAttempt other = true ↔
    key.organizationId = other.organizationId ∧ key.attemptId = other.attemptId := by
  simp [AttemptKey.sameAttempt]

theorem latest_eq_some (hlatest : journal.latest organizationId attemptId = some newest) :
    journal.attempts.lookup newest.1 = some newest.2 ∧
      newest.1.organizationId = organizationId ∧ newest.1.attemptId = attemptId := by
  have hmem := (mem_insertionSort _).mp (mem_of_mem_head? hlatest)
  simpa using mem_select.mp hmem

theorem eq_of_sameAttempt (hsame : key.sameAttempt other = true)
    (hfence : key.fenceToken = other.fenceToken) : key = other := by
  cases key
  cases other
  simp_all [sameAttempt_iff]

/-! ## Rows that go on -/

/-- How a row goes on: what the acceptance wrote stays, and a terminal row stays as it is. -/
structure AttemptRow.Continues (row row' : AttemptRow) : Prop where
  sessionEpoch : row'.sessionEpoch = row.sessionEpoch
  payloadDigest : row'.payloadDigest = row.payloadDigest
  workspace : row'.workspace = row.workspace
  acceptedAtUnixMs : row'.acceptedAtUnixMs = row.acceptedAtUnixMs
  terminal : row.phase.isTerminal = true → row' = row

theorem AttemptRow.Continues.refl (row : AttemptRow) : row.Continues row :=
  ⟨rfl, rfl, rfl, rfl, fun _ => rfl⟩

theorem AttemptRow.Continues.trans {first second third : AttemptRow} (hfirst : first.Continues second)
    (hsecond : second.Continues third) : first.Continues third where
  sessionEpoch := hsecond.sessionEpoch.trans hfirst.sessionEpoch
  payloadDigest := hsecond.payloadDigest.trans hfirst.payloadDigest
  workspace := hsecond.workspace.trans hfirst.workspace
  acceptedAtUnixMs := hsecond.acceptedAtUnixMs.trans hfirst.acceptedAtUnixMs
  terminal := fun hterminal => by
    obtain rfl := hfirst.terminal hterminal
    exact hsecond.terminal hterminal

/-- No transition leaves a terminal phase. -/
theorem isTerminal_of_validTransition {source target : AttemptPhase}
    (hvalid : validTransition source target = true) : source.isTerminal = false := by
  revert hvalid
  cases source <;> cases target <;> decide

/-- What the acceptance wrote stays in an active row. -/
theorem continues_of_active {row' : AttemptRow} (hactive : row.phase.isTerminal = false)
    (hsession : row'.sessionEpoch = row.sessionEpoch)
    (hdigest : row'.payloadDigest = row.payloadDigest) (hworkspace : row'.workspace = row.workspace)
    (haccepted : row'.acceptedAtUnixMs = row.acceptedAtUnixMs) : row.Continues row' :=
  ⟨hsession, hdigest, hworkspace, haccepted, fun hterminal => by
    rw [hactive] at hterminal
    cases hterminal⟩

/-- The descriptor of a log sequence or, without a sequence, of the result. -/
def Journal.descriptor (journal : Journal) (key : AttemptKey) : Option ℕ → Option SpoolRow
  | none => journal.resultSpool.lookup key
  | some sequence => journal.logSpool.lookup (key, sequence)

/-- The key, the session and the phase that a transition asks for. -/
def JournalCall.target : JournalCall → Option (AttemptKey × ℕ × AttemptPhase)
  | .transition key sessionEpoch phase _ => some (key, sessionEpoch, phase)
  | .transitionWithProcessIdentity key sessionEpoch phase _ _ => some (key, sessionEpoch, phase)
  | .beginFinalization key sessionEpoch finalization =>
    some (key, sessionEpoch, finalization.phase)
  | _ => none

/-- What a successful call does. -/
inductive Does (journal : Journal) (call : JournalCall) (journal' : Journal) : Prop
  | keeps (hattempts : journal'.attempts = journal.attempts)
      (hepoch : journal.lastSessionEpoch ≤ journal'.lastSessionEpoch)
      (hdescriptor : ∀ key place spool, journal.descriptor key place = some spool →
        journal'.descriptor key place = some spool ∨
          ∃ sessionEpoch, call = .retireTerminalSpools key sessionEpoch)
  | writes {key : AttemptKey} {row row' : AttemptRow}
      (hrow : journal.attempts.lookup key = some row)
      (hattempts : ∀ other, journal'.attempts.lookup other =
        if other = key then some row' else journal.attempts.lookup other)
      (hcontinues : row.Continues row')
      (hphase : row'.phase = row.phase ∨ call.target = some (key, row.sessionEpoch, row'.phase) ∧
        validTransition row.phase row'.phase = true)
      (hepoch : journal'.lastSessionEpoch = journal.lastSessionEpoch)
      (hdescriptor : ∀ key place spool, journal.descriptor key place = some spool →
        journal'.descriptor key place = some spool)
  | accepts {acceptance : Acceptance} {now : ℕ} (hcall : call = .accept acceptance now)
      (hnone : journal.attempts.lookup acceptance.key = none)
      (hnewest : ∀ newest,
        journal.latest acceptance.organizationId acceptance.attemptId = some newest →
        newest.1.fenceToken ≤ acceptance.fenceToken ∧
          newest.2.sessionEpoch ≤ acceptance.sessionEpoch)
      (hjournal : journal' = { journal with
        attempts := (journal.supersede acceptance.key).insert acceptance.key
          (Journal.acceptedRow acceptance now) })

theorem Does.refl (journal : Journal) (call : JournalCall) : Does journal call journal :=
  .keeps rfl le_rfl fun _ _ _ => .inl

theorem Does.of_spools (hepoch : journal'.lastSessionEpoch = journal.lastSessionEpoch)
    (hattempts : journal'.attempts = journal.attempts)
    (hkept : ∀ key place spool, journal.descriptor key place = some spool →
      journal'.descriptor key place = some spool) : Does journal call journal' :=
  .keeps hattempts hepoch.ge fun key place spool hspool => .inl (hkept key place spool hspool)

/-! ## Every call -/

theorem does_transitionInner {phase : AttemptPhase} {processId : Option ℕ}
    {identity : Option String} (hcall : call.target = some (key, sessionEpoch, phase))
    (hok : journal.transitionInner key sessionEpoch phase processId identity = .ok journal') :
    Does journal call journal' := by
  unfold transitionInner at hok
  simp only [bind_eq_ok] at hok
  obtain ⟨row, hrow, -, -, hok⟩ := hok
  obtain ⟨hlookup, rfl⟩ := authorized_eq_ok hrow
  split_ifs at hok with hsame hvalid
  · cases hok
    exact .refl _ _
  · cases hok
    rw [Bool.not_eq_true, Bool.not_eq_false'] at hvalid
    exact .writes hlookup (lookup_modify_of_eq hlookup _)
      (continues_of_active (isTerminal_of_validTransition hvalid) rfl rfl rfl rfl)
      (.inr ⟨hcall, hvalid⟩) rfl fun _ _ _ => id

theorem updateExecuting_eq_ok {f : AttemptRow → AttemptRow}
    (hok : journal.updateExecuting key sessionEpoch f = .ok journal') :
    ∃ row, journal.attempts.lookup key = some row ∧ row.phase.isTerminal = false ∧
      journal' = { journal with attempts := journal.attempts.modify key f } := by
  unfold updateExecuting at hok
  simp only [bind_eq_ok, ite_throw_bind_eq_ok] at hok
  obtain ⟨row, hrow, hexecuting, hok⟩ := hok
  refine ⟨row, (authorized_eq_ok hrow).1, ?_, (ok.inj hok).symm⟩
  revert hexecuting
  cases row.phase <;> decide

/-- A finalization records all its descriptors and the phase. -/
theorem beginFinalization_eq_ok {finalization : Finalization}
    (hok : journal.beginFinalization key sessionEpoch finalization = .ok journal') :
    Does journal (.beginFinalization key sessionEpoch finalization) journal' ∧
      (∃ row, journal'.attempts.lookup key = some row ∧ row.phase = finalization.phase) ∧
      (∀ entry ∈ finalization.logs, journal'.descriptor key (some entry.sequence) =
        some entry.stored) ∧
      journal'.descriptor key none = some finalization.result.stored := by
  unfold beginFinalization at hok
  simp only [bind_eq_ok, ite_throw_bind_eq_ok] at hok
  obtain ⟨hphase, -, -, -, -, row, hrow, hvalid, -, -, spooled, hlogs, final, hresult, hok⟩ := hok
  obtain ⟨hlookup, rfl⟩ := authorized_eq_ok hrow
  cases hok
  obtain ⟨logs, rfl, hkept, hentries⟩ := foldlM_recordLogRow_eq_ok hlogs
  obtain ⟨result, rfl, hkept', hentry⟩ := recordResultRow_eq_ok hresult
  have hmoves : finalization.phase = row.phase ∨
      validTransition row.phase finalization.phase = true := by
    by_cases hsame : row.phase = finalization.phase
    · exact .inl hsame.symm
    · exact .inr (by simpa [hsame] using hvalid)
  have hactive : row.phase.isTerminal = false := by
    rcases hmoves with hsame | hvalid
    · rw [← hsame]
      revert hphase
      cases finalization.phase <;> decide
    · exact isTerminal_of_validTransition hvalid
  refine ⟨.writes hlookup (lookup_modify_of_eq hlookup _)
    (continues_of_active hactive rfl rfl rfl rfl) (hmoves.imp_right fun hvalid => ⟨rfl, hvalid⟩) rfl
    fun key place spool => ?_, ⟨_, (lookup_modify_of_eq hlookup _ key).trans (if_pos rfl), rfl⟩,
    hentries, hentry⟩
  cases place with
  | none => exact hkept' key spool
  | some sequence => exact hkept (key, sequence) spool

theorem accept_eq_ok (hok : journal.accept acceptance now = .ok (journal', ack)) :
    (validateRelativePath acceptance.workspace = .ok () ∧ acceptance.fenceToken < 2 ^ 63 ∧
      acceptance.sessionEpoch < 2 ^ 63) ∧
    (∀ newest, journal.latest acceptance.organizationId acceptance.attemptId = some newest →
      newest.1.fenceToken ≤ acceptance.fenceToken ∧
        newest.2.sessionEpoch ≤ acceptance.sessionEpoch) ∧
    ∃ row, journal'.attempts.lookup acceptance.key = some row ∧
      row.sessionEpoch = acceptance.sessionEpoch ∧ row.payloadDigest = acceptance.payloadDigest ∧
      row.workspace = acceptance.workspace ∧
      ack = ⟨acceptance.organizationId, acceptance.attemptId, acceptance.fenceToken,
        acceptance.sessionEpoch, row.acceptedAtUnixMs⟩ ∧
      ((journal.attempts.lookup acceptance.key = some row ∧ journal' = journal) ∨
        (journal.attempts.lookup acceptance.key = none ∧ journal' = { journal with
            attempts := (journal.supersede acceptance.key).insert acceptance.key
              (Journal.acceptedRow acceptance now) })) := by
  unfold accept at hok
  simp only [bind_eq_ok, ite_throw_bind_eq_ok] at hok
  obtain ⟨⟨⟩, hpath, fence, hfence, epoch, hepoch, hnewest, hok⟩ := hok
  refine ⟨⟨hpath, (toSqlInteger_eq_ok hfence).2, (toSqlInteger_eq_ok hepoch).2⟩, ?_, ?_⟩
  · intro newest hlatest
    simpa [hlatest] using hnewest
  split at hok
  · next row hrow =>
    rw [ite_throw_bind_eq_ok] at hok
    obtain ⟨hsame, hok⟩ := hok
    cases hok
    simp only [Bool.or_eq_true, decide_eq_true_eq, not_or, not_not] at hsame
    exact ⟨row, hrow, hsame.1.1, hsame.1.2, hsame.2, rfl, .inl ⟨hrow, rfl⟩⟩
  · next hnone =>
    rw [ite_throw_bind_eq_ok] at hok
    obtain ⟨rfl, rfl⟩ := Prod.mk.inj (ok.inj hok.2)
    exact ⟨_, lookup_insert _, rfl, rfl, rfl, rfl, .inr ⟨hnone, rfl⟩⟩

/-- A reserved epoch is above the last one. -/
theorem reserveSessionEpoch_eq_ok {minimum epoch : ℕ}
    (hok : journal.reserveSessionEpoch minimum = .ok (journal', epoch)) :
    journal.lastSessionEpoch < epoch ∧ journal'.lastSessionEpoch = epoch ∧
      journal' = { journal with lastSessionEpoch := epoch } := by
  simp only [reserveSessionEpoch, bind_eq_ok] at hok
  obtain ⟨least, -, next, hnext, hok⟩ := hok
  obtain ⟨rfl, -⟩ := toSqlInteger_eq_ok hnext
  cases hok
  exact ⟨lt_of_lt_of_le (Nat.lt_succ_self _) (le_max_left _ _), rfl, rfl⟩

theorem retireTerminalSpools_eq_ok
    (hok : journal.retireTerminalSpools key sessionEpoch = .ok journal') :
    (∃ row, journal.attempts.lookup key = some row ∧ row.phase.isTerminal = true) ∧
    journal' = { journal with
      logSpool := journal.logSpool.delete fun other _ => other.1 = key
      resultSpool := journal.resultSpool.erase key
      logReservationRows := journal.logReservationRows.delete fun other _ => other.1 = key } := by
  simp only [retireTerminalSpools, bind_eq_ok, ite_throw_bind_eq_ok] at hok
  obtain ⟨row, hrow, hterminal, hok⟩ := hok
  exact ⟨⟨row, (authorized_eq_ok hrow).1, by simpa using hterminal⟩, (ok.inj hok).symm⟩

theorem call_does (hok : journal.call call = .ok journal') : Does journal call journal' := by
  cases call with
  | reopen =>
    cases hok
    exact .refl _ _
  | reserveSessionEpoch =>
    obtain ⟨⟨next, epoch⟩, hreserve, rfl⟩ := map_eq_ok.mp hok
    obtain ⟨hlt, -, rfl⟩ := reserveSessionEpoch_eq_ok hreserve
    exact .keeps rfl hlt.le fun _ _ _ => .inl
  | accept =>
    obtain ⟨⟨next, ack⟩, haccept, rfl⟩ := map_eq_ok.mp hok
    obtain ⟨-, hnewest, row, -, -, -, -, -, ⟨-, rfl⟩ | ⟨hnone, rfl⟩⟩ := accept_eq_ok haccept
    · exact .refl _ _
    · exact .accepts rfl hnone hnewest rfl
  | transition => exact does_transitionInner rfl hok
  | transitionWithProcessIdentity =>
    simp only [call, transitionWithProcessIdentity, bind_eq_ok] at hok
    obtain ⟨-, -, hok⟩ := hok
    exact does_transitionInner rfl hok
  | recordStepStart =>
    obtain ⟨row, hrow, hactive, rfl⟩ := updateExecuting_eq_ok hok
    exact .writes hrow (lookup_modify_of_eq hrow _)
      (continues_of_active hactive rfl rfl rfl rfl) (.inl rfl) rfl fun _ _ _ => id
  | markLiveLogStream =>
    obtain ⟨row, hrow, hactive, rfl⟩ := updateExecuting_eq_ok hok
    exact .writes hrow (lookup_modify_of_eq hrow _)
      (continues_of_active hactive rfl rfl rfl rfl) (.inl rfl) rfl fun _ _ _ => id
  | beginFinalization => exact (beginFinalization_eq_ok hok).1
  | recordLogs key =>
    simp only [call, recordLogs, bind_eq_ok] at hok
    obtain ⟨-, -, -, -, hok⟩ := hok
    obtain ⟨spool, rfl, hkept, -⟩ := foldlM_recordLogRow_eq_ok hok
    refine .of_spools rfl rfl fun key place spool => ?_
    cases place with
    | none => exact id
    | some sequence => exact hkept (key, sequence) spool
  | recordResult key =>
    simp only [call, recordResult, bind_eq_ok] at hok
    obtain ⟨-, -, -, -, hok⟩ := hok
    obtain ⟨spool, rfl, hkept, -⟩ := recordResultRow_eq_ok hok
    refine .of_spools rfl rfl fun key place spool => ?_
    cases place with
    | none => exact hkept key spool
    | some => exact id
  | retireTerminalSpools key sessionEpoch =>
    obtain ⟨-, rfl⟩ := retireTerminalSpools_eq_ok hok
    refine .keeps rfl le_rfl fun other place spool hspool => ?_
    by_cases heq : other = key
    · exact .inr ⟨sessionEpoch, by rw [heq]⟩
    · refine .inl ?_
      cases place with
      | none => exact (lookup_erase_ne heq).trans hspool
      | some sequence =>
        refine (lookup_delete _ _ _).trans ?_
        rw [show journal.logSpool.lookup (other, sequence) = some spool from hspool]
        simp [heq]
  | reserveLogChunk =>
    obtain ⟨-, -, -, -, -, -, -, rfl⟩ := reserveLogChunk_eq_ok hok
    exact .of_spools rfl rfl fun _ _ _ => id
  | acknowledgeLogChunk =>
    simp only [call, acknowledgeLogChunk, bind_eq_ok] at hok
    obtain ⟨-, -, -, -, hok⟩ := hok
    cases hok
    exact .of_spools rfl rfl fun _ _ _ => id

theorem step_does (journal : Journal) (call : JournalCall) :
    Does journal call (journal.step call) := by
  unfold step
  cases hok : journal.call call with
  | error => exact .refl _ _
  | ok => exact call_does hok

end McLoving.Agent
