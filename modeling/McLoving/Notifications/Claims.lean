import Mathlib.Algebra.BigOperators.Group.List.Basic
import Mathlib.Data.Prod.Lex
import McLoving.Lib.Except
import McLoving.Store.Operations

/-!
# Who acts on a notification

The rows that a terminal build leaves for its targets are claimed by workers, marked in flight,
settled, superseded and queued again.  A worker presents the terminal generation and the number of
attempts that its claim handed out.  This pair grows with every claim and every new outcome, and
only two writes take it back; in between a call takes effect only under the most recent claim.
-/

namespace McLoving

/-! ## Limits -/

def maxDeliveryAttempts : ℤ := 12

def maxReconciliationAttempts : ℤ := 12

def maxDeliveryBackoffSeconds : ℤ := 3600

def claimLeaseSeconds : ℤ := 90

/-! ## Error texts -/

/-- `String::truncate`: the characters that end at the byte, or nothing if the byte is inside a
character. -/
def truncateAt : ℕ → List Char → Option (List Char)
  | _, [] => some []
  | room, c :: rest =>
    if c.utf8Size ≤ room then (truncateAt (room - c.utf8Size) rest).map (c :: ·)
    else if room = 0 then some []
    else none

/-- What ends a call without a result: the process panics, or the database refuses a value. -/
inductive Fault where
  | panicked
  | database
  deriving DecidableEq

/-- The text that `settle_notification` binds for a delivery error.  The database stores no text
with a null character. -/
def settledError (error : String) : Except Fault String :=
  match truncateAt 1024 (trim error).toList with
  | none => .error .panicked
  | some bounded =>
    if bounded.isEmpty then .ok "delivery failed"
    else if bounded.contains '\x00' then .error .database
    else .ok (String.ofList bounded)

/-! ## Claims and marks -/

/-- `NotificationDelivery`: what a worker is handed with its claim. -/
structure NotificationDelivery where
  organizationId : Uuid
  projectId : Uuid
  pipelineId : Option Uuid
  id : NotificationId
  kind : Option String
  mappingId : Option String
  target : Json
  buildStatus : BuildStatus
  terminalGeneration : ℤ
  attempts : ℤ
  deriving DecidableEq

inductive InFlightMark where
  | marked
  | overtaken
  | superseded (holder : Uuid)
  deriving DecidableEq

/-- The order of the primary key. -/
def NotificationId.before (left right : NotificationId) : Bool :=
  left.buildId < right.buildId ||
    (left.buildId = right.buildId && left.targetIndex ≤ right.targetIndex)

/-- Whether the row is pending under the pair that a worker presents. -/
def NotificationRow.isClaimedAs (row : NotificationRow) (terminalGeneration attempts : ℤ) : Bool :=
  row.state = .pending && row.terminalGeneration = terminalGeneration && row.attempts = attempts

namespace Store

/-- Abandons the pending rows whose last attempt was never settled. -/
def abandonExhausted (s : Store) (now : Timestamp) : Table NotificationId NotificationRow :=
  s.notifications.update
    (fun _ row => row.state = .pending && maxDeliveryAttempts ≤ row.attempts &&
      row.nextAttemptAt ≤ now)
    fun _ row => { row with state := .abandoned, inFlight := false,
                            lastError := some (row.lastError.getD "attempts exhausted") }

/-- The rows that a claim takes.  It skips the rows that another transaction has locked. -/
def dueNotifications (rows : Table NotificationId NotificationRow) (now : Timestamp) (limit : ℕ)
    (kinds : List String) (locked : NotificationId → Bool) : List NotificationId :=
  (((rows.select fun id row => row.state = .pending && row.attempts < maxDeliveryAttempts &&
      row.kind.any kinds.contains && row.nextAttemptAt ≤ now && !locked id).insertionSort
    fun left right => left.2.nextAttemptAt < right.2.nextAttemptAt ||
      (left.2.nextAttemptAt = right.2.nextAttemptAt && left.1.before right.1)).map
    Prod.fst).take limit

/-- The delivery that a claimed row is returned as, if its build exists. -/
def deliveryOf (s : Store) (id : NotificationId) (row : NotificationRow) :
    Option NotificationDelivery :=
  (s.builds.lookup id.buildId).map fun build =>
    { organizationId := s.organizationId, projectId := build.projectId,
      pipelineId := build.pipelineId, id, kind := row.kind, mappingId := row.mappingId,
      target := row.target, buildStatus := row.buildStatus,
      terminalGeneration := row.terminalGeneration, attempts := row.attempts }

def claimDueNotifications (s : Store) (now : Timestamp) (limit : ℤ) (kinds : List String)
    (locked : NotificationId → Bool) : Store × List NotificationDelivery :=
  if !(1 ≤ limit && limit ≤ 1000) || kinds.isEmpty then (s, [])
  else
    let rows := s.abandonExhausted now
    let due := dueNotifications rows now limit.toNat kinds locked
    let claimed := rows.update (fun id _ => due.contains id) fun _ row =>
      { row with attempts := row.attempts + 1, nextAttemptAt := now + seconds claimLeaseSeconds }
    ({ s with notifications := claimed },
      ((claimed.select fun id _ => due.contains id).insertionSort fun left right =>
        left.1.before right.1).filterMap fun (id, row) => s.deliveryOf id row)

/-- `later_github_status_holder`: the row of the latest build after this one for the same commit
status. -/
def laterGithubStatusHolder (s : Store) (buildId : Uuid) (target : Json) : Option NotificationId :=
  match s.builds.lookup buildId with
  | none => none
  | some build =>
    (((s.notifications.select fun id row => row.kind = some "github_status" &&
        id.buildId ≠ buildId &&
        ["repository", "commit", "context"].all fun key =>
          row.target.textField key = some ((target.textField key).getD "")).filterMap
      fun (id, _) => (s.builds.lookup id.buildId).bind fun other =>
        if build.createdAt < other.createdAt ||
            (build.createdAt = other.createdAt && buildId < id.buildId) then
          some (other.createdAt, id)
        else none).insertionSort fun left right =>
          right.1 < left.1 || (left.1 = right.1 && right.2.buildId ≤ left.2.buildId)).head?.map
      Prod.snd

/-- The row of a later build that keeps a commit status from being posted. -/
def supersedingHolder (s : Store) (id : NotificationId) (row : NotificationRow) :
    Option NotificationId :=
  if row.kind = some "github_status" then s.laterGithubStatusHolder id.buildId row.target else none

def markNotificationInFlight (s : Store) (id : NotificationId)
    (terminalGeneration attempts : ℤ) : Store × InFlightMark :=
  match s.notifications.lookup id with
  | none => (s, .overtaken)
  | some row =>
    if !row.isClaimedAs terminalGeneration attempts then (s, .overtaken)
    else
      match s.supersedingHolder id row with
      | some holder => (s, .superseded holder.buildId)
      | none =>
        ({ s with notifications := s.notifications.modify id fun row =>
            { row with inFlight := true } }, .marked)

/-! ## Settlements -/

/-- The row after a successful delivery. -/
def settleDelivered (now : Timestamp) (row : NotificationRow) : NotificationRow :=
  { row with
    state := if row.repostRequired then .pending else .delivered
    attempts := if row.repostRequired then 0 else row.attempts
    deliveredAt := if row.repostRequired then none else some now
    nextAttemptAt := if row.repostRequired then now else row.nextAttemptAt
    reconciliationDueAt :=
      if !row.repostRequired && row.kind = some "github_status" &&
          row.reconciliationAttempts < maxReconciliationAttempts then
        some (now + seconds staleWriteQuietSeconds)
      else none
    reconciliationClaim := none, reconciliationLeaseUntil := none
    repostRequired := false, inFlight := false, lastError := none }

/-- The row after a failed delivery. -/
def settleFailed (now : Timestamp) (error : String) (row : NotificationRow) : NotificationRow :=
  { row with
    state := if maxDeliveryAttempts ≤ row.attempts then .abandoned else .pending
    deliveredAt := none
    nextAttemptAt := now + seconds (min (2 ^ row.attempts.toNat) maxDeliveryBackoffSeconds)
    reconciliationDueAt := none, reconciliationClaim := none, reconciliationLeaseUntil := none
    repostRequired := false
    inFlight := if maxDeliveryAttempts ≤ row.attempts then false else row.inFlight
    lastError := some error }

/-- Rewrites the row if it is pending under the presented pair, and says whether it was. -/
def rewriteClaimed (s : Store) (id : NotificationId) (terminalGeneration attempts : ℤ)
    (f : NotificationRow → NotificationRow) : Store × Bool :=
  if (s.notifications.lookup id).any fun row => row.isClaimedAs terminalGeneration attempts then
    ({ s with notifications := s.notifications.modify id f }, true)
  else (s, false)

def settleNotification (s : Store) (now : Timestamp) (id : NotificationId)
    (terminalGeneration attempts : ℤ) : Option String → Except Fault (Store × Bool)
  | none => .ok (s.rewriteClaimed id terminalGeneration attempts (settleDelivered now))
  | some error => do
    let bounded ← settledError error
    return s.rewriteClaimed id terminalGeneration attempts (settleFailed now bounded)

def supersedeNotification (s : Store) (id : NotificationId) (terminalGeneration attempts : ℤ)
    (supersededBy : Uuid) : Store × Bool :=
  s.rewriteClaimed id terminalGeneration attempts fun row =>
    { row with state := .abandoned, repostRequired := false, inFlight := false,
               lastError := some ("superseded by build " ++ supersededBy.toText) }

/-- The row after a stale settlement asked for it to be posted once more. -/
def requeued (now : Timestamp) (row : NotificationRow) : NotificationRow :=
  { row with
    attempts := if row.state = .delivered then 0 else row.attempts
    nextAttemptAt := if row.state = .delivered then now else row.nextAttemptAt
    lastError := if row.state = .delivered then none else row.lastError
    repostRequired := row.state ≠ .delivered
    inFlight := if row.state = .delivered then false else row.inFlight
    deliveredAt := none, reconciliationDueAt := none, reconciliationClaim := none
    reconciliationLeaseUntil := none
    state := .pending }

def requeueAfterStaleSettlement (s : Store) (now : Timestamp) (id : NotificationId)
    (staleGeneration : ℤ) : Store × Bool :=
  if (s.notifications.lookup id).any fun row => staleGeneration < row.terminalGeneration &&
      (row.state = .delivered || (row.state = .pending && now < row.nextAttemptAt)) then
    ({ s with notifications := s.notifications.modify id (requeued now) }, true)
  else (s, false)

/-! ## The calls of the workers -/

/-- A call of a worker, or a new terminal outcome of a build. -/
inductive NotificationOp where
  | claim (now : Timestamp) (limit : ℤ) (kinds : List String) (locked : NotificationId → Bool)
  | mark (id : NotificationId) (terminalGeneration attempts : ℤ)
  | settle (now : Timestamp) (id : NotificationId) (terminalGeneration attempts : ℤ)
      (error : Option String)
  | supersede (id : NotificationId) (terminalGeneration attempts : ℤ) (supersededBy : Uuid)
  | requeue (now : Timestamp) (id : NotificationId) (staleGeneration : ℤ)
  | terminal (now : Timestamp) (buildId : Uuid) (status : BuildStatus)

/-- One call.  A call that faults changes nothing. -/
def notificationStep (s : Store) : NotificationOp → Store
  | .claim now limit kinds locked => (s.claimDueNotifications now limit kinds locked).1
  | .mark id generation attempts => (s.markNotificationInFlight id generation attempts).1
  | .settle now id generation attempts error =>
    match s.settleNotification now id generation attempts error with
    | .ok (settled, _) => settled
    | .error _ => s
  | .supersede id generation attempts supersededBy =>
    (s.supersedeNotification id generation attempts supersededBy).1
  | .requeue now id staleGeneration => (s.requeueAfterStaleSettlement now id staleGeneration).1
  | .terminal now buildId status => s.recordTerminalNotifications now buildId status

end Store

/-! ## Errors that can be settled

The cut at byte 1024 succeeds exactly at a character boundary, and the database takes exactly the
texts without a null character. -/

open List

/-- The trimmed text fits into 1024 bytes or has a character boundary there, and the part up to the
bound has no null character. -/
def Settleable (error : String) : Prop :=
  ∃ kept cut, (trim error).toList = kept ++ cut ∧ '\x00' ∉ kept ∧
    (Utf8.size kept = 1024 ∨ cut = [] ∧ Utf8.size kept ≤ 1024)

/-- Truncation succeeds exactly at a character boundary or beyond the end. -/
theorem truncateAt_eq_some {room : ℕ} {text kept : List Char} :
    truncateAt room text = some kept ↔ ∃ cut, text = kept ++ cut ∧
      (Utf8.size kept = room ∨ cut = [] ∧ Utf8.size kept ≤ room) := by
  induction text generalizing room kept with
  | nil =>
    simp only [truncateAt, Option.some.injEq, nil_eq, append_eq_nil_iff]
    constructor
    · rintro rfl
      exact ⟨[], ⟨rfl, rfl⟩, .inr ⟨rfl, Nat.zero_le _⟩⟩
    · rintro ⟨cut, ⟨rfl, -⟩, -⟩
      rfl
  | cons c rest ih =>
    have hsize := c.utf8Size_pos
    constructor
    · intro htruncate
      simp only [truncateAt] at htruncate
      split_ifs at htruncate with hfits hroom
      · obtain ⟨kept', hkept', rfl⟩ := Option.map_eq_some_iff.mp htruncate
        obtain ⟨cut, rfl, hlength⟩ := ih.mp hkept'
        refine ⟨cut, rfl, ?_⟩
        rw [Utf8.size_cons]
        rcases hlength with hexact | ⟨hend, hshort⟩
        · exact .inl (by omega)
        · exact .inr ⟨hend, by omega⟩
      · obtain rfl := Option.some.inj htruncate
        exact ⟨c :: rest, rfl, .inl hroom.symm⟩
    · rintro ⟨cut, htext, hlength⟩
      cases kept with
      | nil =>
        subst htext
        have hroom : room = 0 := by simpa [Utf8.size, eq_comm] using hlength
        subst hroom
        simp only [truncateAt, Nat.not_le.mpr hsize, if_false, if_true]
      | cons _ kept =>
        rw [cons_append, List.cons.injEq] at htext
        obtain ⟨rfl, hrest⟩ := htext
        rw [Utf8.size_cons] at hlength
        have hfits : c.utf8Size ≤ room := by omega
        have hkept : truncateAt (room - c.utf8Size) rest = some kept := by
          refine ih.mpr ⟨cut, hrest, ?_⟩
          rcases hlength with hexact | ⟨hend, hshort⟩
          · exact .inl (by omega)
          · exact .inr ⟨hend, by omega⟩
        simp only [truncateAt, if_pos hfits, hkept, Option.map_some]

/-- A text can be bound exactly when it is settleable. -/
theorem exists_settledError_iff {error : String} :
    (∃ bounded, settledError error = .ok bounded) ↔ Settleable error := by
  unfold settledError Settleable
  cases htruncate : truncateAt 1024 (trim error).toList with
  | none =>
    simp only [reduceCtorEq, exists_false, false_iff, not_exists]
    rintro kept cut ⟨htext, -, hlength⟩
    rw [truncateAt_eq_some.mpr ⟨cut, htext, hlength⟩] at htruncate
    cases htruncate
  | some bounded =>
    have hunique : ∀ kept cut, (trim error).toList = kept ++ cut →
        (Utf8.size kept = 1024 ∨ cut = [] ∧ Utf8.size kept ≤ 1024) → kept = bounded := by
      intro kept cut htext hlength
      rw [truncateAt_eq_some.mpr ⟨cut, htext, hlength⟩] at htruncate
      exact Option.some.inj htruncate
    constructor
    · intro hok
      obtain ⟨cut, htext, hlength⟩ := truncateAt_eq_some.mp htruncate
      refine ⟨bounded, cut, htext, fun hnull => ?_, hlength⟩
      have hnonempty : bounded.isEmpty ≠ true := fun hempty => by
        rw [isEmpty_iff.mp hempty] at hnull
        exact not_mem_nil hnull
      simp only [if_neg hnonempty, if_pos (contains_iff_mem.mpr hnull), reduceCtorEq,
        exists_false] at hok
    · rintro ⟨kept, cut, htext, hnull, hlength⟩
      obtain rfl := hunique kept cut htext hlength
      have hcontains : ¬ kept.contains '\x00' = true := fun h => hnull (contains_iff_mem.mp h)
      simp only [if_neg hcontains]
      split_ifs
      · exact ⟨_, rfl⟩
      · exact ⟨_, rfl⟩

/-- A text whose trimmed form has a character across byte 1024 ends its settlement with a panic. -/
theorem settledError_of_truncateAt {text : List Char} (htruncate : truncateAt 1024
      ((text.dropWhile isWhitespace).reverse.dropWhile isWhitespace).reverse = none) :
    settledError (String.ofList text) = .error .panicked := by
  rw [settledError, trim, String.toList_ofList, String.toList_ofList, htruncate]

open Option Table History

/-- The pair that a claim hands out, in lexicographic order. -/
def NotificationRow.claimPair (row : NotificationRow) : ℤ ×ₗ ℤ :=
  toLex (row.terminalGeneration, row.attempts)

variable {row : NotificationRow}

theorem NotificationRow.claimPair_eq {terminalGeneration attempts : ℤ}
    (hclaimed : row.isClaimedAs terminalGeneration attempts = true) :
    row.claimPair = toLex (terminalGeneration, attempts) := by
  simp only [isClaimedAs, Bool.and_eq_true, decide_eq_true_eq] at hclaimed
  rw [claimPair, hclaimed.1.2, hclaimed.2]

/-- A rewritten row with the same generation and attempts has the same pair. -/
theorem NotificationRow.claimPair_le_of_eq {row' : NotificationRow}
    (hgeneration : row'.terminalGeneration = row.terminalGeneration)
    (hattempts : row'.attempts = row.attempts) : row.claimPair ≤ row'.claimPair := by
  rw [claimPair, claimPair, hgeneration, hattempts]

namespace Store

variable {s s' : Store} {op : NotificationOp} {id : NotificationId}
  {terminalGeneration attempts : ℤ}

/-! ## Claims, effects and resets -/

/-- The call is a claim that hands the row out under the pair. -/
def Hands (s : Store) (op : NotificationOp) (id : NotificationId)
    (terminalGeneration attempts : ℤ) : Prop :=
  match op with
  | .claim now limit kinds locked =>
    ∃ delivery ∈ (s.claimDueNotifications now limit kinds locked).2, delivery.id = id ∧
      delivery.terminalGeneration = terminalGeneration ∧ delivery.attempts = attempts
  | _ => False

/-- The call is a mark, settlement or supersession of the row under the pair, and it takes
effect. -/
def Acts (s : Store) (op : NotificationOp) (id : NotificationId)
    (terminalGeneration attempts : ℤ) : Prop :=
  match op with
  | .mark id' generation' attempts' =>
    (id', generation', attempts') = (id, terminalGeneration, attempts) ∧
      (s.markNotificationInFlight id terminalGeneration attempts).2 = .marked
  | .settle now id' generation' attempts' error =>
    (id', generation', attempts') = (id, terminalGeneration, attempts) ∧
      (s.settleNotification now id terminalGeneration attempts error).toOption.map Prod.snd =
        some true
  | .supersede id' generation' attempts' supersededBy =>
    (id', generation', attempts') = (id, terminalGeneration, attempts) ∧
      (s.supersedeNotification id terminalGeneration attempts supersededBy).2 = true
  | _ => False

instance : Decidable (Hands s op id terminalGeneration attempts) :=
  match op with
  | .claim _ _ _ _ => inferInstanceAs (Decidable (∃ delivery ∈ _, _ ∧ _ ∧ _))
  | .mark _ _ _ => inferInstanceAs (Decidable False)
  | .settle _ _ _ _ _ => inferInstanceAs (Decidable False)
  | .supersede _ _ _ _ => inferInstanceAs (Decidable False)
  | .requeue _ _ _ => inferInstanceAs (Decidable False)
  | .terminal _ _ _ => inferInstanceAs (Decidable False)

instance : Decidable (Acts s op id terminalGeneration attempts) :=
  match op with
  | .claim _ _ _ _ => inferInstanceAs (Decidable False)
  | .mark _ _ _ => inferInstanceAs (Decidable (_ = _ ∧ _ = _))
  | .settle _ _ _ _ _ => inferInstanceAs (Decidable (_ = _ ∧ _ = _))
  | .supersede _ _ _ _ => inferInstanceAs (Decidable (_ = _ ∧ _ = _))
  | .requeue _ _ _ => inferInstanceAs (Decidable False)
  | .terminal _ _ _ => inferInstanceAs (Decidable False)

/-- The call takes the attempts of the row back to zero within its terminal generation: it settles
a row that must be posted again as delivered, or it requeues a delivered row. -/
def Resets (s : Store) (op : NotificationOp) (id : NotificationId) : Prop :=
  match op with
  | .settle _ id' generation' attempts' none =>
    id' = id ∧ ∃ row, s.notifications.lookup id = some row ∧
      row.isClaimedAs generation' attempts' = true ∧ row.repostRequired = true
  | .requeue _ id' staleGeneration =>
    id' = id ∧ ∃ row, s.notifications.lookup id = some row ∧
      staleGeneration < row.terminalGeneration ∧ row.state = .delivered
  | _ => False

/-! ## How the pair grows -/

/-- The row stays, and its pair does not go back. -/
def PairGrows (id : NotificationId) (s s' : Store) : Prop :=
  ∀ row, s.notifications.lookup id = some row →
    ∃ row', s'.notifications.lookup id = some row' ∧ row.claimPair ≤ row'.claimPair

theorem PairGrows.refl (id : NotificationId) (s : Store) : PairGrows id s s :=
  fun row hrow => ⟨row, hrow, le_rfl⟩

theorem PairGrows.trans {s'' : Store} (hfirst : PairGrows id s s')
    (hsecond : PairGrows id s' s'') : PairGrows id s s'' := by
  intro row hrow
  obtain ⟨row', hrow', hle⟩ := hfirst row hrow
  obtain ⟨row'', hrow'', hle'⟩ := hsecond row' hrow'
  exact ⟨row'', hrow'', hle.trans hle'⟩

variable {id' : NotificationId} {f : NotificationRow → NotificationRow}
variable {rows : Table NotificationId NotificationRow} {ops : List NotificationOp}

/-- A write to one row that does not take its pair back. -/
theorem pairGrows_modify (hf : id' = id → ∀ row, s.notifications.lookup id = some row →
      row.claimPair ≤ (f row).claimPair) :
    PairGrows id s { s with notifications := s.notifications.modify id' f } := by
  intro row hrow
  by_cases hid : id = id'
  · refine ⟨f row, ?_, hf hid.symm row hrow⟩
    change (s.notifications.modify id' f).lookup id = _
    rw [lookup_modify, if_pos hid, hrow, map_some]
  · refine ⟨row, ?_, le_rfl⟩
    change (s.notifications.modify id' f).lookup id = _
    rw [lookup_modify, if_neg hid, hrow]

/-- A write to the claimed row that does not take the pair back under the presented pair. -/
theorem pairGrows_rewriteClaimed (hf : id' = id → ∀ row, s.notifications.lookup id = some row →
      row.isClaimedAs terminalGeneration attempts = true → row.claimPair ≤ (f row).claimPair) :
    PairGrows id s (s.rewriteClaimed id' terminalGeneration attempts f).1 := by
  unfold rewriteClaimed
  split_ifs with hclaimed
  · refine pairGrows_modify fun hid row hrow => hf hid row hrow ?_
    rw [hid, hrow, any_some] at hclaimed
    exact hclaimed
  · exact PairGrows.refl id s

variable {row : NotificationRow}

/-- A successful settlement keeps the pair unless the row must be posted again. -/
theorem claimPair_settleDelivered (hrepost : row.repostRequired ≠ true) (now : Timestamp) :
    (settleDelivered now row).claimPair = row.claimPair := by
  simp only [settleDelivered, NotificationRow.claimPair, if_neg hrepost]

/-- A requeue keeps the pair unless the row is delivered. -/
theorem claimPair_requeued (hstate : row.state ≠ .delivered) (now : Timestamp) :
    (requeued now row).claimPair = row.claimPair := by
  simp only [requeued, NotificationRow.claimPair, if_neg hstate]

/-- A new terminal outcome begins the next generation of the row. -/
theorem claimPair_le_terminalDelivery (row : NotificationRow) (now : Timestamp)
    (status : BuildStatus) (target : Json) :
    row.claimPair ≤ (terminalDelivery now status target (some row)).claimPair := by
  rw [NotificationRow.claimPair, NotificationRow.claimPair, Prod.Lex.toLex_le_toLex]
  exact .inl (Int.lt_succ _)

/-- The rows of a table after an update that takes no pair back. -/
theorem exists_claimPair_le_of_update {p : NotificationId → NotificationRow → Bool}
    {f : NotificationId → NotificationRow → NotificationRow}
    (hf : ∀ row : NotificationRow, row.claimPair ≤ (f id row).claimPair)
    (hrow : rows.lookup id = some row) :
    ∃ row', (rows.update p f).lookup id = some row' ∧ row.claimPair ≤ row'.claimPair := by
  rw [lookup_update, hrow]
  refine ⟨_, rfl, ?_⟩
  dsimp only
  split_ifs
  · exact hf row
  · exact le_rfl

/-- Every target of a terminal outcome writes one row, and each write begins a generation of the row
it finds. -/
theorem exists_claimPair_le_of_terminal (now : Timestamp) (buildId : Uuid) (status : BuildStatus)
    (targets : List (Json × ℕ)) (hrow : rows.lookup id = some row) :
    ∃ row', (targets.foldl (fun deliveries (target, index) =>
      deliveries.insert ⟨buildId, index⟩
        (terminalDelivery now status target (deliveries.lookup ⟨buildId, index⟩)))
      rows).lookup id = some row' ∧ row.claimPair ≤ row'.claimPair := by
  induction targets generalizing rows row with
  | nil => exact ⟨row, hrow, le_rfl⟩
  | cons entry _ ih =>
    obtain ⟨target, index⟩ := entry
    by_cases hid : id = ⟨buildId, index⟩
    · subst hid
      have hinsert : (rows.insert ⟨buildId, index⟩
          (terminalDelivery now status target (rows.lookup ⟨buildId, index⟩))).lookup
            ⟨buildId, index⟩ = some _ := AList.lookup_insert _
      obtain ⟨row', hrow', hle⟩ := ih hinsert
      refine ⟨row', hrow', le_trans ?_ hle⟩
      rw [hrow]
      exact claimPair_le_terminalDelivery row now status target
    · exact ih (by rw [AList.lookup_insert_ne hid, hrow])

theorem pairGrows_recordTerminalNotifications (now : Timestamp) (buildId : Uuid)
    (status : BuildStatus) : PairGrows id s (s.recordTerminalNotifications now buildId status) := by
  unfold recordTerminalNotifications
  split
  · exact PairGrows.refl id s
  next build hbuild =>
    intro row hrow
    obtain ⟨row', hrow', hle⟩ := exists_claimPair_le_of_terminal now buildId status
      (build.notifyTargets.asArray.getD []).zipIdx hrow
    obtain ⟨row'', hrow'', hle'⟩ := exists_claimPair_le_of_update
      (p := fun id row => id.buildId = buildId && row.kind = some "github_status" &&
        s.earlierStatusInFlight _ buildId build row)
      (f := fun _ row => { row with nextAttemptAt := now + seconds staleWriteQuietSeconds })
      (fun row => NotificationRow.claimPair_le_of_eq rfl rfl) hrow'
    exact ⟨row'', hrow'', hle.trans hle'⟩

/-! ## Claims -/

/-- A row after the exhausted rows were abandoned keeps its pair. -/
theorem exists_of_lookup_abandonExhausted {now : Timestamp}
    (hrow : (s.abandonExhausted now).lookup id = some row) :
    ∃ old, s.notifications.lookup id = some old ∧ row.claimPair = old.claimPair := by
  rw [abandonExhausted, lookup_update] at hrow
  obtain ⟨old, hold, rfl⟩ := map_eq_some_iff.mp hrow
  refine ⟨old, hold, ?_⟩
  split_ifs
  · rfl
  · rfl

/-- A claim counts one attempt of the row it hands out, and hands out the pair it stored. -/
theorem lookup_claimed {now : Timestamp} {limit : ℤ} {kinds : List String}
    {locked : NotificationId → Bool} {delivery : NotificationDelivery}
    (hdelivery : delivery ∈ (s.claimDueNotifications now limit kinds locked).2) :
    ∃ row row', s.notifications.lookup delivery.id = some row ∧
      (s.claimDueNotifications now limit kinds locked).1.notifications.lookup delivery.id =
        some row' ∧
      row.claimPair < row'.claimPair ∧
      row'.claimPair = toLex (delivery.terminalGeneration, delivery.attempts) := by
  unfold claimDueNotifications at hdelivery ⊢
  split_ifs at hdelivery ⊢ with hrefused
  · exact absurd hdelivery List.not_mem_nil
  · obtain ⟨⟨id, row'⟩, hmem, hrow'⟩ := List.mem_filterMap.mp hdelivery
    rw [List.mem_insertionSort, mem_select] at hmem
    obtain ⟨hlook, hdue⟩ := hmem
    obtain ⟨build, -, rfl⟩ := map_eq_some_iff.mp hrow'
    have hclaimed := hlook
    rw [lookup_update] at hclaimed
    obtain ⟨mid, hmid, hmid'⟩ := map_eq_some_iff.mp hclaimed
    rw [if_pos hdue] at hmid'
    obtain ⟨row, hrow, hpair⟩ := exists_of_lookup_abandonExhausted hmid
    refine ⟨row, row', hrow, hlook, ?_, rfl⟩
    rw [← hpair, ← hmid', NotificationRow.claimPair, NotificationRow.claimPair,
      Prod.Lex.toLex_lt_toLex]
    exact .inr ⟨rfl, Int.lt_succ _⟩

theorem pairGrows_claimDueNotifications (now : Timestamp) (limit : ℤ) (kinds : List String)
    (locked : NotificationId → Bool) :
    PairGrows id s (s.claimDueNotifications now limit kinds locked).1 := by
  unfold claimDueNotifications
  split_ifs with hrefused
  · exact PairGrows.refl id s
  · intro row hrow
    obtain ⟨mid, hmid, hle⟩ := exists_claimPair_le_of_update
      (p := fun _ row => row.state = .pending && maxDeliveryAttempts ≤ row.attempts &&
        row.nextAttemptAt ≤ now)
      (f := fun _ row => { row with state := .abandoned, inFlight := false,
                                    lastError := some (row.lastError.getD "attempts exhausted") })
      (fun row => NotificationRow.claimPair_le_of_eq rfl rfl) hrow
    obtain ⟨row', hrow', hle'⟩ := exists_claimPair_le_of_update
      (p := fun id _ => (dueNotifications (s.abandonExhausted now) now limit.toNat kinds
        locked).contains id)
      (f := fun _ row => { row with attempts := row.attempts + 1,
                                    nextAttemptAt := now + seconds claimLeaseSeconds })
      (fun row => Prod.Lex.toLex_le_toLex.mpr (.inr ⟨rfl, (Int.lt_succ _).le⟩)) hmid
    exact ⟨row', hrow', hle.trans hle'⟩

/-! ## Steps -/

/-- A call takes effect only on a row that is pending under the presented pair. -/
theorem claimPair_of_acts (hacts : Acts s op id terminalGeneration attempts) :
    ∃ row, s.notifications.lookup id = some row ∧
      row.claimPair = toLex (terminalGeneration, attempts) := by
  have hrewrite : ∀ f, (s.rewriteClaimed id terminalGeneration attempts f).2 = true →
      ∃ row, s.notifications.lookup id = some row ∧
        row.claimPair = toLex (terminalGeneration, attempts) := by
    intro f hdone
    unfold rewriteClaimed at hdone
    split_ifs at hdone with hany
    obtain ⟨row, hrow, hclaimed⟩ := (any_eq_true _ _).mp hany
    exact ⟨row, hrow, NotificationRow.claimPair_eq hclaimed⟩
  cases op with
  | claim => exact hacts.elim
  | mark =>
    obtain ⟨-, hmark⟩ := hacts
    unfold markNotificationInFlight at hmark
    split at hmark
    · cases hmark
    next row hrow =>
      by_cases hclaimed : (!row.isClaimedAs terminalGeneration attempts) = true
      · rw [if_pos hclaimed] at hmark
        cases hmark
      rw [Bool.not_eq_true', Bool.not_eq_false] at hclaimed
      exact ⟨row, hrow, NotificationRow.claimPair_eq hclaimed⟩
  | settle now _ _ _ error =>
    obtain ⟨-, hsettled⟩ := hacts
    cases error with
    | none => exact hrewrite (settleDelivered now) (Option.some.inj hsettled)
    | some error =>
      cases hresult : s.settleNotification now id terminalGeneration attempts (some error) with
      | error =>
        rw [hresult] at hsettled
        cases hsettled
      | ok =>
        rw [hresult] at hsettled
        obtain ⟨bounded, -, hok⟩ := Except.bind_eq_ok.mp hresult
        rw [← Except.ok.inj hok] at hsettled
        exact hrewrite (settleFailed now bounded) (Option.some.inj hsettled)
  | supersede => exact hrewrite _ hacts.2
  | requeue => exact hacts.elim
  | terminal => exact hacts.elim

/-- A call that does not reset the row takes its pair forward. -/
theorem pairGrows_notificationStep (hkeeps : ¬ Resets s op id) :
    PairGrows id s (s.notificationStep op) := by
  cases op with
  | claim now limit kinds locked => exact pairGrows_claimDueNotifications now limit kinds locked
  | mark id' generation attempts =>
    change PairGrows id s (s.markNotificationInFlight id' generation attempts).1
    unfold markNotificationInFlight
    split
    · exact PairGrows.refl id s
    · split_ifs
      · exact PairGrows.refl id s
      · split
        · exact PairGrows.refl id s
        · exact pairGrows_modify fun _ row _ =>
            NotificationRow.claimPair_le_of_eq rfl rfl
  | settle now id' generation attempts error =>
    cases error with
    | none =>
      refine pairGrows_rewriteClaimed fun hid row hrow hclaimed => ?_
      have hrepost : row.repostRequired ≠ true := fun hrepost =>
        hkeeps ⟨hid, row, hrow, hclaimed, hrepost⟩
      rw [claimPair_settleDelivered hrepost]
    | some error =>
      cases hsettled : s.settleNotification now id' generation attempts (some error) with
      | error =>
        simp only [notificationStep, hsettled]
        exact PairGrows.refl id s
      | ok =>
        simp only [notificationStep, hsettled]
        obtain ⟨bounded, -, hok⟩ := Except.bind_eq_ok.mp hsettled
        rw [← Except.ok.inj hok]
        exact pairGrows_rewriteClaimed fun _ row _ _ =>
          NotificationRow.claimPair_le_of_eq rfl rfl
  | supersede =>
    exact pairGrows_rewriteClaimed fun _ row _ _ =>
      NotificationRow.claimPair_le_of_eq rfl rfl
  | requeue now id' staleGeneration =>
    change PairGrows id s (s.requeueAfterStaleSettlement now id' staleGeneration).1
    unfold requeueAfterStaleSettlement
    split_ifs with hany
    · refine pairGrows_modify fun hid row hrow => ?_
      rw [hid, hrow, any_some, Bool.and_eq_true, decide_eq_true_eq] at hany
      have hstate : row.state ≠ .delivered := fun hstate =>
        hkeeps ⟨hid, row, hrow, hany.1, hstate⟩
      rw [claimPair_requeued hstate]
    · exact PairGrows.refl id s
  | terminal now buildId status => exact pairGrows_recordTerminalNotifications now buildId status

/-- A claim stores the pair that it hands out, above the pair it found. -/
theorem claimPair_of_hands (hhands : Hands s op id terminalGeneration attempts) :
    ∃ row row', s.notifications.lookup id = some row ∧
      (s.notificationStep op).notifications.lookup id = some row' ∧
      row.claimPair < row'.claimPair ∧ row'.claimPair = toLex (terminalGeneration, attempts) := by
  cases op with
  | claim =>
    obtain ⟨delivery, hdelivery, rfl, rfl, rfl⟩ := hhands
    exact lookup_claimed hdelivery
  | mark => exact hhands.elim
  | settle => exact hhands.elim
  | supersede => exact hhands.elim
  | requeue => exact hhands.elim
  | terminal => exact hhands.elim

/-! ## Histories -/

/-- Without a reset of the row, its pair does not go back along a history. -/
theorem pairGrows_final
    (hkeeps : History.Along notificationStep (fun s op => ¬ Resets s op id) s ops) :
    PairGrows id s (History.final notificationStep s ops) :=
  relation_of_along (PairGrows.refl id) PairGrows.trans
    (fun _ _ hkeep => pairGrows_notificationStep hkeep) hkeeps

/-- If a claim's pair is still the row's pair at the end of a history without resets, no call of the
history handed the row out. -/
theorem along_not_hands {row' : NotificationRow} (hrow : s.notifications.lookup id = some row)
    (hkeeps : History.Along notificationStep (fun s op => ¬ Resets s op id) s ops)
    (hrow' : (History.final notificationStep s ops).notifications.lookup id = some row')
    (hpair : row'.claimPair = row.claimPair) : History.Along notificationStep
      (fun s op => ∀ generation' attempts', ¬ Hands s op id generation' attempts') s ops := by
  refine along_of_forall fun before op after heq generation' attempts' hhands => ?_
  subst heq
  obtain ⟨hbefore, -, hafter⟩ := along_append.mp hkeeps
  obtain ⟨found, hfound, hle⟩ := pairGrows_final hbefore row hrow
  obtain ⟨old, new, hold, hnew, hlt, -⟩ := claimPair_of_hands hhands
  obtain ⟨last, hlast, hle'⟩ := pairGrows_final hafter new hnew
  rw [final_append, final_cons] at hrow'
  have hsame := mem_unique hfound hold
  have hend := mem_unique hlast hrow'
  have hgrown : row.claimPair < row'.claimPair := by
    rw [hsame] at hle
    rw [hend] at hle'
    exact (hle.trans_lt hlt).trans_le hle'
  exact absurd hpair hgrown.ne'

/-- A mark, settlement or supersession takes effect only under the most recent claim of its row,
as long as no call in between resets the attempts of the row within its terminal generation.  A
delivery error can be settled exactly when its trimmed text has a character boundary at byte 1024 or
ends before it, with no null character up to there. -/
theorem only_current_claim_acts (s : Store) (id : NotificationId)
    (terminalGeneration attempts : ℤ) :
    (∀ (claim act : NotificationOp) (between : List NotificationOp),
      Hands s claim id terminalGeneration attempts →
      History.Along notificationStep (fun s op => ¬ Resets s op id) (s.notificationStep claim)
        between →
      Acts (History.final notificationStep (s.notificationStep claim) between) act id
        terminalGeneration attempts →
      History.Along notificationStep
        (fun s op => ∀ generation' attempts', ¬ Hands s op id generation' attempts')
        (s.notificationStep claim) between) ∧
    ∀ (now : Timestamp) (error : String),
      (∃ result, s.settleNotification now id terminalGeneration attempts (some error) =
        .ok result) ↔ Settleable error := by
  constructor
  · intro claim act between hhands hkeeps hacts
    obtain ⟨-, row, -, hrow, -, hpair⟩ := claimPair_of_hands hhands
    obtain ⟨row', hrow', hpair'⟩ := claimPair_of_acts hacts
    exact along_not_hands hrow hkeeps hrow' (hpair'.trans hpair.symm)
  · intro now error
    rw [← exists_settledError_iff]
    constructor
    · rintro ⟨result, hresult⟩
      obtain ⟨bounded, hbounded, -⟩ := Except.bind_eq_ok.mp hresult
      exact ⟨bounded, hbounded⟩
    · rintro ⟨bounded, hbounded⟩
      exact ⟨_, Except.bind_eq_ok.mpr ⟨bounded, hbounded, rfl⟩⟩

namespace Sample

/-- A store with build 100, which notifies one webhook. -/
def notified : Store :=
  { initial 9 with
    builds := AList.insert 100
      { projectId := 1, pipelineId := none, pipelineRevision := none,
        pipelineOperationalGeneration := none, pipelineRevisionDigest := none,
        idempotencyKey := "k", pipelineDigest := .replicate 1,
        status := .failed, priority := 0, dagMode := true, dagContract := none,
        notifyTargets := .arr [.obj [("kind", .str "webhook"), ("mapping_id", .str "m")]],
        createdAt := 0, cancellationRequestedAt := none, workspaceNamespace := none,
        workspaceGeneration := 0, workspaceSnapshot := none, workspaceReceipt := none,
        workspaceClosed := true, workspaceAffinityAgentId := none, committedLogPosition := 0 }
      ∅ }

/-- The delivery to the webhook. -/
def webhook : NotificationId := ⟨100, 0⟩

/-- A claim of one webhook delivery. -/
def claimWebhook (now : Timestamp) : NotificationOp :=
  .claim now 1 ["webhook"] fun _ => false

/-- The build becomes terminal, a worker claims the delivery, and the build becomes terminal
again. -/
def retried : Store :=
  History.final notificationStep notified
    [.terminal 0 100 .failed, claimWebhook 0, .terminal 1 100 .succeeded]

/-- A second worker takes the expired claim over and delivers; the stale worker of the first
generation has the delivered row queued again, and a third worker claims it. -/
def takenOver : List NotificationOp :=
  [claimWebhook (seconds 100), .settle (seconds 101) webhook 2 2 none,
    .requeue (seconds 102) webhook 1, claimWebhook (seconds 103)]

end Sample

open Sample in
/-- The first worker of the second generation settles the row that the third worker holds, and an
error with a character across byte 1024 ends its settlement with a panic. -/
theorem expired_claim_settles_reclaimed_row : (Hands retried (claimWebhook 1) webhook 2 1 ∧
      Hands (History.final notificationStep (retried.notificationStep (claimWebhook 1))
        (takenOver.take 3)) (claimWebhook (seconds 103)) webhook 2 1 ∧
      Acts (History.final notificationStep (retried.notificationStep (claimWebhook 1)) takenOver)
        (.settle (seconds 104) webhook 2 1 none) webhook 2 1) ∧
    notified.settleNotification 0 webhook 1 1
      (some (String.ofList (List.replicate 1023 'a' ++ ['é']))) = .error .panicked := by
  refine ⟨by decide +kernel, ?_⟩
  rw [settleNotification, settledError_of_truncateAt (by decide +kernel)]
  rfl

open Sample in
/-- The worker that took an expired claim over is the only one to settle the row. -/
theorem only_current_claim_acts_webhook : History.Along notificationStep
      (fun s op => ∀ generation' attempts', ¬ Hands s op webhook generation' attempts')
      ((retried.notificationStep (claimWebhook 1)).notificationStep (claimWebhook (seconds 100)))
      [.mark webhook 2 2] := by
  refine (only_current_claim_acts (retried.notificationStep (claimWebhook 1)) webhook 2 2).1
    (claimWebhook (seconds 100)) (.settle (seconds 101) webhook 2 2 none) _
    (by decide +kernel) ⟨fun h => h, trivial⟩ (by decide +kernel)

end Store

end McLoving
