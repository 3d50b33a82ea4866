import McLoving.Agent.Superseded

/-!
# Lasting evidence

Whatever is called on the journal and however often it is reopened, what it has recorded stays.
-/

namespace McLoving.Agent

open Option Except Table AList History Journal

variable {journal journal' : Journal} {key : AttemptKey} {call : JournalCall}

/-! ## What is kept -/

/-- How a journal goes on. -/
structure Journal.Continues (journal journal' : Journal) : Prop where
  epoch : journal.lastSessionEpoch ≤ journal'.lastSessionEpoch
  row : ∀ key row, journal.attempts.lookup key = some row →
    ∃ row', journal'.attempts.lookup key = some row' ∧ row.Continues row'

theorem Journal.Continues.refl (journal : Journal) : journal.Continues journal :=
  ⟨le_rfl, fun _ row hrow => ⟨row, hrow, .refl row⟩⟩

theorem Journal.Continues.trans {first second third : Journal} (hfirst : first.Continues second)
    (hsecond : second.Continues third) : first.Continues third := by
  refine ⟨hfirst.epoch.trans hsecond.epoch, fun key row hrow => ?_⟩
  obtain ⟨row', hrow', hcontinues⟩ := hfirst.row key row hrow
  obtain ⟨row'', hrow'', hcontinues'⟩ := hsecond.row key row' hrow'
  exact ⟨row'', hrow'', hcontinues.trans hcontinues'⟩

/-- What a call does: a new row has the highest fence of its attempt and no older session, and only
retirement takes descriptors away. -/
structure Journal.Keeps (journal : Journal) (call : JournalCall) (journal' : Journal) : Prop
    extends journal.Continues journal' where
  fresh : ∀ key row', journal'.attempts.lookup key = some row' →
    journal.attempts.lookup key = none →
    (∃ acceptance now, call = .accept acceptance now ∧ key = acceptance.key) ∧
    ∀ older row, older.sameAttempt key = true → journal.attempts.lookup older = some row →
      older.fenceToken < key.fenceToken ∧ row.sessionEpoch ≤ row'.sessionEpoch
  descriptor : ∀ key place spool, journal.descriptor key place = some spool →
    journal'.descriptor key place = some spool ∨
      ∃ sessionEpoch, call = .retireTerminalSpools key sessionEpoch

section Calls

variable {row : AttemptRow} {sessionEpoch now : ℕ} {acceptance : Acceptance} {ack : AcceptanceAck}

/-- The row of a higher fence has no older session. -/
def Journal.Ordered (journal : Journal) : Prop :=
  ∀ older newer row row', older.sameAttempt newer = true →
    journal.attempts.lookup older = some row → journal.attempts.lookup newer = some row' →
    older.fenceToken ≤ newer.fenceToken → row.sessionEpoch ≤ row'.sessionEpoch

/-- An acceptance is not below any row of its attempt. -/
theorem le_of_latest (hordered : journal.Ordered)
    (hnewest : ∀ newest, journal.latest acceptance.organizationId acceptance.attemptId = some newest →
      newest.1.fenceToken ≤ acceptance.fenceToken ∧ newest.2.sessionEpoch ≤ acceptance.sessionEpoch)
    (hsame : key.sameAttempt acceptance.key = true)
    (hrow : journal.attempts.lookup key = some row) :
    key.fenceToken ≤ acceptance.fenceToken ∧ row.sessionEpoch ≤ acceptance.sessionEpoch := by
  obtain ⟨horganization, hattempt⟩ := sameAttempt_iff.mp hsame
  cases hlatest : journal.latest acceptance.organizationId acceptance.attemptId with
  | none =>
    rw [lookup_of_latest_eq_none hlatest horganization hattempt] at hrow
    cases hrow
  | some newest =>
    obtain ⟨hfence, hsession⟩ := hnewest newest hlatest
    have hle := le_latest hlatest hrow horganization hattempt
    obtain ⟨hnew, hown⟩ := latest_eq_some hlatest
    refine ⟨hle.trans hfence, (hordered key newest.1 row newest.2 ?_ hrow hnew hle).trans hsession⟩
    rw [sameAttempt_iff, horganization, hattempt]
    exact ⟨hown.1.symm, hown.2.symm⟩

theorem Does.keeps_journal (hdoes : Does journal call journal') (hordered : journal.Ordered) :
    journal.Keeps call journal' := by
  cases hdoes with
  | keeps hattempts hepoch hdescriptor =>
    refine ⟨⟨hepoch, fun key row hrow => ⟨row, by rw [hattempts, hrow], .refl row⟩⟩,
      fun key row hrow hnone => ?_, hdescriptor⟩
    rw [hattempts, hnone] at hrow
    cases hrow
  | @writes key _ row' hrow hattempts hcontinues _ hepoch hdescriptor =>
    refine ⟨⟨hepoch.ge, fun other old hold => ?_⟩, fun other new hnew hnone => ?_,
      fun key place spool hspool => .inl (hdescriptor key place spool hspool)⟩
    · rw [hattempts]
      split
      · next heq =>
        obtain rfl := mem_unique hrow (heq ▸ hold)
        exact ⟨row', rfl, hcontinues⟩
      · exact ⟨old, hold, .refl old⟩
    · rw [hattempts] at hnew
      split at hnew
      · next heq => cases (heq ▸ hnone).symm.trans hrow
      · cases hnone.symm.trans hnew
  | @accepts acceptance now hcall hnone hnewest hjournal =>
    subst hjournal
    refine ⟨⟨le_rfl, fun key old hold => ?_⟩, fun key new hnew hnone' => ?_, fun _ _ _ => .inl⟩
    · have hne : key ≠ acceptance.key := by
        rintro rfl
        cases hnone.symm.trans hold
      rw [lookup_insert_ne hne, supersede, lookup_update, hold]
      refine ⟨_, rfl, ?_⟩
      dsimp only
      split
      · next hchanged =>
        refine ⟨rfl, rfl, rfl, rfl, fun hterminal => ?_⟩
        simp [hterminal] at hchanged
      · exact .refl old
    · have heq : key = acceptance.key := by
        by_contra hne
        rw [lookup_insert_ne hne, supersede, lookup_update, hnone'] at hnew
        cases hnew
      subst heq
      rw [lookup_insert] at hnew
      obtain rfl := Option.some.inj hnew
      refine ⟨⟨acceptance, now, hcall, rfl⟩, fun older old hsame hold => ?_⟩
      exact ⟨fenceToken_lt_of_latest hnone (fun newest hlatest => (hnewest newest hlatest).1) hsame
        hold, (le_of_latest hordered hnewest hsame hold).2⟩

/-! ## Runs -/

theorem step_keeps (hordered : journal.Ordered) (call : JournalCall) :
    journal.Keeps call (journal.step call) :=
  (step_does journal call).keeps_journal hordered

theorem Journal.Keeps.ordered (hkeeps : journal.Keeps call journal') (hordered : journal.Ordered) :
    journal'.Ordered := by
  intro older newer row row' hsame hrow hrow' hle
  cases hold : journal.attempts.lookup older with
  | none =>
    obtain ⟨⟨acceptance, now, hcall, holder⟩, hbelow⟩ := hkeeps.fresh older row hrow hold
    cases hnew : journal.attempts.lookup newer with
    | none =>
      obtain ⟨⟨acceptance', now', hcall', hnewer⟩, -⟩ := hkeeps.fresh newer row' hrow' hnew
      obtain ⟨rfl, -⟩ := JournalCall.accept.inj (hcall.symm.trans hcall')
      obtain rfl := by
        rw [holder, ← hnewer, hrow'] at hrow
        exact (Option.some.inj hrow).symm
      exact le_rfl
    | some former' =>
      have hsame' : newer.sameAttempt older = true := by
        rw [sameAttempt_iff] at hsame ⊢
        exact ⟨hsame.1.symm, hsame.2.symm⟩
      exact absurd (hbelow newer former' hsame' hnew).1 (not_lt.mpr hle)
  | some former =>
    obtain ⟨found, hfound, hcontinues⟩ := hkeeps.row older former hold
    obtain rfl := mem_unique hrow hfound
    rw [hcontinues.sessionEpoch]
    cases hnew : journal.attempts.lookup newer with
    | none => exact ((hkeeps.fresh newer row' hrow' hnew).2 older former hsame hold).2
    | some former' =>
      obtain ⟨found', hfound', hcontinues'⟩ := hkeeps.row newer former' hnew
      obtain rfl := mem_unique hrow' hfound'
      rw [hcontinues'.sessionEpoch]
      exact hordered older newer former former' hsame hold hnew hle

theorem accept_ordered (hordered : journal.Ordered)
    (hok : journal.accept acceptance now = .ok (journal', ack)) : journal'.Ordered := by
  have hcall : journal.call (.accept acceptance now) = .ok journal' := by
    rw [call, hok]
    rfl
  exact ((call_does hcall).keeps_journal hordered).ordered hordered

theorem ordered_final (hordered : journal.Ordered) (calls : List JournalCall) :
    (History.final Journal.step journal calls).Ordered :=
  @History.invariant _ _ step Journal.Ordered
    (fun _ call hordered => (step_keeps hordered call).ordered hordered) journal hordered calls

theorem ordered_after (calls : List JournalCall) : (Journal.after calls).Ordered :=
  ordered_final (fun _ _ _ _ _ hrow => by cases hrow) calls

theorem final_continues (hordered : journal.Ordered) (calls : List JournalCall) :
    journal.Continues (History.final Journal.step journal calls) := by
  induction calls generalizing journal with
  | nil => exact .refl journal
  | cons call _ ih =>
    have hkeeps := step_keeps hordered call
    exact hkeeps.toContinues.trans (ih (hkeeps.ordered hordered))

/-- A descriptor stays until the spools of its row, which is terminal by then, are retired. -/
theorem final_descriptor {place : Option ℕ} {spool : SpoolRow} (hordered : journal.Ordered)
    (calls : List JournalCall) (hspool : journal.descriptor key place = some spool) :
    (History.final Journal.step journal calls).descriptor key place = some spool ∨
      ∃ before sessionEpoch later, calls = before ++ .retireTerminalSpools key sessionEpoch :: later ∧
        ((History.final Journal.step journal before).retireTerminalSpools key sessionEpoch).isOk =
          true := by
  induction calls generalizing journal with
  | nil => exact .inl hspool
  | cons call rest ih =>
    have hkeeps := step_keeps hordered call
    have hcontinue (hspool : (journal.step call).descriptor key place = some spool) :
        (final step journal (call :: rest)).descriptor key place = some spool ∨
          ∃ before sessionEpoch later,
            call :: rest = before ++ .retireTerminalSpools key sessionEpoch :: later ∧
            ((final step journal before).retireTerminalSpools key
              sessionEpoch).isOk = true := by
      obtain hstays | ⟨before, sessionEpoch, later, rfl, hok⟩ := ih (hkeeps.ordered hordered) hspool
      · exact .inl hstays
      · exact .inr ⟨call :: before, sessionEpoch, later, rfl, hok⟩
    obtain hstays | ⟨sessionEpoch, rfl⟩ := hkeeps.descriptor key place spool hspool
    · exact hcontinue hstays
    · cases hok : journal.retireTerminalSpools key sessionEpoch with
      | ok => exact .inr ⟨[], sessionEpoch, rest, rfl, by rw [final_nil, hok]; rfl⟩
      | error =>
        refine hcontinue ?_
        rw [step, call, hok]
        exact hspool

/-- A repeated acceptance of the latest fence is acknowledged as before. -/
theorem accept_again (hordered : journal.Ordered)
    (hpath : validateRelativePath acceptance.workspace = .ok ())
    (hfence : acceptance.fenceToken < 2 ^ 63) (hepoch : acceptance.sessionEpoch < 2 ^ 63)
    (hrow : journal.attempts.lookup acceptance.key = some row)
    (hsession : row.sessionEpoch = acceptance.sessionEpoch)
    (hdigest : row.payloadDigest = acceptance.payloadDigest)
    (hworkspace : row.workspace = acceptance.workspace)
    (hlast : ∀ key row, key.sameAttempt acceptance.key = true →
      journal.attempts.lookup key = some row → key.fenceToken ≤ acceptance.fenceToken) (now : ℕ) :
    journal.accept acceptance now = .ok (journal, ⟨acceptance.organizationId, acceptance.attemptId,
      acceptance.fenceToken, acceptance.sessionEpoch, row.acceptedAtUnixMs⟩) := by
  have hnewest : ¬ ((journal.latest acceptance.organizationId acceptance.attemptId).any fun row =>
      acceptance.fenceToken < row.1.fenceToken || acceptance.sessionEpoch < row.2.sessionEpoch) =
        true := by
    cases hlatest : journal.latest acceptance.organizationId acceptance.attemptId with
    | none => simp
    | some newest =>
      obtain ⟨hnew, hown⟩ := latest_eq_some hlatest
      have hsame : newest.1.sameAttempt acceptance.key = true := sameAttempt_iff.mpr hown
      have hle := hlast newest.1 newest.2 hsame hnew
      have hsession' := hordered newest.1 acceptance.key newest.2 row hsame hnew hrow hle
      simp only [any_some, Bool.or_eq_true, decide_eq_true_eq, not_or]
      omega
  unfold accept
  rw [hpath, toSqlInteger, if_pos hfence, toSqlInteger, if_pos hepoch]
  simp only [bind, Except.bind]
  rw [if_neg hnewest]
  simp only [hrow, hsession, hdigest, hworkspace]
  exact if_neg (by simp)

theorem refused_of_terminal (hrow : journal.attempts.lookup key = some row)
    (hterminal : row.phase.isTerminal = true) (sessionEpoch : ℕ) :
    (∀ entries, (journal.recordLogs key sessionEpoch entries).isOk = false) ∧
    (∀ entry, (journal.recordResult key sessionEpoch entry).isOk = false) ∧
    (∀ reservation, (journal.reserveLogChunk key sessionEpoch reservation).isOk = false) ∧
    ∀ step, (journal.recordStepStart key sessionEpoch step).isOk = false := by
  have hinactive {found : AttemptRow} (hfound : journal.attempts.lookup key = some found)
      (hactive : found.phase.isTerminal = false) : False := by
    obtain rfl := mem_unique hrow hfound
    rw [hactive] at hterminal
    cases hterminal
  have hauthority (hactive : journal.ensureActiveAuthority key sessionEpoch = .ok ()) : False := by
    obtain ⟨found, hfound, -, hactive⟩ := ensureActiveAuthority_eq_ok hactive
    exact hinactive hfound hactive
  refine ⟨fun entries => ?_, fun entry => ?_, fun reservation => ?_, fun step => ?_⟩
  all_goals
    refine Bool.eq_false_iff.mpr fun hok => ?_
    obtain ⟨journal', hok⟩ := exists_ok hok
  · simp only [recordLogs, bind_eq_ok] at hok
    obtain ⟨-, -, ⟨⟩, hactive, -⟩ := hok
    exact hauthority hactive
  · simp only [recordResult, bind_eq_ok] at hok
    obtain ⟨-, -, ⟨⟩, hactive, -⟩ := hok
    exact hauthority hactive
  · obtain ⟨-, ⟨found, hfound, -, hactive⟩, -⟩ := reserveLogChunk_eq_ok hok
    exact hinactive hfound hactive
  · obtain ⟨found, hfound, hactive, -⟩ := updateExecuting_eq_ok hok
    exact hinactive hfound hactive

theorem acceptance_ext {acceptance' : Acceptance} (hkey : acceptance'.key = acceptance.key)
    (hsession : acceptance'.sessionEpoch = acceptance.sessionEpoch)
    (hdigest : acceptance'.payloadDigest = acceptance.payloadDigest)
    (hworkspace : acceptance'.workspace = acceptance.workspace) : acceptance' = acceptance := by
  cases acceptance
  cases acceptance'
  simp_all [Acceptance.key]

/-- A later acceptance of an attempt has no older session, and a higher fence unless it repeats the
earlier one. -/
theorem later_acceptance {next : Journal} {acceptance' : Acceptance} {now' : ℕ}
    {ack' : AcceptanceAck} {later : List JournalCall} (hordered : journal.Ordered)
    (hfirst : journal.accept acceptance now = .ok (next, ack))
    (hsecond : (History.final Journal.step next later).accept acceptance' now' = .ok (journal', ack'))
    (hsame : acceptance.key.sameAttempt acceptance'.key = true) :
    acceptance.sessionEpoch ≤ acceptance'.sessionEpoch ∧
      (acceptance.fenceToken < acceptance'.fenceToken ∨ acceptance' = acceptance ∧ ack' = ack ∧
          journal' = History.final Journal.step next later) := by
  obtain ⟨-, -, row, hrow, hsession, hdigest, hworkspace, rfl, -⟩ := accept_eq_ok hfirst
  have hnext := accept_ordered hordered hfirst
  obtain ⟨row', hrow', hcontinues⟩ := (final_continues hnext later).row _ row hrow
  obtain ⟨-, hnewest, found, hfound, hsession', hdigest', hworkspace', rfl, hresult⟩ :=
    accept_eq_ok hsecond
  obtain ⟨hle, hepoch⟩ := le_of_latest (ordered_final hnext later) hnewest hsame hrow'
  rw [hcontinues.sessionEpoch, hsession] at hepoch
  refine ⟨hepoch, ?_⟩
  rcases hle.lt_or_eq with hlt | heq
  · exact .inl hlt
  · have hkey := (eq_of_sameAttempt hsame heq).symm
    rw [hkey] at hresult
    rcases hresult with ⟨hstill, rfl⟩ | ⟨hnone, -⟩
    · obtain rfl := mem_unique hstill hrow'
      obtain rfl := acceptance_ext hkey
        (hsession'.symm.trans (hcontinues.sessionEpoch.trans hsession))
        (hdigest'.symm.trans (hcontinues.payloadDigest.trans hdigest))
        (hworkspace'.symm.trans (hcontinues.workspace.trans hworkspace))
      exact .inr ⟨rfl, by rw [hcontinues.acceptedAtUnixMs], rfl⟩
    · rw [hnone] at hrow'
      cases hrow'

/-- The latest acceptance of an attempt may be repeated. -/
theorem repeated_acceptance {later : List JournalCall} (hordered : journal.Ordered)
    (hok : journal.accept acceptance now = .ok (journal', ack))
    (hlast : ∀ key row, key.sameAttempt acceptance.key = true →
      (History.final Journal.step journal' later).attempts.lookup key = some row →
      key.fenceToken ≤ acceptance.fenceToken) (now' : ℕ) :
    (History.final Journal.step journal' later).accept acceptance now' =
      .ok (History.final Journal.step journal' later, ack) := by
  obtain ⟨⟨hpath, hfence, hepoch⟩, -, row, hrow, hsession, hdigest, hworkspace, rfl, -⟩ :=
    accept_eq_ok hok
  have hnext := accept_ordered hordered hok
  obtain ⟨row', hrow', hcontinues⟩ := (final_continues hnext later).row _ row hrow
  rw [accept_again (ordered_final hnext later) hpath hfence hepoch hrow'
    (hcontinues.sessionEpoch.trans hsession) (hcontinues.payloadDigest.trans hdigest)
    (hcontinues.workspace.trans hworkspace) hlast, hcontinues.acceptedAtUnixMs]

end Calls

/-- The evidence of a journal is monotone, whatever is called before and after. -/
theorem evidence_is_monotone (before later : List JournalCall) :
    -- reserved epochs increase
    (∀ minimum minimum' epoch epoch' journal journal',
      (Journal.after before).reserveSessionEpoch minimum = .ok (journal, epoch) →
      (History.final Journal.step journal later).reserveSessionEpoch minimum' =
        .ok (journal', epoch') → epoch < epoch') ∧
    -- the fences of an attempt increase but for repetitions, and their sessions do not decrease
    (∀ acceptance acceptance' now now' ack ack' journal journal',
      (Journal.after before).accept acceptance now = .ok (journal, ack) →
      (History.final Journal.step journal later).accept acceptance' now' = .ok (journal', ack') →
      acceptance.key.sameAttempt acceptance'.key = true →
      acceptance.sessionEpoch ≤ acceptance'.sessionEpoch ∧
        (acceptance.fenceToken < acceptance'.fenceToken ∨ acceptance' = acceptance ∧ ack' = ack ∧
            journal' = History.final Journal.step journal later)) ∧
    -- the latest acceptance may be repeated
    (∀ acceptance now now' ack journal,
      (Journal.after before).accept acceptance now = .ok (journal, ack) →
      (∀ key row, key.sameAttempt acceptance.key = true →
        (History.final Journal.step journal later).attempts.lookup key = some row →
        key.fenceToken ≤ acceptance.fenceToken) →
      (History.final Journal.step journal later).accept acceptance now' =
        .ok (History.final Journal.step journal later, ack)) ∧
    -- a terminal row stays and accepts nothing
    (∀ key row, (Journal.after before).attempts.lookup key = some row →
      row.phase.isTerminal = true →
      (Journal.after (before ++ later)).attempts.lookup key = some row ∧
      ∀ sessionEpoch, (∀ entries, ((Journal.after (before ++ later)).recordLogs key sessionEpoch
          entries).isOk = false) ∧
        (∀ entry, ((Journal.after (before ++ later)).recordResult key sessionEpoch
          entry).isOk = false) ∧
        (∀ reservation, ((Journal.after (before ++ later)).reserveLogChunk key sessionEpoch
          reservation).isOk = false) ∧
        ∀ step, ((Journal.after (before ++ later)).recordStepStart key sessionEpoch
          step).isOk = false) ∧
    -- descriptors stay until retirement, which needs a terminal row
    (∀ key place spool, (Journal.after before).descriptor key place = some spool →
      (Journal.after (before ++ later)).descriptor key place = some spool ∨
        ∃ middle sessionEpoch rest, later = middle ++ .retireTerminalSpools key sessionEpoch :: rest ∧
          ((Journal.after (before ++ middle)).retireTerminalSpools key sessionEpoch).isOk = true) ∧
    (∀ key sessionEpoch,
      ((Journal.after before).retireTerminalSpools key sessionEpoch).isOk = true →
      ∃ row, (Journal.after before).attempts.lookup key = some row ∧ row.phase.isTerminal = true) ∧
    -- a finalization records everything or nothing
    ∀ key sessionEpoch finalization,
      (∀ journal, (Journal.after before).beginFinalization key sessionEpoch finalization =
          .ok journal →
        journal.phaseOf key = some finalization.phase ∧
        (∀ entry ∈ finalization.logs,
          journal.descriptor key (some entry.sequence) = some entry.stored) ∧
        journal.descriptor key none = some finalization.result.stored) ∧
      ∀ error, (Journal.after before).beginFinalization key sessionEpoch finalization =
          .error error →
        (Journal.after before).step (.beginFinalization key sessionEpoch finalization) =
          Journal.after before := by
  have hordered := ordered_after before
  have hafter : after (before ++ later) = final step (after before) later := final_append _ _ _ _
  refine ⟨?_, ?_, ?_, ?_, ?_, ?_, ?_⟩
  · intro minimum minimum' epoch epoch' journal journal' hfirst hsecond
    obtain ⟨-, hlast, hjournal⟩ := reserveSessionEpoch_eq_ok hfirst
    have hjournalOrdered : journal.Ordered := by
      rw [hjournal]
      exact hordered
    have hmonotone := (final_continues hjournalOrdered later).epoch
    obtain ⟨hlt, -⟩ := reserveSessionEpoch_eq_ok hsecond
    omega
  · intro acceptance acceptance' now now' ack ack' journal journal' hfirst hsecond hsame
    exact later_acceptance hordered hfirst hsecond hsame
  · intro acceptance now now' ack journal hok hlast
    exact repeated_acceptance hordered hok hlast now'
  · intro key row hrow hterminal
    obtain ⟨row', hrow', hcontinues⟩ := (final_continues hordered later).row key row hrow
    obtain rfl := hcontinues.terminal hterminal
    rw [hafter]
    exact ⟨hrow', refused_of_terminal hrow' hterminal⟩
  · intro key place spool hspool
    rw [hafter]
    obtain hstays | ⟨middle, sessionEpoch, rest, heq, hok⟩ := final_descriptor hordered later hspool
    · exact .inl hstays
    · refine .inr ⟨middle, sessionEpoch, rest, heq, ?_⟩
      rwa [after, final_append]
  · intro key sessionEpoch hok
    obtain ⟨journal, hok⟩ := exists_ok hok
    exact (retireTerminalSpools_eq_ok hok).1
  · intro key sessionEpoch finalization
    refine ⟨fun journal hok => ?_, fun error herror => ?_⟩
    · obtain ⟨-, hrow, hrecorded⟩ := beginFinalization_eq_ok hok
      exact ⟨phaseOf_eq_some.mpr hrow, hrecorded⟩
    rw [step, call, herror]
    rfl

open Sample in
/-- While the sample attempt runs, its acceptance is acknowledged again as it was. -/
theorem sample_acceptance_repeats :
    (Journal.after executing).accept (acceptance 9) 8 = .ok (Journal.after executing,
      ⟨"org-1", "attempt-1", 9, 4, 1⟩) := by
  refine (evidence_is_monotone [] [.transition (acceptance 9).key 4 .running (some 42)]).2.2.1
    (acceptance 9) 1 8 _ (after [.accept (acceptance 9) 1]) rfl fun key row hsame hrow => ?_
  have hbounded :
      (after executing).attempts.any (fun key _ => 9 < key.fenceToken) = false := by
    decide +kernel
  exact not_lt.mp (of_decide_eq_false (any_eq_false.mp hbounded key row hrow))

end McLoving.Agent
