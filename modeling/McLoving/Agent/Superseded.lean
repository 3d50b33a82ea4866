import McLoving.Agent.Journal

/-!
# Superseded fences

An acceptance under a higher fence takes the older rows of the attempt out of execution; a row that
waits for reconciliation may be set running again, also when its fence has been superseded.
-/

namespace McLoving.Agent

open Option History Journal

variable {journal journal' : Journal} {key : AttemptKey} {row : AttemptRow}

/-! ## Phases -/

/-- The phase of an attempt under a fence. -/
def Journal.phaseOf (journal : Journal) (key : AttemptKey) : Option AttemptPhase :=
  (journal.attempts.lookup key).map AttemptRow.phase

theorem phaseOf_eq_some {phase : AttemptPhase} : journal.phaseOf key = some phase ↔
    ∃ row, journal.attempts.lookup key = some row ∧ row.phase = phase :=
  map_eq_some_iff

/-- What a call does to the phases. -/
inductive Phases (journal : Journal) (call : JournalCall) (journal' : Journal) : Prop
  | kept (hsame : ∀ key, journal'.phaseOf key = journal.phaseOf key)
  | moved {key : AttemptKey} {row : AttemptRow} {phase : AttemptPhase}
      (hcall : call.target = some (key, row.sessionEpoch, phase))
      (hrow : journal.attempts.lookup key = some row)
      (hvalid : validTransition row.phase phase = true)
      (hphase : ∀ other, journal'.phaseOf other =
        if other = key then some phase else journal.phaseOf other)
  | accepted {acceptance : Acceptance} {now : ℕ} (hcall : call = .accept acceptance now)
      (hnone : journal.phaseOf acceptance.key = none)
      (hnewest : ∀ key, key.sameAttempt acceptance.key = true → journal.phaseOf key ≠ none →
        key.fenceToken < acceptance.fenceToken)
      (hphase : ∀ other, journal'.phaseOf other =
        if other = acceptance.key then some .accepted
        else (journal.phaseOf other).map fun phase =>
          if other.sameAttempt acceptance.key && !phase.isTerminal then .reconciliationRequired
          else phase)

variable {call : JournalCall}

/-- An acceptance under a new fence is above every row of its attempt. -/
theorem fenceToken_lt_of_latest {acceptance : Acceptance}
    (hnone : journal.attempts.lookup acceptance.key = none)
    (hnewest : ∀ newest, journal.latest acceptance.organizationId acceptance.attemptId = some newest →
      newest.1.fenceToken ≤ acceptance.fenceToken) (hsame : key.sameAttempt acceptance.key = true)
    (hrow : journal.attempts.lookup key = some row) : key.fenceToken < acceptance.fenceToken := by
  obtain ⟨horganization, hattempt⟩ := sameAttempt_iff.mp hsame
  have hne : key.fenceToken ≠ acceptance.fenceToken := by
    intro heq
    rw [eq_of_sameAttempt hsame heq, hnone] at hrow
    cases hrow
  cases hlatest : journal.latest acceptance.organizationId acceptance.attemptId with
  | none =>
    rw [lookup_of_latest_eq_none hlatest horganization hattempt] at hrow
    cases hrow
  | some newest =>
    have hle := le_latest hlatest hrow horganization hattempt
    exact lt_of_le_of_ne (hle.trans (hnewest newest hlatest)) hne

theorem Does.phases (hdoes : Does journal call journal') : Phases journal call journal' := by
  cases hdoes with
  | keeps hattempts => exact .kept fun key => by rw [phaseOf, hattempts, phaseOf]
  | @writes key _ row' hrow hattempts _ hphase =>
    have hphases (other : AttemptKey) : journal'.phaseOf other =
        if other = key then some row'.phase else journal.phaseOf other := by
      rw [phaseOf, phaseOf, hattempts]
      split
      · rfl
      · rfl
    rcases hphase with hsame | ⟨hcall, hvalid⟩
    · refine .kept fun other => (hphases other).trans ?_
      split
      · next heq => rw [heq, hsame, phaseOf, hrow, map_some]
      · rfl
    · exact .moved hcall hrow hvalid hphases
  | @accepts acceptance _ hcall hnone hnewest hjournal =>
    have hbelow {key : AttemptKey} {row : AttemptRow}
        (hsame : key.sameAttempt acceptance.key = true)
        (hrow : journal.attempts.lookup key = some row) : key.fenceToken < acceptance.fenceToken :=
      fenceToken_lt_of_latest hnone (fun newest hlatest => (hnewest newest hlatest).1) hsame hrow
    subst hjournal
    refine .accepted hcall (by rw [phaseOf, hnone, map_none])
      (fun key hsame hsome => ?_) fun other => ?_
    · obtain ⟨phase, hphase⟩ := ne_none_iff_exists'.mp hsome
      obtain ⟨row, hrow, -⟩ := phaseOf_eq_some.mp hphase
      exact hbelow hsame hrow
    · by_cases hkey : other = acceptance.key
      · rw [if_pos hkey, hkey, phaseOf, AList.lookup_insert]
        rfl
      · rw [if_neg hkey, phaseOf, AList.lookup_insert_ne hkey, supersede,
          Table.lookup_update, phaseOf]
        cases hrow : journal.attempts.lookup other with
        | none => rfl
        | some row =>
          simp only [map_some, Option.some.injEq]
          cases hsame : other.sameAttempt acceptance.key with
          | false => simp
          | true =>
            have hfence : other.fenceToken < acceptance.key.fenceToken := hbelow hsame hrow
            cases hterminal : row.phase.isTerminal with
            | false => simp [hfence]
            | true => simp

/-! ## Runs -/

/-- Whether the attempt has a row with a higher fence. -/
def Journal.isSuperseded (journal : Journal) (key : AttemptKey) : Bool :=
  journal.attempts.any fun newer _ => newer.sameAttempt key && key.fenceToken < newer.fenceToken

/-- Whether a call asks to run a row that waits for reconciliation although its fence has been
superseded. -/
def Journal.resumesSuperseded (journal : Journal) (call : JournalCall) : Bool :=
  call.target.any fun target => target.2.2 = .running && journal.isSuperseded target.1 &&
    (journal.attempts.lookup target.1).any fun row =>
      row.sessionEpoch = target.2.1 && row.phase = .reconciliationRequired

/-- Only the highest fence of an attempt executes. -/
def Fenced (journal : Journal) : Prop :=
  ∀ key newer, newer.sameAttempt key = true → key.fenceToken < newer.fenceToken →
    journal.phaseOf newer ≠ none → ∀ phase, journal.phaseOf key = some phase →
    phase.isExecuting = false

theorem Phases.phaseOf_ne_none (hphases : Phases journal call journal')
    (hsome : journal.phaseOf key ≠ none) : journal'.phaseOf key ≠ none := by
  cases hphases with
  | kept hsame => rwa [hsame]
  | moved _ _ _ hphase =>
    rw [hphase]
    split
    · exact some_ne_none _
    · exact hsome
  | accepted _ _ _ hphase =>
    rw [hphase]
    split
    · exact some_ne_none _
    · exact fun hmap => hsome (map_eq_none_iff.mp hmap)

/-- A transition into execution starts from execution or from reconciliation. -/
theorem executing_of_validTransition {source target : AttemptPhase}
    (hvalid : validTransition source target = true) (hexecuting : target.isExecuting = true) :
    target = .running ∧ (source.isExecuting = true ∨ source = .reconciliationRequired) := by
  revert hvalid hexecuting
  cases source <;> cases target <;> decide

theorem isSuperseded_eq_true {newer : AttemptKey} (hsame : newer.sameAttempt key = true)
    (hlt : key.fenceToken < newer.fenceToken) (hsome : journal.phaseOf newer ≠ none) :
    journal.isSuperseded key = true := by
  obtain ⟨phase, hphase⟩ := ne_none_iff_exists'.mp hsome
  obtain ⟨row, hrow, -⟩ := phaseOf_eq_some.mp hphase
  exact Table.any_eq_true.mpr ⟨newer, row, hrow, by simp [hsame, hlt]⟩

/-- A call that does not resume a superseded row keeps the older fences out of execution. -/
theorem Phases.fenced (hphases : Phases journal call journal')
    (hguard : journal.resumesSuperseded call = false) (hfenced : Fenced journal) :
    Fenced journal' := by
  intro key newer hsame hlt hsome phase hphase'
  cases hphases with
  | kept hkept =>
    rw [hkept] at hsome hphase'
    exact hfenced key newer hsame hlt hsome phase hphase'
  | @moved _ row _ hcall hrow hvalid hphase =>
    have hold : journal.phaseOf newer ≠ none := by
      rw [hphase] at hsome
      split at hsome
      · next heq =>
        rw [heq, phaseOf, hrow]
        exact some_ne_none _
      · exact hsome
    rw [hphase] at hphase'
    split at hphase'
    · next heq =>
      obtain rfl := Option.some.inj hphase'
      subst heq
      refine Bool.eq_false_iff.mpr fun hexecuting => ?_
      obtain ⟨rfl, hsource⟩ := executing_of_validTransition hvalid hexecuting
      have hstill := hfenced key newer hsame hlt hold row.phase
        (phaseOf_eq_some.mpr ⟨row, hrow, rfl⟩)
      rcases hsource with hsource | hsource
      · rw [hstill] at hsource
        cases hsource
      · have hsuperseded := isSuperseded_eq_true hsame hlt hold
        simp [resumesSuperseded, hcall, hrow, hsource, hsuperseded] at hguard
    · exact hfenced key newer hsame hlt hold phase hphase'
  | @accepted acceptance _ _ _ hnewest hphase =>
    rw [hphase] at hphase' hsome
    split at hphase'
    · next heq =>
      subst heq
      rw [if_neg (fun heq => by rw [heq] at hlt; exact lt_irrefl _ hlt)] at hsome
      have hbelow := hnewest newer hsame fun hgone => hsome (by rw [hgone, map_none])
      exact absurd (hbelow.trans hlt) (lt_irrefl _)
    · obtain ⟨old, hold, rfl⟩ := map_eq_some_iff.mp hphase'
      cases hattempt : key.sameAttempt acceptance.key with
      | true =>
        cases hterminal : old.isTerminal with
        | false => rfl
        | true =>
          revert hterminal
          cases old <;> decide
      | false =>
        have hne : newer ≠ acceptance.key := by
          rintro rfl
          rw [sameAttempt_iff] at hsame
          rw [← Bool.not_eq_true, sameAttempt_iff] at hattempt
          exact hattempt ⟨hsame.1.symm, hsame.2.symm⟩
        rw [if_neg hne] at hsome
        rw [Bool.false_and, if_neg Bool.false_ne_true]
        exact hfenced key newer hsame hlt
          (fun hgone => hsome (by rw [hgone, map_none])) old hold

theorem fenced_initial : Fenced .initial := by
  intro key newer hsame hlt hsome
  exact absurd rfl hsome

/-- Only the highest fence of an attempt executes after calls that resume no superseded row. -/
theorem fenced_after {calls : List JournalCall} (halong : History.Along Journal.step
      (fun journal call => journal.resumesSuperseded call = false) .initial calls) :
    Fenced (Journal.after calls) :=
  relation_of_along (r := fun journal journal' => Fenced journal → Fenced journal')
    (fun _ => id) (fun hfirst hsecond => hsecond ∘ hfirst)
    (fun journal call hguard => (step_does journal call).phases.fenced hguard) halong fenced_initial

theorem phaseOf_final_ne_none {calls : List JournalCall} (hsome : journal.phaseOf key ≠ none) :
    (History.final Journal.step journal calls).phaseOf key ≠ none :=
  @History.invariant _ _ step (fun journal => journal.phaseOf key ≠ none)
    (fun journal call hsome => (step_does journal call).phases.phaseOf_ne_none hsome)
    journal hsome calls

/-- If no call asks to run a superseded row that waits for reconciliation, then after an acceptance
no row of the attempt with a lower fence is accepted or running, and no two fences of an attempt
execute. -/
theorem superseded_fence_not_executing {calls : List JournalCall}
    (halong : History.Along Journal.step
      (fun journal call => journal.resumesSuperseded call = false) .initial calls) :
    (∀ before acceptance now later, calls = before ++ .accept acceptance now :: later →
      ((Journal.after before).accept acceptance now).isOk = true →
      ∀ key row, key.sameAttempt acceptance.key = true → key.fenceToken < acceptance.fenceToken →
        (Journal.after calls).attempts.lookup key = some row → row.phase.isExecuting = false) ∧
    ∀ key key' row row', key.sameAttempt key' = true →
      (Journal.after calls).attempts.lookup key = some row →
      (Journal.after calls).attempts.lookup key' = some row' →
      row.phase.isExecuting = true → row'.phase.isExecuting = true → key = key' := by
  have hfenced := fenced_after halong
  refine ⟨?_, ?_⟩
  · intro before acceptance now later hcalls hok key row hsame hlt hrow
    obtain ⟨⟨journal', ack⟩, hok⟩ := Except.exists_ok hok
    have hsome : (after calls).phaseOf acceptance.key ≠ none := by
      have hstep : (after before).step (.accept acceptance now) = journal' := by
        rw [step, call, hok]
        rfl
      rw [hcalls, after, final_append, final_cons, ← after, hstep]
      obtain ⟨-, -, row, hrow, -⟩ := accept_eq_ok hok
      refine phaseOf_final_ne_none ?_
      rw [phaseOf, hrow]
      exact some_ne_none _
    have hsame' : acceptance.key.sameAttempt key = true := by
      rw [sameAttempt_iff] at hsame ⊢
      exact ⟨hsame.1.symm, hsame.2.symm⟩
    exact hfenced key acceptance.key hsame' hlt hsome row.phase (phaseOf_eq_some.mpr ⟨row, hrow, rfl⟩)
  · intro key key' row row' hsame hrow hrow' hexecuting hexecuting'
    obtain ⟨horganization, hattempt⟩ := sameAttempt_iff.mp hsame
    have hphase := phaseOf_eq_some.mpr ⟨row, hrow, rfl⟩
    have hphase' := phaseOf_eq_some.mpr ⟨row', hrow', rfl⟩
    have hsame' : key'.sameAttempt key = true :=
      sameAttempt_iff.mpr ⟨horganization.symm, hattempt.symm⟩
    rcases Nat.lt_trichotomy key.fenceToken key'.fenceToken with hlt | heq | hgt
    · have hnot := hfenced key key' hsame' hlt (by rw [hphase']; exact some_ne_none _)
        row.phase hphase
      rw [hexecuting] at hnot
      cases hnot
    · exact eq_of_sameAttempt hsame heq
    · have hnot := hfenced key' key hsame hgt (by rw [hphase]; exact some_ne_none _)
        row'.phase hphase'
      rw [hexecuting'] at hnot
      cases hnot

namespace Sample

/-- An acceptance of one attempt. -/
def acceptance (fenceToken : ℕ) : Acceptance :=
  ⟨"org-1", "attempt-1", fenceToken, 4, .replicate 7, "org-1/attempt-1"⟩

/-- The attempt runs under one fence. -/
def executing : List JournalCall :=
  [.accept (acceptance 9) 1, .transition (acceptance 9).key 4 .running (some 42)]

/-- The attempt is accepted under the next fence. -/
def superseding : List JournalCall :=
  executing ++ [.accept (acceptance 10) 2]

/-- The superseded row is set running again. -/
def resuming : List JournalCall :=
  superseding ++ [.transition (acceptance 9).key 4 .running (some 43)]

end Sample

open Sample in
/-- Under the higher fence the older row of the sample attempt waits for reconciliation. -/
theorem superseding_fence_not_executing :
    (∀ row, (Journal.after superseding).attempts.lookup (acceptance 9).key = some row →
      row.phase.isExecuting = false) ∧
    ((Journal.after superseding).attempts.lookup (acceptance 10).key).map AttemptRow.phase =
      some .accepted := by
  refine ⟨fun row hrow => ?_, by decide +kernel⟩
  have halong : History.Along step
      (fun journal call => journal.resumesSuperseded call = false) .initial superseding := by
    refine ⟨by decide +kernel, by decide +kernel, by decide +kernel, trivial⟩
  exact (superseded_fence_not_executing halong).1 executing (acceptance 10) 2 [] rfl
    (by decide +kernel)
    (acceptance 9).key row (by decide) (by decide) hrow

open Sample in
/-- The superseded row of the sample attempt is set running again while the newer one is accepted:
both fences execute. -/
theorem superseded_fence_resumed :
    ((Journal.after superseding).transition (acceptance 9).key 4 .running (some 43)).isOk = true ∧
    ((Journal.after resuming).attempts.lookup (acceptance 9).key).map AttemptRow.phase =
      some .running ∧
    ((Journal.after resuming).attempts.lookup (acceptance 10).key).map AttemptRow.phase =
      some .accepted := by
  decide +kernel

end McLoving.Agent
