import McLoving.Safety.Ledger

/-!
# No attempt is closed over an open effect

The two calls that publish an outcome read the ledger first, and what they let pass is settled.
What earlier fences left behind was given up when the attempt returned to the queue, so no later
call finds an effect of the closed attempt that it could still write.
-/

namespace McLoving

open Option

/-- A confirmed effect with its receipts, and with the decision on an ambiguous outcome. -/
structure EffectRow.IsComplete (e : EffectRow) : Prop where
  status : e.status = .confirmed
  outcome : e.outcomeReceipt.isSome = true
  observation : e.observationReceipt.isSome = true
  shadowReplay : e.shadowReplayReceipt.isSome = true
  reconciliation : e.outcomeReceipt.any
      (fun r => r.receipt.textField "status" = some "ambiguous") = true →
    e.reconciliationReceipt.isSome = true

/-- An effect over which an attempt may end in the status. -/
structure EffectRow.SettledFor (e : EffectRow) (status : AttemptStatus) : Prop where
  certain : e.status ≠ .uncertain ∧ e.status ≠ .releasePending
  prepared : e.isControllerPrepared = true →
    (e.status = .abandoned ∧ status ≠ .succeeded) ∨ e.IsComplete

/-- The checks of the two closing calls. -/
theorem EffectRow.settledFor_of_checks {e : EffectRow} {outcome : TerminalOutcome}
    (hresolved : e.isUnresolved = false) (hcomplete : e.isIncomplete outcome = false) :
    e.SettledFor outcome.attemptStatus := by
  simp only [isUnresolved, Bool.or_eq_false_iff, decide_eq_false_iff_not] at hresolved
  refine ⟨hresolved, fun hprepared => ?_⟩
  simp only [isIncomplete, hprepared, Bool.true_and, Bool.or_eq_false_iff, Bool.and_eq_false_iff,
    decide_eq_false_iff_not, ne_eq, Decidable.not_not, isNone_eq_false_iff] at hcomplete
  obtain ⟨hsucceeded, hrest⟩ := hcomplete
  by_cases habandoned : e.status = .abandoned
  · refine .inl ⟨habandoned, ?_⟩
    rcases hsucceeded with h | h
    · exact absurd habandoned h
    · cases outcome <;> simp_all [TerminalOutcome.attemptStatus]
  · obtain ⟨⟨⟨⟨hconfirmed, hout⟩, hobs⟩, hshadow⟩, hambiguous⟩ := hrest.resolve_left habandoned
    refine .inr ⟨hconfirmed, hout, hobs, hshadow, fun h => ?_⟩
    rcases hambiguous with hno | hsome
    · rw [hno] at h
      cases h
    · exact hsome

/-- An effect that a release can still write. -/
def EffectRow.IsReleasable (e : EffectRow) : Prop :=
  Store.isUndispatched e = true ∧
    (e.status = .prepared ∨ e.status = .uncertain ∨ e.status = .releasePending)

/-- A settled effect is not releasable. -/
theorem EffectRow.SettledFor.not_isReleasable {e : EffectRow} {status : AttemptStatus}
    (hsettled : e.SettledFor status) : ¬ e.IsReleasable := by
  rintro ⟨hundispatched, hfrom⟩
  simp only [Store.isUndispatched, Bool.and_eq_true, Bool.not_eq_true'] at hundispatched
  obtain ⟨⟨hevidence, -⟩, hprepared⟩ := hundispatched
  rcases hsettled.prepared hprepared with ⟨habandoned, -⟩ | hcomplete
  · simp [habandoned] at hfrom
  · simp [EffectRow.hasEvidence, hcomplete.outcome] at hevidence

namespace Store

variable {own : Prop} {s s' : Store} {a : Uuid}

/-! ## Earlier fences -/

/-- What must not be repeated was given up at every fence but the attempt's own, and at all of them
while the attempt waits in the queue. -/
def GivesUp (s : Store) : Prop :=
  ∀ id e r, s.effects.lookup id = some e → s.attempts.lookup id.attemptId = some r →
    e.isProtected = true → (id.fence ≠ r.fence ∨ r.status = .queued) → e.status = .abandoned

/-- A step of the attempt leaves behind only what was given up. -/
theorem GivesUp.attemptStep (hold : s.GivesUp) {id : EffectId} {e : EffectRow}
    {r r' : AttemptRow} (he : s.effects.lookup id = some e)
    (hr : s.attempts.lookup id.attemptId = some r) (hstep : s.AttemptStep id.attemptId r r')
    (hprotected : e.isProtected = true) (hleft : id.fence ≠ r'.fence ∨ r'.status = .queued) :
    e.status = .abandoned := by
  cases hstep with
  | keep heq => exact hold id e r he hr hprotected (by rwa [heq] at hleft)
  | offer hqueued => exact hold id e r he hr hprotected (.inr hqueued)
  | lease _ hlive' heq =>
    refine hold id e r he hr hprotected (.inl ?_)
    rcases hleft with hfence | hqueued
    · rwa [heq] at hfence
    · simp [hqueued, AttemptStatus.isLive] at hlive'
  | park _ heq =>
    subst heq
    exact hold id e r he hr hprotected (.inl (hleft.resolve_right (by simp)))
  | @close outcome _ _ _ heq =>
    subst heq
    refine hold id e r he hr hprotected (.inl (hleft.resolve_right ?_))
    cases outcome <;> simp [AttemptRow.closed, TerminalOutcome.attemptStatus]
  | requeue _ hclean =>
    by_cases hfence : id.fence = r.fence
    · exact hclean id e he rfl hfence hprotected
    · exact hold id e r he hr hprotected (.inl hfence)

/-- A change keeps what is given up. -/
theorem Change.givesUp (hchange : Change own s s') (hco : s.Coherent) (hold : s.GivesUp) :
    s'.GivesUp := by
  intro id e' r' he' hr' hprotected hleft
  rcases he : s.effects.lookup id with _ | e
  · -- A new effect belongs to the executing attempt's own fence.
    rcases hchange.effects_eq_or_ledger with hsame | ⟨hledger, -⟩
    · rw [hsame, he] at he'
      cases he'
    · obtain ⟨-, -, -, r, hr, hexec, hfence⟩ := hledger.fresh he' he
      rw [hledger.rest] at hr'
      obtain rfl := mem_unique hr hr'
      rcases hleft with hne | hqueued
      · exact absurd hfence.symm hne
      · simp [hqueued, AttemptStatus.isExecuting] at hexec
  · obtain ⟨r, hr, -, -⟩ := hco.effect he
    obtain ⟨r'', hr'', hstep⟩ := hchange.attempt hco hr
    obtain rfl := mem_unique hr'' hr'
    obtain ⟨e'', he'', hwrite⟩ := hchange.effect he
    obtain rfl := mem_unique he'' he'
    have hforward := hwrite.forward
    have hprotected' : e.isProtected = true := by
      simpa [EffectRow.isProtected, EffectRow.isControllerPrepared, hforward.effectClass,
        hforward.payload] using hprotected
    have habandoned := hold.attemptStep he hr hstep hprotected' hleft
    exact (hforward.abandoned habandoned) ▸ habandoned

/-- It holds in every reachable store. -/
theorem Reachable.givesUp [Platform] (hreach : s.Reachable) : s.GivesUp := by
  obtain ⟨organizationId, hrun⟩ := hreach
  refine invariant_of_any_run (fun hco hchange hold => hchange.givesUp hco hold) hrun
    (coherent_initial organizationId) ?_
  intro id e r he
  cases he

/-! ## Closed attempts -/

/-- The attempt is closed and no release can write its effects. -/
def Sealed (s : Store) (a : Uuid) : Prop :=
  (∃ r, s.attempts.lookup a = some r ∧ r.status.isTerminal = true) ∧
    ∀ id e, s.effects.lookup id = some e → id.attemptId = a → ¬ e.IsReleasable

/-- No write is open to an effect of a sealed attempt. -/
theorem Sealed.eq_of_write (hsealed : s.Sealed a) {id : EffectId} {e e' : EffectRow}
    (he : s.effects.lookup id = some e) (hid : id.attemptId = a) (hwrite : EffectWrite s id e e') :
    e' = e := by
  obtain ⟨⟨r, hr, hterminal⟩, hlocked⟩ := hsealed
  subst hid
  have hclosed : ∀ r', s.attempts.lookup id.attemptId = some r' → r'.status.isOpen = false := by
    intro r' hr'
    obtain rfl := mem_unique hr hr'
    cases hstatus : r.status <;> simp_all [AttemptStatus.isOpen, AttemptStatus.isLive,
      AttemptStatus.isTerminal]
  cases hwrite with
  | keep heq => exact heq
  | advance hr' hopen => simp [hclosed _ hr'] at hopen
  | commit hx hexec =>
    have hopen := isOpen_of_isExecuting hexec
    simp [hclosed _ hx.attempt] at hopen
  | evidence hr' hopen => simp [hclosed _ hr'] at hopen
  | release hundispatched hfrom => exact absurd ⟨hundispatched, hfrom⟩ (hlocked id e he rfl)

/-- A change leaves every effect of a sealed attempt, and adds none. -/
theorem Change.sealed_effect (hchange : Change own s s') (hsealed : s.Sealed a) {id : EffectId}
    (hid : id.attemptId = a) : s'.effects.lookup id = s.effects.lookup id := by
  rcases he : s.effects.lookup id with _ | e
  · rcases hchange.effects_eq_or_ledger with hsame | ⟨hledger, -⟩
    · rw [hsame, he]
    · rcases he' : s'.effects.lookup id with _ | e'
      · rfl
      · obtain ⟨-, -, -, r, hr, hexec, -⟩ := hledger.fresh he' he
        obtain ⟨⟨r', hr', hterminal⟩, -⟩ := hsealed
        obtain rfl := mem_unique (hid ▸ hr') hr
        cases hstatus : r'.status <;> simp_all [AttemptStatus.isExecuting, AttemptStatus.isTerminal]
  · obtain ⟨e', he', hwrite⟩ := hchange.effect he
    rw [he', hsealed.eq_of_write he hid hwrite]

theorem Change.sealed (hchange : Change own s s') (hco : s.Coherent) (hsealed : s.Sealed a) :
    s'.Sealed a := by
  obtain ⟨r, hr, hterminal⟩ := hsealed.1
  obtain ⟨r', hr', heq⟩ := hchange.keepsClosed hco a r hr hterminal
  refine ⟨⟨r', hr', by rw [heq]; exact hterminal⟩, fun id e he hid => ?_⟩
  exact hsealed.2 id e (hchange.sealed_effect hsealed hid ▸ he) hid

/-- Along every run the effects of a sealed attempt stay as they are. -/
theorem Sealed.effect_of_run [Platform] (hsealed : s.Sealed a) (hco : s.Coherent)
    (hrun : Run s s') {id : EffectId} (hid : id.attemptId = a) :
    s'.effects.lookup id = s.effects.lookup id := by
  have hboth : s'.Sealed a ∧ s'.effects.lookup id = s.effects.lookup id := by
    let inv (t : Store) : Prop := t.Sealed a ∧ t.effects.lookup id = s.effects.lookup id
    have hstep : ∀ {t t' : Store}, t.Coherent → Change True t t' → inv t → inv t' :=
      fun hco hchange hinv => ⟨hchange.sealed hco hinv.1,
        (hchange.sealed_effect hinv.1 hid).trans hinv.2⟩
    exact invariant_of_any_run hstep hrun hco ⟨hsealed, rfl⟩
  exact hboth.2

open Except

/-! ## Publication leaves the ledger -/

theorem deriveBuildOutcome_effects (s : Store) (now : Timestamp) (buildId : Uuid) :
    (s.deriveBuildOutcome now buildId).effects = s.effects := by
  unfold deriveBuildOutcome
  split
  · rfl
  · simp only
    split
    · split
      · rfl
      · obtain ⟨notifications, new, heq, -⟩ := recordTerminalNotifications_eq
          (s.modifyBuild buildId _) now buildId _
        rw [heq]
        rfl
    · rfl

theorem advanceBlockedRounds_effects (s : Store) (now : Timestamp) (buildId : Uuid) (rounds : ℕ) :
    (advanceBlockedRounds now buildId rounds s).effects = s.effects := by
  induction rounds generalizing s with
  | zero => rfl
  | succ _ ih =>
    have hnext : ((s.skipImpossibleNodes now buildId).queueReadyNodes now buildId).effects =
        s.effects := by
      unfold skipImpossibleNodes
      simp only
      split <;> rfl
    rw [advanceBlockedRounds]
    split
    · rw [ih, hnext]
    · exact hnext

theorem settleDagNode_effects (s : Store) (now : Timestamp) (attemptId : Uuid)
    (attempt : AttemptRow) (node : NodeRow) (outcome : TerminalOutcome) :
    (s.settleDagNode now attemptId attempt node outcome).effects = s.effects := by
  rw [settleDagNode_eq, afterSettlement]
  split
  · simp only [appendEvent_effects, deriveBuildOutcome_effects, fenceUnstartedDagWork,
      updateAttemptsJoin_effects, updateNodes_effects, modifyNode]
  · simp only [appendEvent_effects, deriveBuildOutcome_effects, advanceBlockedNodes,
      advanceBlockedRounds_effects]
    split
    · simp only [stopActiveNodes, markUnstartedSkipped, updateAttemptsJoin_effects,
        updateNodes_effects, modifyNode]
    · rw [modifyNode, updateNodes_effects]

variable {now : Timestamp} {retryId : Uuid} {outcome : TerminalOutcome}

/-- Advancing a DAG leaves the effects. -/
theorem advanceDagAfterAttempt_effects {answer : Bool}
    (hok : s.advanceDagAfterAttempt now retryId a outcome = .ok (s', answer)) :
    s'.effects = s.effects := by
  unfold advanceDagAfterAttempt at hok
  split at hok
  · cases hok
  split at hok
  · rw [(Prod.mk.inj (ok.inj hok)).1]
  split at hok
  · split at hok
    · next retried hretry =>
      obtain ⟨inserted, hinsert, hretry⟩ := bind_eq_ok.mp hretry
      rw [← (Prod.mk.inj (ok.inj hok)).1, ← ok.inj hretry,
        deriveBuildOutcome_effects, (insertAttempt_eq_ok hinsert).2]
      rfl
    · cases hok
  split at hok
  · rw [(Prod.mk.inj (ok.inj hok)).1]
  · rw [← (Prod.mk.inj (ok.inj hok)).1, settleDagNode_effects]

theorem publishOutcome_effects (hok : s.publishOutcome now retryId a outcome = .ok s') :
    s'.effects = s.effects := by
  unfold publishOutcome at hok
  split at hok
  · cases hok
  · next hadvance => rw [← ok.inj hok, advanceDagAfterAttempt_effects hadvance]
  · next hadvance =>
    split at hok
    · cases hok
    · have heffects := advanceDagAfterAttempt_effects hadvance
      rw [← ok.inj hok]
      exact heffects

/-- So does a publication. -/
theorem publishTerminal_effects [Platform] {authority : LeaseAuthority} {attempt : AttemptRow}
    {node : NodeRow} {summary : Json} {transfer : Option WorkspaceTransferResult}
    (hok : s.publishTerminal now retryId authority attempt node outcome summary transfer = .ok s') :
    s'.effects = s.effects := by
  obtain ⟨committed, hcommit, hok⟩ := bind_eq_ok.mp hok
  obtain ⟨recorded, hrecord, hok⟩ := bind_eq_ok.mp hok
  obtain ⟨published, hpublish, hok⟩ := bind_eq_ok.mp hok
  calc s'.effects = published.effects := by rw [← ok.inj hok]; rfl
    _ = recorded.effects := publishOutcome_effects hpublish
    _ = committed.effects := (recordIfSucceeded_eq_ok hrecord).frame.effects
    _ = s.effects := (commitWorkspace_eq_ok hcommit).frame.effects

/-- And so does a decision. -/
theorem publishReconciled_effects {attempt : AttemptRow} {node : NodeRow} {actor : String}
    {summary : Json}
    (hok : s.publishReconciled now retryId a attempt node actor outcome summary = .ok s') :
    s'.effects = s.effects := by
  obtain ⟨recorded, hrecord, hok⟩ := bind_eq_ok.mp hok
  obtain ⟨published, hpublish, hok⟩ := bind_eq_ok.mp hok
  calc s'.effects = published.effects := by rw [← ok.inj hok]; rfl
    _ = recorded.effects := publishOutcome_effects hpublish
    _ = s.effects := (recordIfSucceeded_eq_ok hrecord).frame.effects

end Store

/-! ## What the closing calls check -/

/-- The attempt that a publication or a decision is about. -/
def Op.publishes : Op → Option Uuid
  | .finalizeAttempt _ _ authority _ _ _ _ => some authority.attemptId
  | .finalizeReconciledAttempt _ _ attemptId _ _ _ _ => some attemptId
  | _ => none

/-- The effects that a publication or a decision checks: those of the authority's fence, or those of
all fences of the attempt. -/
def Op.checks : Op → EffectId → Bool
  | .finalizeAttempt _ _ authority _ _ _ _, id =>
    id.attemptId = authority.attemptId && id.fence = authority.fence
  | .finalizeReconciledAttempt _ _ attemptId _ _ _ _, id => id.attemptId = attemptId
  | _, _ => false

namespace Store

variable {s s' : Store} {a : Uuid}

/-- A call that closes the attempt over settled effects. -/
structure ClosesOver [Platform] (s : Store) (op : Op) (a : Uuid) (x : Rows)
    (outcome : TerminalOutcome) : Prop where
  holds : s.Holds a x
  closed : ∃ summary expiry, Closes True s a (x.attempt.closed outcome summary expiry) (s.step op)
  effects : (s.step op).effects = s.effects
  settled : ∀ id e, s.effects.lookup id = some e → op.checks id = true →
    e.SettledFor outcome.attemptStatus
  /-- The effects that are not checked belong to other fences. -/
  checked : ∀ id, id.attemptId = a → op.checks id = false → id.fence ≠ x.attempt.fence

variable {outcome : TerminalOutcome} {op : Op}

/-- A publication that closes its attempt closes it over settled effects. -/
theorem closesOver_finalizeAttempt [Platform] (hco : s.Coherent) {now : Timestamp} {retryId : Uuid}
    {authority : LeaseAuthority} {session : Option ℕ} {summary : Json} {aborts : Bool}
    (hop : op = .finalizeAttempt now retryId authority session outcome summary aborts)
    (hchanges : (s.step op).attempts.lookup authority.attemptId ≠
      s.attempts.lookup authority.attemptId)
    (hclosed : ∀ r', (s.step op).attempts.lookup authority.attemptId = some r' →
      r'.status.isTerminal = true) :
    ∃ x published, s.ClosesOver op authority.attemptId x published := by
  subst hop
  simp only [step] at hchanges hclosed
  rcases hok : s.finalizeAttempt now retryId authority session outcome summary aborts with
    error | ⟨t, answer⟩
  · rw [hok] at hchanges
    exact absurd rfl hchanges
  have hstep :
      s.step (.finalizeAttempt now retryId authority session outcome summary aborts) = t := by
    rw [step, hok]
    rfl
  rw [hok] at hchanges hclosed
  cases finalizeAttempt_cases hok with
  | refused => exact absurd rfl hchanges
  | replayed => exact absurd rfl hchanges
  | @parked x hexec =>
    have hrow : (s.parkTerminal now authority x.attempt x.node
        (publishedOutcome x outcome aborts)
        (s.countUncertain authority.attemptId authority.fence)).attempts.lookup
          authority.attemptId = some { x.attempt with
            status := .reconciliationRequired, leaseOwner := none, leaseExpiresAt := none } := by
      exact (Table.lookup_modify_of_eq hexec.holds.attempt _ _).trans (if_pos rfl)
    have hterminal := hclosed _ hrow
    simp [AttemptStatus.isTerminal] at hterminal
  | @published x _ _ _ hexec _ hcertain hcomplete hpublish =>
    have hcloses : Closes True s authority.attemptId _ t := closes_publishTerminal hco hexec.holds
      (hco.not_superseded_of_isLive hexec.holds.attempt (isLive_of_isExecuting hexec.executing))
      (isOpen_of_isExecuting hexec.executing) rfl hexec.lease hpublish
    refine ⟨x, _, hexec.holds, ⟨_, _, hstep ▸ hcloses⟩,
      hstep ▸ publishTerminal_effects hpublish, ?_, ?_⟩
    · intro id e he hchecks
      simp only [Op.checks] at hchecks
      rw [countUncertain, Table.count_eq_zero] at hcertain
      rw [Table.any_eq_false] at hcomplete
      refine EffectRow.settledFor_of_checks ?_ ?_
      · simpa [hchecks, EffectRow.isUnresolved] using hcertain id e he
      · simpa [hchecks] using hcomplete id e he
    · intro id hid hunchecked
      have hfence : x.attempt.fence = authority.fence := by
        have hlease := hexec.lease
        simp only [holdsLease, Bool.and_eq_true, decide_eq_true_eq] at hlease
        exact hlease.1.1.1
      simpa [Op.checks, hid, hfence] using hunchecked

/-- A decision that closes its attempt closes it over settled effects. -/
theorem closesOver_finalizeReconciledAttempt [Platform] (hco : s.Coherent) {now : Timestamp}
    {retryId : Uuid} {fence : ℤ} {actor : String} {summary : Json}
    (hop : op = .finalizeReconciledAttempt now retryId a fence actor outcome summary)
    (hchanges : (s.step op).attempts.lookup a ≠ s.attempts.lookup a) :
    ∃ x, s.ClosesOver op a x outcome := by
  subst hop
  simp only [step] at hchanges
  rcases hok : s.finalizeReconciledAttempt now retryId a fence actor outcome summary with
    error | ⟨t, answer⟩
  · rw [hok] at hchanges
    exact absurd rfl hchanges
  have hstep : s.step (.finalizeReconciledAttempt now retryId a fence actor outcome summary) =
      t := by
    rw [step, hok]
    rfl
  rw [hok] at hchanges
  cases finalizeReconciledAttempt_cases hok with
  | refused => exact absurd rfl hchanges
  | replayed => exact absurd rfl hchanges
  | @published x _ hreconcilable hverified _ hpublish =>
    have hopen : x.attempt.status.isOpen = true := by
      simp [AttemptStatus.isOpen, hreconcilable.parked]
    have hcloses : Closes True s a _ t := closes_publishReconciled hco
      hreconcilable.holds hreconcilable.current hopen hverified hpublish
    refine ⟨x, hreconcilable.holds, ⟨_, _, hstep ▸ hcloses⟩,
      hstep ▸ publishReconciled_effects hpublish, ?_, ?_⟩
    · intro id e he hchecks
      simp only [Op.checks] at hchecks
      have hresolved := Table.any_eq_false.mp hreconcilable.resolved id e he
      simp only [hchecks, Bool.true_and, Bool.or_eq_false_iff] at hresolved
      exact EffectRow.settledFor_of_checks hresolved.1 hresolved.2
    · intro id hid hunchecked
      simp [Op.checks, hid] at hunchecked

/-- A call that closes an attempt over settled effects seals it. -/
theorem ClosesOver.sealed [Platform] {x : Rows} (hcloses : s.ClosesOver op a x outcome)
    (hco : s.Coherent) (hgives : s.GivesUp) :
    (s.step op).Sealed a ∧ ∀ r', (s.step op).attempts.lookup a = some r' →
      r'.status = outcome.attemptStatus := by
  obtain ⟨summary, expiry, hpath⟩ := hcloses.closed
  obtain ⟨expiry', hrow⟩ := hpath.closed hco
  refine ⟨⟨⟨_, hrow, by cases outcome <;> rfl⟩, fun id e he hid => ?_⟩, fun r' hr' => ?_⟩
  · rw [hcloses.effects] at he
    cases hchecks : op.checks id with
    | true => exact (hcloses.settled id e he hchecks).not_isReleasable
    | false =>
      rintro ⟨hundispatched, hfrom⟩
      have hprotected : e.isProtected = true := by
        simp only [isUndispatched, Bool.and_eq_true] at hundispatched
        simp [EffectRow.isProtected, hundispatched.2]
      have hattempt : s.attempts.lookup id.attemptId = some x.attempt := hid ▸ hcloses.holds.attempt
      have habandoned := hgives id e _ he hattempt hprotected
        (.inl (hcloses.checked id hid hchecks))
      simp [habandoned] at hfrom
  · rw [← Option.mem_unique hrow hr']
    rfl

/-- **No attempt is closed over an open effect.**  When a publication or a decision closes its
attempt, the effects it checks are certain, and every runtime effect among them is abandoned, if the
attempt did not succeed, or confirmed with its receipts.  From then on no call changes, adds or
removes an effect of the attempt. -/
theorem closed_attempt_effects_settled [Platform] (hreach : s.Reachable) {op : Op}
    (hop : op.publishes = some a) {r r' : AttemptRow} (hr : s.attempts.lookup a = some r)
    (hopen : r.status.isTerminal = false) (hr' : (s.step op).attempts.lookup a = some r')
    (hclosed : r'.status.isTerminal = true) :
    (∀ id e, (s.step op).effects.lookup id = some e → op.checks id = true →
      e.SettledFor r'.status) ∧
    ∀ t, Run (s.step op) t → ∀ id, id.attemptId = a →
      t.effects.lookup id = (s.step op).effects.lookup id := by
  have hco := hreach.coherent
  have hchanges : (s.step op).attempts.lookup a ≠ s.attempts.lookup a := by
    rw [hr, hr']
    rintro heq
    rw [Option.some.inj heq, hopen] at hclosed
    cases hclosed
  obtain ⟨x, outcome, hcloses⟩ : ∃ x outcome, s.ClosesOver op a x outcome := by
    cases op with
    | finalizeAttempt =>
      obtain rfl := Option.some.inj hop
      refine closesOver_finalizeAttempt hco rfl hchanges fun r'' hr'' => ?_
      rwa [Option.mem_unique hr'' hr']
    | finalizeReconciledAttempt _ _ _ _ _ outcome =>
      obtain rfl := Option.some.inj hop
      obtain ⟨x, hcloses⟩ := closesOver_finalizeReconciledAttempt hco rfl hchanges
      exact ⟨x, outcome, hcloses⟩
    | _ => cases hop
  obtain ⟨hsealed, hstatus⟩ := hcloses.sealed hco hreach.givesUp
  refine ⟨fun id e he hchecks => ?_, fun t hrun id hid => ?_⟩
  · rw [hstatus r' hr']
    exact hcloses.settled id e (hcloses.effects ▸ he) hchecks
  · have hrun₁ : Run s (s.step op) := Transition.Run.single trivial
    exact hsealed.effect_of_run (hco.run hrun₁) hrun hid

namespace Sample

/-- A runtime effect of attempt 102 that its agent gives up. -/
def givenUp : List Op :=
  admitted ++ [.claimNext 10 request none, .acceptOffer 10 (authority 102) none,
    runtime .prepared, runtime .abandoned]
where
  /-- A checkpoint of a runtime effect. -/
  runtime (status : EffectStatus) : Op :=
    .checkpointEffect 10 (authority 102) "e" .nonIdempotent status
      (.obj [("schema_version", .str controllerEffectSchema)])

/-- The publication of a failure of attempt 102. -/
def failure : Op :=
  .finalizeAttempt 10 900 (authority 102) none .failed .null true

end Sample

open Sample in
/-- A failure is published over a runtime effect that was given up. -/
theorem closed_attempt_effects_settled_given_up :
    let t := @step platform (stateAfter givenUp) failure
    ∃ e, t.effects.lookup ⟨102, 1, "e"⟩ = some e ∧ e.isControllerPrepared = true ∧
      e.SettledFor .failed := by
  intro t
  have hbefore : ((stateAfter givenUp).attempts.lookup 102).map AttemptRow.status =
      some .accepted := by decide +kernel
  have hafter : (t.attempts.lookup 102).map AttemptRow.status = some .failed := by decide +kernel
  have heffect : (t.effects.lookup ⟨102, 1, "e"⟩).map EffectRow.isControllerPrepared =
      some true := by decide +kernel
  obtain ⟨r, hr, hstatus⟩ := Option.map_eq_some_iff.mp hbefore
  obtain ⟨r', hr', hstatus'⟩ := Option.map_eq_some_iff.mp hafter
  obtain ⟨e, he, hprepared⟩ := Option.map_eq_some_iff.mp heffect
  have hsettled := (@closed_attempt_effects_settled _ _ platform
    (@reachable_runOps platform 9 givenUp) failure rfl r r' hr (by rw [hstatus]; rfl) hr'
    (by rw [hstatus']; rfl)).1 _ e he (by decide)
  exact ⟨e, he, hprepared, hstatus' ▸ hsettled⟩

end Store

end McLoving
