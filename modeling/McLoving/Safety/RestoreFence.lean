import McLoving.Safety.Ledger

/-!
# Restore activation fences the past

Activating a restore raises the controller's epoch and parks every attempt under a lease, with its
open effects uncertain.  Later leases are of the new epoch, and a call that presents an earlier one
changes nothing, except that a refused renewal is named in the build's events.
-/

namespace McLoving

namespace Store

variable {own : Prop} {s s' : Store}

/-! ## Later leases -/

/-- The epoch only grows, and activations stay on record. -/
structure EpochsGrow (s s' : Store) : Prop where
  le : s.restoreEpoch ≤ s'.restoreEpoch
  kept : ∀ id row, s.restoreEpochs.lookup id = some row → s'.restoreEpochs.lookup id = some row

namespace EpochsGrow

theorem refl (s : Store) : s.EpochsGrow s := ⟨le_refl _, fun _ _ hrow => hrow⟩

theorem trans {s'' : Store} (hfst : s.EpochsGrow s') (hsnd : s'.EpochsGrow s'') :
    s.EpochsGrow s'' :=
  ⟨hfst.le.trans hsnd.le, fun id row hrow => hsnd.kept id row (hfst.kept id row hrow)⟩

theorem of_sameRest (hrest : s.SameRest s') : s.EpochsGrow s' :=
  ⟨le_of_eq hrest.restoreEpoch.symm, fun _ _ hrow => hrest.restoreEpochs ▸ hrow⟩

end EpochsGrow

theorem Change.epochsGrow (hchange : Change own s s') : s.EpochsGrow s' := by
  cases hchange with
  | frame hframe => exact .of_sameRest hframe.toSameRest
  | pipelines hadvance =>
    rw [hadvance.rest]
    exact ⟨le_refl _, fun _ _ hrow => hrow⟩
  | ledger hledger =>
    rw [hledger.rest]
    exact ⟨le_refl _, fun _ _ hrow => hrow⟩
  | epoch hkept hs =>
    refine ⟨?_, hkept⟩
    rw [hs]
    exact Int.le_add_one (le_refl _)
  | mark hre => exact .of_sameRest hre.toSameRest
  | move _ hrest => exact .of_sameRest hrest
  | renew _ hrest _ _ _ _ hs =>
    rw [hs]
    exact .of_sameRest ⟨hrest.effects, hrest.restoreEpoch, hrest.restoreEpochs, hrest.pipelines,
      hrest.pipelineStates⟩
  | sweep _ _ hsweep => exact .of_sameRest hsweep.toSameRest
  | enter hnew => exact .of_sameRest hnew.toSameRest

theorem epochsGrow_of_run [Platform] (hco : s.Coherent) (hrun : Run s s') : s.EpochsGrow s' :=
  relation_of_any_run EpochsGrow.refl EpochsGrow.trans (fun _ hchange => hchange.epochsGrow) hrun hco

/-- Every lease is of the epoch or of a later one. -/
def LeasesFrom (s : Store) (epoch : ℤ) : Prop :=
  epoch ≤ s.restoreEpoch ∧
    ∀ a r, s.attempts.lookup a = some r → r.status.isLive = true → epoch ≤ r.restoreEpoch

theorem Change.leasesFrom (hchange : Change own s s') (hco : s.Coherent) {epoch : ℤ}
    (hold : s.LeasesFrom epoch) : s'.LeasesFrom epoch := by
  refine ⟨hold.1.trans hchange.epochsGrow.le, fun a r' hr' hlive => ?_⟩
  rcases hchange.attempt_before hr' with ⟨r, hr⟩ | ⟨hqueued, -⟩
  · obtain ⟨r'', hr'', hstep⟩ := hchange.attempt hco hr
    obtain rfl := Option.mem_unique hr'' hr'
    cases hstep with
    | keep heq =>
      rw [heq] at hlive ⊢
      exact hold.2 a r hr hlive
    | offer _ heq =>
      rw [heq]
      exact hold.1
    | lease hlive' _ heq =>
      rw [heq]
      exact hold.2 a r hr hlive'
    | park _ heq =>
      rw [heq] at hlive
      cases hlive
    | @close outcome _ _ _ heq =>
      rw [heq] at hlive
      cases outcome <;> cases hlive
    | requeue _ _ heq =>
      rw [heq] at hlive
      cases hlive
  · simp [hqueued, AttemptStatus.isLive] at hlive

/-! ## Calls that present an earlier epoch -/

/-- No lease is held with an epoch that is not the controller's. -/
theorem holdsLease_eq_false {authority : LeaseAuthority} (attempt : AttemptRow)
    (hne : authority.restoreEpoch ≠ s.restoreEpoch) : s.holdsLease authority attempt = false := by
  by_contra hholds
  simp only [holdsLease, Bool.not_eq_false, Bool.and_eq_true, decide_eq_true_eq] at hholds
  exact hne (hholds.1.1.2.symm.trans hholds.1.2)

end Store

/-- The epoch that an agent's call presents. -/
def Op.presentedEpoch : Op → Option ℤ
  | .acceptOffer _ authority _ => some authority.restoreEpoch
  | .renewAttemptLease _ authority _ _ => some authority.restoreEpoch
  | .markAttemptRunning _ authority _ => some authority.restoreEpoch
  | .appendLog _ chunk _ => some chunk.authority.restoreEpoch
  | .checkpointEffect _ authority _ _ _ _ => some authority.restoreEpoch
  | .commitEffectDispatch _ authority _ _ _ => some authority.restoreEpoch
  | .finalizeAttempt _ _ authority _ _ _ _ => some authority.restoreEpoch
  | _ => none

namespace Store

/-- What a refused call leaves: the store as it was, or with one more event of the attempt's build,
which names a refused renewal. -/
inductive Refused (s : Store) (op : Op) (s' : Store) : Prop where
  | unchanged (hs : s' = s)
  | named {now : Timestamp} {authority : LeaseAuthority} {session : Option ℕ} {leaseSeconds : ℤ}
      {x : Rows} {cause : String} (hop : op = .renewAttemptLease now authority session leaseSeconds)
      (hx : s.Holds authority.attemptId x)
      (hs : s' = { s with events := ⟨x.node.buildId, .attemptLeaseRenewalRejected
        authority.attemptId authority.fence authority.agentId cause⟩ :: s.events })

section Stale

variable {s : Store} {authority : LeaseAuthority} (hne : authority.restoreEpoch ≠ s.restoreEpoch)
include hne

theorem acceptOffer_of_stale (now : Timestamp) (session : Option ℕ) :
    s.after (s.acceptOffer now authority session) = s := by
  unfold acceptOffer
  split
  · rfl
  · rfl
  split
  · rfl
  · simp [holdsLease_eq_false _ hne, after]

theorem markAttemptRunning_of_stale (now : Timestamp) (session : Option ℕ) :
    s.after (s.markAttemptRunning now authority session) = s := by
  unfold markAttemptRunning
  split
  · rfl
  · rfl
  split
  · rfl
  · simp [holdsLease_eq_false _ hne, after]

/-- A refused renewal is named in the build's events, and changes nothing else. -/
theorem renewAttemptLease_of_stale (now : Timestamp) (session : Option ℕ) (leaseSeconds : ℤ) :
    s.Refused (.renewAttemptLease now authority session leaseSeconds)
      (s.after (s.renewAttemptLease now authority session leaseSeconds)) := by
  have hreject (cause : String) : s.Refused (.renewAttemptLease now authority session leaseSeconds)
      (s.recordLeaseRenewalRejection authority.attemptId authority.fence authority.agentId
        cause) := by
    unfold recordLeaseRenewalRejection
    split
    · exact .unchanged rfl
    next hjoined =>
    split
    · exact .named rfl (joinedAttempt_eq_some.mp hjoined) rfl
    · exact .unchanged rfl
  unfold renewAttemptLease
  split
  · exact .unchanged rfl
  split
  · exact .unchanged rfl
  · exact hreject "agent_session_stale"
  split
  · exact .unchanged rfl
  · split
    · exact .unchanged rfl
    · simp only [holdsLease_eq_false _ hne, Bool.false_and, Bool.false_eq_true, if_false]
      exact hreject "lease_not_current"

theorem executingAttempt_of_stale (now : Timestamp) : s.executingAttempt now authority = none := by
  simp [executingAttempt, holdsLease_eq_false _ hne]

theorem checkpointEffect_of_stale [Platform] (now : Timestamp) (effectKey : String)
    (effectClass : EffectClass) (status : EffectStatus) (payload : Json) :
    s.after (s.checkpointEffect now authority effectKey effectClass status payload) = s := by
  unfold checkpointEffect
  rw [executingAttempt_of_stale hne]
  split <;> rfl

theorem commitEffectDispatch_of_stale [Platform] (now : Timestamp) (effectKey : String)
    (effectClass : EffectClass) (payload : Json) :
    s.after (s.commitEffectDispatch now authority effectKey effectClass payload) = s := by
  unfold commitEffectDispatch
  rw [executingAttempt_of_stale hne]
  split <;> rfl

theorem finalizeAttempt_of_stale [Platform] (now : Timestamp) (retryId : Uuid)
    (session : Option ℕ) (outcome : TerminalOutcome) (summary : Json) (aborts : Bool) :
    s.after (s.finalizeAttempt now retryId authority session outcome summary aborts) = s := by
  rcases hok : s.finalizeAttempt now retryId authority session outcome summary aborts with
    error | ⟨t, answer⟩
  · rfl
  have hlost {x : Rows} (hexec : s.Executing now authority x) : False := by
    have hlease := hexec.lease
    rw [holdsLease_eq_false _ hne] at hlease
    cases hlease
  cases finalizeAttempt_cases hok with
  | refused => rfl
  | replayed => rfl
  | parked hexec => exact (hlost hexec).elim
  | published hexec => exact (hlost hexec).elim

theorem appendLog_of_stale [Platform] (now : Timestamp) {chunk : NewLogChunk}
    (hchunk : chunk.authority = authority) (session : Option ℕ) :
    s.after (s.appendLog now chunk session) = s := by
  subst hchunk
  refine (after_appendLog s now chunk session).resolve_right fun hboth => ?_
  obtain ⟨x, -, hepoch, hlive, -⟩ := hboth.1.owner
  exact hne (hepoch.symm.trans hlive)

end Stale

/-- A call that presents an earlier epoch is refused. -/
theorem step_of_earlier_epoch [Platform] {s : Store} {op : Op} {epoch : ℤ}
    (hop : op.presentedEpoch = some epoch) (hlt : epoch < s.restoreEpoch) :
    s.Refused op (s.step op) := by
  have hne := ne_of_lt hlt
  cases op with
  | acceptOffer now _ session =>
    obtain rfl := Option.some.inj hop
    exact .unchanged (acceptOffer_of_stale hne now session)
  | renewAttemptLease now _ session leaseSeconds =>
    obtain rfl := Option.some.inj hop
    exact renewAttemptLease_of_stale hne now session leaseSeconds
  | markAttemptRunning now _ session =>
    obtain rfl := Option.some.inj hop
    exact .unchanged (markAttemptRunning_of_stale hne now session)
  | appendLog now _ session =>
    obtain rfl := Option.some.inj hop
    exact .unchanged (appendLog_of_stale hne now rfl session)
  | checkpointEffect now _ effectKey effectClass status payload =>
    obtain rfl := Option.some.inj hop
    exact .unchanged (checkpointEffect_of_stale hne now effectKey effectClass status payload)
  | commitEffectDispatch now _ effectKey effectClass payload =>
    obtain rfl := Option.some.inj hop
    exact .unchanged (commitEffectDispatch_of_stale hne now effectKey effectClass payload)
  | finalizeAttempt now retryId _ session outcome summary aborts =>
    obtain rfl := Option.some.inj hop
    exact .unchanged (finalizeAttempt_of_stale hne now retryId session outcome summary aborts)
  | _ => cases hop

end Store

open List Option

/-- The row of an attempt that the restore sweep parks. -/
def AttemptRow.parked (r : AttemptRow) : AttemptRow :=
  { r with status := .reconciliationRequired, leaseOwner := none, leaseExpiresAt := none }

namespace Store

variable {own : Prop} {s s' : Store}

/-! ## The sweep -/

section Sweep

variable (now : Timestamp) (epoch : ℤ) (backupId recoveryLsn : String)

/-- What one step of the sweep writes to attempts and effects. -/
theorem restoreAttempt_rows {a : Uuid} {x : Rows} (hx : s.Holds a x) :
    (∀ a', (restoreAttempt now epoch backupId recoveryLsn s a).attempts.lookup a' =
      if a' = a then some x.attempt.parked else s.attempts.lookup a') ∧
    ∀ id, (restoreAttempt now epoch backupId recoveryLsn s a).effects.lookup id =
      if id.attemptId = a then (s.effects.lookup id).map EffectRow.doubted
      else s.effects.lookup id := by
  have hjoined := joinedAttempt_eq_some.mpr hx
  unfold restoreAttempt
  rw [hjoined]
  refine ⟨fun a' => Table.lookup_modify_of_eq hx.attempt _ a', fun id => ?_⟩
  refine (Table.lookup_update ..).trans ?_
  by_cases hid : id.attemptId = a
  · rw [if_pos hid]
    change Option.map _ (s.effects.lookup id) = _
    refine congrArg (Option.map · (s.effects.lookup id)) (funext fun e => ?_)
    simp [EffectRow.doubted, hid]
  · rw [if_neg hid]
    change Option.map _ (s.effects.lookup id) = _
    simp [hid]

/-- What the sweep writes to attempts and effects. -/
theorem restoreAttempts_rows (hco : s.Coherent) {affected : List Uuid} (hnodup : affected.Nodup)
    (hlive : ∀ a ∈ affected, ∃ r, s.attempts.lookup a = some r ∧ r.status.isLive = true) :
    (∀ a, (affected.foldl (restoreAttempt now epoch backupId recoveryLsn) s).attempts.lookup a =
      if a ∈ affected then (s.attempts.lookup a).map AttemptRow.parked else s.attempts.lookup a) ∧
    ∀ id, (affected.foldl (restoreAttempt now epoch backupId recoveryLsn) s).effects.lookup id =
      if id.attemptId ∈ affected then (s.effects.lookup id).map EffectRow.doubted
      else s.effects.lookup id := by
  induction affected generalizing s with
  | nil => simp
  | cons a rest ih =>
    rw [nodup_cons] at hnodup
    obtain ⟨r, hr, hr_live⟩ := hlive a mem_cons_self
    obtain ⟨n, b, hx⟩ := hco.exists_holds hr
    obtain ⟨hattempts, heffects⟩ := restoreAttempt_rows now epoch backupId recoveryLsn hx
    have hpath : Changes True s (restoreAttempt now epoch backupId recoveryLsn s a) :=
      changes_restoreAttempt hco hr hr_live now epoch backupId recoveryLsn
    have hlive' : ∀ a' ∈ rest, ∃ r,
        (restoreAttempt now epoch backupId recoveryLsn s a).attempts.lookup a' = some r ∧
          r.status.isLive = true := by
      intro a' hmem
      rw [hattempts, if_neg fun (heq : a' = a) => hnodup.1 (heq ▸ hmem)]
      exact hlive a' (mem_cons_of_mem _ hmem)
    obtain ⟨hattempts', heffects'⟩ := ih (hpath.coherent hco) hnodup.2 hlive'
    rw [foldl_cons]
    refine ⟨fun a' => ?_, fun id => ?_⟩
    · rw [hattempts', hattempts]
      by_cases ha : a' = a
      · rw [if_neg (ha ▸ hnodup.1), if_pos ha, if_pos (ha ▸ mem_cons_self), ha, hr, map_some]
      · simp only [ha, if_false, mem_cons, false_or]
    · rw [heffects', heffects]
      by_cases ha : id.attemptId = a
      · rw [if_neg (ha ▸ hnodup.1), if_pos ha, if_pos (ha ▸ mem_cons_self)]
      · simp only [ha, if_false, mem_cons, false_or]

/-- After an activation no attempt is under a lease, and the open effects of the attempts that were
are uncertain. -/
theorem restored_rows (hco : s.Coherent) (reason : String)
    (hfresh : s.restoreEpochs.lookup backupId = none) :
    (∀ a r, (s.restored now backupId reason recoveryLsn).attempts.lookup a = some r →
      r.status.isLive = false) ∧
    ∀ id e r, s.effects.lookup id = some e → s.attempts.lookup id.attemptId = some r →
      r.status.isLive = true →
      (s.restored now backupId reason recoveryLsn).effects.lookup id = some e.doubted := by
  have hraise : Changes True s (s.raised backupId reason recoveryLsn) :=
    .single (change_raised hfresh reason recoveryLsn)
  obtain ⟨hattempts, heffects⟩ := restoreAttempts_rows now (s.restoreEpoch + 1) backupId
    recoveryLsn (hraise.coherent hco) (nodup_leasedAttempts s)
    fun a hmem => mem_leasedAttempts.mp hmem
  refine ⟨fun a r hr => ?_, fun id e r he hr hlive => ?_⟩
  · rw [restored, hattempts] at hr
    split at hr
    · obtain ⟨old, -, rfl⟩ := map_eq_some_iff.mp hr
      rfl
    · next hmem =>
      rw [mem_leasedAttempts, not_exists] at hmem
      simpa using fun hlive => hmem r ⟨hr, hlive⟩
  · rw [restored, heffects, if_pos (mem_leasedAttempts.mpr ⟨r, hr, hlive⟩)]
    exact congrArg (Option.map EffectRow.doubted) he

end Sweep

/-! ## The activation -/

theorem restoreEpoch_restoreAttempts (now : Timestamp) (epoch : ℤ) (backupId recoveryLsn : String)
    (affected : List Uuid) (s : Store) :
    (affected.foldl (restoreAttempt now epoch backupId recoveryLsn) s).restoreEpoch =
      s.restoreEpoch := by
  induction affected generalizing s with
  | nil => rfl
  | cons _ _ ih =>
    rw [foldl_cons, ih]
    unfold restoreAttempt
    split <;> rfl

theorem activateRestoreEpoch_of_recorded {backupId reason : String} {row : RestoreEpochRow}
    (hrow : s.restoreEpochs.lookup backupId = some row) (hbackup : backupIdAllowed backupId = true)
    (hreason : reason.isEmpty = false ∧ reason.utf8ByteSize ≤ 1024) (now : Timestamp) :
    s.activateRestoreEpoch now backupId reason =
      .ok (s, some ⟨row.restoreEpoch, backupId, row.recoveryLsn, row.affectedAttempts⟩) := by
  unfold activateRestoreEpoch
  rw [if_neg, hrow]
  simp [hbackup, hreason.1, hreason.2]

theorem backupIdAllowed_of_activated {now : Timestamp} {backupId reason : String}
    {answer : Option RestoreActivation}
    (hok : s.activateRestoreEpoch now backupId reason = .ok (s', answer)) :
    backupIdAllowed backupId = true := by
  by_contra hbackup
  rw [Bool.not_eq_true] at hbackup
  simp [activateRestoreEpoch, hbackup] at hok

/-- An unused recovery point of another epoch is refused. -/
theorem activateRestoreEpoch_of_outdated {backupId : String} {epoch : ℤ} {recoveryLsn : String}
    (hfresh : s.restoreEpochs.lookup backupId = none)
    (hpoint : s.recoveryPoints.lookup backupId = some ⟨epoch, some recoveryLsn⟩)
    (hne : epoch ≠ s.restoreEpoch) (now : Timestamp) (reason : String) :
    ∃ message, s.activateRestoreEpoch now backupId reason =
      .error (.invalidRecoveryOperation message) := by
  unfold activateRestoreEpoch
  split
  · exact ⟨_, rfl⟩
  · rw [hfresh, hpoint]
    simp only [if_pos hne]
    exact ⟨_, rfl⟩

/-- **Restore activation fences the past.**  The activation of a sealed recovery point raises the
epoch, ends every lease and leaves the open effects of the attempts that held one uncertain.  From
then on every lease is of the new epoch or a later one; a call that presents an earlier epoch
changes nothing but that a refused renewal may be named in the build's events; and repeating the
activation returns its result.  An unused recovery point of an older epoch is refused. -/
theorem restore_activation_fences_past [Platform] (hreach : s.Reachable) {now : Timestamp}
    {backupId reason : String} {t : Store} {answer : RestoreActivation}
    (hfresh : s.restoreEpochs.lookup backupId = none)
    (hok : s.activateRestoreEpoch now backupId reason = .ok (t, some answer)) :
    (s.restoreEpoch < t.restoreEpoch ∧ answer.restoreEpoch = t.restoreEpoch) ∧
    (∀ a r, t.attempts.lookup a = some r → r.status.isLive = false) ∧
    (∀ id e r, s.effects.lookup id = some e → s.attempts.lookup id.attemptId = some r →
      r.status.isLive = true → (e.status = .prepared ∨ e.status = .applied) →
        t.effects.lookup id = some { e with status := .uncertain }) ∧
    (∀ t', Run t t' → (∀ a r, t'.attempts.lookup a = some r → r.status.isLive = true →
        t.restoreEpoch ≤ r.restoreEpoch) ∧
      (∀ op epoch, op.presentedEpoch = some epoch → epoch < t.restoreEpoch →
        t'.Refused op (t'.step op)) ∧
      ∀ now' reason', reason'.isEmpty = false ∧ reason'.utf8ByteSize ≤ 1024 →
        t'.activateRestoreEpoch now' backupId reason' = .ok (t', some answer)) ∧
    ∀ (u : Store) backupId' epoch recoveryLsn, u.restoreEpochs.lookup backupId' = none →
      u.recoveryPoints.lookup backupId' = some ⟨epoch, some recoveryLsn⟩ →
      epoch < u.restoreEpoch → ∀ now' reason', ∃ message,
        u.activateRestoreEpoch now' backupId' reason' =
          .error (.invalidRecoveryOperation message) := by
  have hco := hreach.coherent
  have hbackup := backupIdAllowed_of_activated hok
  have hrun : Run s t := by
    have hsingle : Run s (s.step (.activateRestoreEpoch now backupId reason)) :=
      Transition.Run.single trivial
    rwa [step, hok] at hsingle
  have hco_t := hco.run hrun
  cases activateRestoreEpoch_cases hok with
  | replayed hrow => simp [hfresh] at hrow
  | @activated recoveryLsn =>
    have hepoch : (s.restored now backupId reason recoveryLsn).restoreEpoch = s.restoreEpoch + 1 :=
      restoreEpoch_restoreAttempts ..
    obtain ⟨hidle, hdoubted⟩ := restored_rows now backupId recoveryLsn hco reason hfresh
    -- The record of the activation survives the sweep.
    have hraise : Change True s (s.raised backupId reason recoveryLsn) :=
      change_raised hfresh reason recoveryLsn
    have hco_raised := hraise.coherent hco
    have hsweep : Changes True (s.raised backupId reason recoveryLsn)
        (s.restored now backupId reason recoveryLsn) :=
      changes_restoreAttempts hco_raised now _ backupId recoveryLsn (nodup_leasedAttempts s)
        fun a hmem => mem_leasedAttempts.mp hmem
    have hrecord : (s.restored now backupId reason recoveryLsn).restoreEpochs.lookup backupId =
        some ⟨s.restoreEpoch + 1, recoveryLsn, reason, s.leasedAttempts.length⟩ :=
      (hsweep.relation EpochsGrow.refl EpochsGrow.trans (fun _ h => h.epochsGrow) hco_raised).kept
        _ _ (AList.lookup_insert _)
    refine ⟨⟨by omega, hepoch.symm⟩, hidle, fun id e r he hr hlive hstatus => ?_,
      fun t' hrun' => ⟨?_, ?_, ?_⟩, ?_⟩
    · rw [hdoubted id e r he hr hlive, EffectRow.doubted, if_pos hstatus]
    · have hleases : t'.LeasesFrom (s.restored now backupId reason recoveryLsn).restoreEpoch :=
        invariant_of_any_run (fun hco hchange hinv => hchange.leasesFrom hco hinv) hrun' hco_t
          ⟨le_refl _, fun a r hr hlive => by simp [hidle a r hr] at hlive⟩
      exact hleases.2
    · intro op epoch hop hlt
      exact step_of_earlier_epoch hop (lt_of_lt_of_le hlt (epochsGrow_of_run hco_t hrun').le)
    · intro now' reason' hreason
      exact activateRestoreEpoch_of_recorded
        ((epochsGrow_of_run hco_t hrun').kept _ _ hrecord) hbackup hreason now'
    · intro u backupId' epoch lsn hfresh' hpoint' hlt now' reason'
      exact activateRestoreEpoch_of_outdated hfresh' hpoint' (ne_of_lt hlt) now' reason'

namespace Sample

/-- The calls that seal a recovery point while attempt 102 executes with a prepared effect. -/
def sealedPoint : List Op :=
  prepared ++ [.sealRecoveryPoint "backup" "0/1"]

/-- The calls after which attempt 102 executes under the epoch that a restore has begun. -/
def reclaimed : List Op :=
  [.sealRecoveryPoint "backup" "0/1", .activateRestoreEpoch 5 "backup" "drill"] ++ admitted ++
    [.claimNext 10 request none, .acceptOffer 10 ⟨102, 1, 2, "agent"⟩ none]

end Sample

open Sample in
/-- A renewal that presents the epoch before the restore, with the fence and the agent of a current
lease, is refused with a new event. -/
theorem stale_renewal_appends_event : (stateAfter reclaimed).restoreEpoch = 2 ∧
      (Op.renewAttemptLease 10 (authority 102) none 60).presentedEpoch = some 1 ∧
      (@step platform (stateAfter reclaimed) (.renewAttemptLease 10 (authority 102) none 60)
        ).events.length = (stateAfter reclaimed).events.length + 1 := by
  decide +kernel

open Sample in
/-- The activation of the sample recovery point leaves the prepared effect uncertain. -/
theorem restore_activation_fences_past_sealed :
    let t := (stateAfter sealedPoint).after
      ((stateAfter sealedPoint).activateRestoreEpoch 20 "backup" "drill")
    ∃ e, (stateAfter sealedPoint).effects.lookup ⟨102, 1, "e"⟩ = some e ∧
      t.effects.lookup ⟨102, 1, "e"⟩ = some { e with status := .uncertain } := by
  intro t
  have hanswer : ((stateAfter sealedPoint).activateRestoreEpoch 20 "backup" "drill").map
      Prod.snd = .ok (some ⟨2, "backup", "0/1", 1⟩) := by decide +kernel
  have hfresh : (stateAfter sealedPoint).restoreEpochs.lookup "backup" = none := by
    decide +kernel
  have heffect : ((stateAfter sealedPoint).effects.lookup ⟨102, 1, "e"⟩).map EffectRow.status =
      some .prepared := by decide +kernel
  have hattempt : ((stateAfter sealedPoint).attempts.lookup 102).map AttemptRow.status =
      some .accepted := by decide +kernel
  obtain ⟨e, he, hstatus⟩ := map_eq_some_iff.mp heffect
  obtain ⟨r, hr, hlive⟩ := map_eq_some_iff.mp hattempt
  have hfences := @restore_activation_fences_past _ platform
    (@reachable_runOps platform 9 sealedPoint) 20 "backup" "drill" t _ hfresh (eq_ok_after hanswer)
  exact ⟨e, he, hfences.2.2.1 _ e r he hr (by rw [hlive]; rfl) (.inl hstatus)⟩

end Store

end McLoving
