import McLoving.Lifecycle.ClosingCalls

/-!
# Cancellation, claims and requested retries

A DAG build is swept and stamped; a single-node build is cancelled through its current attempt.  A
claim of an agent with a session first fails the builds whose pinned agent is gone, and then offers
one queued attempt under a new fence.  An operator's retry puts a new attempt in the place of the
retried one, opens the build again and then reopens the skipped nodes one after another.
-/

namespace McLoving.Store

open Option Table

variable {own : Prop} {s s' : Store} {buildId : Uuid} {b : BuildRow}

/-- The cancellation of a DAG build sweeps its nodes, stamps its row and derives its status. -/
theorem cancelDagBuild_eq_some {now : Timestamp}
    (hcancel : s.cancelDagBuild now buildId = some s') :
    ∃ b, s.builds.lookup buildId = some b ∧ b.dagMode = true ∧
      (b.status = .queued ∨ b.status = .running) ∧ b.cancellationRequestedAt = none ∧
      s' = ((s.cancelSweep now buildId).modifyBuild buildId fun row =>
        { row with cancellationRequestedAt := some now }).deriveBuildOutcome now buildId := by
  unfold cancelDagBuild at hcancel
  split at hcancel
  · cases hcancel
  next b hb =>
  split at hcancel
  · next hchecked =>
    simp only [Bool.and_eq_true, Bool.or_eq_true, decide_eq_true_eq] at hchecked
    exact ⟨b, hb, hchecked.1.1, hchecked.1.2, hchecked.2, (Option.some.inj hcancel).symm⟩
  · cases hcancel

/-- After a stop without exception every active node of the build carries the request. -/
theorem stamped_of_stopActiveNodes {now : Timestamp} {id : Uuid} {n' : NodeRow}
    (hn' : (s.stopActiveNodes now buildId none).nodes.lookup id = some n')
    (hbuild : n'.buildId = buildId) (hactive : n'.status = .offered ∨ n'.status = .running) :
    n'.cancellationRequestedAt ≠ none := by
  simp only [stopActiveNodes, updateAttemptsJoin_nodes, updateNodes_nodes, lookup_update,
    map_eq_some_iff] at hn'
  obtain ⟨n, -, hfinal⟩ := hn'
  split at hfinal
  · rw [translateRetryReadiness_eq] at hfinal
    · simp [← hfinal]
    · exact .inl rfl
  · next hnot => simp [hfinal, hbuild, hactive] at hnot

theorem changes_cancelDagBuild (hco : s.Coherent) {now : Timestamp}
    (hcancel : s.cancelDagBuild now buildId = some s') : Changes own s s' := by
  obtain ⟨b, hb, hdag, hstatus, hunstamped, rfl⟩ := cancelDagBuild_eq_some hcancel
  have hsweep : s.Sweeps (s.cancelSweep now buildId) buildId :=
    hco.sweeps_cancelSweep hb hdag now
  obtain ⟨hpath, hb₁⟩ := Changes.sweep hb hdag own hsweep
  refine hpath.bind hco fun hco₁ => ?_
  have hre := rebuilds_modifyBuild hb₁
    (f := fun row => { row with cancellationRequestedAt := some now }) rfl rfl
  have hmark : BuildMark (s.cancelSweep now buildId) buildId b
      { b with cancellationRequestedAt := some now } := by
    refine .stamp hstatus hunstamped (fun {a r n} hr hn hbuild hlive => ?_) rfl
    have hphase := hco₁.dagPhase hb₁ hdag hr hn hbuild (hco₁.not_superseded_of_isLive hr hlive)
    rcases Phase.leased (show Phase true n r.status from hphase) hlive with h | h | ⟨-, houtlived⟩
    · exact stamped_of_stopActiveNodes hn hbuild (.inl h)
    · exact stamped_of_stopActiveNodes hn hbuild (.inr h)
    · exact houtlived.2
  have hb₂ := hre.builds buildId
  rw [if_pos rfl] at hb₂
  exact (Changes.single (.mark hre hdag hmark)).trans (changes_deriveBuildOutcome hb₂ hdag now)

/-! ## Single-node builds -/

/-- The latest attempt of a build has not been retried. -/
theorem Coherent.not_superseded_latest (hco : s.Coherent) (hb : s.builds.lookup buildId = some b)
    {a : Uuid} {r : AttemptRow} (hlatest : (s.buildAttempts buildId).head? = some (a, r)) :
    ∃ n, s.Holds a ⟨b, n, r⟩ ∧ n.buildId = buildId ∧ ¬ s.Superseded a := by
  obtain ⟨hmem, hmax⟩ := head?_sort_desc (fun row : Uuid × AttemptRow => row.2.ordinal) hlatest
  rw [mem_select, any_eq_true] at hmem
  obtain ⟨hr, n, hn, hbuild⟩ := hmem
  rw [decide_eq_true_eq] at hbuild
  refine ⟨n, ⟨hr, hn, hbuild ▸ hb⟩, hbuild, ?_⟩
  rintro ⟨c, q, hq, hretry⟩
  obtain ⟨p, hp, hnode, hordinal⟩ := hco.retryOf hq hretry
  obtain rfl := mem_unique hp hr
  have hjoin : ((s.nodes.lookup q.nodeId).any fun n => n.buildId = buildId) = true := by
    rw [← hnode, hn]
    simpa using hbuild
  have hle := hmax (c, q) (mem_select.mpr ⟨hq, hjoin⟩)
  exact absurd (show p.ordinal < q.ordinal by omega) (Int.not_lt.mpr hle)

theorem changes_cancelSingleBuild (hco : s.Coherent) (hb : s.builds.lookup buildId = some b)
    (hsolo : b.dagMode = false) (hstatus : b.status = .queued ∨ b.status = .running) {a : Uuid}
    {r : AttemptRow} (hlatest : (s.buildAttempts buildId).head? = some (a, r)) (now : Timestamp) :
    Changes own s (s.cancelSingleBuild now buildId a r b.status) := by
  obtain ⟨n, hx, hbuild, hcur⟩ := hco.not_superseded_latest hb hlatest
  have hok := hco.ok hx.attempt hx.node hx.build hcur
  have hverdict := hok.verdict hsolo
  have hphase := hok.phase
  rw [hsolo] at hphase
  unfold cancelSingleBuild
  split
  · next hqueued =>
    have hr_queued : r.status = .queued := by
      cases hfrom : r.status <;> simp_all [soloStatus]
    have hn_queued : n.status = .queued := by
      rw [hr_queued] at hphase
      exact hphase.2.2
    subst hbuild
    have htouch := hx.touches_build
      (f := fun a => if a.status = .queued then
        { a with status := .aborted,
                 terminalSummary := some (reasonSummary "cancelled_before_execution") } else a)
      (p := fun id n => id = r.nodeId && n.status = .queued)
      (g := fun n => { n with status := .aborted })
      (h := fun b => if b.status = .queued then
        { b with status := .aborted, cancellationRequestedAt := some now } else b)
      (by dsimp only; split <;> rfl) ?_ rfl now (by dsimp only; split <;> rfl)
    · simp only [hr_queued, hqueued, if_true] at htouch
      rw [translateRetryReadiness_eq _ _ (.inr (by simp))] at htouch
      exact .single (.move htouch ⟨rfl, rfl, rfl, rfl, rfl⟩ hcur
        (.cancelQueued hsolo hr_queued rfl Quiet.nil) rfl)
    · intro id m hm
      simp only [Bool.and_eq_true, decide_eq_true_eq, and_iff_left_iff_imp]
      rintro rfl
      exact mem_unique hx.node hm ▸ hn_queued
  · next hnot =>
    have hlive : r.status.isLive = true := by
      rw [hstatus.resolve_left hnot] at hverdict
      cases hfrom : r.status <;> rw [hfrom] at hverdict <;> first | rfl | cases hverdict
    subst hbuild
    refine .single (.move (x := ⟨b, n, r⟩)
      (y := ⟨{ b with cancellationRequestedAt := some now }, n, { r with status := .cancelling }⟩)
      ⟨hx, fun id => ?_, lookup_eq_ite hx.node,
      lookup_modify_of_eq hx.build _, rfl, rfl, rfl, rfl⟩ ⟨rfl, rfl, rfl, rfl, rfl⟩ hcur
      (.cancelActive hsolo hlive rfl Quiet.nil) rfl)
    refine (lookup_modify_of_eq hx.attempt _ id).trans (if_congr .rfl ?_ rfl)
    by_cases hfrom : r.status = .cancelling
    · simp [← hfrom]
    · cases hstatus : r.status <;> simp_all [AttemptStatus.isLive]

/-- The owner's request to stop a build is a path. -/
theorem changes_requestCancellation (hco : s.Coherent) (now : Timestamp) (projectId buildId : Uuid)
    (actorSubject : String) :
    Changes own s (s.after (s.requestCancellation now projectId buildId actorSubject)) := by
  unfold requestCancellation
  split
  · exact .refl s
  split
  · exact .refl s
  next b hb =>
  have hb := (filter_eq_some_iff.mp hb).1
  split
  · exact .refl s
  split
  · exact .refl s
  split
  · split <;> exact .refl s
  next hstatus =>
  split
  · split
    · split <;> exact .refl s
    · next cancelled hcancel =>
      exact (changes_cancelDagBuild hco hcancel).report _ rfl
  next hsolo =>
  rw [Bool.not_eq_true] at hsolo
  split
  · exact .refl s
  next a r hlatest =>
  split
  · exact .refl s
  have hstatus' : b.status = .queued ∨ b.status = .running := by tauto
  exact (changes_cancelSingleBuild hco hb hsolo hstatus' hlatest now).report _ rfl

open List

/-! ## Orphaned builds -/

theorem exists_dag_failOrphanedBuild {id : Uuid} (now : Timestamp) (agentId : String)
    (hdag : ∃ b, s.builds.lookup id = some b ∧ b.dagMode = true) :
    ∃ b, (s.failOrphanedBuild now buildId agentId).builds.lookup id = some b ∧
      b.dagMode = true := by
  obtain ⟨b, hb, hdag⟩ := hdag
  unfold failOrphanedBuild
  obtain ⟨notifications, new, heq, -⟩ := recordTerminalNotifications_eq _ now buildId .failed
  rw [heq]
  by_cases hid : id = buildId
  · subst hid
    refine ⟨_, (lookup_modify_of_eq hb _ id).trans (if_pos rfl), ?_⟩
    split <;> exact hdag
  · exact ⟨b, by simpa [lookup_modify, hid] using hb, hdag⟩

variable {now : Timestamp} {request : ClaimRequest} {a : Uuid}

theorem changes_failOrphanedBuild (hco : s.Coherent) (hb : s.builds.lookup buildId = some b)
    (hdag : b.dagMode = true) (now : Timestamp) (agentId : String) :
    Changes own s (s.failOrphanedBuild now buildId agentId) := by
  have hsweep := hco.sweeps_orphanSweep hb hdag now agentId
  obtain ⟨hpath, hb₁⟩ := Changes.sweep hb hdag own hsweep
  have hre := rebuilds_modifyBuild hb₁ (f := fun row =>
    if row.status = .queued ∨ row.status = .running then { row with status := .failed } else row)
    (by split <;> rfl) (by split <;> rfl)
  have hmark := hpath.trans (.single (.mark hre hdag (.fail rfl)))
  have hgone : (EventPayload.buildWorkspaceAffinityAgentGone agentId).isOffer = false := rfl
  exact (hmark.report buildId hgone).trans
    (.of_frame (frame_recordTerminalNotifications _ now buildId .failed))

theorem exists_dag_of_orphaned {agentId : String}
    (hmem : (buildId, agentId) ∈ s.orphanedBuilds now) :
    ∃ b, s.builds.lookup buildId = some b ∧ b.dagMode = true := by
  simp only [orphanedBuilds, mem_filterMap, map_eq_some_iff, Prod.mk.injEq, Prod.exists] at hmem
  obtain ⟨id, b, hselected, agent, -, rfl, -⟩ := hmem
  obtain ⟨hb, horphan⟩ := mem_select.mp hselected
  simp only [isOrphaned, Bool.and_eq_true] at horphan
  exact ⟨b, hb, horphan.1.1.1.1⟩

/-- The failures of a list of orphaned builds are a path. -/
theorem changes_failOrphans (hco : s.Coherent) (now : Timestamp) {orphans : List (Uuid × String)}
    (hdag : ∀ orphan ∈ orphans, ∃ b, s.builds.lookup orphan.1 = some b ∧ b.dagMode = true) :
    Changes own s (orphans.foldl (fun s orphan => s.failOrphanedBuild now orphan.1 orphan.2)
      s) := by
  induction orphans generalizing s with
  | nil => exact .refl s
  | cons orphan _ ih =>
    obtain ⟨b, hb, hdag'⟩ := hdag orphan mem_cons_self
    have hpath : Changes own s (s.failOrphanedBuild now orphan.1 orphan.2) :=
      changes_failOrphanedBuild hco hb hdag' now orphan.2
    exact hpath.trans (ih (hpath.coherent hco) fun next hnext =>
      exists_dag_failOrphanedBuild now _ (hdag next (mem_cons_of_mem _ hnext)))

theorem changes_failOrphanedAffinityBuilds (hco : s.Coherent) :
    Changes own s (s.failOrphanedAffinityBuilds now) :=
  changes_failOrphans hco now fun _ hmem => exists_dag_of_orphaned hmem

/-! ## Offers -/

theorem claimCandidate_eq_some [Platform] {r : AttemptRow} {n : NodeRow}
    (hcandidate : s.claimCandidate request = some (a, r, n)) :
    ∃ b, s.Holds a ⟨b, n, r⟩ ∧ r.status = .queued ∧ s.isClaimable request r.nodeId n b = true := by
  have hmem := mem_insertionSort _ |>.mp (mem_of_mem_head? hcandidate)
  simp only [claimCandidates, mem_filterMap, Prod.exists] at hmem
  obtain ⟨a', r', hselected, hjoined⟩ := hmem
  obtain ⟨hr, hqueued⟩ := mem_select.mp hselected
  split at hjoined
  · cases hjoined
  next n' hn =>
  split at hjoined
  · next hclaim =>
    cases hjoined
    rw [Option.any_eq_true] at hclaim
    obtain ⟨b, hb, hclaim⟩ := hclaim
    exact ⟨b, ⟨hr, hn, hb⟩, of_decide_eq_true hqueued, hclaim⟩
  · cases hjoined

/-- A report after a change of an attempt's rows. -/
theorem Touches.report {x y : Rows} (htouch : s.Touches s' a x y) (buildId : Uuid)
    (payload : EventPayload) : s.Touches (s'.appendEvent buildId payload) a x y :=
  { htouch with }

theorem changes_offerAttempt (hco : s.Coherent) {x : Rows} (hx : s.Holds a x)
    (hqueued : x.attempt.status = .queued)
    (hclaim : s.isClaimable request x.attempt.nodeId x.node x.build = true) (now : Timestamp) :
    Changes own s (s.offerAttempt now request a x.attempt x.node) := by
  have hcur : ¬ s.Superseded a := hco.not_superseded hx.attempt
    (by simp [hqueued, AttemptStatus.IsRetried])
  have htouch := hx.touches_build
    (f := fun r => { r with
      status := .offered, fence := r.fence + 1, leaseOwner := some request.agentId,
      leaseExpiresAt := some (now + seconds request.leaseSeconds), restoreEpoch := s.restoreEpoch })
    (p := fun id _ => id = x.attempt.nodeId) (g := fun n => { n with status := .offered })
    (h := BuildRow.started) rfl (fun _ _ _ => by simp) rfl now (BuildRow.started_identity _)
  rw [translateRetryReadiness_eq _ _ (.inr ⟨by simp, by simp⟩)] at htouch
  exact .single (.move (htouch.report _ _) ⟨rfl, rfl, rfl, rfl, rfl⟩ hcur
    (.offer hqueued hclaim rfl rfl) rfl)

theorem changes_claimNext [Platform] (hco : s.Coherent) (now : Timestamp) (request : ClaimRequest)
    (session : Option ℕ) : Changes own s (s.after (s.claimNext now request session)) := by
  have hscan : Changes own s (if session.isSome then s.failOrphanedAffinityBuilds now else s) := by
    split
    · exact changes_failOrphanedAffinityBuilds hco
    · exact .refl s
  unfold claimNext
  split
  · exact .refl s
  split
  · exact .refl s
  · exact .refl s
  generalize (if session.isSome then s.failOrphanedAffinityBuilds now else s) = scanned at hscan
  simp only
  split
  · exact .refl s
  next a r n hcandidate =>
  split
  · exact .refl s
  obtain ⟨b, hx, hqueued, hclaim⟩ := claimCandidate_eq_some hcandidate
  exact hscan.bind hco fun hco' => changes_offerAttempt hco' hx hqueued hclaim now

end McLoving.Store

namespace McLoving.Store

open List Option Table

variable {own : Prop} {s s' : Store}

/-! ## Inversion -/

/-- An attempt that a requested retry may decide about. -/
structure Retriable (s : Store) (a : Uuid) (x : Rows) : Prop where
  holds : s.Holds a x
  namespaced : x.build.workspaceNamespace = none
  unstamped : x.build.cancellationRequestedAt = none
  undecided : s.isReconciliationTerminalized a x.node.buildId = false
  status : x.attempt.status = .failed ∨ x.attempt.status = .reconciliationRequired
  current : ¬ s.Superseded a
  enabled : s.buildPipelineEnabled x.node.buildId = true
  clean : s.hasNonIdempotentEffect a = false

/-- The ways in which `scheduleRetry` ends. -/
inductive RetryCase [Platform] (s : Store) (now : Timestamp) (ids : ℕ → Uuid) (attemptId : Uuid)
    (maxAttempts : ℤ) (reason actorSubject : String) (s' : Store) : RetryDecision → Prop where
  | ineligible (hs : s' = s) :
      RetryCase s now ids attemptId maxAttempts reason actorSubject s' .ineligible
  | scheduled {childId : Uuid} {child : AttemptRow} (hchild : s.attempts.lookup childId = some child)
      (hretry : child.retryOf = some attemptId) (hs : s' = s) :
      RetryCase s now ids attemptId maxAttempts reason actorSubject s'
        (.scheduled childId child.ordinal false)
  | buried {x : Rows} (hx : s.Retriable attemptId x)
      (hburied : (s.deadLetters.lookup attemptId).isSome = true)
      (hs : s' = s.terminalizeDeadLettered now attemptId x.attempt x.node x.build reason) :
      RetryCase s now ids attemptId maxAttempts reason actorSubject s' .deadLettered
  | deadLettered {x : Rows} (hx : s.Retriable attemptId x)
      (hbudget : maxAttempts ≤ x.attempt.ordinal)
      (hs : s' = (s.deadLetter attemptId x.attempt x.node maxAttempts reason actorSubject
        ).terminalizeDeadLettered now attemptId x.attempt x.node x.build reason) :
      RetryCase s now ids attemptId maxAttempts reason actorSubject s' .deadLettered
  | created {x : Rows} (hx : s.Retriable attemptId x)
      (hunburied : s.deadLetters.lookup attemptId = none)
      (hbudget : x.attempt.ordinal < maxAttempts)
      (hs : s.createRetry now ids attemptId x.attempt x.node x.build maxAttempts reason
        actorSubject = .ok s') :
      RetryCase s now ids attemptId maxAttempts reason actorSubject s'
        (.scheduled (ids 0) (x.attempt.ordinal + 1) true)

variable {a c nodeId buildId : Uuid} {now : Timestamp} {ids : ℕ → Uuid} {maxAttempts : ℤ} {x : Rows}

theorem retryChild_eq_some {child : AttemptRow} (hchild : s.retryChild a = some (c, child)) :
    s.attempts.lookup c = some child ∧ child.retryOf = some a := by
  obtain ⟨hlook, hretry⟩ := mem_select.mp (mem_of_mem_head? hchild)
  exact ⟨hlook, of_decide_eq_true hretry⟩

theorem not_superseded_of_retryChild (hchild : s.retryChild a = none) : ¬ s.Superseded a := by
  rintro ⟨c, r, hr, hretry⟩
  rw [retryChild, head?_eq_none_iff] at hchild
  have hmem : (c, r) ∈ s.attempts.select fun _ child => child.retryOf = some a :=
    mem_select.mpr ⟨hr, decide_eq_true hretry⟩
  rw [hchild] at hmem
  cases hmem

variable {actorSubject : String} {answer : RetryDecision} {entries : List (Uuid × Uuid × ℤ)}
variable {entry : Uuid × Uuid × ℤ}

/-- A requested retry ends in one of the ways of `RetryCase`. -/
theorem scheduleRetry_cases [Platform] {attemptId : Uuid} {reason : String}
    (hok : s.scheduleRetry now ids attemptId maxAttempts reason actorSubject = .ok (s', answer)) :
    RetryCase s now ids attemptId maxAttempts reason actorSubject s' answer := by
  unfold scheduleRetry at hok
  split at hok
  · cases hok
    exact .ineligible rfl
  split at hok
  · cases hok
  split at hok
  · cases hok
    exact .ineligible rfl
  next attempt node build hjoined =>
  have hholds := joinedAttempt_eq_some.mp hjoined
  split at hok
  · cases hok
    exact .ineligible rfl
  next hchecked =>
  simp only [Bool.or_eq_true, not_or, Bool.not_eq_true, isSome_eq_false_iff,
    isNone_iff_eq_none, Bool.not_eq_false', decide_eq_true_eq] at hchecked
  obtain ⟨⟨⟨hnamespace, hunstamped⟩, hundecided⟩, hstatus⟩ := hchecked
  split at hok
  · next childId child hchild =>
    cases hok
    obtain ⟨hlook, hretry⟩ := retryChild_eq_some hchild
    exact .scheduled hlook hretry rfl
  next hchild =>
  split at hok
  · cases hok
    exact .ineligible rfl
  next henabled =>
  rw [Bool.not_eq_true, Bool.not_eq_false'] at henabled
  split at hok
  · cases hok
    exact .ineligible rfl
  next hclean =>
  rw [Bool.not_eq_true] at hclean
  have hx : s.Retriable attemptId ⟨build, node, attempt⟩ :=
    ⟨hholds, hnamespace, hunstamped, hundecided, hstatus, not_superseded_of_retryChild hchild,
      henabled, hclean⟩
  split at hok
  · next hburied =>
    cases hok
    exact .buried hx hburied rfl
  next hunburied =>
  rw [Bool.not_eq_true, isSome_eq_false_iff, isNone_iff_eq_none] at hunburied
  split at hok
  · next hbudget =>
    cases hok
    exact .deadLettered hx hbudget rfl
  next hbudget =>
  split at hok
  · cases hok
  next retried hretried =>
  cases hok
  exact .created hx hunburied (Int.not_le.mp hbudget) hretried

/-! ## Dead letters -/

/-- The end of a dead-lettered attempt is a move if it waited for reconciliation. -/
theorem changes_terminalizeDeadLettered (hx : s.Holds a x) (hcur : ¬ s.Superseded a)
    (now : Timestamp) (reason : String) :
    Changes own s (s.terminalizeDeadLettered now a x.attempt x.node x.build reason) := by
  unfold terminalizeDeadLettered
  split
  · exact .refl s
  next hparked =>
  rw [not_not] at hparked
  let close (r : AttemptRow) : AttemptRow :=
    { r with status := .failed, terminalSummary := some (.obj [("dead_lettered", .bool true),
      ("reason", .str reason)]) }
  simp only
  split
  · next hterminal =>
    have htouch := hx.touches_node (f := close) (p := fun id _ => id = x.attempt.nodeId)
      (g := fun n => { n with status := .failed }) rfl (fun _ _ _ => by simp) rfl now
    rw [translateRetryReadiness_eq _ _ (.inr ⟨by simp, by simp⟩)] at htouch
    exact .single (.move htouch ⟨rfl, rfl, rfl, rfl, rfl⟩ hcur
      (.deadLetter hparked rfl (by rw [if_pos hterminal]; rfl) Quiet.nil) rfl)
  · next hterminal =>
    have htouch := hx.touches_build (f := close) (p := fun id _ => id = x.attempt.nodeId)
      (g := fun n => { n with status := .failed }) (h := fun b => { b with status := .failed })
      rfl (fun _ _ _ => by simp) rfl now rfl
    rw [translateRetryReadiness_eq _ _ (.inr ⟨by simp, by simp⟩)] at htouch
    refine Changes.trans (.single (.move htouch ⟨rfl, rfl, rfl, rfl, rfl⟩ hcur
      (.deadLetter hparked rfl (by rw [if_neg hterminal]; rfl) Quiet.nil) rfl))
      (.of_frame (frame_recordTerminalNotifications _ now _ _))

/-! ## Reopened nodes -/

theorem reopenNode_builds {newId previousId : Uuid} {ordinal : ℤ}
    (hok : s.reopenNode now newId nodeId previousId ordinal = .ok s')
    (builds : Table Uuid BuildRow) :
    s'.builds = s.builds ∧ reopenNode { s with builds } now newId nodeId previousId ordinal =
      .ok { s' with builds } := by
  unfold reopenNode at hok ⊢
  split at hok
  · cases hok
  next inserted hinsert =>
  obtain ⟨-, rfl⟩ := insertAttempt_eq_ok hinsert
  cases hok
  have hinsert' : insertAttempt { s with builds } newId
      (retryRow nodeId previousId (ordinal + 1) s.restoreEpoch) =
      .ok { s.withAttempt newId (retryRow nodeId previousId (ordinal + 1) s.restoreEpoch) with
        builds } := by
    unfold insertAttempt at hinsert ⊢
    split at hinsert
    · cases hinsert
    · next hfresh => rw [if_neg hfresh]; rfl
  exact ⟨rfl, by simp only [hinsert']; rfl⟩

theorem reopenNodes_builds {index : ℕ} (hok : reopenNodes now ids entries index s = .ok s')
    (builds : Table Uuid BuildRow) : s'.builds = s.builds ∧
      reopenNodes now ids entries index { s with builds } = .ok { s' with builds } := by
  induction entries generalizing s index with
  | nil =>
    cases hok
    exact ⟨rfl, rfl⟩
  | cons entry _ ih =>
    obtain ⟨nodeId, previousId, ordinal⟩ := entry
    rw [reopenNodes] at hok ⊢
    split at hok
    · cases hok
    next reopened hreopen =>
    obtain ⟨hbuilds, hreopen'⟩ := reopenNode_builds hreopen builds
    obtain ⟨hrest, hok'⟩ := ih hok
    rw [hreopen']
    exact ⟨hrest.trans hbuilds, hok'⟩

/-- An entry of the list of nodes to reopen: unless the node has been reopened meanwhile, it is a
skipped node of the build. -/
structure Reopens (s : Store) (buildId : Uuid) (entry : Uuid × Uuid × ℤ) (r : AttemptRow) : Prop
    where
  attempt : s.attempts.lookup entry.2.1 = some r
  nodeId : r.nodeId = entry.1
  ordinal : r.ordinal = entry.2.2
  skipped : ¬ s.Superseded entry.2.1 → ∃ n, s.nodes.lookup entry.1 = some n ∧
    n.buildId = buildId ∧ n.status = .skipped ∧ n.logicalOutcome = some .skipped

/-- Reopening one node is a renewal, and the other entries stay. -/
theorem Reopens.changes {b : BuildRow} {r : AttemptRow} (hentry : s.Reopens buildId entry r)
    (hco : s.Coherent) (hb : s.builds.lookup buildId = some b) (hdag : b.dagMode = true)
    (hqueued : b.status = .queued) {newId : Uuid}
    (hok : s.reopenNode now newId entry.1 entry.2.1 entry.2.2 = .ok s') :
    Changes own s s' ∧ ∀ entry' r', s.Reopens buildId entry' r' →
      s'.Reopens buildId entry' r' := by
  obtain ⟨nodeId, previousId, ordinal⟩ := entry
  unfold reopenNode at hok
  split at hok
  · cases hok
  next inserted hinsert =>
  have hcur : ¬ s.Superseded previousId := by
    rw [← any_retryOf_eq_true]
    unfold insertAttempt at hinsert
    split at hinsert
    · cases hinsert
    · next hfresh =>
      rw [not_or, not_or] at hfresh
      exact fun hany => hfresh.2.2 ⟨rfl, hany⟩
  obtain ⟨hfresh, rfl⟩ := insertAttempt_eq_ok hinsert
  obtain ⟨n, hn, hbuild, hskipped, hlogical⟩ := hentry.skipped hcur
  have hnode := hentry.nodeId
  subst hnode hbuild
  have hx : s.Holds previousId ⟨b, n, r⟩ := ⟨hentry.attempt, hn, hb⟩
  let waits (n : NodeRow) : NodeRow :=
    { n with
      status := if s.dependencies.any (fun dependency => dependency.childNodeId = r.nodeId) then
        .blocked else .queued
      logicalOutcome := none
      cancellationRequestedAt := none
      queuedAt := now }
  let p (id : Uuid) (n : NodeRow) : Bool :=
    id = r.nodeId && n.status = .skipped && n.logicalOutcome = some .skipped
  have hone : ∀ id m, s.nodes.lookup id = some m → (p id m = true ↔ id = r.nodeId) := by
    intro id m hm
    constructor
    · intro hp
      simp only [p, Bool.and_eq_true, decide_eq_true_eq] at hp
      exact hp.1.1
    · rintro rfl
      obtain rfl := mem_unique hn hm
      simp [p, hskipped, hlogical]
  have htouch : s.Touches (s.updateNodes now p waits) previousId ⟨b, n, r⟩
      ⟨b, s.translateRetryReadiness now r.nodeId n (waits n), r⟩ :=
    ⟨hx, lookup_eq_ite hx.attempt, lookup_updateNodes_one hn now waits hone,
      lookup_eq_ite hx.build, rfl, rfl, by rw [translateRetryReadiness_identity]; rfl, rfl⟩
  have hsucc : s.Succeeds previousId newId ⟨b, n, r⟩
      (retryRow r.nodeId previousId (ordinal + 1) s.restoreEpoch) :=
    ⟨hfresh, rfl, congrArg (· + 1) hentry.ordinal.symm, rfl, rfl, rfl⟩
  have hwaits := s.translateRetryReadiness_waits now r.nodeId n (waits n)
    (by simp only [waits]; split <;> simp)
  have hrenew : Renewal s previousId ⟨b, n, r⟩
      ⟨b, s.translateRetryReadiness now r.nodeId n (waits n), r⟩ :=
    .reopen hdag hskipped hqueued rfl rfl (by rw [hdag]; exact hwaits)
  cases hok
  refine ⟨.single (.renew htouch ⟨rfl, rfl, rfl, rfl, rfl⟩ hcur hsucc hrenew ⟨[], rfl, Quiet.nil⟩
    rfl),
    fun entry' r' hentry' => ?_⟩
  -- Another entry's attempt is there still; if it is current, its node is another one.
  refine ⟨hsucc.lookup_of_mid htouch ((htouch.attempts _).trans ?_), hentry'.nodeId,
    hentry'.ordinal, fun hcur' => ?_⟩
  · split
    · next heq =>
      exact mem_unique hentry.attempt (heq ▸ hentry'.attempt) ▸ rfl
    · exact hentry'.attempt
  · have hcur' : ¬ (s.Superseded entry'.2.1 ∨ entry'.2.1 = previousId) := fun hsup =>
      hcur' ((hsucc.superseded_iff htouch).mpr hsup)
    rw [not_or] at hcur'
    obtain ⟨m, hm, hrest⟩ := hentry'.skipped hcur'.1
    refine ⟨m, (htouch.nodes _).trans ?_, hrest⟩
    rw [if_neg, hm]
    intro hsame
    exact hcur'.2 (hco.current hentry'.attempt hentry.attempt (hentry'.nodeId.trans hsame)
      hcur'.1 hcur)

theorem changes_reopenNodes {b : BuildRow}
    (hentries : ∀ entry ∈ entries, ∃ r, s.Reopens buildId entry r) (hco : s.Coherent)
    (hb : s.builds.lookup buildId = some b) (hdag : b.dagMode = true) (hqueued : b.status = .queued)
    {index : ℕ} (hok : reopenNodes now ids entries index s = .ok s') : Changes own s s' := by
  induction entries generalizing s index with
  | nil => exact Except.ok.inj hok ▸ .refl s
  | cons entry _ ih =>
    rw [reopenNodes] at hok
    split at hok
    · cases hok
    next reopened hreopen =>
    obtain ⟨r, hentry⟩ := hentries entry mem_cons_self
    obtain ⟨hpath, hkeep⟩ := hentry.changes hco hb hdag hqueued hreopen
    refine hpath.trans (ih (fun next hnext => ?_) (hpath.coherent hco) ?_ hok)
    · obtain ⟨r', hnext'⟩ := hentries next (mem_cons_of_mem _ hnext)
      exact ⟨r', hkeep next r' hnext'⟩
    · rw [(reopenNode_builds hreopen ∅).1]
      exact hb

theorem latestAttempt_eq_some {r : AttemptRow} (hlatest : s.latestAttempt nodeId = some (a, r)) :
    s.attempts.lookup a = some r ∧ r.nodeId = nodeId := by
  obtain ⟨hr, hnode⟩ := mem_select.mp
    ((mem_insertionSort _).mp (mem_of_mem_head? hlatest))
  exact ⟨hr, of_decide_eq_true hnode⟩

/-- The nodes a retry reopens are skipped nodes of the build. -/
theorem reopens_of_mem (hmem : entry ∈ s.reopenedNodes buildId nodeId) :
    ∃ r, s.Reopens buildId entry r := by
  simp only [reopenedNodes, mem_filterMap, map_eq_some_iff, Prod.exists] at hmem
  obtain ⟨id, n, hselected, a, r, hlatest, rfl⟩ := hmem
  obtain ⟨hn, hreopened⟩ := mem_select.mp ((mem_insertionSort _).mp hselected)
  obtain ⟨hr, hnode⟩ := latestAttempt_eq_some hlatest
  simp only [isReopened, Bool.and_eq_true, decide_eq_true_eq] at hreopened
  exact ⟨r, hr, hnode, rfl, fun _ => ⟨n, hn, hreopened.1.1.1, hreopened.1.1.2, hreopened.1.2⟩⟩

/-! ## New attempts -/

/-- A new attempt in the place of the retried one, with the build open again, is a renewal. -/
theorem Retriable.changes (hx : s.Retriable a x) (hfresh : s.attempts.lookup c = none)
    {waits : NodeRow → NodeRow} (hidentity : (waits x.node).identity = x.node.identity)
    (hwaits : Phase x.build.dagMode
      (s.translateRetryReadiness now x.attempt.nodeId x.node (waits x.node)) .queued) :
    Changes own s (((s.withAttempt c (retryRow x.attempt.nodeId a (x.attempt.ordinal + 1)
      s.restoreEpoch)).modifyNode now x.attempt.nodeId waits).modifyBuild x.node.buildId fun b =>
        { b with status := .queued, cancellationRequestedAt := none }) := by
  let reopen (b : BuildRow) : BuildRow :=
    { b with status := .queued, cancellationRequestedAt := none }
  have htouch : s.Touches ((s.modifyNode now x.attempt.nodeId waits).modifyBuild x.node.buildId
      reopen) a x ⟨reopen x.build,
        s.translateRetryReadiness now x.attempt.nodeId x.node (waits x.node), x.attempt⟩ :=
    ⟨hx.holds, lookup_eq_ite hx.holds.attempt,
      lookup_updateNodes_one hx.holds.node now waits fun _ _ _ => by simp,
      lookup_modify_of_eq hx.holds.build reopen, rfl, rfl,
      by rw [translateRetryReadiness_identity, hidentity], rfl⟩
  have hclean : ∀ id e, s.effects.lookup id = some e → id.attemptId = a →
      e.effectClass ≠ .nonIdempotent := by
    intro id e he hid hclass
    have hnone := hx.clean
    rw [hasNonIdempotentEffect, Table.any_eq_false] at hnone
    simpa [hid, hclass] using hnone id e he
  have hsucc : s.Succeeds a c x (retryRow x.attempt.nodeId a (x.attempt.ordinal + 1)
      s.restoreEpoch) := ⟨hfresh, rfl, rfl, rfl, rfl, rfl⟩
  exact .single (.renew htouch ⟨rfl, rfl, rfl, rfl, rfl⟩ hx.current hsucc
    (.retry hx.status hx.unstamped hclean rfl rfl hwaits) ⟨[], rfl, Quiet.nil⟩ rfl)

theorem changes_retryDagNode (hx : s.Retriable a x) (hco : s.Coherent)
    (hdag : x.build.dagMode = true)
    (hok : s.retryDagNode now ids a x.attempt x.node maxAttempts = .ok s') :
    Changes own s (s'.modifyBuild x.node.buildId fun b =>
      { b with status := .queued, cancellationRequestedAt := none }) := by
  unfold retryDagNode at hok
  simp only at hok
  split at hok
  · cases hok
  next inserted hinsert =>
  obtain ⟨hfresh, rfl⟩ := insertAttempt_eq_ok hinsert
  let reopen (b : BuildRow) : BuildRow :=
    { b with status := .queued, cancellationRequestedAt := none }
  obtain ⟨hbuilds, hok'⟩ := reopenNodes_builds hok (s.builds.modify x.node.buildId reopen)
  let waits (n : NodeRow) : NodeRow :=
    { n with
      status := if s.dependenciesReady x.attempt.nodeId then .queued else .blocked
      logicalOutcome := none
      cancellationRequestedAt := none
      maxAttempts := max n.maxAttempts maxAttempts
      queuedAt := if s.dependenciesReady x.attempt.nodeId then now else n.queuedAt }
  have hwaits : Phase x.build.dagMode
      (s.translateRetryReadiness now x.attempt.nodeId x.node (waits x.node)) .queued := by
    rw [hdag]
    exact s.translateRetryReadiness_waits now _ _ _ (by simp only [waits]; split <;> simp)
  have hpath : Changes own s _ := hx.changes hfresh rfl hwaits
  have hb : (s.builds.modify x.node.buildId reopen).lookup x.node.buildId =
      some (reopen x.build) := by
    rw [lookup_modify_of_eq hx.holds.build, if_pos rfl]
  have hs' : s'.modifyBuild x.node.buildId reopen =
      { s' with builds := s.builds.modify x.node.buildId reopen } := by
    rw [modifyBuild, hbuilds]
    rfl
  rw [hs']
  refine hpath.bind hco fun hco' => changes_reopenNodes (fun entry hmem => ?_) hco' hb hdag rfl
    hok'
  obtain ⟨r, hentry⟩ := reopens_of_mem hmem
  exact ⟨r, hentry.attempt, hentry.nodeId, hentry.ordinal, hentry.skipped⟩

theorem changes_retrySingleNode (hx : s.Retriable a x) (hco : s.Coherent)
    (hsolo : x.build.dagMode = false) (hok : s.retrySingleNode now c a x.attempt = .ok s') :
    Changes own s (s'.modifyBuild x.node.buildId fun b =>
      { b with status := .queued, cancellationRequestedAt := none }) := by
  unfold retrySingleNode at hok
  split at hok
  · cases hok
  next inserted hinsert =>
  obtain ⟨hfresh, rfl⟩ := insertAttempt_eq_ok hinsert
  cases hok
  have hphase := (hco.ok hx.holds.attempt hx.holds.node hx.holds.build hx.current).phase
  rw [hsolo] at hphase
  obtain ⟨hstatus, hlogical, hstamp⟩ := s.translateRetryReadiness_waits now x.attempt.nodeId x.node
    { x.node with status := .queued, queuedAt := now } (.inl rfl)
  refine hx.changes hfresh rfl ?_
  rw [hsolo]
  refine ⟨hlogical.trans hphase.1, hstamp.trans hphase.2.1, hstatus.resolve_right fun hblocked => ?_⟩
  simp [hco.dagMode_of_blocked hx.holds rfl hblocked] at hsolo

theorem changes_scheduleRetry [Platform] (hco : s.Coherent) {reason : String}
    (hok : s.scheduleRetry now ids a maxAttempts reason actorSubject = .ok (s', answer)) :
    Changes own s s' := by
  cases scheduleRetry_cases hok with
  | ineligible hs | scheduled _ _ hs =>
    subst hs
    exact .refl _
  | @buried x hx _ hs =>
    subst hs
    exact changes_terminalizeDeadLettered hx.holds hx.current now reason
  | @deadLettered x hx _ hs =>
    subst hs
    have hframe : s.Frame (s.deadLetter a x.attempt x.node maxAttempts reason actorSubject) :=
      ⟨⟨rfl, rfl, rfl, rfl, rfl⟩, rfl, rfl, fun _ => rfl, .of_eq rfl, fun _ => rfl, [_], rfl,
        Quiet.single rfl⟩
    have hx' : (s.deadLetter a x.attempt x.node maxAttempts reason actorSubject).Holds a x :=
      ⟨hx.holds.attempt, hx.holds.node, hx.holds.build⟩
    exact (Changes.of_frame hframe).trans (changes_terminalizeDeadLettered hx' hx.current
      now reason)
  | created hx _ _ hs =>
    unfold createRetry at hs
    split at hs
    · cases hs
    next retried hretried =>
    cases hs
    refine Changes.report ?_ _ rfl
    split at hretried
    · next hdag => exact changes_retryDagNode hx hco hdag hretried
    · next hsolo =>
      rw [Bool.not_eq_true] at hsolo
      exact changes_retrySingleNode hx hco hsolo hretried

end McLoving.Store
