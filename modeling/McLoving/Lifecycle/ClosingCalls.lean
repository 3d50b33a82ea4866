import McLoving.Lifecycle.EffectCalls

/-!
# The calls that end or park an attempt, as paths

Finalization under the lease, the operator's decision on a parked attempt, the agent's report of a
cancelled process, the expiry of leases and the owner's cancellation.
-/

namespace McLoving.Store

open Option Except Table

variable {own : Prop} {s s' : Store}

/-! ## Workspace columns -/

/-- At most the workspace columns of one build change, and a pin stays. -/
def WritesWorkspace (s s' : Store) (buildId : Uuid) : Prop :=
  s' = s ∨ ∃ f : BuildRow → BuildRow, (∀ b, (f b).truth = b.truth) ∧
    (∀ b agent, s.builds.lookup buildId = some b → b.workspaceAffinityAgentId = some agent →
      (f b).workspaceAffinityAgentId = some agent) ∧ s' = s.modifyBuild buildId f

namespace WritesWorkspace

variable {buildId a : Uuid} (hwrites : s.WritesWorkspace s' buildId)
include hwrites

theorem frame : s.Frame s' := by
  rcases hwrites with rfl | ⟨f, hf, hpins, rfl⟩
  · exact .refl _
  · refine ⟨⟨rfl, rfl, rfl, rfl, rfl⟩, rfl, rfl, fun id => ?_, .of_modify rfl hpins, fun _ => rfl,
      [], rfl, Quiet.nil⟩
    rw [modifyBuild_builds, lookup_modify]
    split
    · rw [map_map]
      exact congrArg (Option.map · _) (funext hf)
    · rfl

/-- The attempt and its node stay. -/
theorem holds {x : Rows} (hx : s.Holds a x) : ∃ b, s'.Holds a ⟨b, x.node, x.attempt⟩ := by
  rcases hwrites with rfl | ⟨f, hf, -, rfl⟩
  · exact ⟨x.build, hx⟩
  · have hbuild := hx.build
    by_cases hid : x.node.buildId = buildId
    · refine ⟨f x.build, hx.attempt, hx.node, ?_⟩
      rw [modifyBuild_builds, lookup_modify, if_pos hid, hbuild, map_some]
    · refine ⟨x.build, hx.attempt, hx.node, ?_⟩
      rw [modifyBuild_builds, lookup_modify, if_neg hid, hbuild]

end WritesWorkspace

variable {buildId : Uuid} {outcome : TerminalOutcome}

/-- Closing an attempt and writing workspace columns can be done in either order. -/
theorem WritesWorkspace.of_modifyAttempt {a : Uuid} {f : AttemptRow → AttemptRow}
    (hwrites : (s.modifyAttempt a f).WritesWorkspace s' buildId) :
    ∃ mid, s.WritesWorkspace mid buildId ∧ s' = mid.modifyAttempt a f := by
  rcases hwrites with rfl | ⟨g, hg, hpins, rfl⟩
  · exact ⟨s, .inl rfl, rfl⟩
  · exact ⟨s.modifyBuild buildId g, .inr ⟨g, hg, hpins, rfl⟩, rfl⟩

theorem commitWorkspace_eq_ok [Platform] {transfer : Option WorkspaceTransferResult}
    (hok : s.commitWorkspace buildId transfer outcome = .ok s') : s.WritesWorkspace s' buildId := by
  unfold commitWorkspace at hok
  split at hok
  · cases hok
  split at hok
  · split at hok
    · cases hok
    · exact .inl (ok.inj hok).symm
  · obtain ⟨current, -, hok⟩ := bind_eq_ok.mp hok
    split at hok
    · split at hok
      · cases hok
      · exact .inl (ok.inj hok).symm
    · split at hok
      · cases hok
      · split at hok
        · obtain ⟨receipt, -, hok⟩ := bind_eq_ok.mp hok
          refine .inr ⟨_, ?_, ?_, (ok.inj hok).symm⟩
          · exact fun _ => rfl
          · exact fun _ _ _ hpin => hpin
        · split at hok
          · cases hok
          · exact .inl (ok.inj hok).symm

theorem recordIfSucceeded_eq_ok {nodeId : Uuid} {agentId : Option String}
    (hok : s.recordIfSucceeded buildId nodeId outcome agentId = .ok s') :
    s.WritesWorkspace s' buildId := by
  unfold recordIfSucceeded at hok
  split at hok
  · unfold recordSuccessfulAgent at hok
    split at hok
    · split at hok
      · exact .inl (ok.inj hok).symm
      · next build hbuild =>
        split at hok
        · next hunpinned =>
          split at hok
          · refine .inr ⟨_, ?_, ?_, (ok.inj hok).symm⟩
            · exact fun _ => rfl
            · intro b agent hb hpin
              obtain rfl := mem_unique hbuild hb
              simp [hpin] at hunpinned
          · cases hok
        · split at hok
          · split at hok
            · cases hok
            · exact .inl (ok.inj hok).symm
          · exact .inl (ok.inj hok).symm
    · exact .inl (ok.inj hok).symm
  · exact .inl (ok.inj hok).symm

/-- All work nodes of a build that shares a workspace require the affinity capability. -/
theorem contains_of_sharesWorkspace {id : Uuid} {b : BuildRow} {n : NodeRow}
    (hshares : s.sharesWorkspace buildId b = true) (hn : s.nodes.lookup id = some n)
    (hbuild : n.buildId = buildId) (hwork : n.nodeKind = .work) :
    n.requiredCapabilities.contains workspaceAffinityCapability = true := by
  simp only [sharesWorkspace, Bool.and_eq_true, Bool.not_eq_true'] at hshares
  have hall := any_eq_false.mp hshares.2 id n hn
  simp only [hbuild, hwork, decide_true, Bool.true_and, Bool.not_eq_false'] at hall
  exact hall

/-- After the success of work that shares a workspace the build is pinned to its agent. -/
theorem pinned_of_recordIfSucceeded {nodeId : Uuid} {agent : String} {n : NodeRow} {b : BuildRow}
    (hok : s.recordIfSucceeded buildId nodeId .succeeded (some agent) = .ok s')
    (hn : s.nodes.lookup nodeId = some n) (hbuild : n.buildId = buildId)
    (hwork : n.nodeKind = .work) (hb : s'.builds.lookup buildId = some b)
    (hshares : s'.sharesWorkspace buildId b = true) (hspace : b.workspaceNamespace = none) :
    b.workspaceAffinityAgentId = some agent := by
  have hnodes := (recordIfSucceeded_eq_ok hok).frame.nodes
  have hcapable := contains_of_sharesWorkspace hshares (hnodes ▸ hn) hbuild hwork
  simp only [recordIfSucceeded, recordSuccessfulAgent, hn, any_some, hbuild, hwork,
    hcapable, decide_true, Bool.and_self, if_true] at hok
  split at hok
  · next hnone =>
    rw [← ok.inj hok, hnone] at hb
    cases hb
  next build hfound =>
  split at hok
  · split at hok
    · rw [← ok.inj hok, modifyBuild_builds, lookup_modify_of_eq hfound, if_pos rfl]
        at hb
      rw [← Option.some.inj hb]
    · cases hok
  next hkept =>
  split at hok
  · next existing hpin =>
    split at hok
    · cases hok
    next hsame =>
    rw [← ok.inj hok, hfound] at hb
    rw [← Option.some.inj hb, hpin, not_not.mp hsame]
  · next hunpinned =>
    cases hok
    obtain rfl := mem_unique hfound hb
    simp [hshares, hspace, hunpinned] at hkept

/-! ## Finalization -/

section Publish

variable {a : Uuid} {x : Rows} (hco : s.Coherent) (hx : s.Holds a x) (hcur : ¬ s.Superseded a)
  (hopen : x.attempt.status.isOpen = true)
include hco hx hcur hopen

variable {outcome : TerminalOutcome} {summary : Json} {now : Timestamp} {retryId : Uuid}

/-- Writing workspace columns, closing the attempt and publishing its outcome is a path. -/
theorem closes_close_and_publish {mid closed published : Store} {close : AttemptRow → AttemptRow}
    {expiry : Option Timestamp} {buildId : Uuid}
    (hclose : close x.attempt = x.attempt.closed outcome summary expiry)
    (hfst : s.WritesWorkspace mid buildId)
    (hsnd : (mid.modifyAttempt a close).WritesWorkspace closed buildId)
    (hvouched : outcome = .succeeded → ∀ b, closed.builds.lookup x.node.buildId = some b →
      closed.Vouched ⟨b, x.node, x.attempt⟩)
    (hok : closed.publishOutcome now retryId a outcome = .ok published) :
    Closes own s a (x.attempt.closed outcome summary expiry) published := by
  obtain ⟨pinned, hpinned, rfl⟩ := hsnd.of_modifyAttempt
  obtain ⟨b, hx₁⟩ := hfst.holds hx
  obtain ⟨b', hx₂⟩ := hpinned.holds hx₁
  have hpath : Changes own s pinned := (Changes.of_frame hfst.frame).trans (.of_frame hpinned.frame)
  have hcur' : ¬ pinned.Superseded a := fun hsup =>
    hcur (hfst.frame.rewrites.superseded_iff.mp (hpinned.frame.rewrites.superseded_iff.mp hsup))
  refine .bind hco hpath fun hco' => ?_
  have hpinned_vouched : outcome = .succeeded → pinned.Vouched ⟨b', x.node, x.attempt⟩ :=
    fun hsucc => hvouched hsucc b' hx₂.build
  have hcloses : Closes own pinned a _ published :=
    closes_publishOutcome hx₂ hclose hco' hcur' hopen hpinned_vouched hok
  exact hcloses

theorem closes_publishTerminal [Platform] {authority : LeaseAuthority}
    {transfer : Option WorkspaceTransferResult} (ha : a = authority.attemptId)
    (hlease : s.holdsLease authority x.attempt = true)
    (hok : s.publishTerminal now retryId authority x.attempt x.node outcome summary transfer =
      .ok s') : Closes own s a (x.attempt.closed outcome summary none) s' := by
  subst ha
  obtain ⟨committed, hcommit, hok⟩ := bind_eq_ok.mp hok
  obtain ⟨recorded, hrecord, hok⟩ := bind_eq_ok.mp hok
  obtain ⟨published, hpublish, hok⟩ := bind_eq_ok.mp hok
  cases hok
  have hcommitted := commitWorkspace_eq_ok hcommit
  refine (closes_close_and_publish hco hx hcur hopen rfl hcommitted
    (recordIfSucceeded_eq_ok hrecord) ?_ hpublish).trans
    (.of_frame (frame_appendEvent _ _ rfl))
  rintro rfl b hb ⟨hshares, hspace, hwork⟩
  have howner : x.attempt.leaseOwner = some authority.agentId := by
    simp only [holdsLease, Bool.and_eq_true, decide_eq_true_eq] at hlease
    exact hlease.2
  have hn : committed.nodes.lookup x.attempt.nodeId = some x.node := by
    rw [hcommitted.frame.nodes]
    exact hx.node
  exact ⟨authority.agentId, howner,
    pinned_of_recordIfSucceeded hrecord hn rfl hwork hb hshares hspace⟩

theorem closes_publishReconciled {actor : String}
    (hverified : s.claimsUnverifiedOutput x.node x.build outcome summary = false)
    (hok : s.publishReconciled now retryId a x.attempt x.node actor outcome summary = .ok s') :
    Closes own s a (x.attempt.closed outcome summary x.attempt.leaseExpiresAt) s' := by
  obtain ⟨recorded, hrecord, hok⟩ := bind_eq_ok.mp hok
  obtain ⟨published, hpublish, hok⟩ := bind_eq_ok.mp hok
  cases hok
  have hrecorded := recordIfSucceeded_eq_ok hrecord
  refine (closes_close_and_publish hco hx hcur hopen rfl (.inl rfl) hrecorded ?_
    hpublish).trans (.of_frame (frame_appendEvent _ _ rfl))
  -- The operator cannot vouch for the files of a shared workspace.
  rintro rfl b - ⟨hshares, -, hwork⟩
  have hnodes := hrecorded.frame.nodes
  have hcapable := contains_of_sharesWorkspace hshares (hnodes ▸ hx.node) rfl hwork
  have hclaims : s.claimsUnverifiedOutput x.node x.build .succeeded summary = true := by
    simp only [sharesWorkspace, countNodes, anyWorkNode, hnodes, Bool.and_eq_true] at hshares
    rw [claimsUnverifiedOutput, Bool.or_eq_true]
    refine .inr ?_
    simp only [Bool.and_eq_true, countNodes, anyWorkNode]
    exact ⟨⟨⟨⟨decide_eq_true trivial, decide_eq_true hwork⟩, hcapable⟩, hshares.1.2⟩, hshares.2⟩
  rw [hclaims] at hverified
  cases hverified

end Publish

/-- Parking an attempt under a lease with its node and build. -/
theorem changes_park (hco : s.Coherent) {a : Uuid} {x : Rows} (hx : s.Holds a x)
    (hlive : x.attempt.status.isLive = true) {owner : Option String}
    (howner : owner = x.attempt.leaseOwner ∨ owner = none) {f : AttemptRow → AttemptRow}
    (hf : f x.attempt = { x.attempt with status := .reconciliationRequired, leaseOwner := owner,
                                         leaseExpiresAt := none }) (now : Timestamp) :
    Changes own s ((s.modifyAttempt a f).parkNode now x.attempt.nodeId x.node.buildId) := by
  have htouch := hx.touches_build (f := f) (p := fun id _ => id = x.attempt.nodeId)
    (g := fun n => { n with status := .reconciliationRequired })
    (h := fun b => { b with status := .reconciliationRequired }) (by rw [hf]; rfl)
    (fun _ _ _ => by simp) rfl now rfl
  rw [hf, translateRetryReadiness_eq _ _ (.inr (by simp))] at htouch
  exact .single (.move htouch ⟨rfl, rfl, rfl, rfl, rfl⟩
    (hco.not_superseded_of_isLive hx.attempt hlive) (.park hlive howner rfl Quiet.nil) rfl)

theorem changes_finalizeAttempt [Platform] (hco : s.Coherent) {now : Timestamp} {retryId : Uuid}
    {authority : LeaseAuthority} {session : Option ℕ} {summary : Json} {cancellationAborts : Bool}
    {answer : Option TerminalOutcome}
    (hok : s.finalizeAttempt now retryId authority session outcome summary cancellationAborts =
      .ok (s', answer)) : Changes own s s' := by
  cases finalizeAttempt_cases hok with
  | refused => exact .refl s
  | replayed => exact .refl s
  | parked hexec =>
    exact (changes_park hco hexec.holds (isLive_of_isExecuting hexec.executing) (.inr rfl) rfl
      now).report _ rfl
  | published hexec _ _ _ hpublish =>
    exact closes_publishTerminal hco hexec.holds
      (hco.not_superseded_of_isLive hexec.holds.attempt (isLive_of_isExecuting hexec.executing))
      (isOpen_of_isExecuting hexec.executing) rfl hexec.lease hpublish |>.changes

open List

variable {now : Timestamp} {retryId a : Uuid} {answer : Bool}

theorem changes_finalizeReconciledAttempt (hco : s.Coherent) {attemptId : Uuid} {fence : ℤ}
    {actor : String} {outcome : TerminalOutcome} {summary : Json}
    (hok : s.finalizeReconciledAttempt now retryId attemptId fence actor outcome summary =
      .ok (s', answer)) : Changes own s s' := by
  cases finalizeReconciledAttempt_cases hok with
  | refused => exact .refl s
  | replayed => exact .refl s
  | published hreconcilable hverified _ hpublish =>
    refine (closes_publishReconciled hco hreconcilable.holds hreconcilable.current ?_ hverified
      hpublish).changes
    simp [AttemptStatus.isOpen, hreconcilable.parked]

/-! ## The agent's report -/

/-- The ways in which `completeAgentCancellation` ends. -/
inductive ReportCase (s : Store) (now : Timestamp) (retryId : Uuid) (authority : LeaseAuthority)
    (outcome : AgentCancellationOutcome) : Store → Prop
  | kept : ReportCase s now retryId authority outcome s
  | discharged {reason : String} :
      ReportCase s now retryId authority outcome (s.recordRecoveredDischarge authority reason)
  | parked {x : Rows} (hx : s.Holds authority.attemptId x)
      (hlease : s.holdsLease authority x.attempt = true)
      (hexec : x.attempt.status.isExecuting = true) :
      ReportCase s now retryId authority outcome (s.parkCancelled now authority x.attempt x.node
        outcome (s.countUncertain authority.attemptId authority.fence))
  | closed {x : Rows} {published : Store} {summary : Json} {payload : EventPayload}
      (hx : s.Holds authority.attemptId x) (hlease : s.holdsLease authority x.attempt = true)
      (hexec : x.attempt.status.isExecuting = true)
      (hcertain : s.countUncertain authority.attemptId authority.fence = 0)
      (hpublish : (s.closeAttempt authority.attemptId .aborted summary).publishOutcome now retryId
        authority.attemptId .aborted = .ok published)
      (hpayload : payload.isOffer = false) :
      ReportCase s now retryId authority outcome (published.appendEvent x.node.buildId payload)

variable {authority : LeaseAuthority} {sessionEpoch : ℕ} {outcome : AgentCancellationOutcome}

theorem completeAgentCancellation_cases {answer : AgentCancellationDisposition}
    (hok : s.completeAgentCancellation now retryId authority sessionEpoch outcome =
      .ok (s', answer)) : ReportCase s now retryId authority outcome s' := by
  unfold completeAgentCancellation at hok
  split at hok
  · cases hok
  · cases hok
    exact .kept
  split at hok
  · split at hok <;> cases hok
    · exact .discharged
    · exact .kept
  next attempt node build hauthority =>
  rw [cancellationAuthority, filter_eq_some_iff] at hauthority
  obtain ⟨hjoin, hchecked⟩ := hauthority
  simp only [Bool.and_eq_true, Bool.or_eq_true, decide_eq_true_eq] at hchecked
  obtain ⟨⟨hlease, -⟩, hstatus⟩ := hchecked
  have hx := joinedAttempt_eq_some.mp hjoin
  split at hok
  · split at hok <;> cases hok
    · exact .discharged
    · exact .kept
  next haborted =>
  split at hok
  · split at hok <;> cases hok
    · exact .discharged
    · exact .kept
  next hparked =>
  have hexec : attempt.status.isExecuting = true := by
    cases hfrom : attempt.status <;> simp_all [AttemptStatus.isExecuting]
  simp only at hok
  split at hok
  · cases hok
    exact .parked hx hlease hexec
  next hcertain =>
  split at hok
  · cases hok
  next published hpublish =>
  cases hok
  simp only [Bool.or_eq_true, decide_eq_true_eq, not_or, Nat.pos_iff_ne_zero, not_not] at hcertain
  exact .closed hx hlease hexec hcertain.2 hpublish rfl

theorem changes_recordRecoveredDischarge (authority : LeaseAuthority) (reason : String) :
    Changes own s (s.recordRecoveredDischarge authority reason) := by
  unfold recordRecoveredDischarge
  split
  · exact .refl s
  · split
    · exact .refl s
    · exact .of_frame (frame_appendEvent s _ rfl)

theorem changes_completeAgentCancellation {answer : AgentCancellationDisposition} (hco : s.Coherent)
    (hok : s.completeAgentCancellation now retryId authority sessionEpoch outcome =
      .ok (s', answer)) : Changes own s s' := by
  cases completeAgentCancellation_cases hok with
  | kept => exact .refl s
  | discharged => exact changes_recordRecoveredDischarge authority _
  | parked hx _ hexec =>
    exact (changes_park hco hx (isLive_of_isExecuting hexec) (.inl rfl) rfl now).report _ rfl
  | closed hx _ hexec _ hpublish hpayload =>
    refine Changes.report ?_ _ hpayload
    exact (closes_publishOutcome hx rfl hco
      (hco.not_superseded_of_isLive hx.attempt (isLive_of_isExecuting hexec))
      (isOpen_of_isExecuting hexec) (by simp)
      hpublish).changes

/-! ## Expiry -/

/-- The attempt's protected effects are open, or a contained process may have started. -/
def NeedsReconciliation (s : Store) (a : Uuid) (x : Rows) : Prop :=
  s.protectedEffects a x.attempt.fence ≠ [] ∨
    s.sequentialProcessUncertain a x.attempt x.node x.build = true

/-- The ways in which `requeueOneExpired` ends, with the open effects of the fence marked. -/
inductive ExpiryCase (s : Store) (now : Timestamp) (retryId : Uuid) : Store → Prop
  | kept : ExpiryCase s now retryId s
  | aborted {a : Uuid} {x : Rows} {published : Store} (hx : s.Holds a x)
      (hlive : x.attempt.status.isLive = true) (hsafe : ¬ s.NeedsReconciliation a x)
      (hstopped : cancellationStamped x.node x.build = true ∨
        s.buildPipelineEnabled x.node.buildId = false)
      (hpublish : (s.markEffectsUncertain fun id =>
          id.attemptId = a && id.fence = x.attempt.fence).abortExpired now retryId a x.attempt
            x.node = .ok published) :
      ExpiryCase s now retryId published
  | parked {a : Uuid} {x : Rows} {unresolved confirmed : ℕ} (hx : s.Holds a x)
      (hlive : x.attempt.status.isLive = true) (hneeds : s.NeedsReconciliation a x) :
      ExpiryCase s now retryId ((s.markEffectsUncertain fun id =>
        id.attemptId = a && id.fence = x.attempt.fence).parkExpired now a x.attempt x.node
          unresolved confirmed)
  | requeued {a : Uuid} {x : Rows} {unresolved confirmed : ℕ} (hx : s.Holds a x)
      (hlive : x.attempt.status.isLive = true) (hsafe : ¬ s.NeedsReconciliation a x)
      (hunstamped : x.Unstamped)
      (henabled : s.buildPipelineEnabled x.node.buildId = true) :
      ExpiryCase s now retryId ((s.markEffectsUncertain fun id =>
        id.attemptId = a && id.fence = x.attempt.fence).requeueExpired now a x.attempt x.node
          unresolved confirmed)

theorem expiredAttempt_eq_some {r : AttemptRow} (hexpired : s.expiredAttempt now = some (a, r)) :
    s.attempts.lookup a = some r ∧ r.status.isLive = true := by
  have hmem := mem_of_mem_head? (mem_def.mpr hexpired)
  rw [mem_insertionSort, mem_select] at hmem
  obtain ⟨hr, hlive⟩ := hmem
  rw [Bool.and_eq_true] at hlive
  exact ⟨hr, hlive.1⟩

theorem requeueOneExpired_cases (hok : s.requeueOneExpired now retryId = .ok (s', answer)) :
    ExpiryCase s now retryId s' := by
  unfold requeueOneExpired at hok
  split at hok
  · cases hok
    exact .kept
  next a r hexpired =>
  obtain ⟨hr, hlive⟩ := expiredAttempt_eq_some hexpired
  split at hok
  · cases hok
    exact .kept
  next attempt node build hjoin =>
  have hx := joinedAttempt_eq_some.mp hjoin
  obtain rfl := mem_unique hr hx.attempt
  have hneeds : (!(s.protectedEffects a r.fence).isEmpty ||
      s.sequentialProcessUncertain a r node build) = true ↔
        s.NeedsReconciliation a ⟨build, node, r⟩ := by
    simp [NeedsReconciliation]
  simp only at hok
  split at hok
  · next haborts =>
    simp only [Bool.and_eq_true, Bool.or_eq_true, Bool.not_eq_true'] at haborts
    obtain ⟨hstopped, hsafe⟩ := haborts
    split at hok
    · cases hok
    next published hpublish =>
    obtain ⟨rfl, -⟩ := Prod.mk.inj (Except.ok.inj hok)
    refine .aborted (x := ⟨build, node, r⟩) hx hlive (fun h => ?_) hstopped hpublish
    rw [hneeds.mpr h] at hsafe
    cases hsafe
  next hgoes =>
  split at hok
  · next hopen =>
    obtain ⟨rfl, -⟩ := Prod.mk.inj (Except.ok.inj hok)
    exact .parked (x := ⟨build, node, r⟩) hx hlive (hneeds.mp hopen)
  · next hsafe =>
    obtain ⟨rfl, -⟩ := Prod.mk.inj (Except.ok.inj hok)
    simp only [Bool.and_eq_true, Bool.not_eq_true', not_and, Bool.not_eq_false] at hgoes
    have hrun : ¬ (cancellationStamped node build || !s.buildPipelineEnabled node.buildId) = true :=
      fun h => hsafe (hgoes h)
    simp only [Bool.or_eq_true, Bool.not_eq_true', not_or, Bool.not_eq_true, Bool.not_eq_false,
      cancellationStamped, isSome_eq_false_iff, isNone_iff_eq_none] at hrun
    exact .requeued (x := ⟨build, node, r⟩) hx hlive (fun h => hsafe (hneeds.mpr h)) hrun.1 hrun.2

/-- Without open effects the fence's protected effects are all abandoned. -/
theorem abandoned_of_not_needsReconciliation {x : Rows} (hsafe : ¬ s.NeedsReconciliation a x)
    {id : EffectId} {e : EffectRow} (he : (s.markEffectsUncertain fun id =>
      id.attemptId = a && id.fence = x.attempt.fence).effects.lookup id = some e)
    (ha : id.attemptId = a) (hfence : id.fence = x.attempt.fence)
    (hprotected : e.isProtected = true) : e.status = .abandoned := by
  have hnone {e₀ : EffectRow} (he₀ : s.effects.lookup id = some e₀)
      (hprotected₀ : e₀.isProtected = true) : e₀.status = .abandoned := by
    by_contra hstatus
    refine hsafe (.inl (ne_nil_of_mem (a := (id, e₀)) ?_))
    rw [protectedEffects, mem_select]
    simp [he₀, ha, hfence, hprotected₀, hstatus]
  simp only [markEffectsUncertain, lookup_update, map_eq_some_iff] at he
  obtain ⟨e₀, he₀, hmarked⟩ := he
  split at hmarked
  · next hp =>
    simp only [Bool.and_eq_true, Bool.or_eq_true, decide_eq_true_eq] at hp
    have habandoned := hnone he₀ hp.1.2
    simp [habandoned] at hp
  · subst hmarked
    exact hnone he₀ hprotected

/-- Only a DAG node is held back by dependencies when it returns to the queue. -/
theorem Coherent.dagMode_of_blocked (hco : s.Coherent) {x : Rows} (hx : s.Holds a x) {new : NodeRow}
    (hqueued : new.status = .queued)
    (hblocked : (s.translateRetryReadiness now x.attempt.nodeId x.node new).status = .blocked) :
    x.build.dagMode = true := by
  by_contra hsolo
  have hready : s.dependenciesReady x.attempt.nodeId = true := by
    rw [dependenciesReady, List.all_eq_true]
    intro d hd
    obtain ⟨-, child, b, -, -, hchild, hcb, hb, hdag⟩ := hco.dependency hd
    by_cases hid : d.childNodeId = x.attempt.nodeId
    · obtain rfl := mem_unique hchild (hid ▸ hx.node)
      obtain rfl := mem_unique hb (hcb ▸ hx.build)
      exact absurd hdag hsolo
    · simp [hid]
  unfold translateRetryReadiness at hblocked
  split at hblocked
  · simp [hqueued] at hblocked
  · split at hblocked
    · next h => simp [hready, hqueued] at h
    · simp [hqueued] at hblocked

theorem changes_requeueOneExpired (hco : s.Coherent)
    (hok : s.requeueOneExpired now retryId = .ok (s', answer)) : Changes own s s' := by
  have hmark {a : Uuid} {x : Rows} (hx : s.Holds a x) (hlive : x.attempt.status.isLive = true) :
      Changes own s (s.markEffectsUncertain fun id =>
        id.attemptId = a && id.fence = x.attempt.fence) :=
    .single (change_uncertain hx.attempt (by simp [AttemptStatus.isOpen, hlive]) fun id e hp => by
      simp only [Bool.and_eq_true, Bool.or_eq_true, decide_eq_true_eq] at hp
      exact ⟨hp.1.1.1, hp.2⟩)
  have hholds {a : Uuid} {x : Rows} (hx : s.Holds a x) (p : EffectId → Bool) :
      (s.markEffectsUncertain p).Holds a x := ⟨hx.attempt, hx.node, hx.build⟩
  cases requeueOneExpired_cases hok with
  | kept => exact .refl s
  | aborted hx hlive _ _ hpublish =>
    refine (hmark hx hlive).bind hco fun hco' => ?_
    unfold abortExpired at hpublish
    simp only at hpublish
    split at hpublish
    · cases hpublish
    next closed hclosed =>
    cases hpublish
    refine Changes.report ?_ _ (by split <;> rfl)
    exact (closes_publishOutcome (hholds hx _) rfl hco'
      (hco'.not_superseded_of_isLive (hholds hx _).attempt hlive)
      (by simp [AttemptStatus.isOpen, hlive]) (by simp)
      hclosed).changes
  | parked hx hlive =>
    refine (hmark hx hlive).bind hco fun hco' => ?_
    exact (changes_park hco' (hholds hx _) hlive (.inr rfl) rfl now).report _ rfl
  | @requeued a x _ _ hx hlive hsafe hunstamped =>
    refine (hmark hx hlive).bind hco fun hco' => ?_
    have hx' := hholds hx fun id => id.attemptId = a && id.fence = x.attempt.fence
    have hclean : ∀ id e, (s.markEffectsUncertain fun id =>
        id.attemptId = a && id.fence = x.attempt.fence).effects.lookup id = some e →
        id.attemptId = a → id.fence = x.attempt.fence → e.isProtected = true →
        e.status = .abandoned :=
      fun _ _ => abandoned_of_not_needsReconciliation hsafe
    generalize (s.markEffectsUncertain fun id => id.attemptId = a && id.fence = x.attempt.fence)
      = marked at hco' hx' hclean
    have htouch := hx'.touches_build
      (f := fun r => { r with status := .queued, leaseOwner := none, leaseExpiresAt := none })
      (p := fun id _ => id = x.attempt.nodeId) (g := fun n => { n with status := .queued })
      (h := BuildRow.requeued) rfl (fun _ _ _ => by simp) rfl now (BuildRow.requeued_identity _)
    obtain ⟨hstatus, hlogical, hstamp⟩ := marked.translateRetryReadiness_waits now
      x.attempt.nodeId x.node { x.node with status := .queued } (.inl rfl)
    have hwaits := hstatus.imp_right fun hblocked => And.intro hblocked
      (hco'.dagMode_of_blocked hx' rfl hblocked)
    exact (Changes.single (.move htouch ⟨rfl, rfl, rfl, rfl, rfl⟩
      (hco'.not_superseded_of_isLive hx'.attempt hlive)
      (.requeue hlive hunstamped hclean hwaits hlogical
        hstamp rfl Quiet.nil) rfl)).report _ rfl

end McLoving.Store
