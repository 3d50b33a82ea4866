import McLoving.Lifecycle.Admissions

/-!
# Every call is a path of changes

Each call is one write of effects or a path of changes that leaves the effects alone but for making
open ones uncertain.  Whatever every change preserves holds in every store that the calls lead to.
Seen from one attempt, a change is one of six things, and a closed attempt stays as it is.
-/

namespace McLoving.Store

variable {own : Prop} {s s' : Store}

/-- A path to the result of a call that may fail. -/
theorem changes_after {α : Type} {result : Except StoreError (Store × α)}
    (hok : ∀ {s' answer}, result = .ok (s', answer) → Changes own s s') :
    Changes own s (s.after result) := by
  rcases result with _ | ⟨s', answer⟩
  · exact .refl s
  · exact hok rfl

theorem eq_ok_after {α : Type} {result : Except StoreError (Store × α)} {answer : α}
    (hanswer : result.map Prod.snd = .ok answer) : result = .ok (s.after result, answer) := by
  rcases result with _ | ⟨s', answer'⟩
  · cases hanswer
  · rw [← Except.ok.inj hanswer]
    rfl

/-- A call is one change that may write an effect, or a path of changes that leave the effects alone
but for making open ones uncertain. -/
theorem change_or_changes_step [Platform] (hco : s.Coherent) (op : Op) :
    Change True s (s.step op) ∨ ∀ own, Changes own s (s.step op) := by
  cases op with
  | putPipeline now input expectedRevision actorSubject =>
    exact .inr fun _ => changes_putPipeline s now input expectedRevision actorSubject
  | transitionPipeline input => exact .inr fun _ => changes_transitionPipelineOperationalState s input
  | openAgentSession now agentId trustPool sessionEpoch features capabilities =>
    exact .inr fun _ => changes_openAgentSession now agentId trustPool sessionEpoch
      features capabilities
  | authorizeAgentSession now agentId sessionEpoch =>
    exact .inr fun _ => changes_authorizeAgentSession now agentId sessionEpoch
  | admitBuild now ids input => exact .inr fun _ => changes_admitBuild s now ids input
  | admitDag now ids input => exact .inr fun _ => changes_admitDag s now ids input
  | admitTriggeredDag now ids input => exact .inr fun _ => changes_admitDagTransaction s now ids input
  | admitSequentialDag now ids dag layout workspaceTransfer =>
    exact .inr fun _ => changes_admitSequential s now ids dag layout workspaceTransfer
  | claimNext now request session =>
    exact .inr fun _ => changes_claimNext hco now request session
  | acceptOffer now authority session =>
    exact .inr fun _ => changes_acceptOffer hco now authority session
  | markAttemptRunning now authority session =>
    exact .inr fun _ => changes_markAttemptRunning hco now authority session
  | renewAttemptLease now authority session leaseSeconds =>
    exact .inr fun _ => changes_renewAttemptLease now authority session leaseSeconds
  | recordLeaseRenewalRejection now attemptId fence agentId cause =>
    exact .inr fun _ => changes_recordLiveLeaseRenewalRejection now attemptId fence agentId cause
  | recoverAgentFinalization now authority session localPhase leaseSeconds =>
    exact .inr fun _ => changes_recoverAgentFinalization hco now authority session
      localPhase leaseSeconds
  | appendLog now chunk session => exact .inr fun _ => changes_appendLog now chunk session
  | checkpointEffect now authority effectKey effectClass status payload =>
    exact .inl <| change_checkpointEffect now authority effectKey effectClass status payload
  | commitEffectDispatch now authority effectKey effectClass payload =>
    exact .inl <| change_commitEffectDispatch now authority effectKey effectClass payload
  | appendEffectEvidence now authority effectKey kind receipt =>
    exact .inl <| change_appendEffectEvidence now authority effectKey kind receipt
  | confirmUncertainEffect id effectClass payload =>
    exact .inl <| change_confirmUncertainEffect id effectClass payload
  | recordUndispatchedRelease now authority effectKey effectClass payload released =>
    exact .inl <| change_recordUndispatchedRelease now authority effectKey effectClass
      payload released
  | abandonExpiredReleasePending now id effectClass payload =>
    exact .inl <| change_abandonExpiredReleasePending now id effectClass payload
  | finalizeAttempt =>
    exact .inr fun _ => changes_after fun hok => changes_finalizeAttempt hco hok
  | finalizeReconciledAttempt =>
    exact .inr fun _ => changes_after fun hok => changes_finalizeReconciledAttempt hco hok
  | requestCancellation now projectId buildId actorSubject =>
    exact .inr fun _ => changes_requestCancellation hco now projectId buildId actorSubject
  | completeAgentCancellation =>
    exact .inr fun _ => changes_after fun hok => changes_completeAgentCancellation hco hok
  | requeueOneExpired =>
    exact .inr fun _ => changes_after fun hok => changes_requeueOneExpired hco hok
  | scheduleRetry =>
    exact .inr fun _ => changes_after fun hok => changes_scheduleRetry hco hok
  | sealRecoveryPoint backupId durableLsn =>
    exact .inr fun _ => changes_sealRecoveryPoint s backupId durableLsn
  | activateRestoreEpoch =>
    exact .inr fun _ => changes_after fun hok => changes_activateRestoreEpoch hco hok

/-- Every call is a path of changes. -/
theorem changes_step [Platform] (hco : s.Coherent) (op : Op) : Changes True s (s.step op) := by
  rcases change_or_changes_step hco op with hchange | hpath
  · exact .single hchange
  · exact hpath True

/-! ## Runs -/

theorem coherent_initial (organizationId : Uuid) : (initial organizationId).Coherent where
  node hr := by cases hr
  build hn := by cases hn
  dependency hd := by cases hd
  retryOf hr := by cases hr
  single hn := by cases hn
  attempted hn := by cases hn
  current hr := by cases hr
  retried hr := by cases hr
  ok hr := by cases hr
  fence hr := by cases hr
  effect he := by cases he

variable {guard : Store → Op → Prop}

section Runs

variable [Platform]

/-- The state after a sequence of Store calls. -/
def runOps (s : Store) (ops : List Op) : Store :=
  ops.foldl step s

theorem run_runOps (s : Store) (ops : List Op) : Run s (s.runOps ops) := by
  induction ops generalizing s with
  | nil => exact Transition.Run.refl s
  | cons op _ ih => exact (Transition.Run.single trivial).trans (ih (s.step op))

/-- What a sequence of Store calls makes of an empty database is reachable. -/
theorem reachable_runOps (organizationId : Uuid) (ops : List Op) :
    ((initial organizationId).runOps ops).Reachable :=
  ⟨organizationId, run_runOps _ ops⟩

/-- Every run leads from coherent stores to coherent stores. -/
theorem Coherent.run (hco : s.Coherent) (hrun : RunWhere guard s s') : s'.Coherent := by
  refine hrun.invariant (fun t op _ hco => ?_) hco
  exact (changes_step hco op).coherent hco

/-- The states that an empty database can get to are coherent. -/
theorem Reachable.coherent (hreach : s.Reachable) : s.Coherent := by
  obtain ⟨organizationId, hrun⟩ := hreach
  exact (coherent_initial organizationId).run hrun

theorem Reachable.run (hreach : s.Reachable) (hrun : RunWhere guard s s') : s'.Reachable := by
  obtain ⟨organizationId, hrun₀⟩ := hreach
  exact ⟨organizationId, hrun₀.trans (hrun.mono fun _ _ _ => trivial)⟩

/-- What every change preserves holds after every run. -/
theorem invariant_of_any_run {I : Store → Prop}
    (hstep : ∀ {s s'}, s.Coherent → Change True s s' → I s → I s')
    (hrun : RunWhere guard s s') (hco : s.Coherent) (hinv : I s) : I s' := by
  have hboth : ∀ s op, guard s op → s.Coherent ∧ I s → (s.step op).Coherent ∧ I (s.step op) :=
    fun _ op _ h => (changes_step h.1 op).invariant hstep h.1 h.2
  exact (hrun.invariant hboth ⟨hco, hinv⟩).2

/-- A reflexive and transitive relation that holds across every change holds across every run. -/
theorem relation_of_any_run {rel : Store → Store → Prop}
    (hrefl : ∀ s, rel s s) (htrans : ∀ {s s' s''}, rel s s' → rel s' s'' → rel s s'')
    (hstep : ∀ {s s'}, s.Coherent → Change True s s' → rel s s')
    (hrun : RunWhere guard s s') (hco : s.Coherent) : rel s s' := by
  refine hrun.relation hrefl (fun _ _ _ => htrans) (fun t op hguard hco => ?_)
    (fun t op _ hco => ?_) hco
  · exact Coherent.run hco (Transition.Run.single hguard)
  · exact (changes_step hco op).relation hrefl htrans hstep hco

end Runs

open Option Table

variable {a : Uuid} {r r' : AttemptRow} {n n' : NodeRow}

/-- What one change does to the current attempt of a node. -/
inductive Evolves (s s' : Store) (a : Uuid) (n : NodeRow) (r : AttemptRow) (n' : NodeRow)
    (r' : AttemptRow) : Prop where
  | still (hn : n' = n) (hr : r' = { r with leaseExpiresAt := r'.leaseExpiresAt })
      (hcur : ¬ s'.Superseded a)
  | moved {b b' : BuildRow} {new : List BuildEvent} (hb : s.builds.lookup n.buildId = some b)
      (hb' : s'.builds.lookup n.buildId = some b')
      (hmove : Move s a ⟨b, n, r⟩ ⟨b', n', r'⟩ new) (hcur : ¬ s'.Superseded a)
  | swept {b : BuildRow} (hb : s.builds.lookup n.buildId = some b)
      (hdag : b.dagMode = true) (hswept : Swept n r n' r') (hcur : ¬ s'.Superseded a)
  | renewed {b b' : BuildRow} (hb : s.builds.lookup n.buildId = some b)
      (hb' : s'.builds.lookup n.buildId = some b')
      (hrenew : Renewal s a ⟨b, n, r⟩ ⟨b', n', r'⟩) (hsup : s'.Superseded a)

/-- Stores with the same attempts supersede the same attempts. -/
theorem superseded_of_eq (hattempts : s'.attempts = s.attempts) :
    s'.Superseded a ↔ s.Superseded a := by
  simp only [Superseded, hattempts]

private theorem evolves_same (hr : s'.attempts.lookup a = some r)
    (hn : s'.nodes.lookup r.nodeId = some n) (hcur : ¬ s'.Superseded a) :
    ∃ n' r', s'.nodes.lookup r.nodeId = some n' ∧ s'.attempts.lookup a = some r' ∧
      Evolves s s' a n r n' r' :=
  ⟨n, r, hn, hr, .still rfl rfl hcur⟩

theorem Change.evolves (hchange : Change own s s') (hco : s.Coherent)
    (hr : s.attempts.lookup a = some r) (hn : s.nodes.lookup r.nodeId = some n)
    (hcur : ¬ s.Superseded a) :
    ∃ n' r', s'.nodes.lookup r.nodeId = some n' ∧ s'.attempts.lookup a = some r' ∧
      Evolves s s' a n r n' r' := by
  cases hchange with
  | frame hframe =>
    obtain ⟨r', hr', htruth⟩ := exists_of_map_eq (hframe.attempts a) hr
    exact ⟨n, r', by rw [hframe.nodes, hn], hr', .still rfl (AttemptRow.eq_of_truth_eq htruth)
        fun hsup => hcur (hframe.rewrites.superseded_iff.mp hsup)⟩
  | pipelines hadvance =>
    rw [hadvance.rest]
    exact evolves_same hr hn hcur
  | ledger hledger =>
    rw [hledger.rest]
    exact evolves_same hr hn hcur
  | epoch _ hs =>
    rw [hs]
    exact evolves_same hr hn hcur
  | mark hre =>
    exact evolves_same (by rw [hre.attempts, hr]) (by rw [hre.nodes, hn])
      fun hsup => hcur ((superseded_of_eq hre.attempts).mp hsup)
  | @move a₀ x y _ htouch _ hcur₀ hmove =>
    have hcur' : ¬ s'.Superseded a := fun hsup =>
      hcur (htouch.rewrites.superseded_iff.mp hsup)
    by_cases ha : a = a₀
    · subst ha
      obtain rfl := mem_unique hr htouch.holds.attempt
      obtain rfl := mem_unique hn htouch.holds.node
      exact ⟨y.node, y.attempt, by rw [htouch.nodes, if_pos rfl], by rw [htouch.attempts,
        if_pos rfl], .moved htouch.holds.build (by rw [htouch.builds, if_pos rfl]) hmove hcur'⟩
    · have hnode : r.nodeId ≠ x.attempt.nodeId := fun hsame =>
        ha (hco.current hr htouch.holds.attempt hsame hcur hcur₀)
      exact evolves_same (by rw [htouch.attempts, if_neg ha, hr])
        (by rw [htouch.nodes, if_neg hnode, hn]) hcur'
  | @renew mid a₀ c x y child htouch _ hcur₀ hsucc hrenew _ hs =>
    have hsup : s'.Superseded a ↔ a = a₀ := by
      have hiff : (mid.withAttempt c child).Superseded a ↔ s.Superseded a ∨ a = a₀ :=
        hsucc.superseded_iff htouch
      rw [superseded_of_eq (congrArg attempts hs)]
      exact hiff.trans (or_iff_right hcur)
    by_cases ha : a = a₀
    · subst ha
      obtain rfl := mem_unique hr htouch.holds.attempt
      obtain rfl := mem_unique hn htouch.holds.node
      refine ⟨y.node, y.attempt, ?_, ?_, .renewed htouch.holds.build ?_ hrenew (hsup.mpr rfl)⟩
      · rw [hs]
        exact (htouch.nodes _).trans (if_pos rfl)
      · rw [hs]
        exact hsucc.lookup_of_mid htouch ((htouch.attempts _).trans (if_pos rfl))
      · rw [hs]
        exact (htouch.builds _).trans (if_pos rfl)
    · have hnode : r.nodeId ≠ x.attempt.nodeId := fun hsame =>
        ha (hco.current hr htouch.holds.attempt hsame hcur hcur₀)
      refine evolves_same ?_ ?_ fun h => ha (hsup.mp h)
      · rw [hs]
        exact hsucc.lookup_of_mid htouch ((htouch.attempts _).trans ((if_neg ha).trans hr))
      · rw [hs]
        exact (htouch.nodes _).trans ((if_neg hnode).trans hn)
  | @sweep buildId _ hb hdag hsweep =>
    have hcur' : ¬ s'.Superseded a := fun hsup =>
      hcur (hsweep.rewrites.superseded_iff.mp hsup)
    obtain ⟨n', r', hn', hr', hswept, hother⟩ := hsweep.swept hr hn hcur
    by_cases hbuild : n.buildId = buildId
    · exact ⟨n', r', hn', hr', .swept (hbuild ▸ hb) hdag hswept hcur'⟩
    · obtain ⟨rfl, rfl⟩ := hother hbuild
      exact evolves_same hr' hn' hcur'
  | enter hnew =>
    exact evolves_same ((hnew.attempts _ _).mpr (.inl hr)) ((hnew.nodes _ _).mpr (.inl hn))
      fun hsup => hcur (hnew.superseded_iff.mp hsup)

/-- An attempt that has been retried stays as it is, up to the deadline of its lease. -/
theorem Change.retried (hchange : Change own s s') (hr : s.attempts.lookup a = some r)
    (hsup : s.Superseded a) : s'.Superseded a ∧ ∃ r', s'.attempts.lookup a = some r' ∧
      r' = { r with leaseExpiresAt := r'.leaseExpiresAt } := by
  cases hchange with
  | frame hframe =>
    obtain ⟨r', hr', htruth⟩ := exists_of_map_eq (hframe.attempts a) hr
    exact ⟨hframe.rewrites.superseded_iff.mpr hsup, r', hr', AttemptRow.eq_of_truth_eq htruth⟩
  | pipelines hadvance =>
    rw [hadvance.rest]
    exact ⟨hsup, r, hr, rfl⟩
  | ledger hledger =>
    rw [hledger.rest]
    exact ⟨hsup, r, hr, rfl⟩
  | epoch _ hs =>
    rw [hs]
    exact ⟨hsup, r, hr, rfl⟩
  | mark hre =>
    exact ⟨(superseded_of_eq hre.attempts).mpr hsup, r, by rw [hre.attempts, hr], rfl⟩
  | move htouch _ hcur =>
    refine ⟨htouch.rewrites.superseded_iff.mpr hsup, r, ?_, rfl⟩
    rw [htouch.attempts, if_neg, hr]
    rintro rfl
    exact hcur hsup
  | renew htouch _ hcur hsucc _ _ hs =>
    refine ⟨(superseded_of_eq (congrArg attempts hs)).mpr
      ((hsucc.superseded_iff htouch).mpr (.inl hsup)), r, ?_, rfl⟩
    rw [hs]
    refine hsucc.lookup_of_mid htouch ((htouch.attempts _).trans ((if_neg ?_).trans hr))
    rintro rfl
    exact hcur hsup
  | sweep _ _ hsweep =>
    exact ⟨hsweep.rewrites.superseded_iff.mpr hsup, r, hsweep.superseded hr hsup, rfl⟩
  | enter hnew =>
    exact ⟨hnew.superseded_iff.mpr hsup, r, (hnew.attempts _ _).mpr (.inl hr), rfl⟩

/-- An attempt after a change was there before, or it is new and queued. -/
theorem Change.attempt_before (hchange : Change own s s') (hr' : s'.attempts.lookup a = some r') :
    (∃ r, s.attempts.lookup a = some r) ∨ (r'.status = .queued ∧ r'.fence = 0) := by
  cases hchange with
  | frame hframe =>
    obtain ⟨r, hr, -⟩ := hframe.attempt hr'
    exact .inl ⟨r, hr⟩
  | pipelines hadvance =>
    rw [hadvance.rest] at hr'
    exact .inl ⟨r', hr'⟩
  | ledger hledger =>
    rw [hledger.rest] at hr'
    exact .inl ⟨r', hr'⟩
  | epoch _ hs =>
    rw [hs] at hr'
    exact .inl ⟨r', hr'⟩
  | mark hre => exact .inl ⟨r', by rw [← hre.attempts, hr']⟩
  | move htouch =>
    obtain ⟨r, hr, -⟩ := htouch.rewrites.symm.attempt hr'
    exact .inl ⟨r, hr⟩
  | renew htouch _ _ hsucc _ _ hs =>
    rw [hs] at hr'
    rcases lookup_insert_cases hr' with ⟨-, rfl⟩ | ⟨-, hmid⟩
    · exact .inr ⟨hsucc.status, hsucc.fence⟩
    · obtain ⟨r, hr, -⟩ := htouch.rewrites.symm.attempt hmid
      exact .inl ⟨r, hr⟩
  | sweep _ _ hsweep =>
    obtain ⟨r, hr, -⟩ := hsweep.rewrites.symm.attempt hr'
    exact .inl ⟨r, hr⟩
  | enter hnew =>
    rcases (hnew.attempts _ _).mp hr' with hr | hmem
    · exact .inl ⟨r', hr⟩
    · rw [(hnew.attempt hmem).2.1]
      exact .inr ⟨rfl, rfl⟩

/-! ## Identities -/

/-- Rows stay under their identifiers, with the columns that no call changes. -/
structure Extends (s s' : Store) : Prop where
  build : ∀ {id b}, s.builds.lookup id = some b →
    ∃ b', s'.builds.lookup id = some b' ∧ b'.identity = b.identity
  node : ∀ {id n}, s.nodes.lookup id = some n →
    ∃ n', s'.nodes.lookup id = some n' ∧ n'.identity = n.identity
  attempt : ∀ {a r}, s.attempts.lookup a = some r →
    ∃ r', s'.attempts.lookup a = some r' ∧ r'.identity = r.identity
  dependency : ∀ {d}, d ∈ s.dependencies → d ∈ s'.dependencies

namespace Extends

variable {s'' : Store}

theorem refl (s : Store) : s.Extends s :=
  ⟨fun h => ⟨_, h, rfl⟩, fun h => ⟨_, h, rfl⟩, fun h => ⟨_, h, rfl⟩, fun h => h⟩

theorem trans (hfst : s.Extends s') (hsnd : s'.Extends s'') : s.Extends s'' where
  build hb := by
    obtain ⟨b', hb', hid⟩ := hfst.build hb
    obtain ⟨b'', hb'', hid'⟩ := hsnd.build hb'
    exact ⟨b'', hb'', hid'.trans hid⟩
  node hn := by
    obtain ⟨n', hn', hid⟩ := hfst.node hn
    obtain ⟨n'', hn'', hid'⟩ := hsnd.node hn'
    exact ⟨n'', hn'', hid'.trans hid⟩
  attempt hr := by
    obtain ⟨r', hr', hid⟩ := hfst.attempt hr
    obtain ⟨r'', hr'', hid'⟩ := hsnd.attempt hr'
    exact ⟨r'', hr'', hid'.trans hid⟩
  dependency hd := hsnd.dependency (hfst.dependency hd)

/-- The rows of an attempt stay joined. -/
theorem holds (hext : s.Extends s') {x : Rows} (hx : s.Holds a x) :
    ∃ y, s'.Holds a y ∧ y.attempt.identity = x.attempt.identity ∧
      y.node.identity = x.node.identity ∧ y.build.identity = x.build.identity := by
  obtain ⟨r', hr', hr_id⟩ := hext.attempt hx.attempt
  obtain ⟨n', hn', hn_id⟩ := hext.node hx.node
  obtain ⟨b', hb', hb_id⟩ := hext.build hx.build
  have hnode : r'.nodeId = x.attempt.nodeId := congrArg (·.1) hr_id
  have hbuild : n'.buildId = x.node.buildId := congrArg (·.1) hn_id
  exact ⟨⟨b', n', r'⟩, ⟨hr', by rw [hnode, hn'], by rw [hbuild, hb']⟩, hr_id, hn_id, hb_id⟩

end Extends

theorem Rewrites.toExtends (hrw : s.Rewrites s') : s.Extends s' :=
  ⟨hrw.build, hrw.node, hrw.attempt, fun hd => hrw.dependencies ▸ hd⟩

/-- Every change keeps the rows under their identifiers. -/
theorem Change.toExtends (hchange : Change own s s') : s.Extends s' := by
  cases hchange with
  | frame hframe => exact hframe.rewrites.toExtends
  | pipelines hadvance =>
    rw [hadvance.rest]
    exact ⟨fun h => ⟨_, h, rfl⟩, fun h => ⟨_, h, rfl⟩, fun h => ⟨_, h, rfl⟩, fun h => h⟩
  | ledger hledger =>
    rw [hledger.rest]
    exact ⟨fun h => ⟨_, h, rfl⟩, fun h => ⟨_, h, rfl⟩, fun h => ⟨_, h, rfl⟩, fun h => h⟩
  | epoch _ hs =>
    rw [hs]
    exact ⟨fun h => ⟨_, h, rfl⟩, fun h => ⟨_, h, rfl⟩, fun h => ⟨_, h, rfl⟩, fun h => h⟩
  | mark hre => exact hre.rewrites.toExtends
  | move htouch => exact htouch.rewrites.toExtends
  | renew htouch _ _ hsucc _ _ hs =>
    have hmid := htouch.rewrites.toExtends
    rw [hs]
    refine ⟨hmid.build, hmid.node, fun hr => ?_, hmid.dependency⟩
    obtain ⟨r', hr', hid⟩ := hmid.attempt hr
    exact ⟨r', hsucc.lookup_of_mid htouch hr', hid⟩
  | sweep _ _ hsweep => exact hsweep.rewrites.toExtends
  | enter hnew =>
    exact ⟨fun h => ⟨_, (hnew.builds _ _).mpr (.inl h), rfl⟩,
      fun h => ⟨_, (hnew.nodes _ _).mpr (.inl h), rfl⟩,
      fun h => ⟨_, (hnew.attempts _ _).mpr (.inl h), rfl⟩,
      fun h => hnew.dependencies ▸ List.mem_append_left _ h⟩

/-- Every run keeps the rows under their identifiers. -/
theorem extends_of_run [Platform] {guard : Store → Op → Prop} (hrun : RunWhere guard s s')
    (hco : s.Coherent) : s.Extends s' :=
  relation_of_any_run Extends.refl Extends.trans (fun _ hchange => hchange.toExtends) hrun hco

/-! ## Nodes -/

/-- A node after a change was there before, or its build is new. -/
theorem Change.node_before (hchange : Change own s s') {id : Uuid} {n' : NodeRow}
    (hn' : s'.nodes.lookup id = some n') :
    (∃ n, s.nodes.lookup id = some n ∧ n.identity = n'.identity) ∨
      (s.builds.lookup n'.buildId = none ∧ (n'.status = .queued ∨ n'.status = .blocked) ∧
        TrustPoolAllowed n'.requiredTrustPool) := by
  have hrewrites {mid : Store} (hrw : s.Rewrites mid) (hmid : mid.nodes.lookup id = some n') :
      (∃ n, s.nodes.lookup id = some n ∧ n.identity = n'.identity) ∨
        (s.builds.lookup n'.buildId = none ∧ (n'.status = .queued ∨ n'.status = .blocked) ∧
        TrustPoolAllowed n'.requiredTrustPool) := .inl (hrw.symm.node hmid)
  cases hchange with
  | frame hframe => exact hrewrites hframe.rewrites hn'
  | pipelines hadvance =>
    rw [hadvance.rest] at hn'
    exact .inl ⟨n', hn', rfl⟩
  | ledger hledger =>
    rw [hledger.rest] at hn'
    exact .inl ⟨n', hn', rfl⟩
  | epoch _ hs =>
    rw [hs] at hn'
    exact .inl ⟨n', hn', rfl⟩
  | mark hre => exact hrewrites hre.rewrites hn'
  | move htouch => exact hrewrites htouch.rewrites hn'
  | renew htouch _ _ _ _ _ hs =>
    rw [hs] at hn'
    exact hrewrites htouch.rewrites hn'
  | sweep _ _ hsweep => exact hrewrites hsweep.rewrites hn'
  | enter hnew =>
    rcases (hnew.nodes _ _).mp hn' with hn | hmem
    · exact .inl ⟨n', hn, rfl⟩
    · obtain ⟨hbuild, hstatus, -⟩ := hnew.node hmem
      exact .inr ⟨hbuild ▸ hnew.fresh, hstatus.imp_right And.left, hnew.pool hmem⟩

/-! ## Builds -/

/-- A build stays, and so does the request to stop it. -/
theorem Change.build (hchange : Change own s s') {id : Uuid} {b : BuildRow}
    (hb : s.builds.lookup id = some b) : ∃ b', s'.builds.lookup id = some b' ∧
      b'.identity = b.identity ∧
      (b.cancellationRequestedAt ≠ none → b'.cancellationRequestedAt ≠ none) := by
  have hsame (h : s'.builds = s.builds) : ∃ b', s'.builds.lookup id = some b' ∧
      b'.identity = b.identity ∧
      (b.cancellationRequestedAt ≠ none → b'.cancellationRequestedAt ≠ none) :=
    ⟨b, by rw [h, hb], rfl, fun h => h⟩
  cases hchange with
  | frame hframe =>
    obtain ⟨b', hb', htruth⟩ := exists_of_map_eq (hframe.builds id) hb
    simp only [BuildRow.truth, Prod.mk.injEq] at htruth
    exact ⟨b', hb', htruth.1, fun h => htruth.2.2 ▸ h⟩
  | pipelines hadvance => exact hsame (by rw [hadvance.rest])
  | ledger hledger => exact hsame (by rw [hledger.rest])
  | epoch _ hs => exact hsame (by rw [hs])
  | @mark buildId _ b₁ hre _ hmark =>
    by_cases hid : id = buildId
    · subst hid
      obtain rfl := mem_unique hb hre.build
      refine ⟨b₁, by rw [hre.builds, if_pos rfl], hre.identity, fun hstamped => ?_⟩
      cases hmark with
      | derive hstamp => rwa [hstamp]
      | stamp _ hunstamped => exact absurd hunstamped hstamped
      | fail hb' =>
        rw [hb']
        split <;> exact hstamped
    · exact ⟨b, by rw [hre.builds, if_neg hid, hb], rfl, fun h => h⟩
  | @move _ x y _ htouch _ _ hmove =>
    by_cases hid : id = x.node.buildId
    · subst hid
      obtain rfl := mem_unique hb htouch.holds.build
      exact ⟨y.build, by rw [htouch.builds, if_pos rfl], htouch.build_identity, hmove.stamped⟩
    · exact ⟨b, by rw [htouch.builds, if_neg hid, hb], rfl, fun h => h⟩
  | @renew _ _ _ x y _ htouch _ _ _ hrenew _ hs =>
    have hlook : s'.builds.lookup id = if id = x.node.buildId then some y.build
        else s.builds.lookup id := by
      rw [hs]
      exact htouch.builds id
    by_cases hid : id = x.node.buildId
    · subst hid
      obtain rfl := mem_unique hb htouch.holds.build
      refine ⟨y.build, by rw [hlook, if_pos rfl], htouch.build_identity, fun hstamped => ?_⟩
      cases hrenew with
      | auto _ _ _ _ _ _ hbuild => rwa [hbuild]
      | retry _ hunstamped => exact absurd hunstamped hstamped
      | reopen _ _ _ _ hbuild => rwa [hbuild]
    · exact ⟨b, by rw [hlook, if_neg hid, hb], rfl, fun h => h⟩
  | sweep _ _ hsweep => exact hsame hsweep.builds
  | enter hnew => exact ⟨b, (hnew.builds _ _).mpr (.inl hb), rfl, fun h => h⟩

/-! ## Effects -/

/-- A change leaves the effects, or it writes nothing else. -/
theorem Change.effects_eq_or_ledger (hchange : Change own s s') :
    s'.effects = s.effects ∨ s.WritesLedger s' ∧ (own ∨ s.Doubts s') := by
  cases hchange with
  | frame hframe => exact .inl hframe.effects
  | pipelines hadvance => exact .inl (by rw [hadvance.rest])
  | ledger hledger hdoubts => exact .inr ⟨hledger, hdoubts⟩
  | epoch _ hs => exact .inl (by rw [hs])
  | mark hre => exact .inl hre.effects
  | move _ hrest => exact .inl hrest.effects
  | renew _ hrest _ _ _ _ hs => exact .inl (by rw [hs]; exact hrest.effects)
  | sweep _ _ hsweep => exact .inl hsweep.effects
  | enter hnew => exact .inl hnew.effects

/-- Every effect stays, with one write at most. -/
theorem Change.effect (hchange : Change own s s') {id : EffectId} {e : EffectRow}
    (he : s.effects.lookup id = some e) :
    ∃ e', s'.effects.lookup id = some e' ∧ EffectWrite s id e e' := by
  rcases hchange.effects_eq_or_ledger with hsame | ⟨hledger, -⟩
  · exact ⟨e, by rw [hsame, he], .keep rfl⟩
  · exact hledger.written he

end McLoving.Store

namespace McLoving

variable {own : Prop} {s s' : Store} {a : Uuid} {r r' : AttemptRow}

/-- What one change does to an attempt. -/
inductive Store.AttemptStep (s : Store) (a : Uuid) (r r' : AttemptRow) : Prop where
  | keep (hr : r' = { r with leaseExpiresAt := r'.leaseExpiresAt })
  | offer {agentId : String} (hqueued : r.status = .queued)
      (hr : r' = { r with status := .offered, fence := r.fence + 1, leaseOwner := some agentId,
                          leaseExpiresAt := r'.leaseExpiresAt, restoreEpoch := s.restoreEpoch })
  | lease (hlive : r.status.isLive = true) (hlive' : r'.status.isLive = true)
      (hr : r' = { r with status := r'.status, leaseExpiresAt := r'.leaseExpiresAt })
  | park {owner : Option String} (hlive : r.status.isLive = true)
      (hr : r' = { r with status := .reconciliationRequired, leaseOwner := owner,
                          leaseExpiresAt := none })
  | close {outcome : TerminalOutcome} {summary : Json} {expiry : Option Timestamp}
      (hopen : r.status.isTerminal = false) (hr : r' = r.closed outcome summary expiry)
  | requeue (hlive : r.status.isLive = true)
      (hclean : ∀ id e, s.effects.lookup id = some e → id.attemptId = a →
        id.fence = r.fence → e.isProtected = true → e.status = .abandoned)
      (hr : r' = { r with status := .queued, leaseOwner := none, leaseExpiresAt := none })

/-- A lease in the phases in which an agent resumes is a lease. -/
private theorem isLive_of_recoverable {status : AttemptStatus}
    (hstatus : recoverableFinalizationStatus status = true) : status.isLive = true := by
  cases status <;> simp_all [recoverableFinalizationStatus, AttemptStatus.isLive]

private theorem not_terminal_of_isOpen {status : AttemptStatus} (hopen : status.isOpen = true) :
    status.isTerminal = false := by
  cases status <;> simp_all [AttemptStatus.isOpen, AttemptStatus.isLive, AttemptStatus.isTerminal]

theorem Move.attemptStep {x y : Rows} {new : List BuildEvent} (hmove : Move s a x y new) :
    s.AttemptStep a x.attempt y.attempt := by
  cases hmove with
  | offer hqueued _ hy =>
    subst hy
    exact .offer hqueued rfl
  | start hstatus hy =>
    subst hy
    rcases hstatus with ⟨hoffered, rfl⟩ | ⟨haccepted, rfl⟩
    · exact .lease (by simp [hoffered, AttemptStatus.isLive]) rfl rfl
    · exact .lease (by simp [haccepted, AttemptStatus.isLive]) rfl rfl
  | @recover phase _ hstatus hy =>
    subst hy
    exact .lease (isLive_of_recoverable hstatus) (by cases phase <;> rfl) rfl
  | settle hopen _ _ _ hy =>
    subst hy
    exact .close (not_terminal_of_isOpen hopen) rfl
  | keep hopen _ _ _ hy =>
    subst hy
    exact .close (not_terminal_of_isOpen hopen) rfl
  | closeSolo hopen _ hy =>
    subst hy
    exact .close (not_terminal_of_isOpen hopen) rfl
  | park hlive _ hy =>
    subst hy
    exact .park hlive rfl
  | requeue hlive _ hclean _ _ _ hy =>
    subst hy
    exact .requeue hlive hclean rfl
  | deadLetter hparked _ hy =>
    subst hy
    exact .close (by simp [hparked, AttemptStatus.isTerminal]) rfl
  | cancelQueued _ hqueued hy =>
    subst hy
    exact .close (by simp [hqueued, AttemptStatus.isTerminal]) rfl
  | cancelActive _ hlive hy =>
    subst hy
    exact .lease hlive rfl rfl

theorem Swept.attemptStep {n n' : NodeRow} (hswept : Swept n r n' r') : s.AttemptStep a r r' := by
  cases hswept with
  | keep _ hr => exact .keep (by rw [hr])
  | ready _ _ hr => exact .keep (by rw [hr])
  | skip hqueued _ hr => exact .close (by simp [hqueued, AttemptStatus.isTerminal]) hr
  | drop hstatus _ hr =>
    refine .close ?_ hr
    rcases hstatus with h | h <;> simp [h, AttemptStatus.isTerminal]
  | stop hlive _ _ hr =>
    subst hr
    exact .lease hlive rfl rfl
  | outlive _ _ _ hr => exact .keep (by rw [hr])

theorem Renewal.attemptStep {x y : Rows} (hrenew : Renewal s a x y) :
    s.AttemptStep a x.attempt y.attempt := by
  cases hrenew with
  | auto hopen _ _ _ _ hattempt => exact .close (not_terminal_of_isOpen hopen) hattempt
  | retry _ _ _ hattempt => exact .keep (by rw [hattempt])
  | reopen _ _ _ hattempt => exact .keep (by rw [hattempt])

namespace Store

/-- Every attempt stays, and takes one step at most. -/
theorem Change.attempt (hchange : Change own s s') (hco : s.Coherent)
    (hr : s.attempts.lookup a = some r) :
    ∃ r', s'.attempts.lookup a = some r' ∧ AttemptStep s a r r' := by
  by_cases hsup : s.Superseded a
  · obtain ⟨-, r', hr', hkeep⟩ := hchange.retried hr hsup
    exact ⟨r', hr', .keep hkeep⟩
  · obtain ⟨n, hn⟩ := hco.node hr
    obtain ⟨n', r', -, hr', hevolves⟩ := hchange.evolves hco hr hn hsup
    refine ⟨r', hr', ?_⟩
    cases hevolves with
    | still _ hkeep => exact .keep hkeep
    | moved _ _ hmove => exact hmove.attemptStep
    | swept _ _ hswept => exact hswept.attemptStep
    | renewed _ _ hrenew => exact hrenew.attemptStep

namespace AttemptStep

/-- A closed attempt stays as it is, up to the deadline of its lease. -/
theorem closed (hstep : AttemptStep s a r r') (hterminal : r.status.isTerminal = true) :
    r' = { r with leaseExpiresAt := r'.leaseExpiresAt } := by
  cases hstep with
  | keep hr => exact hr
  | offer hqueued => simp [hqueued, AttemptStatus.isTerminal] at hterminal
  | lease => cases hstatus : r.status <;> simp_all [AttemptStatus.isLive, AttemptStatus.isTerminal]
  | park => cases hstatus : r.status <;> simp_all [AttemptStatus.isLive, AttemptStatus.isTerminal]
  | close hopen => simp [hopen] at hterminal
  | requeue => cases hstatus : r.status <;> simp_all [AttemptStatus.isLive,
      AttemptStatus.isTerminal]

end AttemptStep

/-- The attempts that are closed in the first store stay as they are, up to their deadlines. -/
def KeepsClosed (s s' : Store) : Prop :=
  ∀ a r, s.attempts.lookup a = some r → r.status.isTerminal = true →
    ∃ r', s'.attempts.lookup a = some r' ∧ r' = { r with leaseExpiresAt := r'.leaseExpiresAt }

namespace KeepsClosed

theorem refl (s : Store) : s.KeepsClosed s := fun _ r hr _ => ⟨r, hr, rfl⟩

theorem trans {s'' : Store} (hfst : s.KeepsClosed s') (hsnd : s'.KeepsClosed s'') :
    s.KeepsClosed s'' := by
  intro a r hr hterminal
  obtain ⟨r', hr', heq⟩ := hfst a r hr hterminal
  have hterminal' : r'.status.isTerminal = true := by rw [heq]; exact hterminal
  obtain ⟨r'', hr'', heq'⟩ := hsnd a r' hr' hterminal'
  exact ⟨r'', hr'', by rw [heq', heq]⟩

end KeepsClosed

theorem Change.keepsClosed (hchange : Change own s s') (hco : s.Coherent) : s.KeepsClosed s' := by
  intro a r hr hterminal
  obtain ⟨r', hr', hstep⟩ := hchange.attempt hco hr
  exact ⟨r', hr', hstep.closed hterminal⟩

theorem Changes.keepsClosed (hpath : Changes own s s') (hco : s.Coherent) : s.KeepsClosed s' :=
  hpath.relation KeepsClosed.refl KeepsClosed.trans (fun hco hchange => hchange.keepsClosed hco) hco

/-- A path on which the attempt is closed ends with the attempt closed, in the same way. -/
theorem Closes.closed {outcome : TerminalOutcome} {summary : Json} {expiry : Option Timestamp}
    (hcloses : Closes own s a (r.closed outcome summary expiry) s') (hco : s.Coherent) :
    ∃ expiry', s'.attempts.lookup a = some (r.closed outcome summary expiry') := by
  obtain ⟨mid, hfst, hrow, hsnd⟩ := hcloses
  have hterminal : (r.closed outcome summary expiry).status.isTerminal = true := by
    cases outcome <;> rfl
  obtain ⟨r', hr', heq⟩ := hsnd.keepsClosed (hfst.coherent hco) a _ hrow hterminal
  exact ⟨r'.leaseExpiresAt, by rw [hr', heq]; rfl⟩

end Store

end McLoving
