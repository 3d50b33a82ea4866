import McLoving.Lifecycle.Claim

/-!
# Restores, pipelines and admissions

Activating a restore, which parks every attempt under a lease with its open effects uncertain, the
calls that write pipelines, and the calls that admit a build with its nodes, their first attempts
and their dependencies.
-/

namespace McLoving.Store

open List Table

variable {own : Prop} {s s' : Store}

theorem changes_sealRecoveryPoint (s : Store) (backupId durableLsn : String) :
    Changes own s (s.after (s.sealRecoveryPoint backupId durableLsn)) := by
  unfold sealRecoveryPoint
  split
  · exact .refl s
  · exact .of_frame (frame_of_eq ⟨rfl, rfl, rfl, rfl, rfl⟩ rfl rfl rfl rfl rfl)

variable {now : Timestamp} {backupId : String} {a : Uuid}

theorem restoreAttempt_attempts {epoch : ℤ} {recoveryLsn : String} {a' : Uuid} (hne : a' ≠ a) :
    (restoreAttempt now epoch backupId recoveryLsn s a).attempts.lookup a' =
      s.attempts.lookup a' := by
  unfold restoreAttempt
  split
  · rfl
  · exact (lookup_modify ..).trans (if_neg hne)

/-- One attempt of the restore sweep: its open effects become uncertain, and it parks. -/
theorem changes_restoreAttempt (hco : s.Coherent) {r : AttemptRow}
    (hr : s.attempts.lookup a = some r) (hlive : r.status.isLive = true) (now : Timestamp)
    (epoch : ℤ) (backupId recoveryLsn : String) :
    Changes own s (restoreAttempt now epoch backupId recoveryLsn s a) := by
  unfold restoreAttempt
  split
  · exact .refl s
  next attempt node build hjoined =>
  have hx := joinedAttempt_eq_some.mp hjoined
  obtain rfl := Option.mem_unique hx.attempt hr
  have hledger : Change own s { s with effects := (s.effects.update
      (fun id e => decide (id.attemptId = a) && (e.status = .prepared || e.status = .applied))
      fun _ e => { e with status := .uncertain }) } := by
    refine change_uncertain hr (by simp [AttemptStatus.isOpen, hlive]) fun id e hp => ?_
    simpa only [Bool.and_eq_true, Bool.or_eq_true, decide_eq_true_eq] using hp
  refine (Changes.single hledger).bind hco fun hco' => ?_
  let park (r : AttemptRow) : AttemptRow :=
    { r with status := .reconciliationRequired, leaseOwner := none, leaseExpiresAt := none }
  have hpark : Changes own _ _ := changes_park hco' (x := ⟨build, node, attempt⟩) (f := park)
    ⟨hx.attempt, hx.node, hx.build⟩ hlive (.inr rfl) rfl now
  exact hpark.report _ rfl

theorem changes_restoreAttempts (hco : s.Coherent) (now : Timestamp) (epoch : ℤ)
    (backupId recoveryLsn : String) {affected : List Uuid} (hnodup : affected.Nodup)
    (hlive : ∀ a ∈ affected, ∃ r, s.attempts.lookup a = some r ∧ r.status.isLive = true) :
    Changes own s (affected.foldl (restoreAttempt now epoch backupId recoveryLsn) s) := by
  induction affected generalizing s with
  | nil => exact .refl s
  | cons a _ ih =>
    rw [nodup_cons] at hnodup
    obtain ⟨r, hr, hr_live⟩ := hlive a mem_cons_self
    have hpath : Changes own s (restoreAttempt now epoch backupId recoveryLsn s a) :=
      changes_restoreAttempt hco hr hr_live now epoch backupId recoveryLsn
    refine hpath.trans (ih (hpath.coherent hco) hnodup.2 fun a' hmem => ?_)
    rw [restoreAttempt_attempts fun (heq : a' = a) => hnodup.1 (heq ▸ hmem)]
    exact hlive a' (mem_cons_of_mem _ hmem)

theorem mem_leasedAttempts :
    a ∈ s.leasedAttempts ↔ ∃ r, s.attempts.lookup a = some r ∧ r.status.isLive = true := by
  simp [leasedAttempts, mem_insertionSort, mem_select]

theorem nodup_leasedAttempts (s : Store) : s.leasedAttempts.Nodup :=
  (perm_insertionSort _ _).nodup_iff.mpr (nodup_keys_select _ _)

/-- The store with the next restore epoch, before the sweep. -/
def raised (s : Store) (backupId reason recoveryLsn : String) : Store :=
  { s with
    restoreEpoch := s.restoreEpoch + 1
    restoreEpochs := s.restoreEpochs.insert backupId
      ⟨s.restoreEpoch + 1, recoveryLsn, reason, s.leasedAttempts.length⟩ }

/-- The store after the sweep. -/
def restored (s : Store) (now : Timestamp) (backupId reason recoveryLsn : String) : Store :=
  s.leasedAttempts.foldl (restoreAttempt now (s.restoreEpoch + 1) backupId recoveryLsn)
    (s.raised backupId reason recoveryLsn)

/-- The ways in which `activateRestoreEpoch` ends without an error. -/
inductive ActivationCase (s : Store) (now : Timestamp) (backupId reason : String) :
    Store → Option RestoreActivation → Prop
  | replayed {row : RestoreEpochRow} (hrow : s.restoreEpochs.lookup backupId = some row) :
      ActivationCase s now backupId reason s
        (some ⟨row.restoreEpoch, backupId, row.recoveryLsn, row.affectedAttempts⟩)
  | unsealed : ActivationCase s now backupId reason s none
  | activated {recoveryLsn : String} (hfresh : s.restoreEpochs.lookup backupId = none)
      (hpoint : s.recoveryPoints.lookup backupId = some ⟨s.restoreEpoch, some recoveryLsn⟩) :
      ActivationCase s now backupId reason (s.restored now backupId reason recoveryLsn)
        (some ⟨s.restoreEpoch + 1, backupId, recoveryLsn, s.leasedAttempts.length⟩)

theorem activateRestoreEpoch_cases {reason : String} {answer : Option RestoreActivation}
    (hok : s.activateRestoreEpoch now backupId reason = .ok (s', answer)) :
    ActivationCase s now backupId reason s' answer := by
  unfold activateRestoreEpoch at hok
  split at hok
  · cases hok
  split at hok
  · next hrow =>
    cases hok
    exact .replayed hrow
  next hfresh =>
  split at hok
  · next pointEpoch recoveryLsn hpoint =>
    split at hok
    · cases hok
    next hepoch =>
    split at hok
    · cases hok
    · cases hok
      obtain rfl := not_not.mp hepoch
      exact .activated hfresh hpoint
  · cases hok
    exact .unsealed

/-- Raising the epoch for a backup that was not used keeps the earlier activations. -/
theorem change_raised (hfresh : s.restoreEpochs.lookup backupId = none)
    (reason recoveryLsn : String) : Change own s (s.raised backupId reason recoveryLsn) := by
  refine .epoch (fun id row hrow => ?_) rfl
  have hne : id ≠ backupId := by
    rintro rfl
    simp [hfresh] at hrow
  exact (AList.lookup_insert_ne hne).trans hrow

/-- Activating a restore for the first time is a path. -/
theorem changes_restored (hco : s.Coherent) (now : Timestamp)
    (hfresh : s.restoreEpochs.lookup backupId = none) (reason recoveryLsn : String) :
    Changes own s (s.restored now backupId reason recoveryLsn) := by
  refine (Changes.single (change_raised hfresh reason recoveryLsn)).bind hco fun hco' => ?_
  exact changes_restoreAttempts hco' now _ backupId recoveryLsn (nodup_leasedAttempts s)
    fun a hmem => mem_leasedAttempts.mp hmem

theorem changes_activateRestoreEpoch (hco : s.Coherent) {reason : String}
    {answer : Option RestoreActivation}
    (hok : s.activateRestoreEpoch now backupId reason = .ok (s', answer)) : Changes own s s' := by
  cases activateRestoreEpoch_cases hok with
  | replayed => exact .refl s
  | unsealed => exact .refl s
  | activated hfresh => exact changes_restored hco now hfresh reason _

open Option Except AList

/-! ## Pipelines -/

theorem insertRow_eq_ok {κ ρ : Type} [DecidableEq κ] {t t' : Table κ ρ} {k : κ} {row : ρ}
    (hok : insertRow t k row = .ok t') : t.lookup k = none ∧ t' = t.insert k row := by
  unfold insertRow at hok
  split at hok
  · cases hok
  · next hfresh => exact ⟨lookup_eq_none.mpr hfresh, (Except.ok.inj hok).symm⟩

theorem changes_putPipeline (s : Store) (now : Timestamp) (input : PipelineWrite)
    (expectedRevision : Option ℤ) (actorSubject : String) :
    Changes own s (s.after (s.putPipeline now input expectedRevision actorSubject)) := by
  rcases hok : s.putPipeline now input expectedRevision actorSubject with _ | ⟨s', outcome⟩
  · exact .refl s
  unfold putPipeline at hok
  obtain ⟨-, -, hok⟩ := bind_eq_ok.mp hok
  split at hok
  · cases hok
  split at hok
  · cases hok
  split at hok
  · cases hok
  split at hok
  · cases hok
  split at hok
  · next current hcurrent =>
    split at hok
    · cases hok
      exact .refl s
    split at hok
    · cases hok
    split at hok
    · cases hok
      exact .refl s
    simp only at hok
    obtain ⟨revisions, -, hok⟩ := bind_eq_ok.mp hok
    cases hok
    refine .single (.pipelines ⟨rfl, fun p row hrow => ?_⟩)
    by_cases hp : p = input.pipelineId
    · subst hp
      exact ⟨_, (lookup_modify_of_eq hrow _ _).trans (if_pos rfl), .inl ⟨rfl, rfl⟩⟩
    · exact ⟨row, ((lookup_modify ..).trans (if_neg hp)).trans hrow, .inl ⟨rfl, rfl⟩⟩
  · next hnone =>
    split at hok
    · cases hok
      exact .refl s
    obtain ⟨pipelines, hpipelines, hok⟩ := bind_eq_ok.mp hok
    obtain ⟨revisions, -, hok⟩ := bind_eq_ok.mp hok
    obtain ⟨states, hstates, hok⟩ := bind_eq_ok.mp hok
    obtain ⟨-, rfl⟩ := insertRow_eq_ok hpipelines
    obtain ⟨-, rfl⟩ := insertRow_eq_ok hstates
    cases hok
    refine .single (.pipelines ⟨rfl, fun p row hrow => ?_⟩)
    have hp : p ≠ input.pipelineId := by
      rintro rfl
      rw [hnone] at hrow
      cases hrow
    refine ⟨row, (lookup_insert_ne hp).trans hrow, .inl ⟨rfl, ?_⟩⟩
    exact lookup_insert_ne fun heq => hp (Prod.mk.inj heq).1

theorem changes_transitionPipelineOperationalState (s : Store)
    (input : PipelineOperationalStateTransition) :
    Changes own s (s.after (s.transitionPipelineOperationalState input)) := by
  rcases hok : s.transitionPipelineOperationalState input with _ | ⟨s', outcome⟩
  · exact .refl s
  unfold transitionPipelineOperationalState at hok
  obtain ⟨-, -, hok⟩ := bind_eq_ok.mp hok
  simp only at hok
  split at hok
  · cases hok
  split at hok
  · split at hok
    · cases hok
      exact .refl s
    · cases hok
  split at hok
  · cases hok
    exact .refl s
  next definition state hcurrent =>
  split at hok
  · cases hok
    exact .refl s
  split at hok
  · cases hok
    exact .refl s
  next hgeneration =>
  rw [not_not] at hgeneration
  split at hok
  · cases hok
  obtain ⟨states, hstates, hok⟩ := bind_eq_ok.mp hok
  obtain ⟨-, rfl⟩ := insertRow_eq_ok hstates
  cases hok
  simp only [currentPipelineState, Option.bind_eq_bind, Option.bind_eq_some_iff, Option.pure_def,
    some.injEq, Prod.mk.injEq] at hcurrent
  obtain ⟨definition', hdefinition, history, -, rfl, -⟩ := hcurrent
  refine .single (.pipelines ⟨rfl, fun p row hrow => ?_⟩)
  by_cases hp : p = input.pipelineId
  · subst hp
    obtain rfl := mem_unique hdefinition hrow
    refine ⟨_, (lookup_modify_of_eq hrow _ _).trans (if_pos rfl), .inr ?_⟩
    exact hgeneration ▸ Int.lt_succ _
  · refine ⟨row, ((lookup_modify ..).trans (if_neg hp)).trans hrow, .inl ⟨rfl, ?_⟩⟩
    exact lookup_insert_ne fun heq => hp (Prod.mk.inj heq).1

/-! ## Admissions -/

variable {projectId buildId : Uuid} {build : BuildRow} {input : NewDagBuild} {contract : Json}
variable {admission : DagAdmission} {now : Timestamp} {ids : ℕ → Uuid} {sequential : Bool}

/-- A build is bound to the current generation of its pipeline. -/
theorem lockEnabledPipelineBinding_eq_ok {pipelineId : Uuid} {revision generation : ℤ}
    {digest : Digest}
    (hok : s.lockEnabledPipelineBinding projectId pipelineId revision generation = .ok digest) :
    ∃ row, s.pipelines.lookup pipelineId = some row ∧ row.operationalGeneration = generation := by
  unfold lockEnabledPipelineBinding at hok
  split at hok
  · cases hok
  split at hok
  · cases hok
  next definition state hcurrent =>
  simp only [currentPipelineState, Option.bind_eq_bind, Option.bind_eq_some_iff, Option.pure_def,
    some.injEq, Prod.mk.injEq] at hcurrent
  obtain ⟨definition', hdefinition, history, -, rfl, -⟩ := hcurrent
  split at hok
  · cases hok
  split at hok
  · cases hok
  split at hok
  · cases hok
  split at hok
  · cases hok
  next hcurrent =>
  exact ⟨definition', hdefinition, not_not.mp (not_or.mp hcurrent).2⟩

/-- A table after inserting a row under an unused key. -/
theorem lookup_insert_fresh {κ ρ : Type} [DecidableEq κ] {t : Table κ ρ} {k : κ} (hfresh : k ∉ t)
    (row : ρ) (k' : κ) (row' : ρ) :
    (t.insert k row).lookup k' = some row' ↔ t.lookup k' = some row' ∨ (k' = k ∧ row' = row) := by
  by_cases hk : k' = k
  · subst hk
    simp [lookup_insert, lookup_eq_none.mpr hfresh, eq_comm]
  · simp [lookup_insert_ne hk, hk]

theorem key_ne_of_buildByKey {key : String} (hnone : s.buildByKey projectId key = none) {id : Uuid}
    {b : BuildRow} (hb : s.builds.lookup id = some b) (hproject : b.projectId = projectId) :
    b.idempotencyKey ≠ key := by
  intro hkey
  rw [buildByKey, head?_eq_none_iff, eq_nil_iff_forall_not_mem] at hnone
  exact hnone (id, b) (mem_select.mpr ⟨hb, by simp [hproject, hkey]⟩)

/-- One node with its first attempt, added with its build. -/
theorem admits_single {nodeId attemptId : Uuid} {node : NodeRow} {payload : EventPayload}
    (hbuild : buildId ∉ s.builds) (hnode : nodeId ∉ s.nodes) (hattempt : attemptId ∉ s.attempts)
    (hstatus : build.status = .queued) (hunstamped : build.cancellationRequestedAt = none)
    (hpipeline : ∃ p row, build.pipelineId = some p ∧ s.pipelines.lookup p = some row ∧
      build.pipelineOperationalGeneration = some row.operationalGeneration)
    (hrow : node.buildId = buildId ∧ node.status = .queued ∧ node.logicalOutcome = none ∧
      node.cancellationRequestedAt = none) (hpool : TrustPoolAllowed node.requiredTrustPool)
    (hkey : s.buildByKey build.projectId build.idempotencyKey = none)
    (hcontract : build.dagContract = none) (hpayload : payload.isOffer = false) : s.Admits ({ s with
      builds := s.builds.insert buildId build
      nodes := s.nodes.insert nodeId node
      attempts := s.attempts.insert attemptId (firstAttempt nodeId) }.appendEvent buildId payload)
      buildId build [(nodeId, node)] [(attemptId, firstAttempt nodeId)] [] where
  effects := rfl
  restoreEpoch := rfl
  restoreEpochs := rfl
  pipelines := rfl
  pipelineStates := rfl
  fresh := lookup_eq_none.mpr hbuild
  builds := lookup_insert_fresh hbuild _
  nodes id n := by
    rw [mem_singleton, Prod.mk.injEq]
    exact lookup_insert_fresh hnode _ id n
  attempts a r := by
    rw [mem_singleton, Prod.mk.injEq]
    exact lookup_insert_fresh hattempt _ a r
  dependencies := (append_nil _).symm
  events := ⟨[_], rfl, Quiet.single hpayload⟩
  status := hstatus
  unstamped := hunstamped
  pipeline := hpipeline
  node hmem := by
    obtain ⟨rfl, rfl⟩ := Prod.mk.inj (mem_singleton.mp hmem)
    exact ⟨hrow.1, .inl hrow.2.1, hrow.2.2⟩
  attempt hmem := by
    obtain ⟨rfl, rfl⟩ := Prod.mk.inj (mem_singleton.mp hmem)
    exact ⟨lookup_eq_none.mpr hattempt, rfl, lookup_eq_none.mpr hnode, node, mem_singleton_self _⟩
  attempted hmem := by
    obtain ⟨rfl, -⟩ := Prod.mk.inj (mem_singleton.mp hmem)
    exact ⟨attemptId, _, mem_singleton_self _, rfl⟩
  attempt_unique hmem hmem' _ :=
    (Prod.mk.inj (mem_singleton.mp hmem)).1.trans
      (Prod.mk.inj (mem_singleton.mp hmem')).1.symm
  single _ _ _ _ _ hmem hmem' :=
    (Prod.mk.inj (mem_singleton.mp hmem)).1.trans
      (Prod.mk.inj (mem_singleton.mp hmem')).1.symm
  dependency hmem := by cases hmem
  pool hmem := by
    obtain ⟨rfl, rfl⟩ := Prod.mk.inj (mem_singleton.mp hmem)
    exact hpool
  unkeyed := key_ne_of_buildByKey hkey
  keys := by simp
  contract hsome := by simp [hcontract] at hsome
  dag hsome := by simp [hcontract] at hsome
  layout hsome := by simp [hcontract] at hsome

/-- The admission of a single-node build is a path. -/
theorem changes_admitBuild (s : Store) (now : Timestamp) (ids : ℕ → Uuid) (input : NewBuild) :
    Changes own s (s.after (s.admitBuild now ids input)) := by
  unfold admitBuild
  split
  · exact .refl s
  next hpool =>
  split
  · exact .refl s
  · exact .refl s
  split
  · exact .refl s
  next revisionDigest hbinding =>
  split
  · exact .refl s
  next hkey =>
  split
  · exact .refl s
  next hfresh =>
  rw [not_or, not_or] at hfresh
  obtain ⟨hbuild, hnode, hattempt⟩ := hfresh
  obtain ⟨row, hrow, hgeneration⟩ := lockEnabledPipelineBinding_eq_ok hbinding
  simp only [Bool.or_eq_true, bne_iff_ne, ne_eq, not_or, Bool.not_eq_true, not_not] at hpool
  exact .single (.enter (admits_single hbuild hnode hattempt rfl rfl
    ⟨_, row, rfl, hrow, by rw [hgeneration]; rfl⟩ ⟨rfl, rfl, rfl, rfl⟩ hpool
    (not_isSome_iff_eq_none.mp hkey) rfl rfl))

section Dag

variable {ids : ℕ → Uuid} {nodes : List NewDagNode} {now : Timestamp} {buildId : Uuid}

/-- The node rows of a DAG under the drawn identifiers. -/
def drawnNodeRows (now : Timestamp) (ids : ℕ → Uuid) (buildId : Uuid) (nodes : List NewDagNode) :
    List (Uuid × NodeRow) :=
  (drawnNodes ids nodes).map fun (node, admission) =>
    (admission.nodeId, newNodeRow now buildId node)

/-- The first attempts of a DAG under the drawn identifiers. -/
def drawnAttemptRows (ids : ℕ → Uuid) (nodes : List NewDagNode) : List (Uuid × AttemptRow) :=
  (drawnNodes ids nodes).map fun (_, admission) =>
    (admission.attemptId, firstAttempt admission.nodeId)

/-- The nodes that the answer to a new DAG lists. -/
def admittedNodes (ids : ℕ → Uuid) (nodes : List NewDagNode) : List (String × DagNodeAdmission) :=
  ((drawnNodes ids nodes).map fun (node, admission) =>
    (node.nodeKey, admission)).insertionSort fun left right => left.1 ≤ right.1

theorem mem_drawnNodeRows {id : Uuid} {n : NodeRow} :
    (id, n) ∈ drawnNodeRows now ids buildId nodes ↔
      ∃ node admission, (node, admission) ∈ drawnNodes ids nodes ∧ admission.nodeId = id ∧
        newNodeRow now buildId node = n := by
  simp [drawnNodeRows]

theorem mem_drawnAttemptRows {a : Uuid} {r : AttemptRow} : (a, r) ∈ drawnAttemptRows ids nodes ↔
      ∃ node admission, (node, admission) ∈ drawnNodes ids nodes ∧ admission.attemptId = a ∧
        firstAttempt admission.nodeId = r := by
  simp [drawnAttemptRows]

theorem drawnNodes_fst : (drawnNodes ids nodes).map Prod.fst = nodes := by
  simp [drawnNodes, Function.comp_def]

theorem mem_of_mem_drawnNodes {node : NewDagNode} {admission : DagNodeAdmission}
    (hmem : (node, admission) ∈ drawnNodes ids nodes) : node ∈ nodes := by
  have hfst := mem_map_of_mem (f := Prod.fst) hmem
  rwa [drawnNodes_fst] at hfst

theorem drawnNodeRows_keys : (drawnNodeRows now ids buildId nodes).map
    (fun entry => entry.2.nodeKey) = nodes.map NewDagNode.nodeKey := by
  have hkeys : (drawnNodeRows now ids buildId nodes).map (fun entry => entry.2.nodeKey) =
      ((drawnNodes ids nodes).map Prod.fst).map NewDagNode.nodeKey := by
    rw [drawnNodeRows, List.map_map, List.map_map]
    rfl
  rw [hkeys, drawnNodes_fst]

theorem of_mem_drawnDependencies {d : DependencyRow}
    (hmem : d ∈ drawnDependencies buildId (drawnNodes ids nodes)) :
    d.buildId = buildId ∧ (∃ entry ∈ drawnNodes ids nodes, entry.2.nodeId = d.parentNodeId) ∧
      ∃ entry ∈ drawnNodes ids nodes, entry.2.nodeId = d.childNodeId := by
  simp only [drawnDependencies, mem_flatMap, mem_filterMap, Option.map_map,
    Option.map_eq_some_iff] at hmem
  obtain ⟨child, hchild, dependency, -, parent, hparent, rfl⟩ := hmem
  exact ⟨rfl, ⟨parent, mem_of_find?_eq_some hparent, rfl⟩, child, hchild, rfl⟩

/-- The nodes of a DAG with their first attempts and dependencies, added with the build. -/
theorem admits_dag {b : BuildRow} {nodeTable : Table Uuid NodeRow}
    {attemptTable : Table Uuid AttemptRow} {e : EventPayload} (hbuild : buildId ∉ s.builds)
    (hnodes : Table.insertAll (drawnNodeRows now ids buildId nodes) s.nodes = some nodeTable)
    (hattempts : Table.insertAll (drawnAttemptRows ids nodes) s.attempts = some attemptTable)
    (hstatus : b.status = .queued) (hunstamped : b.cancellationRequestedAt = none)
    (hdag : b.dagMode = true)
    (hpipeline : ∃ p row, b.pipelineId = some p ∧ s.pipelines.lookup p = some row ∧
      b.pipelineOperationalGeneration = some row.operationalGeneration)
    (hkey : s.buildByKey b.projectId b.idempotencyKey = none)
    (hpools : ∀ node ∈ nodes, TrustPoolAllowed node.requiredTrustPool)
    (hkeys : (nodes.map NewDagNode.nodeKey).Nodup)
    (hcontract : ∀ {c}, b.dagContract = some c → c.contractKeys.Perm (nodes.map NewDagNode.nodeKey))
    (hlayout : ∀ {c}, b.dagContract = some c → (c.get "sequential_layout").isSome = true →
      b.pipelineRevisionDigest = some b.pipelineDigest) (hpayload : e.isOffer = false) :
    s.Admits ({ s with
      builds := s.builds.insert buildId b
      nodes := nodeTable
      attempts := attemptTable
      dependencies := s.dependencies ++ drawnDependencies buildId (drawnNodes ids nodes)
      }.appendEvent buildId e) buildId b (drawnNodeRows now ids buildId nodes)
      (drawnAttemptRows ids nodes) (drawnDependencies buildId (drawnNodes ids nodes)) where
  effects := rfl
  restoreEpoch := rfl
  restoreEpochs := rfl
  pipelines := rfl
  pipelineStates := rfl
  fresh := lookup_eq_none.mpr hbuild
  builds := lookup_insert_fresh hbuild _
  nodes := lookup_insertAll hnodes
  attempts := lookup_insertAll hattempts
  dependencies := rfl
  events := ⟨[_], rfl, Quiet.single hpayload⟩
  status := hstatus
  unstamped := hunstamped
  pipeline := hpipeline
  node hmem := by
    obtain ⟨node, admission, -, -, rfl⟩ := mem_drawnNodeRows.mp hmem
    refine ⟨rfl, ?_, rfl, rfl⟩
    by_cases hroot : node.dependencies.isEmpty = true
    · exact .inl (if_pos hroot)
    · exact .inr ⟨if_neg hroot, hdag⟩
  attempt hmem := by
    obtain ⟨node, admission, hdrawn, rfl, rfl⟩ := mem_drawnAttemptRows.mp hmem
    have hnode : (admission.nodeId, newNodeRow now buildId node) ∈
        drawnNodeRows now ids buildId nodes :=
      mem_drawnNodeRows.mpr ⟨node, admission, hdrawn, rfl, rfl⟩
    exact ⟨lookup_eq_none_of_insertAll hattempts hmem, rfl,
      lookup_eq_none_of_insertAll hnodes hnode, _, hnode⟩
  attempted hmem := by
    obtain ⟨node, admission, hdrawn, rfl, -⟩ := mem_drawnNodeRows.mp hmem
    exact ⟨_, _, mem_drawnAttemptRows.mpr ⟨node, admission, hdrawn, rfl, rfl⟩, rfl⟩
  attempt_unique hmem hmem' hsame := by
    obtain ⟨node, admission, hdrawn, rfl, rfl⟩ := mem_drawnAttemptRows.mp hmem
    obtain ⟨node', admission', hdrawn', rfl, rfl⟩ := mem_drawnAttemptRows.mp hmem'
    have hnodup := Table.nodup_keys_of_insertAll hnodes
    rw [drawnNodeRows, List.map_map] at hnodup
    rw [show admission = admission' from
      (Prod.mk.inj (List.inj_on_of_nodup_map hnodup hdrawn hdrawn' hsame)).2]
  single hsolo := by simp [hdag] at hsolo
  dependency hmem := by
    obtain ⟨rfl, ⟨parent, hparent, hp⟩, child, hchild, hc⟩ := of_mem_drawnDependencies hmem
    exact ⟨rfl, hdag, ⟨_, mem_drawnNodeRows.mpr ⟨_, _, hparent, hp, rfl⟩⟩,
      _, mem_drawnNodeRows.mpr ⟨_, _, hchild, hc, rfl⟩⟩
  pool hmem := by
    obtain ⟨node, admission, hdrawn, -, rfl⟩ := mem_drawnNodeRows.mp hmem
    exact hpools node (mem_of_mem_drawnNodes hdrawn)
  unkeyed := key_ne_of_buildByKey hkey
  keys := by rw [drawnNodeRows_keys]; exact hkeys
  contract hsome := by rw [drawnNodeRows_keys]; exact hcontract hsome
  dag _ := hdag
  layout hsome := hlayout hsome

end Dag

/-- The ways in which `admitDagContract` ends. -/
inductive DagAdmissionCase [Platform] (s : Store) (now : Timestamp) (ids : ℕ → Uuid)
    (input : NewDagBuild) (contract : Json) (sequential : Bool) (s' : Store)
    (admission : DagAdmission) : Prop where
  | existing (hcreated : admission.created = false)
      (hfound : ∃ build, s.builds.lookup admission.buildId = some build) (hs : s' = s)
  | created {revisionDigest : Digest} {nodeTable : Table Uuid NodeRow}
      {attemptTable : Table Uuid AttemptRow} (hcheck : input.checkContract = .ok ())
      (hkey : s.buildByKey input.projectId input.idempotencyKey = none)
      (hbinding : s.lockEnabledPipelineBinding input.projectId input.pipelineId
        input.pipelineRevision input.pipelineOperationalGeneration = .ok revisionDigest)
      (hdigest : sequential = true → revisionDigest = input.pipelineDigest)
      (hfresh : ids 0 ∉ s.builds)
      (hnodes : Table.insertAll (drawnNodeRows now ids (ids 0) input.nodes) s.nodes =
        some nodeTable)
      (hattempts : Table.insertAll (drawnAttemptRows ids input.nodes) s.attempts =
        some attemptTable)
      (hadmission : admission = ⟨ids 0, admittedNodes ids input.nodes, true⟩)
      (hs : s' = { s with
        builds := s.builds.insert (ids 0) (newBuildRow now input.projectId input.pipelineId
          input.pipelineRevision input.pipelineOperationalGeneration revisionDigest
          input.idempotencyKey input.pipelineDigest input.priority (some contract)
          input.notifyTargets)
        nodes := nodeTable
        attempts := attemptTable
        dependencies := s.dependencies ++ drawnDependencies (ids 0) (drawnNodes ids input.nodes)
        }.appendEvent (ids 0) (.dagAdmitted input.nodes.length
          (input.nodes.map fun node : NewDagNode => node.dependencies.length).sum))

/-- An existing admission names its build, which is not created again. -/
theorem existingDagAdmission_eq_ok
    (hok : s.existingDagAdmission input contract buildId build = .ok admission) :
    admission.created = false ∧ admission.buildId = buildId := by
  unfold existingDagAdmission at hok
  split at hok
  · cases hok
  simp only at hok
  split at hok
  · cases hok
  · exact Except.ok.inj hok ▸ ⟨rfl, rfl⟩

theorem lookup_of_buildByKey {key : String}
    (hfound : s.buildByKey projectId key = some (buildId, build)) :
    s.builds.lookup buildId = some build := by
  have hmem := mem_of_mem_head? hfound
  exact (mem_select.mp hmem).1

/-- The admission of a DAG ends in one of the ways of `DagAdmissionCase`. -/
theorem admitDagContract_cases [Platform]
    (hok : s.admitDagContract now ids input contract sequential = .ok (s', admission)) :
    DagAdmissionCase s now ids input contract sequential s' admission := by
  unfold admitDagContract at hok
  split at hok
  · cases hok
  next hcheck =>
  split at hok
  next buildId build hfound =>
    split at hok
    · cases hok
    · next hexisting =>
      cases hok
      obtain ⟨hcreated, hbuildId⟩ := existingDagAdmission_eq_ok hexisting
      exact .existing hcreated ⟨build, hbuildId ▸ lookup_of_buildByKey hfound⟩ rfl
  next hkey =>
  split at hok
  · cases hok
  next revisionDigest hbinding =>
  split at hok
  · cases hok
  next hdigest =>
  split at hok
  · cases hok
  next hfresh =>
  simp only at hok
  split at hok
  · next nodeTable attemptTable hnodes hattempts =>
    cases hok
    have hsame (hseq : sequential = true) : revisionDigest = input.pipelineDigest := by
      by_contra hne
      exact hdigest ⟨hseq, hne⟩
    exact .created hcheck hkey hbinding hsame hfresh hnodes hattempts rfl rfl
  · cases hok

/-- The contract lists the keys of the input's nodes, and only a sequential one has a layout. -/
def ContractOf (input : NewDagBuild) (contract : Json) (sequential : Bool) : Prop :=
  contract.contractKeys.Perm (input.nodes.map NewDagNode.nodeKey) ∧
    ((contract.get "sequential_layout").isSome = true → sequential = true)

/-- The admission of a DAG build keeps the store or admits the build. -/
theorem admits_admitDagContract [Platform] (hcontract : ContractOf input contract sequential)
    (hok : s.admitDagContract now ids input contract sequential = .ok (s', admission)) :
    (admission.created = false ∧ s' = s) ∨ ∃ build newNodes newAttempts newDependencies,
      s.Admits s' admission.buildId build newNodes newAttempts newDependencies := by
  cases admitDagContract_cases hok with
  | existing hcreated _ hs => exact .inl ⟨hcreated, hs⟩
  | created hcheck hkey hbinding hdigest hfresh hnodes hattempts hadmission hs =>
    subst hs
    obtain ⟨row, hrow, hgeneration⟩ := lockEnabledPipelineBinding_eq_ok hbinding
    have haccepted := NewDagBuild.accepted_of_checkContract hcheck
    rw [hadmission]
    refine .inr ⟨_, _, _, _, admits_dag hfresh hnodes hattempts rfl rfl rfl
      ⟨_, row, rfl, hrow, by rw [hgeneration]; rfl⟩ hkey haccepted.pool haccepted.keys ?_ ?_ rfl⟩
    · intro c hc
      exact some.inj hc ▸ hcontract.1
    · intro c hc hlayout
      obtain rfl := some.inj hc
      exact congrArg some (hdigest (hcontract.2 hlayout))

theorem changes_admitDagContract [Platform] (hcontract : ContractOf input contract sequential)
    (hok : s.admitDagContract now ids input contract sequential = .ok (s', admission)) :
    Changes own s s' := by
  rcases admits_admitDagContract hcontract hok with ⟨-, rfl⟩ | ⟨build, _, _, _, hnew⟩
  · exact .refl _
  · exact .single (.enter hnew)

theorem contractOf_normalizedContract (input : NewDagBuild) :
    ContractOf input input.normalizedContract false := by
  obtain ⟨hkeys, hlayout⟩ := input.normalizedContract_spec
  exact ⟨hkeys, fun hsome => by simp [hlayout] at hsome⟩

theorem changes_admitDagTransaction [Platform] (s : Store) (now : Timestamp) (ids : ℕ → Uuid)
    (input : NewDagBuild) : Changes own s (s.after (s.admitDagTransaction now ids input)) := by
  rcases hok : s.admitDagTransaction now ids input with _ | ⟨s', admission⟩
  · exact .refl s
  · exact changes_admitDagContract (contractOf_normalizedContract input) hok

theorem changes_admitDag [Platform] (s : Store) (now : Timestamp) (ids : ℕ → Uuid)
    (input : NewDagBuild) : Changes own s (s.after (s.admitDag now ids input)) := by
  unfold admitDag
  split
  · exact .refl s
  · exact changes_admitDagTransaction s now ids input

/-- Opening the workspace of a build that is admitted in the same transaction. -/
theorem Admits.initialized {workspaceNamespace : Uuid} {newNodes : List (Uuid × NodeRow)}
    {newAttempts : List (Uuid × AttemptRow)} {newDependencies : List DependencyRow} {s'' : Store}
    (hnew : s.Admits s' buildId build newNodes newAttempts newDependencies)
    (hok : s'.initializeWorkspace buildId workspaceNamespace = .ok s'') :
    ∃ build', s.Admits s'' buildId build' newNodes newAttempts newDependencies ∧
      build'.projectId = build.projectId ∧ build'.pipelineId = build.pipelineId ∧
      build'.pipelineOperationalGeneration = build.pipelineOperationalGeneration ∧
      build'.binding = build.binding := by
  unfold initializeWorkspace at hok
  split at hok
  · cases hok
  cases hok
  let filled (row : BuildRow) : BuildRow :=
    if row.workspaceNamespace.isSome then row
    else { row with workspaceNamespace := some workspaceNamespace,
                    workspaceSnapshot := some WorkspaceSnapshot.initial }
  have hkeeps : (filled build).status = build.status ∧
      (filled build).cancellationRequestedAt = build.cancellationRequestedAt ∧
      (filled build).pipelineId = build.pipelineId ∧
      (filled build).pipelineOperationalGeneration = build.pipelineOperationalGeneration ∧
      (filled build).dagMode = build.dagMode ∧ (filled build).projectId = build.projectId ∧
      (filled build).binding = build.binding := by
    simp only [filled]
    split <;> exact ⟨rfl, rfl, rfl, rfl, rfl, rfl, rfl⟩
  obtain ⟨hstatus, hstamp, hpipeline, hgeneration, hdag, hproject, hsame⟩ := hkeeps
  have hbinding := hsame
  simp only [BuildRow.binding, Prod.mk.injEq] at hbinding
  obtain ⟨hkey, -, hrevision, hdigest, hcontract⟩ := hbinding
  have hrow : s'.builds.lookup buildId = some build := (hnew.builds _ _).mpr (.inr ⟨rfl, rfl⟩)
  refine ⟨filled build, { hnew with builds := fun b row => ?_, status := hstatus.trans hnew.status,
                                     unstamped := hstamp.trans hnew.unstamped,
                                     pipeline := by rw [hpipeline, hgeneration]; exact hnew.pipeline,
                                     node := by rw [hdag]; exact hnew.node,
                                     single := by rw [hdag]; exact hnew.single,
                                     dependency := by rw [hdag]; exact hnew.dependency,
                                     unkeyed := by rw [hproject, hkey]; exact hnew.unkeyed,
                                     contract := by rw [hcontract]; exact hnew.contract,
                                     dag := by rw [hcontract, hdag]; exact hnew.dag,
                                     layout := by
                                       rw [hcontract, hrevision, hdigest]
                                       exact hnew.layout }, hproject, hpipeline, hgeneration,
    hsame⟩
  change (s'.modifyBuild buildId filled).builds.lookup b = some row ↔ _
  by_cases hb : b = buildId
  · subst hb
    have hlook : (s'.modifyBuild b filled).builds.lookup b = some (filled build) :=
      (lookup_modify_of_eq hrow filled b).trans (if_pos rfl)
    rw [hlook, hnew.fresh]
    exact ⟨fun heq => .inr ⟨rfl, (some.inj heq).symm⟩,
      fun hnew => congrArg some (hnew.resolve_left nofun).2.symm⟩
  · have hlook : (s'.modifyBuild buildId filled).builds.lookup b = s'.builds.lookup b :=
      (lookup_modify ..).trans (if_neg hb)
    rw [hlook, hnew.builds]
    simp [hb]

theorem changes_admitSequentialDag [Platform] (s : Store) (now : Timestamp) (ids : ℕ → Uuid)
    (input : SequentialDagBuild) :
    Changes own s (s.after (s.admitSequentialDag now ids input)) := by
  have hcontract : ContractOf input.dag input.contract true :=
    ⟨input.contractKeys_perm, fun _ => rfl⟩
  unfold admitSequentialDag
  split
  · exact .refl s
  next admitted admission hnew =>
  split
  · next hcreated =>
    split
    · exact .refl s
    · next initialized hinitializes =>
      rw [Bool.and_eq_true] at hcreated
      rcases admits_admitDagContract hcontract hnew with ⟨hexisting, -⟩ | ⟨build, _, _, _, hnew⟩
      · simp [hexisting] at hcreated
      · obtain ⟨build', hnew', -⟩ := hnew.initialized hinitializes
        exact .single (.enter hnew')
  · exact changes_admitDagContract hcontract hnew

theorem changes_admitSequential [Platform] (s : Store) (now : Timestamp) (ids : ℕ → Uuid)
    (dag : NewDagBuild) (layout : List SequentialStepLayout) (workspaceTransfer : Bool) :
    Changes own s (s.after (s.admitSequential now ids dag layout workspaceTransfer)) := by
  unfold admitSequential
  split
  · exact .refl s
  · exact changes_admitSequentialDag s now ids _

end McLoving.Store
