import McLoving.Safety.Attempts

/-!
# Admissions in interleaved transactions

A project has at most one build under an idempotency key, and the nodes of a DAG build stand under
the keys of its stored contract.  An admission takes the lock of its pipeline, looks for its key,
reads the binding of its pipeline and inserts its build; the insertion waits for an open transaction
that has inserted the same key.  Only the commit makes the rows visible to others.
-/

namespace McLoving

open List Table

/-- The build has the pipeline binding, the digest and the contract of an admission. -/
structure BuildRow.Matches (b : BuildRow) (input : NewDagBuild) (contract : Json) :
    Prop where
  pipeline : b.pipelineId = some input.pipelineId
  revision : b.pipelineRevision = some input.pipelineRevision
  generation : b.pipelineOperationalGeneration = some input.pipelineOperationalGeneration
  digest : b.pipelineDigest = input.pipelineDigest
  contract : b.dagContract = some contract

namespace Store

variable {own : Prop} {s s' : Store}

/-- Builds and nodes stand under the keys they were admitted with. -/
structure Keyed (s : Store) : Prop where
  unique : ∀ {id b id' b'}, s.builds.lookup id = some b → s.builds.lookup id' = some b' →
    b.projectId = b'.projectId → b.idempotencyKey = b'.idempotencyKey → id = id'
  node_unique : ∀ {id n id' n'}, s.nodes.lookup id = some n → s.nodes.lookup id' = some n' →
    n.buildId = n'.buildId → n.nodeKey = n'.nodeKey → id = id'
  nodup : ∀ {id b c}, s.builds.lookup id = some b → b.dagContract = some c → c.contractKeys.Nodup
  /-- The contract lists the keys of the build's nodes. -/
  mem_contract : ∀ {id b c}, s.builds.lookup id = some b → b.dagContract = some c → ∀ {key},
    key ∈ c.contractKeys ↔
      ∃ nodeId n, s.nodes.lookup nodeId = some n ∧ n.buildId = id ∧ n.nodeKey = key
  dag : ∀ {id b c}, s.builds.lookup id = some b → b.dagContract = some c → b.dagMode = true
  /-- A sequential build has the digest of its revision. -/
  layout : ∀ {id b c}, s.builds.lookup id = some b → b.dagContract = some c →
    (c.get "sequential_layout").isSome = true → b.pipelineRevisionDigest = some b.pipelineDigest

/-- The keys stay when the rows keep their identities. -/
theorem Keyed.of_identities (hold : s.Keyed)
    (hbuilds : ∀ b, (s.builds.lookup b).map BuildRow.identity =
      (s'.builds.lookup b).map BuildRow.identity)
    (hnodes : ∀ n, (s.nodes.lookup n).map NodeRow.identity =
      (s'.nodes.lookup n).map NodeRow.identity) : s'.Keyed := by
  have hbuild {id : Uuid} {b' : BuildRow} (hb' : s'.builds.lookup id = some b') :
      ∃ b, s.builds.lookup id = some b ∧ b.dagMode = b'.dagMode ∧ b.projectId = b'.projectId ∧
        b.idempotencyKey = b'.idempotencyKey ∧ b.dagContract = b'.dagContract ∧
        b.pipelineDigest = b'.pipelineDigest ∧
        b.pipelineRevisionDigest = b'.pipelineRevisionDigest := by
    obtain ⟨b, hb, hid⟩ := exists_of_map_eq (hbuilds id) hb'
    simp only [BuildRow.identity, BuildRow.binding, Prod.mk.injEq] at hid
    obtain ⟨hdag, hproject, -, -, -, hkey, -, hrevision, hdigest, hcontract⟩ := hid
    exact ⟨b, hb, hdag, hproject, hkey, hcontract, hdigest, hrevision⟩
  have hnode {id : Uuid} {n' : NodeRow} (hn' : s'.nodes.lookup id = some n') :
      ∃ n, s.nodes.lookup id = some n ∧ n.buildId = n'.buildId ∧ n.nodeKey = n'.nodeKey := by
    obtain ⟨n, hn, hid⟩ := exists_of_map_eq (hnodes id) hn'
    simp only [NodeRow.identity, Prod.mk.injEq] at hid
    exact ⟨n, hn, hid.1, hid.2.2.2.2.2⟩
  refine ⟨?_, ?_, ?_, ?_, ?_, ?_⟩
  · intro id₁ b₁ id₂ b₂ hb₁ hb₂ hproject hkey
    obtain ⟨c₁, hc₁, -, hproject₁, hkey₁, -⟩ := hbuild hb₁
    obtain ⟨c₂, hc₂, -, hproject₂, hkey₂, -⟩ := hbuild hb₂
    exact hold.unique hc₁ hc₂ (hproject₁.trans (hproject.trans hproject₂.symm))
      (hkey₁.trans (hkey.trans hkey₂.symm))
  · intro id₁ n₁ id₂ n₂ hn₁ hn₂ hbuildId hkey
    obtain ⟨m₁, hm₁, hbuild₁, hkey₁⟩ := hnode hn₁
    obtain ⟨m₂, hm₂, hbuild₂, hkey₂⟩ := hnode hn₂
    exact hold.node_unique hm₁ hm₂ (hbuild₁.trans (hbuildId.trans hbuild₂.symm))
      (hkey₁.trans (hkey.trans hkey₂.symm))
  · intro id b' c hb' hc
    obtain ⟨b, hb, -, -, -, hcontract, -⟩ := hbuild hb'
    exact hold.nodup hb (hcontract.trans hc)
  · intro id b' c hb' hc key
    obtain ⟨b, hb, -, -, -, hcontract, -⟩ := hbuild hb'
    rw [hold.mem_contract hb (hcontract.trans hc)]
    constructor
    · rintro ⟨nodeId, n, hn, rfl, rfl⟩
      obtain ⟨n', hn', hid⟩ := exists_of_map_eq (hnodes nodeId).symm hn
      simp only [NodeRow.identity, Prod.mk.injEq] at hid
      exact ⟨nodeId, n', hn', hid.1, hid.2.2.2.2.2⟩
    · rintro ⟨nodeId, n', hn', rfl, rfl⟩
      obtain ⟨n, hn, hbuildId, hkey⟩ := hnode hn'
      exact ⟨nodeId, n, hn, hbuildId, hkey⟩
  · intro id b' c hb' hc
    obtain ⟨b, hb, hdag, -, -, hcontract, -⟩ := hbuild hb'
    exact hdag.symm.trans (hold.dag hb (hcontract.trans hc))
  · intro id b' c hb' hc hlayout
    obtain ⟨b, hb, -, -, -, hcontract, hdigest, hrevision⟩ := hbuild hb'
    rw [← hrevision, ← hdigest]
    exact hold.layout hb (hcontract.trans hc) hlayout

/-- An admission uses a new key and stores the nodes that its contract lists. -/
theorem Admits.keyed {buildId : Uuid} {build : BuildRow} {newNodes : List (Uuid × NodeRow)}
    {newAttempts : List (Uuid × AttemptRow)} {newDependencies : List DependencyRow}
    (hnew : s.Admits s' buildId build newNodes newAttempts newDependencies) (hco : s.Coherent)
    (hold : s.Keyed) : s'.Keyed := by
  have hne {id : Uuid} {b : BuildRow} (hb : s.builds.lookup id = some b) : id ≠ buildId := by
    rintro rfl
    simp [hnew.fresh] at hb
  have hother {id : Uuid} {n : NodeRow} (hn : s.nodes.lookup id = some n) :
      n.buildId ≠ buildId := by
    obtain ⟨b, hb⟩ := hco.build hn
    exact hne hb
  refine ⟨?_, ?_, ?_, ?_, ?_, ?_⟩
  · intro id₁ b₁ id₂ b₂ hb₁ hb₂ hproject hkey
    rcases (hnew.builds _ _).mp hb₁ with hb₁ | ⟨rfl, rfl⟩ <;>
      rcases (hnew.builds _ _).mp hb₂ with hb₂ | ⟨rfl, rfl⟩
    · exact hold.unique hb₁ hb₂ hproject hkey
    · exact absurd hkey (hnew.unkeyed hb₁ hproject)
    · exact absurd hkey.symm (hnew.unkeyed hb₂ hproject.symm)
    · rfl
  · intro id₁ n₁ id₂ n₂ hn₁ hn₂ hbuildId hkey
    rcases (hnew.nodes _ _).mp hn₁ with hn₁ | hmem₁ <;>
      rcases (hnew.nodes _ _).mp hn₂ with hn₂ | hmem₂
    · exact hold.node_unique hn₁ hn₂ hbuildId hkey
    · exact absurd (hbuildId.trans (hnew.node hmem₂).1) (hother hn₁)
    · exact absurd (hbuildId.symm.trans (hnew.node hmem₁).1) (hother hn₂)
    · exact (Prod.mk.inj (inj_on_of_nodup_map hnew.keys hmem₁ hmem₂ hkey)).1
  · intro id b c hb hc
    rcases (hnew.builds _ _).mp hb with hb | ⟨rfl, rfl⟩
    · exact hold.nodup hb hc
    · exact (hnew.contract hc).nodup_iff.mpr hnew.keys
  · intro id b c hb hc key
    rcases (hnew.builds _ _).mp hb with hb | ⟨rfl, rfl⟩
    · rw [hold.mem_contract hb hc]
      constructor
      · rintro ⟨nodeId, n, hn, hrow⟩
        exact ⟨nodeId, n, (hnew.nodes _ _).mpr (.inl hn), hrow⟩
      · rintro ⟨nodeId, n, hn, hbuildId, hkey⟩
        rcases (hnew.nodes _ _).mp hn with hn | hmem
        · exact ⟨nodeId, n, hn, hbuildId, hkey⟩
        · exact absurd (hbuildId.symm.trans (hnew.node hmem).1) (hne hb)
    · rw [(hnew.contract hc).mem_iff, mem_map]
      constructor
      · rintro ⟨⟨nodeId, n⟩, hmem, rfl⟩
        exact ⟨nodeId, n, (hnew.nodes _ _).mpr (.inr hmem), (hnew.node hmem).1, rfl⟩
      · rintro ⟨nodeId, n, hn, hbuildId, rfl⟩
        rcases (hnew.nodes _ _).mp hn with hn | hmem
        · exact absurd hbuildId (hother hn)
        · exact ⟨(nodeId, n), hmem, rfl⟩
  · intro id b c hb hc
    rcases (hnew.builds _ _).mp hb with hb | ⟨rfl, rfl⟩
    · exact hold.dag hb hc
    · exact hnew.dag hc
  · intro id b c hb hc hlayout
    rcases (hnew.builds _ _).mp hb with hb | ⟨rfl, rfl⟩
    · exact hold.layout hb hc hlayout
    · exact hnew.layout hc hlayout

theorem Change.keyed (hchange : Change own s s') (hco : s.Coherent) (hold : s.Keyed) :
    s'.Keyed := by
  rcases hchange.rewrites_or with hrw |
    ⟨mid, a, c, x, y, child, htouch, -, -, hbuilds, hnodes, -⟩ | ⟨_, _, _, _, _, hnew⟩
  · exact hold.of_identities hrw.symm.builds hrw.symm.nodes
  · refine hold.of_identities (fun b => ?_) fun n => ?_
    · rw [hbuilds]
      exact htouch.rewrites.symm.builds b
    · rw [hnodes]
      exact htouch.rewrites.symm.nodes n
  · exact hnew.keyed hco hold

/-! ## Replays -/

/-- The stores in which rows refer to one another, attempts form chains and keys are in order. -/
structure Consistent (s : Store) : Prop where
  coherent : s.Coherent
  lined : s.Lined
  keyed : s.Keyed

theorem Change.consistent (hchange : Change own s s') (hold : s.Consistent) : s'.Consistent :=
  ⟨hchange.coherent hold.coherent, hchange.lined hold.coherent hold.lined,
    hchange.keyed hold.coherent hold.keyed⟩

theorem Reachable.consistent [Platform] (hreach : s.Reachable) : s.Consistent := by
  obtain ⟨organizationId, hrun⟩ := hreach
  have hco := coherent_initial organizationId
  refine invariant_of_any_run (fun _ hchange hold => hchange.consistent hold) hrun hco
    ⟨hco, ⟨fun hr => ?_, fun hr => ?_, fun hr => ?_⟩, fun hb => ?_, fun hn => ?_, fun hb => ?_,
      fun hb => ?_, fun hb => ?_, fun hb => ?_⟩ <;> simp_all [initial]

section Existing

variable {buildId : Uuid} {b : BuildRow} {input : NewDagBuild} {contract : Json} {sequential : Bool}

/-- The node of a build under a key, with its first attempt. -/
def Identifies (s : Store) (buildId : Uuid) (key : String) (entry : DagNodeAdmission) : Prop :=
  ∃ n r, s.nodes.lookup entry.nodeId = some n ∧ n.buildId = buildId ∧ n.nodeKey = key ∧
    s.attempts.lookup entry.attemptId = some r ∧ r.nodeId = entry.nodeId ∧ r.ordinal = 1

theorem mem_firstAttempts {nodeId attemptId : Uuid} {n : NodeRow} :
    (nodeId, n, attemptId) ∈ s.firstAttempts buildId ↔
      s.nodes.lookup nodeId = some n ∧ n.buildId = buildId ∧
        ∃ r, s.attempts.lookup attemptId = some r ∧ r.nodeId = nodeId ∧ r.ordinal = 1 := by
  simp only [firstAttempts, mem_insertionSort, mem_flatMap, mem_map, Prod.exists,
    mem_select, Bool.and_eq_true, decide_eq_true_eq, Prod.mk.injEq]
  constructor
  · rintro ⟨_, _, ⟨hn, hbuild⟩, _, r, ⟨hr, hfirst⟩, rfl, rfl, rfl⟩
    exact ⟨hn, hbuild, r, hr, hfirst⟩
  · rintro ⟨hn, hbuild, r, hr, hfirst⟩
    exact ⟨nodeId, n, ⟨hn, hbuild⟩, attemptId, r, ⟨hr, hfirst⟩, rfl, rfl, rfl⟩

/-- Every node has exactly one first attempt. -/
theorem Consistent.first_unique (hs : s.Consistent) {nodeId : Uuid} {n : NodeRow}
    (hn : s.nodes.lookup nodeId = some n) :
    ∃! a, ∃ r, s.attempts.lookup a = some r ∧ r.nodeId = nodeId ∧ r.ordinal = 1 := by
  have hline := hs.lined.isLineage hs.coherent nodeId
  have hordinal {a : Uuid} {r : AttemptRow} (hr : s.attempts.lookup a = some r) :
      s.ordinalOf a = r.ordinal := by simp [ordinalOf, hr]
  obtain ⟨a₀, r₀, hr₀, hnode₀, -⟩ := hs.coherent.attempted hn
  have hone := hline.one_le_ordinal ⟨r₀, hr₀, hnode₀⟩
  obtain ⟨a, ⟨r, hr, hnode⟩, hord⟩ := hline.exists_ordinal ⟨r₀, hr₀, hnode₀⟩ le_rfl hone
  refine ⟨a, ⟨r, hr, hnode, (hordinal hr).symm.trans hord⟩, ?_⟩
  rintro c ⟨q, hq, hnode', hord'⟩
  exact hline.eq_of_ordinal_eq ⟨q, hq, hnode'⟩ ⟨r, hr, hnode⟩
    (by rw [hordinal hq, hord', hord])

theorem nodup_firstAttempts (s : Store) (buildId : Uuid) : (s.firstAttempts buildId).Nodup := by
  rw [firstAttempts, (perm_insertionSort _ _).nodup_iff, nodup_flatMap]
  refine ⟨?_, ?_⟩
  · rintro ⟨nodeId, n⟩ -
    have hkeys := nodup_keys_select s.attempts fun _ a => a.nodeId = nodeId && a.ordinal = 1
    refine (List.Nodup.of_map _ hkeys).map_on fun x hx y hy hxy => ?_
    exact inj_on_of_nodup_map hkeys hx hy (Prod.mk.inj (Prod.mk.inj hxy).2).2
  · have hkeys := nodup_keys_select s.nodes fun _ n => n.buildId = buildId
    refine (pairwise_map.mp hkeys).imp fun hne => ?_
    simp only [Function.onFun, disjoint_left, mem_map, not_exists, not_and]
    rintro _ ⟨x, -, rfl⟩ y - heq
    exact hne (Prod.mk.inj heq).1.symm

/-- The keys of the listed nodes are the keys of the stored contract. -/
theorem Consistent.firstAttempts_keys (hs : s.Consistent) (hb : s.builds.lookup buildId = some b)
    (hc : b.dagContract = some contract) :
    ((s.firstAttempts buildId).map fun row => row.2.1.nodeKey).Perm contract.contractKeys := by
  refine (perm_ext_iff_of_nodup ?_ (hs.keyed.nodup hb hc)).mpr fun key => ?_
  · refine (nodup_firstAttempts s buildId).map_on ?_
    rintro ⟨nodeId, n, a⟩ hx ⟨nodeId', n', a'⟩ hy hkey
    obtain ⟨hn, hbuild, hfirst⟩ := mem_firstAttempts.mp hx
    obtain ⟨hn', hbuild', hfirst'⟩ := mem_firstAttempts.mp hy
    obtain rfl := hs.keyed.node_unique hn hn' (hbuild.trans hbuild'.symm) hkey
    obtain rfl := Option.mem_unique hn hn'
    rw [(hs.first_unique hn).unique hfirst hfirst']
  · rw [hs.keyed.mem_contract hb hc, mem_map]
    constructor
    · rintro ⟨⟨nodeId, n, a⟩, hmem, rfl⟩
      obtain ⟨hn, hbuild, -⟩ := mem_firstAttempts.mp hmem
      exact ⟨nodeId, n, hn, hbuild, rfl⟩
    · rintro ⟨nodeId, n, hn, hbuild, rfl⟩
      obtain ⟨a, hfirst, -⟩ := hs.first_unique hn
      exact ⟨(nodeId, n, a), mem_firstAttempts.mpr ⟨hn, hbuild, hfirst⟩, rfl⟩

/-- A replay is answered exactly when the build has the binding, the digest and the contract. -/
theorem Consistent.existingDagAdmission_ok_iff (hs : s.Consistent)
    (hb : s.builds.lookup buildId = some b) (hcontract : ContractOf input contract sequential) :
    (∃ admission, s.existingDagAdmission input contract buildId b = .ok admission) ↔
      b.Matches input contract := by
  unfold existingDagAdmission
  split
  next hdiffers =>
    constructor
    · rintro ⟨_, hok⟩
      cases hok
    · rintro ⟨hpipeline, hrevision, hgeneration, hdigest, hc⟩
      simp only [hpipeline, hrevision, hgeneration, hdigest, hc, hs.keyed.dag hb hc, ne_eq,
        not_true_eq_false, false_or, reduceCtorEq] at hdiffers
      exact absurd (hdigest ▸ hs.keyed.layout hb hc hdiffers.1) hdiffers.2
  next hsame =>
    simp only [not_or, not_not] at hsame
    obtain ⟨hpipeline, hrevision, hgeneration, -, hdigest, hc, -⟩ := hsame
    refine ⟨fun _ => ⟨hpipeline, hrevision, hgeneration, hdigest, hc⟩, fun _ => ?_⟩
    have hkeys := (hs.firstAttempts_keys hb hc).trans hcontract.1
    simp only
    rw [if_neg]
    · exact ⟨_, rfl⟩
    simp only [Bool.or_eq_true, decide_eq_true_eq, any_eq_true, not_or, not_exists, not_and,
      ne_eq, not_not, Bool.not_eq_true, Option.isNone_eq_false_iff]
    refine ⟨?_, fun node hmem => ?_⟩
    · simpa using hkeys.length_eq
    · obtain ⟨row, hrow, hkey⟩ := mem_map.mp
        (hkeys.mem_iff.mpr (mem_map_of_mem (f := NewDagNode.nodeKey) hmem))
      rw [lookup_isSome_iff]
      exact ⟨(row.2.1.nodeKey, ⟨row.1, row.2.2⟩), by
        rw [mem_insertionSort]
        exact mem_map_of_mem (f := fun row : Uuid × NodeRow × Uuid =>
          (row.2.1.nodeKey, (⟨row.1, row.2.2⟩ : DagNodeAdmission))) hrow, by simp [hkey]⟩

/-- A replay is answered with the identifiers of the build, its nodes and their first attempts. -/
theorem existingDagAdmission_spec {admission : DagAdmission}
    (hok : s.existingDagAdmission input contract buildId b = .ok admission) :
    admission.buildId = buildId ∧ admission.created = false ∧
      ∀ {key entry}, (key, entry) ∈ admission.nodes ↔ s.Identifies buildId key entry := by
  unfold existingDagAdmission at hok
  split at hok
  · cases hok
  simp only at hok
  split at hok
  · cases hok
  cases hok
  refine ⟨rfl, rfl, fun {key entry} => ?_⟩
  simp only [mem_insertionSort, mem_map, Prod.exists, Prod.mk.injEq]
  constructor
  · rintro ⟨nodeId, n, attemptId, hmem, rfl, rfl⟩
    obtain ⟨hn, hbuild, r, hr, hnode, hfirst⟩ := mem_firstAttempts.mp hmem
    exact ⟨n, r, hn, hbuild, rfl, hr, hnode, hfirst⟩
  · rintro ⟨n, r, hn, hbuild, rfl, hr, hnode, hfirst⟩
    exact ⟨entry.nodeId, n, entry.attemptId,
      mem_firstAttempts.mpr ⟨hn, hbuild, r, hr, hnode, hfirst⟩, rfl, rfl⟩

end Existing

end Store

/-- The edges of a contract: the keys of parent and child, and the condition. -/
def NewDagBuild.edges (input : NewDagBuild) : List (String × String × DependencyCondition) :=
  input.nodes.flatMap fun node =>
    node.dependencies.map fun d => (d.nodeKey, node.nodeKey, d.condition)

namespace Store

variable {s s' : Store}

/-- The key of a node. -/
def nodeKeyOf (s : Store) (nodeId : Uuid) : Option String :=
  (s.nodes.lookup nodeId).map NodeRow.nodeKey

/-- The dependency rows of a build, by the keys of the nodes they join. -/
def edgesOf (s : Store) (buildId : Uuid) :
    List (Option String × Option String × DependencyCondition) :=
  (s.dependencies.filter fun d => d.buildId = buildId).map fun d =>
    (s.nodeKeyOf d.parentNodeId, s.nodeKeyOf d.childNodeId, d.condition)

/-- The second store has one build more, with the rows of its contract. -/
structure Creates (s s' : Store) (now : Timestamp) (input : NewDagBuild) (contract : Json)
    (admission : DagAdmission) : Prop where
  created : admission.created = true
  fresh : s.builds.lookup admission.buildId = none
  build : ∃ b, (∀ id row, s'.builds.lookup id = some row ↔
      s.builds.lookup id = some row ∨ (id = admission.buildId ∧ row = b)) ∧
    b.projectId = input.projectId ∧ b.idempotencyKey = input.idempotencyKey ∧
    b.Matches input contract
  /-- One node for each node of the contract. -/
  node : ∀ node ∈ input.nodes, ∃! nodeId,
    s'.nodes.lookup nodeId = some (newNodeRow now admission.buildId node)
  of_node : ∀ {nodeId n}, s'.nodes.lookup nodeId = some n → n.buildId = admission.buildId →
    ∃ node ∈ input.nodes, n = newNodeRow now admission.buildId node ∧
      (n.status = .queued ↔ node.dependencies = [])
  /-- One attempt for each node. -/
  attempt : ∀ {nodeId n}, s'.nodes.lookup nodeId = some n → n.buildId = admission.buildId →
    ∃! a, ∃ r, s'.attempts.lookup a = some r ∧ r.nodeId = nodeId ∧ r = firstAttempt nodeId
  only_attempt : ∀ {a r n}, s'.attempts.lookup a = some r → s'.nodes.lookup r.nodeId = some n →
    n.buildId = admission.buildId → r = firstAttempt r.nodeId
  /-- One dependency row for each edge. -/
  dependencies : s'.edgesOf admission.buildId =
    input.edges.map fun edge => (some edge.1, some edge.2.1, edge.2.2)
  identifies : ∀ {key entry}, (key, entry) ∈ admission.nodes ↔
    s'.Identifies admission.buildId key entry

section Rows

variable {now : Timestamp} {ids : ℕ → Uuid} {input : NewDagBuild} {contract : Json}
  {build : BuildRow}

theorem exists_mem_drawnNodes {nodes : List NewDagNode} {node : NewDagNode} (hmem : node ∈ nodes) :
    ∃ entry, (node, entry) ∈ drawnNodes ids nodes := by
  have hfst : (drawnNodes ids nodes).map Prod.fst = nodes := drawnNodes_fst
  rw [← hfst, mem_map] at hmem
  obtain ⟨⟨node', entry⟩, hdrawn, rfl⟩ := hmem
  exact ⟨entry, hdrawn⟩

theorem mem_admittedNodes {nodes : List NewDagNode} {key : String} {entry : DagNodeAdmission} :
    (key, entry) ∈ admittedNodes ids nodes ↔
      ∃ node, (node, entry) ∈ drawnNodes ids nodes ∧ node.nodeKey = key := by
  simp [admittedNodes]

theorem drawnDependencies_edges {buildId : Uuid} {keyOf : Uuid → Option String}
    (hparent : ∀ node ∈ input.nodes, ∀ d ∈ node.dependencies,
      d.nodeKey ∈ input.nodes.map NewDagNode.nodeKey)
    (hkeyOf : ∀ {node entry}, (node, entry) ∈ drawnNodes ids input.nodes →
      keyOf entry.nodeId = some node.nodeKey) :
    (drawnDependencies buildId (drawnNodes ids input.nodes)).map
        (fun d => (keyOf d.parentNodeId, keyOf d.childNodeId, d.condition)) =
      input.edges.map fun edge => (some edge.1, some edge.2.1, edge.2.2) := by
  have hedges : input.edges = (drawnNodes ids input.nodes).flatMap fun drawn =>
      drawn.1.dependencies.map fun d => (d.nodeKey, drawn.1.nodeKey, d.condition) := by
    have hfst : (drawnNodes ids input.nodes).map Prod.fst = input.nodes := drawnNodes_fst
    rw [NewDagBuild.edges]
    nth_rewrite 1 [← hfst]
    rw [flatMap_map]
  rw [hedges, drawnDependencies, map_flatMap, map_flatMap]
  refine flatMap_congr ?_
  rintro ⟨node, entry⟩ hdrawn
  rw [map_filterMap, map_map, ← filterMap_eq_map]
  refine filterMap_congr fun d hd => ?_
  -- The parent of the edge is among the drawn nodes.
  have hnode := mem_of_mem_drawnNodes hdrawn
  obtain ⟨parent, hparent, hkey⟩ := mem_map.mp (hparent node hnode d hd)
  obtain ⟨parentEntry, hparentDrawn⟩ : ∃ entry, (parent, entry) ∈ drawnNodes ids input.nodes :=
    exists_mem_drawnNodes hparent
  have hfind : ((drawnNodes ids input.nodes).find? fun e => e.1.nodeKey == d.nodeKey).isSome := by
    rw [find?_isSome]
    exact ⟨_, hparentDrawn, by simpa using hkey⟩
  obtain ⟨found, hfound⟩ := Option.isSome_iff_exists.mp hfind
  have hfoundKey : found.1.nodeKey = d.nodeKey := by
    simpa using find?_some hfound
  have hfoundDrawn : (found.1, found.2) ∈ drawnNodes ids input.nodes := mem_of_find?_eq_some hfound
  simp only [hfound, Option.map_some, Function.comp_apply, hkeyOf hfoundDrawn, hkeyOf hdrawn,
    hfoundKey]

theorem Admits.creates (hco : s.Coherent) (haccepted : input.Accepted)
    (hnew : s.Admits s' (ids 0) build (drawnNodeRows now ids (ids 0) input.nodes)
      (drawnAttemptRows ids input.nodes) (drawnDependencies (ids 0) (drawnNodes ids input.nodes)))
    (hproject : build.projectId = input.projectId)
    (hkey : build.idempotencyKey = input.idempotencyKey) (hmatch : build.Matches input contract) :
    s.Creates s' now input contract ⟨ids 0, admittedNodes ids input.nodes, true⟩ := by
  have hnodeRow {node : NewDagNode} {entry : DagNodeAdmission}
      (hdrawn : (node, entry) ∈ drawnNodes ids input.nodes) :
      (entry.nodeId, newNodeRow now (ids 0) node) ∈ drawnNodeRows now ids (ids 0) input.nodes :=
    mem_drawnNodeRows.mpr ⟨node, entry, hdrawn, rfl, rfl⟩
  have hattemptRow {node : NewDagNode} {entry : DagNodeAdmission}
      (hdrawn : (node, entry) ∈ drawnNodes ids input.nodes) :
      (entry.attemptId, firstAttempt entry.nodeId) ∈ drawnAttemptRows ids input.nodes :=
    mem_drawnAttemptRows.mpr ⟨node, entry, hdrawn, rfl, rfl⟩
  -- The rows of the build are the new ones.
  have hisNew {nodeId : Uuid} {n : NodeRow} (hn : s'.nodes.lookup nodeId = some n)
      (hbuild : n.buildId = ids 0) : (nodeId, n) ∈ drawnNodeRows now ids (ids 0) input.nodes := by
    rcases (hnew.nodes _ _).mp hn with hn | hmem
    · obtain ⟨b, hb⟩ := hco.build hn
      rw [hbuild, hnew.fresh] at hb
      cases hb
    · exact hmem
  have hattemptNew {a : Uuid} {r : AttemptRow} {n : NodeRow}
      (hr : s'.attempts.lookup a = some r)
      (hmem : (r.nodeId, n) ∈ drawnNodeRows now ids (ids 0) input.nodes) :
      (a, r) ∈ drawnAttemptRows ids input.nodes := by
    rcases (hnew.attempts _ _).mp hr with hr | hmem'
    · obtain ⟨a', r', hmem', hsame⟩ := hnew.attempted hmem
      have hnone := (hnew.attempt hmem').2.2.1
      obtain ⟨n', hn'⟩ := hco.node hr
      rw [hsame, hn'] at hnone
      cases hnone
    · exact hmem'
  have hkeyOf {node : NewDagNode} {entry : DagNodeAdmission}
      (hdrawn : (node, entry) ∈ drawnNodes ids input.nodes) :
      s'.nodeKeyOf entry.nodeId = some node.nodeKey := by
    rw [nodeKeyOf, (hnew.nodes _ _).mpr (.inr (hnodeRow hdrawn))]
    rfl
  refine ⟨rfl, hnew.fresh, ⟨build, hnew.builds, hproject, hkey, hmatch⟩, ?_, ?_, ?_, ?_, ?_, ?_⟩
  · intro node hmem
    obtain ⟨entry, hdrawn⟩ : ∃ entry, (node, entry) ∈ drawnNodes ids input.nodes :=
      exists_mem_drawnNodes hmem
    refine ⟨entry.nodeId, (hnew.nodes _ _).mpr (.inr (hnodeRow hdrawn)), fun nodeId hn => ?_⟩
    exact (Prod.mk.inj (inj_on_of_nodup_map hnew.keys (hisNew hn rfl) (hnodeRow hdrawn)
      rfl)).1
  · intro nodeId n hn hbuild
    obtain ⟨node, entry, hdrawn, -, rfl⟩ := mem_drawnNodeRows.mp (hisNew hn hbuild)
    refine ⟨node, mem_of_mem_drawnNodes hdrawn, rfl, ?_⟩
    rcases hdependencies : node.dependencies with _ | ⟨d, rest⟩ <;> simp [newNodeRow, hdependencies]
  · intro nodeId n hn hbuild
    obtain ⟨node, entry, hdrawn, rfl, rfl⟩ := mem_drawnNodeRows.mp (hisNew hn hbuild)
    refine ⟨entry.attemptId, ⟨_, (hnew.attempts _ _).mpr (.inr (hattemptRow hdrawn)), rfl, rfl⟩, ?_⟩
    rintro a ⟨r, hr, hnode, -⟩
    have hmem := hattemptNew hr (hnode.symm ▸ hnodeRow hdrawn)
    exact hnew.attempt_unique hmem (hattemptRow hdrawn) hnode
  · intro a r n hr hn hbuild
    exact (hnew.attempt (hattemptNew hr (hisNew hn hbuild))).2.1
  · have hold : s.dependencies.filter (fun d => d.buildId = ids 0) = [] := by
      refine filter_eq_nil_iff.mpr fun d hd hbuild => ?_
      obtain ⟨_, _, b, -, -, -, -, hb, -⟩ := hco.dependency hd
      rw [of_decide_eq_true hbuild, hnew.fresh] at hb
      cases hb
    have hall : (drawnDependencies (ids 0) (drawnNodes ids input.nodes)).filter
        (fun d => d.buildId = ids 0) = drawnDependencies (ids 0) (drawnNodes ids input.nodes) :=
      filter_eq_self.mpr fun d hd => decide_eq_true (hnew.dependency hd).1
    rw [edgesOf, hnew.dependencies, filter_append, hold, nil_append, hall]
    exact drawnDependencies_edges (fun node hmem d hd => (haccepted.parent node hmem d hd).1)
      hkeyOf
  · intro key entry
    rw [mem_admittedNodes]
    constructor
    · rintro ⟨node, hdrawn, rfl⟩
      exact ⟨_, _, (hnew.nodes _ _).mpr (.inr (hnodeRow hdrawn)), rfl, rfl,
        (hnew.attempts _ _).mpr (.inr (hattemptRow hdrawn)), rfl, rfl⟩
    · rintro ⟨n, r, hn, hbuild, rfl, hr, hnode, -⟩
      have hmem := hisNew hn hbuild
      obtain ⟨node, drawn, hdrawn, hid, rfl⟩ := mem_drawnNodeRows.mp hmem
      have hattempt := hnew.attempt_unique (hattemptNew hr (hnode ▸ hmem)) (hattemptRow hdrawn)
        (hnode.trans hid.symm)
      obtain ⟨nodeId, attemptId⟩ := entry
      obtain ⟨nodeId', attemptId'⟩ := drawn
      obtain rfl : nodeId' = nodeId := hid
      obtain rfl : attemptId = attemptId' := hattempt
      exact ⟨node, hdrawn, rfl⟩

end Rows

/-- The rows of a new build, with its nodes, attempts and dependencies: the `INSERT` statements of
`admit_dag_contract_transaction`. -/
def insertDag (s : Store) (now : Timestamp) (ids : ℕ → Uuid) (input : NewDagBuild)
    (contract : Json) (revisionDigest : Digest) : Except StoreError (Store × DagAdmission) :=
  if ids 0 ∈ s.builds then .error .database
  else
    match Table.insertAll (drawnNodeRows now ids (ids 0) input.nodes) s.nodes,
      Table.insertAll (drawnAttemptRows ids input.nodes) s.attempts with
    | some nodes, some attempts =>
      .ok ({ s with
        builds := s.builds.insert (ids 0) (newBuildRow now input.projectId input.pipelineId
          input.pipelineRevision input.pipelineOperationalGeneration revisionDigest
          input.idempotencyKey input.pipelineDigest input.priority (some contract)
          input.notifyTargets)
        nodes := nodes
        attempts := attempts
        dependencies := s.dependencies ++ drawnDependencies (ids 0) (drawnNodes ids input.nodes)
        }.appendEvent (ids 0) (.dagAdmitted input.nodes.length
          (input.nodes.map fun node : NewDagNode => node.dependencies.length).sum),
        ⟨ids 0, admittedNodes ids input.nodes, true⟩)
    | _, _ => .error .database

end Store

/-- What a transaction admits: a DAG, by an API call or for a trigger, or a sequential build. -/
inductive AdmissionRequest where
  | dag (input : NewDagBuild)
  | sequential (input : SequentialDagBuild)

namespace AdmissionRequest

/-- The contract as the caller gave it. -/
def input : AdmissionRequest → NewDagBuild
  | dag input => input
  | sequential input => input.dag

/-- The contract to store and to compare with. -/
def contract : AdmissionRequest → Json
  | dag input => input.normalizedContract
  | sequential input => input.contract

/-- The flag `sequential`. -/
def isSequential : AdmissionRequest → Bool
  | dag _ => false
  | sequential _ => true

/-- Whether the build gets a workspace of its own. -/
def workspaceTransfer : AdmissionRequest → Bool
  | dag _ => false
  | sequential input => input.workspaceTransfer

theorem contractOf (request : AdmissionRequest) :
    Store.ContractOf request.input request.contract request.isSequential := by
  cases request with
  | dag input => exact Store.contractOf_normalizedContract input
  | sequential input => exact ⟨input.contractKeys_perm, fun _ => rfl⟩

end AdmissionRequest

namespace Store

/-- An admission as one step: `admit_dag_transaction` or `admit_sequential_dag`. -/
def admitWhole [Platform] (s : Store) (now : Timestamp) (ids : ℕ → Uuid)
    (request : AdmissionRequest) :
    Except StoreError (Store × DagAdmission) :=
  match request with
  | .dag input => s.admitDagTransaction now ids input
  | .sequential input => s.admitSequentialDag now ids input

/-- The statements of an admission once its key is inserted. -/
def create (s : Store) (now : Timestamp) (ids : ℕ → Uuid) (request : AdmissionRequest)
    (revisionDigest : Digest) : Except StoreError (Store × DagAdmission) :=
  match s.insertDag now ids request.input request.contract revisionDigest with
  | .error error => .error error
  | .ok (inserted, admission) =>
    if request.workspaceTransfer then
      match inserted.initializeWorkspace admission.buildId
          (ids (2 * request.input.nodes.length + 1)) with
      | .error error => .error error
      | .ok initialized => .ok (initialized, admission)
    else .ok (inserted, admission)

/-- The answer of an admission that finds its key. -/
def replay (s : Store) (request : AdmissionRequest) (buildId : Uuid) (build : BuildRow) :
    Except StoreError (Store × DagAdmission) :=
  match s.existingDagAdmission request.input request.contract buildId build with
  | .error error => .error error
  | .ok admission => .ok (s, admission)

/-! ## The statements together are the admission -/

section Whole

variable {s s' : Store} {now : Timestamp} {ids : ℕ → Uuid} {request : AdmissionRequest}

theorem created_of_insertDag {input : NewDagBuild} {contract : Json} {revisionDigest : Digest}
    {admission : DagAdmission}
    (hok : s.insertDag now ids input contract revisionDigest = .ok (s', admission)) :
    admission.created = true := by
  unfold insertDag at hok
  split at hok
  · cases hok
  split at hok
  · exact (Prod.mk.inj (Except.ok.inj hok)).2 ▸ rfl
  · cases hok

variable [Platform]

theorem admit_eq_replay (hcheck : request.input.checkContract = .ok ()) {buildId : Uuid}
    {build : BuildRow} (hfound : s.buildByKey request.input.projectId request.input.idempotencyKey =
      some (buildId, build)) : s.admitWhole now ids request = s.replay request buildId build := by
  have hreplay : s.admitDagContract now ids request.input request.contract request.isSequential =
      s.replay request buildId build := by
    simp only [admitDagContract, hcheck, hfound]
    rfl
  cases request with
  | dag => exact hreplay
  | sequential input =>
    rw [admitWhole, admitSequentialDag]
    replace hreplay : s.admitDagContract now ids input.dag input.contract true =
      s.replay (.sequential input) buildId build := hreplay
    rw [hreplay]
    unfold replay
    rcases hexisting : s.existingDagAdmission (AdmissionRequest.sequential input).input
      (AdmissionRequest.sequential input).contract buildId build with error | admission
    · rfl
    · simp [(existingDagAdmission_eq_ok hexisting).1]

theorem admit_eq_create (hcheck : request.input.checkContract = .ok ())
    (hkey : s.buildByKey request.input.projectId request.input.idempotencyKey = none)
    {revisionDigest : Digest}
    (hbinding : s.lockEnabledPipelineBinding request.input.projectId request.input.pipelineId
      request.input.pipelineRevision request.input.pipelineOperationalGeneration =
        .ok revisionDigest)
    (hdigest : request.isSequential = true → revisionDigest = request.input.pipelineDigest) :
    s.admitWhole now ids request = s.create now ids request revisionDigest := by
  have hsame : ¬ (request.isSequential = true ∧ revisionDigest ≠ request.input.pipelineDigest) :=
    fun hboth => hboth.2 (hdigest hboth.1)
  have hinsert : s.admitDagContract now ids request.input request.contract request.isSequential =
      s.insertDag now ids request.input request.contract revisionDigest := by
    simp only [admitDagContract, hcheck, hkey, hbinding, if_neg hsame]
    rfl
  unfold create
  cases request with
  | dag input =>
    rw [admitWhole, admitDagTransaction]
    replace hinsert : s.admitDagContract now ids input input.normalizedContract false =
      s.insertDag now ids input input.normalizedContract revisionDigest := hinsert
    rw [hinsert]
    simp only [AdmissionRequest.input, AdmissionRequest.contract,
      AdmissionRequest.workspaceTransfer]
    rcases s.insertDag now ids input input.normalizedContract revisionDigest with
      error | ⟨inserted, admission⟩
    · rfl
    · rfl
  | sequential input =>
    rw [admitWhole, admitSequentialDag]
    replace hinsert : s.admitDagContract now ids input.dag input.contract true =
      s.insertDag now ids input.dag input.contract revisionDigest := hinsert
    rw [hinsert]
    simp only [AdmissionRequest.input, AdmissionRequest.contract,
      AdmissionRequest.workspaceTransfer]
    rcases hinserted : s.insertDag now ids input.dag input.contract revisionDigest with
      error | ⟨inserted, admission⟩
    · rfl
    · simp only [created_of_insertDag hinserted, Bool.true_and]
      rfl

end Whole

end Store

/-! ## Transactions -/

namespace Admission

/-- Where an admission is: which of its statements it has executed. -/
inductive Point where
  /-- Nothing but the start of the transaction. -/
  | waiting
  /-- The lock of the pipeline. -/
  | locked
  /-- The search for the key, which found none. -/
  | absent
  /-- The check of the binding, with the digest of the current revision. -/
  | bound (revisionDigest : Digest)
  /-- The insertion of the build. -/
  | inserted (revisionDigest : Digest)
  deriving DecidableEq

/-- An open transaction. -/
structure Tx where
  now : Timestamp
  ids : ℕ → Uuid
  request : AdmissionRequest
  point : Point

/-- Whether the transaction holds the lock of a pipeline. -/
def Tx.holds (tx : Tx) (pipelineId : Uuid) : Bool :=
  tx.point ≠ .waiting && tx.request.input.pipelineId = pipelineId

/-- Whether the transaction has inserted a key that is not committed. -/
def Tx.reserves (tx : Tx) (projectId : Uuid) (key : String) : Bool :=
  match tx.point with
  | .inserted _ =>
    tx.request.input.projectId = projectId && tx.request.input.idempotencyKey = key
  | _ => false

/-- What the next statement of a transaction does. -/
inductive Progress where
  | waits
  | moves (point : Point)
  | ends (answer : Except StoreError (Store × DagAdmission))

/-- The next statement of a transaction, in a committed store and beside other transactions. -/
def Tx.next [Platform] (tx : Tx) (s : Store) (others : List Tx) : Progress :=
  let input := tx.request.input
  match tx.point with
  | .waiting =>
    match input.checkContract with
    | .error error => .ends (.error error)
    | .ok () => if others.any (·.holds input.pipelineId) then .waits else .moves .locked
  | .locked =>
    match s.buildByKey input.projectId input.idempotencyKey with
    | some (buildId, build) => .ends (s.replay tx.request buildId build)
    | none => .moves .absent
  | .absent =>
    match s.lockEnabledPipelineBinding input.projectId input.pipelineId input.pipelineRevision
        input.pipelineOperationalGeneration with
    | .error error => .ends (.error error)
    | .ok revisionDigest =>
      if tx.request.isSequential ∧ revisionDigest ≠ input.pipelineDigest then
        .ends (.error
          (.invalidDag "sequential semantic digest differs from the saved revision"))
      else .moves (.bound revisionDigest)
  | .bound revisionDigest =>
    if others.any (·.reserves input.projectId input.idempotencyKey) then .waits
    else
      match s.buildByKey input.projectId input.idempotencyKey with
      | some (buildId, build) => .ends (s.replay tx.request buildId build)
      | none => .moves (.inserted revisionDigest)
  | .inserted revisionDigest => .ends (s.create tx.now tx.ids tx.request revisionDigest)

/-- The answer of a transaction, with the committed store before and after it. -/
structure Answer where
  tx : Tx
  before : Store
  result : Except StoreError DagAdmission
  after : Store

/-- A transaction ends: it commits, or it is rolled back after an error. -/
def Answer.of (tx : Tx) (s : Store) : Except StoreError (Store × DagAdmission) → Answer
  | .ok (s', admission) => ⟨tx, s, .ok admission, s'⟩
  | .error error => ⟨tx, s, .error error, s⟩

/-- The committed store, the open transactions and the answers given so far, latest first. -/
structure Database where
  store : Store
  transactions : Table ℕ Tx
  answers : List Answer

namespace Database

/-- A store without open transactions. -/
def start (s : Store) : Database :=
  ⟨s, ∅, []⟩

/-- The open transactions but one. -/
def others (d : Database) (id : ℕ) : List Tx :=
  (d.transactions.select fun id' _ => id' ≠ id).map Prod.snd

/-- A transaction ends with an answer. -/
def finish (d : Database) (id : ℕ) (answer : Answer) : Database :=
  ⟨answer.after, d.transactions.erase id, answer :: d.answers⟩

/-- What can happen next: a transaction begins, executes a statement, or is abandoned. -/
inductive Event where
  | begin (id : ℕ) (now : Timestamp) (ids : ℕ → Uuid) (request : AdmissionRequest)
  | advance (id : ℕ)
  | abandon (id : ℕ)

/-- One event. -/
def step [Platform] (d : Database) : Event → Database
  | .begin id now ids request =>
    if id ∈ d.transactions then d
    else { d with transactions := d.transactions.insert id ⟨now, ids, request, .waiting⟩ }
  | .advance id =>
    match d.transactions.lookup id with
    | none => d
    | some tx =>
      match tx.next d.store (d.others id) with
      | .waits => d
      | .moves point =>
        { d with transactions := d.transactions.insert id { tx with point := point } }
      | .ends answer => d.finish id (.of tx d.store answer)
  | .abandon id => { d with transactions := d.transactions.erase id }

/-- The database after a sequence of events. -/
def run [Platform] (d : Database) (events : List Event) : Database :=
  History.final step d events

end Database

end Admission

end McLoving
