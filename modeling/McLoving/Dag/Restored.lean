import McLoving.Dag.Canonical

/-!
# Reading sequential contracts back

The projection of a sequential build restores it from the columns of the build and the stored
contract.  The reader denies unknown members, resets the capabilities, admits the build anew and
compares its contract with what was stored.
-/

namespace McLoving

open List Option

/-! ## The reader -/

namespace Json

/-- A 32-bit signed integer. -/
def asI32 : Json → Option ℤ
  | .num value => if -2 ^ 31 ≤ value ∧ value < 2 ^ 31 then some value else none
  | _ => none

/-- `Value::as_bool`. -/
def asBool : Json → Option Bool
  | .bool value => some value
  | _ => none

/-- A member of type `usize`. -/
def usizeField (key : String) (value : Json) : Option ℕ := do (← value.get key).asUnsigned 64

end Json

structure ContractDependency where
  nodeKey : String
  condition : String

structure ContractNode where
  nodeKey : String
  kind : String
  dependencies : List ContractDependency
  requiredCapabilities : List String
  requiredPlatform : String
  requiredTrustPool : String
  priority : ℤ
  executionSpec : Json
  failFast : Bool
  maxAttempts : ℤ

/-- `Contract`, with its `Layout`. -/
structure Contract where
  version : ℕ
  priority : ℤ
  nodes : List ContractNode
  layoutVersion : ℕ
  steps : List SequentialStepLayout
  workspaceTransfer : Option Json

/-- Reads a dependency. -/
def ContractDependency.ofJson (value : Json) : Option ContractDependency := do
  guard (value.onlyFields ["node_key", "condition"])
  return { nodeKey := ← value.textField "node_key", condition := ← value.textField "condition" }

/-- Reads a node. -/
def ContractNode.ofJson (value : Json) : Option ContractNode := do
  guard (value.onlyFields ["node_key", "kind", "dependencies", "required_capabilities",
    "required_platform", "required_trust_pool", "priority", "execution_spec", "fail_fast",
    "max_attempts"])
  return {
    nodeKey := ← value.textField "node_key"
    kind := ← value.textField "kind"
    dependencies := ← (← (← value.get "dependencies").asArray).mapM ContractDependency.ofJson
    requiredCapabilities := ← (← (← value.get "required_capabilities").asArray).mapM Json.asStr
    requiredPlatform := ← value.textField "required_platform"
    requiredTrustPool := ← value.textField "required_trust_pool"
    priority := ← (← value.get "priority").asI32
    executionSpec := ← value.get "execution_spec"
    failFast := ← (← value.get "fail_fast").asBool
    maxAttempts := ← (← value.get "max_attempts").asI32 }

/-- Reads a row of the layout. -/
def SequentialStepLayout.ofJson (value : Json) : Option SequentialStepLayout := do
  guard (value.onlyFields ["node_key", "stage_id", "stage_name", "stage_ordinal", "step_ordinal",
    "execution_ordinal"])
  return {
    nodeKey := ← value.textField "node_key"
    stageId := ← value.textField "stage_id"
    stageName := ← value.textField "stage_name"
    stageOrdinal := ← value.usizeField "stage_ordinal"
    stepOrdinal := ← value.usizeField "step_ordinal"
    executionOrdinal := ← value.usizeField "execution_ordinal" }

/-- Reads a contract. -/
def Contract.ofJson (value : Json) : Option Contract := do
  guard (value.onlyFields ["version", "priority", "nodes", "sequential_layout", "workspace_transfer"])
  let layout ← value.get "sequential_layout"
  guard (layout.onlyFields ["version", "steps"])
  return {
    version := ← (← value.get "version").asUnsigned 32
    priority := ← (← value.get "priority").asI32
    nodes := ← (← (← value.get "nodes").asArray).mapM ContractNode.ofJson
    layoutVersion := ← (← layout.get "version").asUnsigned 32
    steps := ← (← (← layout.get "steps").asArray).mapM SequentialStepLayout.ofJson
    workspaceTransfer := ← value.optionalField "workspace_transfer" some }

namespace Contract

/-- The marker of workspace transfer. -/
def workspaceMarker : Json := .obj [("version", .num 1)]

/-- Whether the contract is one with workspace transfer. -/
def workspace (contract : Contract) : Except StoreError Bool :=
  match contract.workspaceTransfer with
  | none => .ok false
  | some value =>
    if value = workspaceMarker then .ok true
    else .error (.sequentialIntegrity "unknown workspace contract")

/-- The capabilities that every node of a contract must list. -/
def expectedCapabilities (workspace : Bool) : List String :=
  if workspace then ["platform:linux", workspaceTransferCapability] else ["platform:linux"]

/-- The dependency of a restored node. -/
def restoreDependency (dependency : ContractDependency) : Except StoreError DagDependency :=
  if dependency.condition ≠ "succeeded" then
    .error (.sequentialIntegrity "unsupported dependency condition")
  else .ok ⟨dependency.nodeKey, .succeeded⟩

/-- The restored node. -/
def restoreNode (workspace : Bool) (node : ContractNode) : Except StoreError NewDagNode :=
  if node.kind ≠ "work" || node.requiredCapabilities ≠ expectedCapabilities workspace then
    .error (.sequentialIntegrity "unsupported immutable node kind or capability")
  else do
    let dependencies ← node.dependencies.mapM restoreDependency
    return ⟨node.nodeKey, .work, dependencies, [], node.requiredPlatform, node.requiredTrustPool,
      node.priority, node.executionSpec, node.failFast, node.maxAttempts⟩

/-- The build of the restored nodes, admitted anew. -/
def restoreBuild [Platform] (dag : NewDagBuild) (contract : Contract) (workspace : Bool) :
    Except StoreError SequentialDagBuild := do
  let nodes ← contract.nodes.mapM (restoreNode workspace)
  match SequentialDagBuild.new { dag with nodes } contract.steps with
  | .error _ =>
    .error (.sequentialIntegrity "invalid immutable sequential layout or process contract")
  | .ok input => .ok (if workspace then input.withWorkspaceTransfer else input)

end Contract

/-- `restore_contract`. -/
def restoreContract [Platform] (dag : NewDagBuild) (value : Json) :
    Except StoreError SequentialDagBuild :=
  match Contract.ofJson value with
  | none => .error (.sequentialIntegrity "malformed sequential contract")
  | some contract =>
    if contract.version ≠ 1 || contract.layoutVersion ≠ 1 || contract.priority ≠ dag.priority then
      .error (.sequentialIntegrity "unknown contract version or changed build priority")
    else do
      let workspace ← contract.workspace
      let input ← contract.restoreBuild dag workspace
      if input.contract ≠ value then
        .error (.sequentialIntegrity "noncanonical immutable contract")
      else .ok input

/-! ## What admission establishes -/

/-- The fixed policy of the nodes of a sequential build, with a dependency on at most one node. -/
structure NewDagNode.Sequential (node : NewDagNode) : Prop where
  kind : node.kind = .work
  dependencies : node.dependencies = [] ∨ ∃ parent, node.dependencies = [⟨parent, .succeeded⟩]
  capabilities : node.requiredCapabilities = []
  platform : node.requiredPlatform = "linux"
  trustPool : node.requiredTrustPool = "migration-deny-authority"
  priority : node.priority = 0
  failFast : node.failFast = false
  maxAttempts : node.maxAttempts = 1

variable {dag : NewDagBuild}

theorem validateLayout_spec {rows : List SequentialStepLayout} {index : ℕ}
    {previous : Option SequentialStepLayout} {keys stages : List String} {scriptBytes : ℕ}
    (hok : validateLayout dag rows index previous keys stages scriptBytes = .ok ())
    (hprevious : ∀ row ∈ previous, row.stepOrdinal ≤ index) (hkeys : keys.Nodup) :
    (∀ row ∈ rows, (∃ node ∈ dag.nodes, node.nodeKey = row.nodeKey ∧ node.Sequential) ∧
      row.stageOrdinal ≤ 32 ∧ row.stepOrdinal ≤ index + rows.length ∧
      row.executionOrdinal ≤ index + rows.length) ∧
    (rows.map SequentialStepLayout.nodeKey ++ keys).Nodup := by
  induction rows generalizing index previous keys stages scriptBytes with
  | nil => exact ⟨fun row hmem => absurd hmem not_mem_nil, hkeys⟩
  | cons row _ ih =>
    unfold validateLayout at hok
    split at hok
    · cases hok
    next hidentity =>
    split at hok
    · cases hok
    next hcontinues =>
    split at hok
    · cases hok
    next hstage =>
    split at hok
    · cases hok
    next node hfind =>
    dsimp only at hok
    split_ifs at hok with hpolicy
    split at hok
    · cases hok
    split_ifs at hok
    simp only [Bool.or_eq_true, decide_eq_true_eq, not_or, not_not, contains_iff_mem]
      at hidentity
    have hstep : row.stepOrdinal ≤ index + 1 := by
      cases previous with
      | none =>
        simp only [layoutContinues, Bool.not_eq_true', Bool.not_eq_false, Bool.and_eq_true,
          decide_eq_true_eq] at hcontinues
        omega
      | some before =>
        have := hprevious before rfl
        simp only [layoutContinues, Bool.not_eq_true', Bool.not_eq_false, Bool.or_eq_true,
          Bool.and_eq_true, decide_eq_true_eq] at hcontinues
        omega
    obtain ⟨hrest, hnodup⟩ := ih hok (fun before hbefore => by
      obtain rfl := mem_some.mp hbefore
      exact hstep) (nodup_cons.mpr ⟨hidentity.1.1.1.1.2, hkeys⟩)
    refine ⟨forall_mem_cons.mpr ⟨⟨⟨node, mem_of_find?_eq_some hfind, ?_, ?_⟩, by omega,
      ?_, ?_⟩, fun other hmem => ?_⟩, perm_middle.nodup_iff.mp hnodup⟩
    · simpa using find?_some hfind
    · simp only [Bool.or_eq_true, decide_eq_true_eq, not_or, not_not, Bool.not_eq_true] at hpolicy
      obtain ⟨⟨⟨⟨⟨⟨⟨hkind, hdependencies⟩, hcapabilities⟩, hplatform⟩, hpool⟩, hpriority⟩, hfast⟩,
        hattempts⟩ := hpolicy
      refine ⟨hkind, ?_, hcapabilities, hplatform, hpool, hpriority, hfast, hattempts⟩
      rw [hdependencies]
      cases previous with
      | none => exact .inl rfl
      | some => exact .inr ⟨_, rfl⟩
    · rw [length_cons]
      omega
    · rw [length_cons, hidentity.1.1.1.1.1]
      omega
    · obtain ⟨hfound, hstages, hsteps, hordinals⟩ := hrest other hmem
      rw [length_cons]
      exact ⟨hfound, hstages, by omega, by omega⟩

/-- The walk reads the nodes by their keys, so their order does not matter. -/
theorem validateLayout_of_perm {nodes : List NewDagNode}
    (hkeys : (dag.nodes.map NewDagNode.nodeKey).Nodup) (hperm : nodes.Perm dag.nodes)
    (rows : List SequentialStepLayout) (index : ℕ) (previous : Option SequentialStepLayout)
    (keys stages : List String) (scriptBytes : ℕ) :
    validateLayout { dag with nodes } rows index previous keys stages scriptBytes =
      validateLayout dag rows index previous keys stages scriptBytes := by
  have hfind (key : String) : nodes.find? (fun node => node.nodeKey == key) =
      dag.nodes.find? fun node => node.nodeKey == key := by
    cases hfind : dag.nodes.find? fun node => node.nodeKey == key with
    | none =>
      refine find?_eq_none.mpr fun node hmem => ?_
      exact find?_eq_none.mp hfind node (hperm.mem_iff.mp hmem)
    | some node =>
      obtain rfl := by simpa using find?_some hfind
      exact NewDagBuild.find?_nodeKey ((hperm.map _).nodup_iff.mpr hkeys)
        (hperm.mem_iff.mpr (mem_of_find?_eq_some hfind))
  induction rows generalizing index previous keys stages scriptBytes with
  | nil => rfl
  | cons _ _ ih => simp only [validateLayout, hfind, ih]

namespace SequentialDagBuild

/-- What `SequentialDagBuild::new` establishes. -/
structure Valid [Platform] (build : SequentialDagBuild) : Prop where
  contract : build.dag.validateContract = .ok ()
  targets : build.dag.notifyTargets = .arr []
  bounds : ¬ (triggerDagIdempotencyPrefix.toList.isPrefixOf build.dag.idempotencyKey.toList
    || build.dag.priority ≠ 0 || build.dag.pipelineRevision ≤ 0
    || build.dag.pipelineOperationalGeneration ≤ 0 || build.layout.isEmpty
    || build.layout.length > 64 || build.layout.length ≠ build.dag.nodes.length) = true
  ordered : build.layout.Pairwise fun left right => left.executionOrdinal ≤ right.executionOrdinal
  layout : validateLayout build.dag build.layout 0 none [] [] 0 = .ok ()
  plain : build.workspaceTransfer = false

variable [Platform] {build : SequentialDagBuild}

theorem valid_of_new {layout : List SequentialStepLayout}
    (hok : new dag layout = .ok build) : build.Valid := by
  obtain ⟨hcontract, hok⟩ := Except.unit_bind_eq_ok.mp hok
  split_ifs at hok with hnotify hbounds
  dsimp only at hok
  split at hok
  · cases hok
  next hlayout =>
  cases hok
  have hperm := perm_insertionSort (fun left right : SequentialStepLayout =>
    left.executionOrdinal ≤ right.executionOrdinal) layout
  have hvalid : dag.validateContract = .ok () := by
    unfold NewDagBuild.checkContract at hcontract
    split at hcontract
    next hvalid => exact hvalid
    next => cases hcontract
  refine ⟨hvalid, ?_, ?_, Table.pairwise_sort SequentialStepLayout.executionOrdinal _, hlayout, rfl⟩
  · have htargets := (NewDagBuild.withinBounds_of_validateContract hvalid).notifyTargets
    unfold validateNotifyTargets at htargets
    dsimp only at htargets
    split at htargets
    next entries hentries =>
      cases entries with
      | nil => exact hentries
      | cons =>
        rw [hentries] at hnotify
        exact absurd rfl hnotify
    next => cases htargets
  · have hempty : (layout.insertionSort fun left right =>
        left.executionOrdinal ≤ right.executionOrdinal).isEmpty = layout.isEmpty := by
      rw [Bool.eq_iff_iff, isEmpty_iff_length_eq_zero, isEmpty_iff_length_eq_zero, hperm.length_eq]
    rw [hempty, hperm.length_eq]
    exact hbounds

namespace Valid

variable (hbuild : build.Valid)

include hbuild

/-- Building with the nodes in another order gives the same layout. -/
theorem new_of_perm {nodes : List NewDagNode} (hperm : nodes.Perm build.dag.nodes) :
    new { build.dag with nodes } build.layout =
      .ok { build with dag := { build.dag with nodes } } := by
  have hbounds := NewDagBuild.withinBounds_of_validateContract hbuild.contract
  have hcheck : ({ build.dag with nodes } : NewDagBuild).checkContract = .ok () := by
    rw [NewDagBuild.checkContract, NewDagBuild.validateContract_of_perm hbuild.contract hperm]
  have hsorted := hbuild.ordered.insertionSort_eq
  refine Except.unit_bind_eq_ok.mpr ⟨hcheck, ?_⟩
  rw [if_neg (by rw [hbuild.targets]; exact Bool.false_ne_true),
    if_neg (by rw [hperm.length_eq]; exact hbuild.bounds)]
  dsimp only
  rw [hsorted, validateLayout_of_perm hbounds.keys hperm, hbuild.layout, hbuild.plain]

theorem sequential {node : NewDagNode} (hmem : node ∈ build.dag.nodes) : node.Sequential := by
  have hbounds := NewDagBuild.withinBounds_of_validateContract hbuild.contract
  obtain ⟨hrows, hnodup⟩ := validateLayout_spec hbuild.layout (by simp) nodup_nil
  rw [append_nil] at hnodup
  have hlength : build.dag.nodes.length ≤ build.layout.length := by
    have := hbuild.bounds
    simp only [Bool.or_eq_true, decide_eq_true_eq, not_or, not_not] at this
    omega
  -- The keys of the rows are different keys of nodes, and there are as many as nodes.
  have hsubset : build.layout.map SequentialStepLayout.nodeKey ⊆
      build.dag.nodes.map NewDagNode.nodeKey := by
    intro key hkey
    obtain ⟨row, hrow, rfl⟩ := mem_map.mp hkey
    obtain ⟨⟨found, hfound, hkey, -⟩, -⟩ := hrows row hrow
    exact hkey ▸ mem_map_of_mem hfound
  have hperm := (subperm_of_subset hnodup hsubset).perm_of_length_le
    (by simpa only [length_map] using hlength)
  obtain ⟨row, hrow, hkey⟩ := mem_map.mp (hperm.mem_iff.mpr (mem_map_of_mem hmem))
  obtain ⟨⟨found, hfound, hfoundKey, hsequential⟩, -⟩ := hrows row hrow
  rwa [← inj_on_of_nodup_map hbounds.keys hfound hmem (hfoundKey.trans hkey)]

end Valid

end SequentialDagBuild

/-! ## Round trips -/

/-- The node with the capabilities of its build. -/
def NewDagNode.offer (workspace : Bool) (node : NewDagNode) : NewDagNode :=
  { node with requiredCapabilities := if workspace then [workspaceTransferCapability] else [] }

/-- Reading what is written for the members of a list gives what each of them is read as. -/
theorem mapM_map_eq_pure {m : Type → Type} [Monad m] [LawfulMonad m] {α β γ : Type} {write : α → γ}
    {read : γ → m β} {f : α → β} {l : List α} (hread : ∀ a ∈ l, read (write a) = pure (f a)) :
    (l.map write).mapM read = pure (l.map f) := by
  induction l with
  | nil => rfl
  | cons a _ ih =>
    rw [map_cons, mapM_cons, hread a mem_cons_self,
      ih fun other hmem => hread other (mem_cons_of_mem _ hmem), pure_bind, pure_bind, map_cons]

/-- A node as the contract describes it. -/
def NewDagNode.toContract (workspace : Bool) (node : NewDagNode) : ContractNode :=
  ⟨node.nodeKey, "work", node.dependencies.map fun d => ⟨d.nodeKey, "succeeded"⟩,
    Contract.expectedCapabilities workspace, "linux", "migration-deny-authority", 0,
    node.executionSpec, false, 1⟩

/-- The written node of a sequential build is read as its description. -/
theorem NewDagNode.Sequential.ofJson_toJson {node : NewDagNode} (hnode : node.Sequential)
    (workspace : Bool) :
    ContractNode.ofJson (node.offer workspace).toJson = some (node.toContract workspace) := by
  obtain ⟨hkind, hdependencies, -, hplatform, hpool, hpriority, hfast, hattempts⟩ := hnode
  have hcapabilities : (node.offer workspace).capabilities =
      Contract.expectedCapabilities workspace := by
    unfold NewDagNode.capabilities NewDagNode.offer
    rw [hplatform]
    simp only
    revert workspace
    decide +kernel
  have hread : ((Contract.expectedCapabilities workspace).map Json.str).mapM Json.asStr =
      some (Contract.expectedCapabilities workspace) := by
    cases workspace <;> rfl
  have hordered : ((node.offer workspace).dependencies.insertionSort fun left right =>
      left.nodeKey < right.nodeKey ∨ (left.nodeKey = right.nodeKey ∧
        left.condition.asStr ≤ right.condition.asStr)) = node.dependencies := by
    rcases hdependencies with hnone | ⟨parent, hone⟩
    · simp [offer, hnone]
    · simp [offer, hone]
  have hparents : (node.dependencies.map DagDependency.toJson).mapM ContractDependency.ofJson =
      some (node.dependencies.map fun d => ⟨d.nodeKey, "succeeded"⟩) := by
    refine mapM_map_eq_pure fun d hd => ?_
    rcases hdependencies with hnone | ⟨parent, hone⟩
    · simp [hnone] at hd
    · obtain rfl := mem_singleton.mp (hone ▸ hd)
      rfl
  have hmembers : ContractNode.ofJson (node.offer workspace).toJson =
      ((((node.offer workspace).dependencies.insertionSort fun left right =>
        left.nodeKey < right.nodeKey ∨ (left.nodeKey = right.nodeKey ∧
          left.condition.asStr ≤ right.condition.asStr)).map DagDependency.toJson).mapM
            ContractDependency.ofJson).bind fun dependencies =>
      (((node.offer workspace).capabilities.map Json.str).mapM Json.asStr).bind fun capabilities =>
      (Json.num node.priority).asI32.bind fun priority =>
      (Json.num node.maxAttempts).asI32.bind fun maxAttempts =>
        some ⟨node.nodeKey, node.kind.asStr, dependencies, capabilities, node.requiredPlatform,
          node.requiredTrustPool, priority, node.executionSpec, node.failFast, maxAttempts⟩ := rfl
  rw [hmembers, hordered, hparents, hcapabilities, hread, hkind, hplatform, hpool, hpriority, hfast,
    hattempts]
  rfl

theorem NewDagNode.Sequential.restoreNode_toContract {node : NewDagNode} (hnode : node.Sequential)
    (workspace : Bool) : Contract.restoreNode workspace (node.toContract workspace) = .ok node := by
  obtain ⟨hkind, hdependencies, hcapabilities, hplatform, hpool, hpriority, hfast, hattempts⟩ := hnode
  have hparents : (node.dependencies.map fun d => ContractDependency.mk d.nodeKey "succeeded").mapM
      Contract.restoreDependency = .ok node.dependencies := by
    rcases hdependencies with hnone | ⟨parent, hone⟩
    · rw [hnone]
      rfl
    · rw [hone]
      rfl
  rw [Contract.restoreNode, if_neg (by simp [toContract])]
  change (List.mapM _ _ >>= _) = _
  rw [toContract, hparents]
  cases node
  simp only at hkind hcapabilities hplatform hpool hpriority hfast hattempts
  subst hkind hcapabilities hplatform hpool hpriority hfast hattempts
  rfl

/-- A natural number within the width is read as itself. -/
theorem Json.asUnsigned_natCast {bits n : ℕ} (hn : n < 2 ^ bits) :
    (Json.num n).asUnsigned bits = some n := by
  rw [Json.asUnsigned, if_pos ⟨by omega, by exact_mod_cast hn⟩, Int.toNat_natCast]

/-- The written row of a layout is read as the row. -/
theorem SequentialStepLayout.ofJson_toJson {row : SequentialStepLayout}
    (hstage : row.stageOrdinal < 2 ^ 64) (hstep : row.stepOrdinal < 2 ^ 64)
    (hexecution : row.executionOrdinal < 2 ^ 64) : ofJson row.toJson = some row := by
  have hread {key : String} {n : ℕ} (hget : row.toJson.get key = some (.num n)) (hn : n < 2 ^ 64) :
      row.toJson.usizeField key = some n := by
    rw [Json.usizeField, hget, bind_eq_bind, bind_some, Json.asUnsigned_natCast hn]
  have hstageRead := hread (show row.toJson.get "stage_ordinal" = _ from rfl) hstage
  have hstepRead := hread (show row.toJson.get "step_ordinal" = _ from rfl) hstep
  have hexecutionRead := hread (show row.toJson.get "execution_ordinal" = _ from rfl) hexecution
  unfold ofJson
  rw [hstageRead, hstepRead, hexecutionRead]
  rfl

theorem NewDagBuild.orderedNodes_perm (input : NewDagBuild) : input.orderedNodes.Perm input.nodes :=
  perm_insertionSort _ _

namespace SequentialDagBuild

/-- The build with or without workspace transfer. -/
def offering (build : SequentialDagBuild) (workspace : Bool) : SequentialDagBuild :=
  if workspace then build.withWorkspaceTransfer else build

/-- A build that `new` returned, with or without workspace transfer. -/
def Made [Platform] (build : SequentialDagBuild) : Prop :=
  ∃ dag layout plain, new dag layout = .ok plain ∧
    (build = plain ∨ build = plain.withWorkspaceTransfer)

/-- What the projection knows of a build apart from the contract. -/
def header (build : SequentialDagBuild) : NewDagBuild :=
  { build.dag with nodes := [], notifyTargets := .arr [] }

/-- The build with its nodes in the order of the contract. -/
def ordered (build : SequentialDagBuild) : SequentialDagBuild :=
  { build with dag := { build.dag with nodes := build.dag.orderedNodes } }

theorem Made.exists_valid [Platform] {build : SequentialDagBuild} (hmade : build.Made) :
    ∃ plain : SequentialDagBuild, ∃ workspace, plain.Valid ∧ build = plain.offering workspace := by
  obtain ⟨dag, layout, plain, hok, rfl | rfl⟩ := hmade
  · exact ⟨build, false, valid_of_new hok, rfl⟩
  · exact ⟨plain, true, valid_of_new hok, rfl⟩

@[simp]
theorem offering_layout (build : SequentialDagBuild) (workspace : Bool) :
    (build.offering workspace).layout = build.layout := by
  cases workspace <;> rfl

@[simp]
theorem offering_header (build : SequentialDagBuild) (workspace : Bool) :
    (build.offering workspace).header = build.header := by
  cases workspace <;> rfl

namespace Valid

variable [Platform] {build : SequentialDagBuild} (hbuild : build.Valid)

include hbuild

theorem offering_workspaceTransfer (workspace : Bool) :
    (build.offering workspace).workspaceTransfer = workspace := by
  cases workspace
  · exact hbuild.plain
  · rfl

theorem priority : build.dag.priority = 0 := by
  have := hbuild.bounds
  simp only [Bool.or_eq_true, decide_eq_true_eq, not_or, not_not] at this
  exact this.1.1.1.1.1.2

theorem offering_nodes (workspace : Bool) :
    (build.offering workspace).dag.nodes = build.dag.nodes.map (NewDagNode.offer workspace) := by
  cases workspace
  · refine ((map_congr_left fun node hmem => ?_).trans (map_id _)).symm
    have hcapabilities := (hbuild.sequential hmem).capabilities
    cases node
    simp only at hcapabilities
    subst hcapabilities
    rfl
  · rfl

theorem offering_orderedNodes (workspace : Bool) : (build.offering workspace).dag.orderedNodes =
      build.dag.orderedNodes.map (NewDagNode.offer workspace) := by
  rw [NewDagBuild.orderedNodes, NewDagBuild.orderedNodes, hbuild.offering_nodes]
  exact (map_insertionSort (fun left right : NewDagNode => left.nodeKey ≤ right.nodeKey)
    (fun left right : NewDagNode => left.nodeKey ≤ right.nodeKey) (.offer workspace) _
      fun _ _ _ _ => .rfl).symm

theorem contract_offering (workspace : Bool) : (build.offering workspace).contract =
      .obj ([("nodes", .arr ((build.dag.orderedNodes.map (NewDagNode.offer workspace)).map
          NewDagNode.toJson)),
        ("priority", .num 0),
        ("sequential_layout", .obj [("steps", .arr (build.layout.map SequentialStepLayout.toJson)),
          ("version", .num 1)]),
        ("version", .num 1)] ++
        if workspace then [("workspace_transfer", Contract.workspaceMarker)] else []) := by
  have htargets : (build.offering workspace).dag.targets = none := by
    have : (build.offering workspace).dag.notifyTargets = .arr [] := by
      cases workspace <;> exact hbuild.targets
    rw [NewDagBuild.targets, this]
  have hpriority : (build.offering workspace).dag.priority = 0 := by
    cases workspace <;> exact hbuild.priority
  rw [SequentialDagBuild.contract, NewDagBuild.contractFields_eq_targets, htargets, hpriority,
    hbuild.offering_orderedNodes, offering_layout, hbuild.offering_workspaceTransfer]
  rfl

theorem ofJson_contract (workspace : Bool) : Contract.ofJson (build.offering workspace).contract =
      some ⟨1, 0, build.dag.orderedNodes.map (NewDagNode.toContract workspace), 1, build.layout,
        if workspace then some Contract.workspaceMarker else none⟩ := by
  have hnodes : ((build.dag.orderedNodes.map (NewDagNode.offer workspace)).map
      NewDagNode.toJson).mapM ContractNode.ofJson =
        some (build.dag.orderedNodes.map (NewDagNode.toContract workspace)) := by
    rw [List.map_map]
    refine mapM_map_eq_pure fun node hmem => ?_
    exact (hbuild.sequential ((List.mem_insertionSort _).mp hmem)).ofJson_toJson workspace
  have hsteps : (build.layout.map SequentialStepLayout.toJson).mapM SequentialStepLayout.ofJson =
      some build.layout := by
    have hlength : build.layout.length ≤ 64 := by
      have := hbuild.bounds
      simp only [Bool.or_eq_true, decide_eq_true_eq, not_or, not_not, not_lt] at this
      exact this.1.2
    have hrows := (validateLayout_spec hbuild.layout (by simp) nodup_nil).1
    refine (mapM_map_eq_pure (f := id) fun row hmem => ?_).trans (congrArg some (map_id _))
    obtain ⟨-, hstage, hstep, hexecution⟩ := hrows row hmem
    exact SequentialStepLayout.ofJson_toJson (by omega) (by omega) (by omega)
  have hmembers (nodes steps : List Json) : Contract.ofJson (.obj ([("nodes", .arr nodes),
      ("priority", .num 0),
      ("sequential_layout", .obj [("steps", .arr steps), ("version", .num 1)]),
      ("version", .num 1)] ++
        if workspace then [("workspace_transfer", Contract.workspaceMarker)] else [])) =
      (nodes.mapM ContractNode.ofJson).bind fun nodes =>
      (steps.mapM SequentialStepLayout.ofJson).bind fun steps =>
        some ⟨1, 0, nodes, 1, steps, if workspace then some Contract.workspaceMarker else none⟩ := by
    cases workspace <;> rfl
  rw [hbuild.contract_offering, hmembers, hnodes, hsteps]
  rfl

theorem mapM_restoreNode (workspace : Bool) :
    (build.dag.orderedNodes.map (NewDagNode.toContract workspace)).mapM
      (Contract.restoreNode workspace) = .ok build.dag.orderedNodes := by
  refine (mapM_map_eq_pure (f := id) fun node hmem => ?_).trans (congrArg Except.ok (map_id _))
  exact (hbuild.sequential (build.dag.orderedNodes_perm.mem_iff.mp hmem)).restoreNode_toContract
    workspace

/-- The contract does not change when the nodes are put in order. -/
theorem contract_ordered (workspace : Bool) :
    (build.ordered.offering workspace).contract = (build.offering workspace).contract := by
  have hordered : build.ordered.Valid := valid_of_new (hbuild.new_of_perm build.dag.orderedNodes_perm)
  have hsorted : build.ordered.dag.orderedNodes = build.dag.orderedNodes :=
    (Table.pairwise_sort NewDagNode.nodeKey _).insertionSort_eq
  rw [hordered.contract_offering, hbuild.contract_offering, hsorted]
  rfl

theorem restoreContract_offering (workspace : Bool) :
    restoreContract build.header (build.offering workspace).contract =
      .ok (build.ordered.offering workspace) := by
  have hheader : ({ build.header with nodes := build.dag.orderedNodes } : NewDagBuild) =
      { build.dag with nodes := build.dag.orderedNodes } := by
    rw [header, ← hbuild.targets]
  rw [restoreContract, hbuild.ofJson_contract]
  dsimp only
  rw [if_neg (by simp [header, hbuild.priority])]
  have hflag : Contract.workspace ⟨1, 0, build.dag.orderedNodes.map
      (NewDagNode.toContract workspace), 1, build.layout,
      if workspace then some Contract.workspaceMarker else none⟩ = .ok workspace := by
    cases workspace
    · rfl
    · rw [Contract.workspace]
      exact if_pos rfl
  have hrestored : Contract.restoreBuild build.header ⟨1, 0, build.dag.orderedNodes.map
      (NewDagNode.toContract workspace), 1, build.layout,
      if workspace then some Contract.workspaceMarker else none⟩ workspace =
        .ok (build.ordered.offering workspace) := by
    rw [Contract.restoreBuild, hbuild.mapM_restoreNode]
    simp only [bind, Except.bind]
    rw [hheader, hbuild.new_of_perm build.dag.orderedNodes_perm]
    rfl
  rw [hflag]
  change (Contract.restoreBuild _ _ workspace >>= _) = _
  rw [hrestored]
  exact if_neg (not_not.mpr (hbuild.contract_ordered workspace))

/-- Builds with equal contracts agree in layout, workspace transfer and nodes. -/
theorem eq_of_contract {build' : SequentialDagBuild} (hbuild' : build'.Valid)
    {workspace workspace' : Bool}
    (heq : (build.offering workspace).contract = (build'.offering workspace').contract) :
    build.layout = build'.layout ∧ workspace = workspace' ∧
      build.dag.nodes.Perm build'.dag.nodes := by
  have hread := hbuild.ofJson_contract workspace
  rw [heq, hbuild'.ofJson_contract, some_inj, Contract.mk.injEq] at hread
  obtain ⟨-, -, hnodes, -, hlayout, hmarker⟩ := hread
  have hworkspace : workspace = workspace' := by
    cases workspace <;> cases workspace' <;> first | rfl | cases hmarker
  subst hworkspace
  have hordered := hbuild'.mapM_restoreNode workspace
  rw [hnodes, hbuild.mapM_restoreNode, Except.ok.injEq] at hordered
  refine ⟨hlayout.symm, rfl, build.dag.orderedNodes_perm.symm.trans ?_⟩
  rw [hordered]
  exact build'.dag.orderedNodes_perm

end Valid

/-- The stored contract of a build is read back as the build, up to the order of its nodes, and
builds that differ have different contracts. -/
theorem sequential_contract_reads_back [Platform] {build : SequentialDagBuild} (hmade : build.Made) :
    (∃ restored, restoreContract build.header build.contract = .ok restored ∧
      restored.layout = build.layout ∧ restored.workspaceTransfer = build.workspaceTransfer ∧
      restored.dag.nodes.Perm build.dag.nodes) ∧
    ∀ other : SequentialDagBuild, other.Made → other.contract = build.contract →
      other.layout = build.layout ∧ other.workspaceTransfer = build.workspaceTransfer ∧
        other.dag.nodes.Perm build.dag.nodes := by
  obtain ⟨plain, workspace, hvalid, rfl⟩ := hmade.exists_valid
  constructor
  · have hordered : plain.ordered.Valid :=
      valid_of_new (hvalid.new_of_perm plain.dag.orderedNodes_perm)
    refine ⟨plain.ordered.offering workspace, ?_, ?_, ?_, ?_⟩
    · rw [offering_header]
      exact hvalid.restoreContract_offering workspace
    · rw [offering_layout, offering_layout]
      rfl
    · rw [hordered.offering_workspaceTransfer, hvalid.offering_workspaceTransfer]
    · rw [hordered.offering_nodes, hvalid.offering_nodes]
      exact plain.dag.orderedNodes_perm.map _
  · intro other hother heq
    obtain ⟨plain', workspace', hvalid', rfl⟩ := hother.exists_valid
    obtain ⟨hlayout, hworkspace, hnodes⟩ := hvalid'.eq_of_contract hvalid heq
    subst hworkspace
    refine ⟨?_, ?_, ?_⟩
    · rw [offering_layout, offering_layout, hlayout]
    · rw [hvalid.offering_workspaceTransfer, hvalid'.offering_workspaceTransfer]
    · rw [hvalid.offering_nodes, hvalid'.offering_nodes]
      exact hnodes.map _

namespace Sample

/-- A step of the shell. -/
def shellNode (nodeKey : String) (dependencies : List DagDependency) (script : String) : NewDagNode :=
  ⟨nodeKey, .work, dependencies, [], "linux", "migration-deny-authority", 0, shellSpec script, false,
    1⟩

/-- Two stages, the second of them given first. -/
def stages : NewDagBuild :=
  { NewDagBuild.Sample.diamond with
    nodes := [shellNode "test" [⟨"compile", .succeeded⟩] "make test", shellNode "compile" [] "make"] }

/-- The layout of the stages. -/
def stagesLayout : List SequentialStepLayout :=
  [⟨"compile", "build", "Build", 1, 1, 1⟩, ⟨"test", "check", "Check", 2, 1, 2⟩]

end Sample

open Sample NewDagBuild.Sample in
/-- Two stages with workspace transfer are restored. -/
theorem stages_read_back : ∃ restored, @restoreContract offline
        (SequentialDagBuild.mk stages stagesLayout false).withWorkspaceTransfer.header
        (SequentialDagBuild.mk stages stagesLayout false).withWorkspaceTransfer.contract =
          .ok restored ∧ restored.layout = stagesLayout := by
  have hmade :
      @Made offline (SequentialDagBuild.mk stages stagesLayout false).withWorkspaceTransfer :=
    ⟨stages, stagesLayout, ⟨stages, stagesLayout, false⟩, by decide +kernel, .inr rfl⟩
  obtain ⟨⟨restored, hok, hlayout, -⟩, -⟩ := @sequential_contract_reads_back offline _ hmade
  exact ⟨restored, hok, hlayout⟩

end SequentialDagBuild

end McLoving
