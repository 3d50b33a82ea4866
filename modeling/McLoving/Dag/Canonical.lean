import McLoving.Dag.Acyclic
import McLoving.Lib.OrderedMap
import Mathlib.Algebra.BigOperators.Group.List.Basic

/-!
# Normal forms of contracts

The contract that is stored with a build decides whether a replay is honoured.  For accepted builds
it stands for their priority, their notification targets and the set of their nodes, and for nothing
else.
-/

namespace McLoving

open List Json

/-- Two lists in a strict order with the same members are equal. -/
theorem eq_of_pairwise_of_mem_iff {α : Type*} {r : α → α → Prop} (hasymm : ∀ a b, r a b → ¬ r b a)
    {l l' : List α} (hl : l.Pairwise r) (hl' : l'.Pairwise r) (hmem : ∀ a, a ∈ l ↔ a ∈ l') :
    l = l' := by
  have hnodup {m : List α} (hm : m.Pairwise r) : m.Nodup := by
    refine hm.imp ?_
    rintro a _ hr rfl
    exact hasymm a a hr hr
  exact ((perm_ext_iff_of_nodup (hnodup hl) (hnodup hl')).mpr hmem).eq_of_pairwise
    (fun a b _ _ hr hr' => absurd hr' (hasymm a b hr)) hl hl'

/-- A list sorted by its keys, which are different, is in their strict order. -/
theorem pairwise_lt_of_le {α : Type*} {key : α → String} {l l' : List α} (hperm : l.Perm l')
    (hkeys : (l'.map key).Nodup) {r : α → α → Prop} (hr : ∀ a b, r a b → key a ≤ key b)
    (hsorted : l.Pairwise r) : l.Pairwise fun a b => key a < key b := by
  have hdistinct := pairwise_map.mp ((hperm.map key).nodup_iff.mpr hkeys)
  exact hsorted.imp₂ (fun a b hab hne => lt_of_le_of_ne (hr a b hab) hne) hdistinct

theorem DependencyCondition.asStr_inj {condition condition' : DependencyCondition} :
    condition.asStr = condition'.asStr ↔ condition = condition' := by
  cases condition <;> cases condition' <;> decide

theorem DagNodeKind.asStr_inj {kind kind' : DagNodeKind} :
    kind.asStr = kind'.asStr ↔ kind = kind' := by
  cases kind <;> cases kind' <;> decide

/-! ## Nodes -/

namespace NewDagNode

/-- The nodes mean the same: the order of dependencies and capabilities is left open, and the
capabilities are compared with those of the platforms. -/
structure Same (node node' : NewDagNode) : Prop where
  nodeKey : node.nodeKey = node'.nodeKey
  kind : node.kind = node'.kind
  dependencies : ∀ d, d ∈ node.dependencies ↔ d ∈ node'.dependencies
  capabilities : ∀ capability,
    capability ∈ node.requiredCapabilities ++ [platformCapability node.requiredPlatform] ↔
      capability ∈ node'.requiredCapabilities ++ [platformCapability node'.requiredPlatform]
  trustPool : node.requiredTrustPool = node'.requiredTrustPool
  priority : node.priority = node'.priority
  executionSpec : node.executionSpec = node'.executionSpec
  failFast : node.failFast = node'.failFast
  maxAttempts : node.maxAttempts = node'.maxAttempts

/-- What the contract takes for granted of a node: its dependencies are on different nodes, and its
capabilities are texts. -/
structure Regular (node : NewDagNode) : Prop where
  parents : (node.dependencies.map DagDependency.nodeKey).Nodup
  capabilities : ∀ capability ∈ node.requiredCapabilities, TextChars capability

/-- The dependencies as the contract lists them. -/
def orderedDependencies (node : NewDagNode) : List DagDependency :=
  node.dependencies.insertionSort fun left right =>
    left.nodeKey < right.nodeKey ∨
      (left.nodeKey = right.nodeKey ∧ left.condition.asStr ≤ right.condition.asStr)

variable {node node' : NewDagNode}

theorem Regular.pairwise_orderedDependencies (hnode : node.Regular) :
    node.orderedDependencies.Pairwise fun a b => a.nodeKey < b.nodeKey := by
  have htotal : Std.Total fun left right : DagDependency => left.nodeKey < right.nodeKey ∨
      (left.nodeKey = right.nodeKey ∧ left.condition.asStr ≤ right.condition.asStr) := by
    refine ⟨fun left right => ?_⟩
    rcases lt_trichotomy left.nodeKey right.nodeKey with hlt | heq | hgt
    · exact .inl (.inl hlt)
    · exact (le_total left.condition.asStr right.condition.asStr).imp
        (fun hle => .inr ⟨heq, hle⟩) fun hge => .inr ⟨heq.symm, hge⟩
    · exact .inr (.inl hgt)
  have htrans : IsTrans DagDependency fun left right => left.nodeKey < right.nodeKey ∨
      (left.nodeKey = right.nodeKey ∧ left.condition.asStr ≤ right.condition.asStr) := by
    refine ⟨fun a b c hab hbc => ?_⟩
    rcases hab with hab | ⟨hab, hab'⟩ <;> rcases hbc with hbc | ⟨hbc, hbc'⟩
    · exact .inl (hab.trans hbc)
    · exact .inl (hbc ▸ hab)
    · exact .inl (hab ▸ hbc)
    · exact .inr ⟨hab.trans hbc, hab'.trans hbc'⟩
  exact pairwise_lt_of_le (perm_insertionSort _ _) hnode.parents
    (fun a b hab => hab.elim le_of_lt fun heq => heq.1.le) (pairwise_insertionSort _ _)

theorem pairwise_capabilities (node : NewDagNode) : node.capabilities.Pairwise (· < ·) := by
  have hsorted := (pairwise_insertionSort (· ≤ ·) (node.requiredCapabilities ++
    [platformCapability node.requiredPlatform])).sublist (dedup_sublist _)
  exact hsorted.imp₂ (fun _ _ => lt_of_le_of_ne) (nodup_dedup _)

theorem mem_capabilities {capability : String} : capability ∈ node.capabilities ↔
      capability ∈ node.requiredCapabilities ++ [platformCapability node.requiredPlatform] := by
  rw [capabilities, mem_dedup, mem_insertionSort]

/-- Nodes with the same capabilities have the same platform: a colon stands in no other capability.
-/
theorem Same.requiredPlatform (hsame : node.Same node') (hnode' : node'.Regular) :
    node.requiredPlatform = node'.requiredPlatform := by
  have hmem := (hsame.capabilities (platformCapability node.requiredPlatform)).mp (by simp)
  rw [mem_append, mem_singleton] at hmem
  rcases hmem with hmem | heq
  · have hcolon : ':' ∈ (platformCapability node.requiredPlatform).toList := by
      simp [platformCapability, platformCapabilityPrefix]
    exact absurd hcolon ((hnode'.capabilities _ hmem).notMem (by decide))
  · have hchars := congrArg String.toList heq
    simpa [platformCapability, String.toList_append, String.toList_inj] using hchars

/-- The JSON forms of two nodes are equal exactly if the nodes mean the same. -/
theorem toJson_eq_iff (hnode : node.Regular) (hnode' : node'.Regular) :
    node.toJson = node'.toJson ↔ node.Same node' := by
  have hfields : node.toJson = node'.toJson ↔ node.orderedDependencies.map DagDependency.toJson =
          node'.orderedDependencies.map DagDependency.toJson ∧
        node.executionSpec = node'.executionSpec ∧ node.failFast = node'.failFast ∧
        node.kind.asStr = node'.kind.asStr ∧ node.maxAttempts = node'.maxAttempts ∧
        node.nodeKey = node'.nodeKey ∧ node.priority = node'.priority ∧
        node.capabilities.map str = node'.capabilities.map str ∧
        node.requiredPlatform = node'.requiredPlatform ∧
        node.requiredTrustPool = node'.requiredTrustPool := by
    simp [toJson, orderedDependencies]
  have hdependency : Function.Injective DagDependency.toJson := by
    rintro ⟨key, condition⟩ ⟨key', condition'⟩ heq
    simpa [DagDependency.toJson, DependencyCondition.asStr_inj, and_comm] using heq
  have hdependencies : node.orderedDependencies = node'.orderedDependencies ↔
      ∀ d, d ∈ node.dependencies ↔ d ∈ node'.dependencies := by
    have hmem (n : NewDagNode) (d : DagDependency) :
        d ∈ n.orderedDependencies ↔ d ∈ n.dependencies := mem_insertionSort _
    simp only [← hmem]
    exact ⟨fun heq d => by rw [heq], eq_of_pairwise_of_mem_iff (fun _ _ hlt => hlt.asymm)
      hnode.pairwise_orderedDependencies hnode'.pairwise_orderedDependencies⟩
  have hcapabilities : node.capabilities = node'.capabilities ↔ ∀ capability,
      capability ∈ node.requiredCapabilities ++ [platformCapability node.requiredPlatform] ↔
        capability ∈ node'.requiredCapabilities ++ [platformCapability node'.requiredPlatform] := by
    simp only [← mem_capabilities]
    exact ⟨fun heq capability => by rw [heq], eq_of_pairwise_of_mem_iff (fun _ _ hlt => hlt.asymm)
      node.pairwise_capabilities node'.pairwise_capabilities⟩
  have hstr : Function.Injective Json.str := fun _ _ heq => Json.str.inj heq
  rw [hfields, (map_injective_iff.mpr hdependency).eq_iff,
    (map_injective_iff.mpr hstr).eq_iff, hdependencies, hcapabilities, DagNodeKind.asStr_inj]
  constructor
  · rintro ⟨hd, hspec, hfast, hkind, hattempts, hkey, hpriority, hc, -, hpool⟩
    exact ⟨hkey, hkind, hd, hc, hpool, hpriority, hspec, hfast, hattempts⟩
  · intro hsame
    exact ⟨hsame.dependencies, hsame.executionSpec, hsame.failFast, hsame.kind, hsame.maxAttempts,
      hsame.nodeKey, hsame.priority, hsame.capabilities, hsame.requiredPlatform hnode',
      hsame.trustPool⟩

end NewDagNode

/-! ## Builds -/

namespace NewDagBuild

/-- The notification targets; an empty array stands for none. -/
def targets (input : NewDagBuild) : Option Json :=
  match input.notifyTargets with
  | .arr (_ :: _) => some input.notifyTargets
  | _ => none

/-- The builds have the same set of nodes. -/
def SameNodes (input input' : NewDagBuild) : Prop :=
  (∀ node ∈ input.nodes, ∃ node' ∈ input'.nodes, node.Same node') ∧
    ∀ node' ∈ input'.nodes, ∃ node ∈ input.nodes, node.Same node'

/-- The nodes have different keys and are regular. -/
structure Regular (input : NewDagBuild) : Prop where
  keys : (input.nodes.map NewDagNode.nodeKey).Nodup
  node : ∀ node ∈ input.nodes, node.Regular

/-- The nodes as the contract lists them. -/
def orderedNodes (input : NewDagBuild) : List NewDagNode :=
  input.nodes.insertionSort fun left right => left.nodeKey ≤ right.nodeKey

variable {input input' : NewDagBuild}

theorem Regular.pairwise_orderedNodes (hinput : input.Regular) :
    input.orderedNodes.Pairwise fun a b => a.nodeKey < b.nodeKey :=
  pairwise_lt_of_le (perm_insertionSort _ _) hinput.keys (fun _ _ => id)
    (Table.pairwise_sort NewDagNode.nodeKey _)

/-- The listed nodes of two builds are equal exactly if the builds have the same set of nodes. -/
theorem Regular.nodes_eq_iff (hinput : input.Regular) (hinput' : input'.Regular) :
    input.orderedNodes.map NewDagNode.toJson = input'.orderedNodes.map NewDagNode.toJson ↔
      input.SameNodes input' := by
  have hmem (build : NewDagBuild) (node : NewDagNode) :
      node ∈ build.orderedNodes ↔ node ∈ build.nodes := mem_insertionSort _
  constructor
  · intro heq
    refine ⟨fun node hnode => ?_, fun node' hnode' => ?_⟩
    · have hlisted := mem_map_of_mem (f := NewDagNode.toJson) ((hmem input node).mpr hnode)
      rw [heq] at hlisted
      obtain ⟨node', hnode', hjson⟩ := mem_map.mp hlisted
      rw [hmem] at hnode'
      exact ⟨node', hnode', (NewDagNode.toJson_eq_iff (hinput.node node hnode)
        (hinput'.node node' hnode')).mp hjson.symm⟩
    · have hlisted := mem_map_of_mem (f := NewDagNode.toJson) ((hmem input' node').mpr hnode')
      rw [← heq] at hlisted
      obtain ⟨node, hnode, hjson⟩ := mem_map.mp hlisted
      rw [hmem] at hnode
      exact ⟨node, hnode, (NewDagNode.toJson_eq_iff (hinput.node node hnode)
        (hinput'.node node' hnode')).mp hjson⟩
  · rintro ⟨hforth, hback⟩
    -- Listed with their keys, the JSON forms are in strict order, so their set decides.
    have hpairs : input.orderedNodes.map (fun node => (node.nodeKey, node.toJson)) =
        input'.orderedNodes.map fun node => (node.nodeKey, node.toJson) := by
      refine eq_of_pairwise_of_mem_iff (r := fun a b => a.1 < b.1) (fun _ _ hlt => hlt.asymm)
        (pairwise_map.mpr hinput.pairwise_orderedNodes)
        (pairwise_map.mpr hinput'.pairwise_orderedNodes) fun entry => ?_
      simp only [mem_map, hmem]
      constructor
      · rintro ⟨node, hnode, rfl⟩
        obtain ⟨node', hnode', hsame⟩ := hforth node hnode
        exact ⟨node', hnode', by rw [hsame.nodeKey, (NewDagNode.toJson_eq_iff
          (hinput.node node hnode) (hinput'.node node' hnode')).mpr hsame]⟩
      · rintro ⟨node', hnode', rfl⟩
        obtain ⟨node, hnode, hsame⟩ := hback node' hnode'
        exact ⟨node, hnode, by rw [hsame.nodeKey, (NewDagNode.toJson_eq_iff
          (hinput.node node hnode) (hinput'.node node' hnode')).mpr hsame]⟩
    have hjson := congrArg (List.map Prod.snd) hpairs
    rwa [map_map, map_map] at hjson

theorem contractFields_eq_targets (input : NewDagBuild) :
    input.contractFields = ("nodes", .arr (input.orderedNodes.map NewDagNode.toJson)) ::
      ((input.targets.map fun targets => ("notify_targets", targets)).toList ++
        [("priority", .num input.priority), ("version", .num 1)]) := by
  unfold contractFields targets
  generalize input.notifyTargets = value
  rcases value with _ | _ | _ | _ | ⟨_ | _⟩ | _ <;> rfl

/-- The contracts of two regular builds are equal exactly if they have the same priority, targets
and set of nodes. -/
theorem Regular.normalizedContract_eq_iff (hinput : input.Regular) (hinput' : input'.Regular) :
    input.normalizedContract = input'.normalizedContract ↔
      input.priority = input'.priority ∧ input.targets = input'.targets ∧
        input.SameNodes input' := by
  rw [← hinput.nodes_eq_iff hinput', normalizedContract, normalizedContract,
    contractFields_eq_targets, contractFields_eq_targets]
  rcases input.targets with _ | targets <;> rcases input'.targets with _ | targets'
  · simp [and_comm]
  · simp
  · simp
  · simp [and_comm, and_assoc]

theorem regular_of_validateContract [Platform] (hok : input.validateContract = .ok ()) :
    input.Regular := by
  have hbounds := withinBounds_of_validateContract hok
  exact ⟨hbounds.keys, fun node hmem => ⟨hbounds.parents node hmem, fun capability hcapability =>
    textChars_of_validateText ((hbounds.node node hmem).capability capability hcapability)⟩⟩

end NewDagBuild

/-- The second node is the first with its dependencies and capabilities in another order. -/
def NewDagNode.Reordered (node node' : NewDagNode) : Prop :=
  node' = { node with
      dependencies := node'.dependencies
      requiredCapabilities := node'.requiredCapabilities } ∧
    node.dependencies.Perm node'.dependencies ∧
    node.requiredCapabilities.Perm node'.requiredCapabilities

theorem NewDagNode.Reordered.same {node node' : NewDagNode} (hnode : node.Reordered node') :
    node'.Same node := by
  obtain ⟨heq, hdependencies, hcapabilities⟩ := hnode
  rw [heq]
  refine ⟨rfl, rfl, fun d => hdependencies.mem_iff.symm, fun capability => ?_, rfl, rfl, rfl, rfl,
    rfl⟩
  rw [mem_append, mem_append, hcapabilities.mem_iff]

/-- The contracts of two accepted builds are equal exactly if the builds have the same priority, the
same notification targets and the same set of nodes.  Putting nodes, dependencies or capabilities of
an accepted build in another order does not change its contract. -/
theorem normalizedContract_is_canonical [Platform] (input input' : NewDagBuild)
    (hok : input.validateContract = .ok ()) (hok' : input'.validateContract = .ok ()) :
    (input.normalizedContract = input'.normalizedContract ↔
      input.priority = input'.priority ∧ input.targets = input'.targets ∧ input.SameNodes input') ∧
    ∀ (reorder : NewDagNode → NewDagNode) (nodes : List NewDagNode),
      (∀ node ∈ input.nodes, node.Reordered (reorder node)) →
      nodes.Perm (input.nodes.map reorder) →
      ({ input with nodes } : NewDagBuild).normalizedContract = input.normalizedContract := by
  have hregular := NewDagBuild.regular_of_validateContract hok
  refine ⟨hregular.normalizedContract_eq_iff (NewDagBuild.regular_of_validateContract hok'),
    fun reorder nodes hreorder hperm => ?_⟩
  have hmem_iff : ∀ node', node' ∈ nodes ↔ ∃ node ∈ input.nodes, reorder node = node' := by
    intro node'
    rw [hperm.mem_iff, mem_map]
  have hkeys : (input.nodes.map reorder).map NewDagNode.nodeKey =
      input.nodes.map NewDagNode.nodeKey := by
    rw [map_map]
    exact map_congr_left fun node hmem => (hreorder node hmem).same.nodeKey
  have hregular' : ({ input with nodes } : NewDagBuild).Regular := by
    refine ⟨(hperm.map _).nodup_iff.mpr (hkeys ▸ hregular.keys), fun node' hmem' => ?_⟩
    obtain ⟨node, hmem, rfl⟩ := (hmem_iff node').mp hmem'
    obtain ⟨-, hdependencies, hcapabilities⟩ := hreorder node hmem
    obtain ⟨hparents, htexts⟩ := hregular.node node hmem
    exact ⟨(hdependencies.map _).nodup_iff.mp hparents,
      fun capability hcapability => htexts capability (hcapabilities.mem_iff.mpr hcapability)⟩
  refine (hregular'.normalizedContract_eq_iff hregular).mpr ⟨rfl, rfl, fun node' hmem' => ?_,
    fun node hmem => ?_⟩
  · obtain ⟨node, hmem, rfl⟩ := (hmem_iff node').mp hmem'
    exact ⟨node, hmem, (hreorder node hmem).same⟩
  · exact ⟨reorder node, (hmem_iff _).mpr ⟨node, hmem, rfl⟩, (hreorder node hmem).same⟩

open NewDagBuild.Sample in
/-- The diamond with its nodes in the opposite order has the same contract. -/
theorem diamond_reversed_has_same_contract :
    @NewDagBuild.validateContract offline diamond = .ok () ∧
      ({ diamond with nodes := diamond.nodes.reverse } : NewDagBuild).normalizedContract =
        diamond.normalizedContract := by
  have hok : @NewDagBuild.validateContract offline diamond = .ok () := by decide +kernel
  refine ⟨hok, (@normalizedContract_is_canonical offline diamond diamond hok hok).2 id _
    (fun node _ => ⟨rfl, .rfl, .rfl⟩) ?_⟩
  rw [map_id]
  exact reverse_perm _

end McLoving
