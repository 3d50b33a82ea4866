import McLoving.Dag.Contract
import McLoving.Lib.Except
import Mathlib.Data.List.Nodup

/-!
# What contract validation accepts

A contract that passes validation has distinct node keys, trimmed trust pools, and dependencies that
name other nodes of the contract, none twice.  The walk at the end of the validation visits every
node exactly when no node depends on itself, through whatever chain of dependencies.
-/

namespace McLoving

open List Except

/-- A trust pool that admission accepts: it is not blank and has no white space around it. -/
def TrustPoolAllowed (pool : String) : Prop :=
  (trim pool).isEmpty = false ∧ trim pool = pool

theorem trim_eq_self {text : String} (hplain : ∀ c ∈ text.toList, isWhitespace c = false) :
    trim text = text := by
  have hkeeps {l : List Char} (hl : ∀ c ∈ l, isWhitespace c = false) :
      l.dropWhile isWhitespace = l := by
    cases l with
    | nil => rfl
    | cons c => simp [hl c (by simp)]
  have hreverse : ∀ c ∈ text.toList.reverse, isWhitespace c = false :=
    fun c hmem => hplain c (mem_reverse.mp hmem)
  rw [trim, hkeeps hplain, hkeeps hreverse, reverse_reverse, String.ofList_toList]

/-- The characters of a contract's texts are not white space. -/
theorem isWhitespace_of_textChar {c : Char}
    (hchar : (isAsciiAlphanumeric c || ['.', '_', '-'].contains c) = true) :
    isWhitespace c = false := by
  simp only [isAsciiAlphanumeric, Bool.or_eq_true, Bool.and_eq_true, decide_eq_true_eq,
    contains_iff_mem, mem_cons, not_mem_nil, or_false] at hchar
  rcases hchar with ((⟨hlow, hhigh⟩ | ⟨hlow, hhigh⟩) | ⟨hlow, hhigh⟩) | rfl | rfl | rfl
  case inr.inl => decide
  case inr.inr.inl => decide
  case inr.inr.inr => decide
  all_goals
    simp only [Char.le_def, UInt32.le_iff_toNat_le] at hlow hhigh
    simp [isWhitespace, UInt32.le_iff_toNat_le, ← UInt32.toNat_inj] at hlow hhigh ⊢
    omega

/-- The characters of a text that `validate_text` accepts. -/
def TextChars (text : String) : Prop :=
  ∀ c ∈ text.toList, (isAsciiAlphanumeric c || ['.', '_', '-'].contains c) = true

theorem textChars_of_validateText {path value : String} (hok : validateText path value = .ok ()) :
    TextChars value := by
  unfold validateText validateChars at hok
  split_ifs at hok with hbad
  simp only [Bool.or_eq_true, not_or, Bool.not_eq_true, Bool.not_eq_false'] at hbad
  exact all_eq_true.mp hbad.2

theorem TextChars.notMem {text : String} (htext : TextChars text) {c : Char}
    (hc : (isAsciiAlphanumeric c || ['.', '_', '-'].contains c) = false) : c ∉ text.toList := by
  intro hmem
  rw [htext c hmem] at hc
  cases hc

theorem trustPoolAllowed_of_validateText {path value : String}
    (hok : validateText path value = .ok ()) : TrustPoolAllowed value := by
  have htrim : trim value = value :=
    trim_eq_self fun c hmem => isWhitespace_of_textChar (textChars_of_validateText hok c hmem)
  unfold validateText validateChars at hok
  split_ifs at hok with hbad
  simp only [Bool.or_eq_true, not_or, Bool.not_eq_true] at hbad
  exact ⟨by rw [htrim]; exact hbad.1.1, htrim⟩

/-! ## Keys and dependencies -/

/-- What validation establishes about a contract. -/
structure NewDagBuild.Accepted (input : NewDagBuild) : Prop where
  keys : (input.nodes.map NewDagNode.nodeKey).Nodup
  pool : ∀ node ∈ input.nodes, TrustPoolAllowed node.requiredTrustPool
  parent : ∀ node ∈ input.nodes, ∀ d ∈ node.dependencies,
    d.nodeKey ∈ input.nodes.map NewDagNode.nodeKey ∧ d.nodeKey ≠ node.nodeKey
  parents : ∀ node ∈ input.nodes, (node.dependencies.map DagDependency.nodeKey).Nodup

variable {keys : List String} {edges answer : ℕ}

section Checks

variable {nodes : List NewDagNode} {node : NewDagNode} {dependencies : List DagDependency}
variable {nodeKey : String} {seen : List String}

/-- The first pass collects distinct keys in front of the ones it started from. -/
theorem validateNodeKeys_eq_ok (hok : validateNodeKeys nodes seen = .ok keys) (hseen : seen.Nodup) :
    keys.Nodup ∧ keys = (nodes.map NewDagNode.nodeKey).reverse ++ seen := by
  induction nodes generalizing seen with
  | nil => exact Except.ok.inj hok ▸ ⟨hseen, rfl⟩
  | cons node _ ih =>
    obtain ⟨-, -, hok⟩ := bind_eq_ok.mp hok
    split at hok
    · cases hok
    next hfresh =>
    have hnodup : (node.nodeKey :: seen).Nodup := nodup_cons.mpr ⟨by simpa using hfresh, hseen⟩
    obtain ⟨hkeys, heq⟩ := ih hok hnodup
    exact ⟨hkeys, by simpa using heq⟩

/-- The dependencies of a node name other keys, none twice. -/
theorem validateDependencies_eq_ok {parents : List String}
    (hok : validateDependencies keys nodeKey dependencies parents edges = .ok answer) :
    (∀ d ∈ dependencies, d.nodeKey ∈ keys ∧ d.nodeKey ≠ nodeKey ∧ d.nodeKey ∉ parents) ∧
      (dependencies.map DagDependency.nodeKey).Nodup := by
  induction dependencies generalizing parents edges with
  | nil => exact ⟨fun d hmem => absurd hmem (by simp), nodup_nil⟩
  | cons _ _ ih =>
    rw [validateDependencies] at hok
    split at hok
    · cases hok
    split at hok
    · cases hok
    next hknown =>
    split at hok
    · cases hok
    next hnew =>
    obtain ⟨hrest, hnodup⟩ := ih hok
    simp only [Bool.or_eq_true, beq_iff_eq, contains_iff_mem, not_or] at hnew
    simp only [Bool.not_eq_true', Bool.not_eq_false, contains_iff_mem] at hknown
    refine ⟨?_, ?_⟩
    · rintro e (_ | ⟨_, hmem⟩)
      · exact ⟨hknown, hnew⟩
      · obtain ⟨hkey, hself, hfresh⟩ := hrest e hmem
        exact ⟨hkey, hself, fun h => hfresh (mem_cons_of_mem _ h)⟩
    · refine nodup_cons.mpr ⟨fun hmem => ?_, hnodup⟩
      obtain ⟨e, he, heq⟩ := mem_map.mp hmem
      exact (hrest e he).2.2 (heq ▸ mem_cons_self)

/-- What the second pass establishes about one node. -/
theorem validateNode_eq_ok (hok : validateNode keys node edges = .ok answer) :
    TrustPoolAllowed node.requiredTrustPool ∧
      (∀ d ∈ node.dependencies, d.nodeKey ∈ keys ∧ d.nodeKey ≠ node.nodeKey) ∧
      (node.dependencies.map DagDependency.nodeKey).Nodup := by
  obtain ⟨-, -, hok⟩ := bind_eq_ok.mp hok
  obtain ⟨⟨⟩, hpool, hok⟩ := bind_eq_ok.mp hok
  split at hok
  · cases hok
  obtain ⟨-, -, hok⟩ := bind_eq_ok.mp hok
  split_ifs at hok
  obtain ⟨hparents, hnodup⟩ := validateDependencies_eq_ok hok
  exact ⟨trustPoolAllowed_of_validateText hpool,
    fun d hd => ⟨(hparents d hd).1, (hparents d hd).2.1⟩, hnodup⟩

/-- What the second pass establishes about every node. -/
theorem validateNodes_eq_ok
    (hok : validateNodes keys nodes edges = .ok answer) (hmem : node ∈ nodes) :
    TrustPoolAllowed node.requiredTrustPool ∧
      (∀ d ∈ node.dependencies, d.nodeKey ∈ keys ∧ d.nodeKey ≠ node.nodeKey) ∧
      (node.dependencies.map DagDependency.nodeKey).Nodup := by
  induction nodes generalizing edges with
  | nil => cases hmem
  | cons _ _ ih =>
    obtain ⟨counted, hfirst, hrest⟩ := bind_eq_ok.mp hok
    rcases mem_cons.mp hmem with rfl | hmem
    · exact validateNode_eq_ok hfirst
    · exact ih hrest hmem

theorem NewDagBuild.accepted_of_checkContract [Platform] {input : NewDagBuild}
    (hok : input.checkContract = .ok ()) : input.Accepted := by
  unfold checkContract at hok
  split at hok
  swap
  · cases hok
  next hvalid =>
  unfold validateContract at hvalid
  obtain ⟨-, -, hvalid⟩ := bind_eq_ok.mp hvalid
  obtain ⟨-, -, hvalid⟩ := bind_eq_ok.mp hvalid
  split at hvalid
  · cases hvalid
  obtain ⟨keys, hkeys, hvalid⟩ := bind_eq_ok.mp hvalid
  obtain ⟨edges, hnodes, -⟩ := bind_eq_ok.mp hvalid
  obtain ⟨hnodup, heq⟩ := validateNodeKeys_eq_ok hkeys nodup_nil
  rw [append_nil] at heq
  subst heq
  rw [nodup_reverse] at hnodup
  refine ⟨hnodup, fun node hmem => (validateNodes_eq_ok hnodes hmem).1, ?_,
    fun node hmem => (validateNodes_eq_ok hnodes hmem).2.2⟩
  intro node hmem d hd
  obtain ⟨hkey, hself⟩ := (validateNodes_eq_ok hnodes hmem).2.1 d hd
  exact ⟨mem_reverse.mp hkey, hself⟩

/-! ## The stored contract -/

/-- The node keys that a stored contract lists. -/
def Json.contractKeys (contract : Json) : List String :=
  (((contract.get "nodes").bind Json.asArray).getD []).filterMap (Json.textField "node_key")

/-- The members of a contract begin with its nodes. -/
theorem NewDagBuild.contractFields_eq (input : NewDagBuild) : ∃ rest, input.contractFields =
      ("nodes", .arr ((input.nodes.insertionSort fun left right =>
        left.nodeKey ≤ right.nodeKey).map NewDagNode.toJson)) :: rest ∧ rest ≠ [] ∧
      rest.lookup "sequential_layout" = none := by
  unfold contractFields
  split
  · exact ⟨_, rfl, by simp, rfl⟩
  · exact ⟨_, rfl, by simp, rfl⟩

theorem NewDagBuild.contractKeys_perm (input : NewDagBuild) (rest : List (String × Json)) :
    (Json.obj (("nodes", .arr ((input.nodes.insertionSort fun left right =>
        left.nodeKey ≤ right.nodeKey).map NewDagNode.toJson)) :: rest)).contractKeys.Perm
      (input.nodes.map NewDagNode.nodeKey) := by
  have hkey (node : NewDagNode) : node.toJson.textField "node_key" = some node.nodeKey := rfl
  have hkeys (nodes : List NewDagNode) :
      (nodes.map NewDagNode.toJson).filterMap (Json.textField "node_key") =
        nodes.map NewDagNode.nodeKey := by
    rw [filterMap_map, ← filterMap_eq_map]
    exact congrArg (List.filterMap · nodes) (funext hkey)
  have heq : (Json.obj (("nodes", .arr ((input.nodes.insertionSort fun left right =>
      left.nodeKey ≤ right.nodeKey).map NewDagNode.toJson)) :: rest)).contractKeys =
      (input.nodes.insertionSort fun left right => left.nodeKey ≤ right.nodeKey).map
        NewDagNode.nodeKey := hkeys _
  rw [heq]
  exact (perm_insertionSort _ _).map _

/-- The normalized contract lists the keys of its nodes and has no layout. -/
theorem NewDagBuild.normalizedContract_spec (input : NewDagBuild) :
    input.normalizedContract.contractKeys.Perm (input.nodes.map NewDagNode.nodeKey) ∧
      input.normalizedContract.get "sequential_layout" = none := by
  obtain ⟨rest, heq, -, hlayout⟩ := input.contractFields_eq
  rw [normalizedContract, heq]
  refine ⟨input.contractKeys_perm rest, ?_⟩
  rw [Json.get, lookup_cons, hlayout]
  rfl

theorem SequentialDagBuild.contractKeys_perm (build : SequentialDagBuild) :
    build.contract.contractKeys.Perm (build.dag.nodes.map NewDagNode.nodeKey) := by
  obtain ⟨rest, heq, hne, -⟩ := build.dag.contractFields_eq
  rw [contract, heq, dropLast_cons_of_ne_nil hne, cons_append, cons_append]
  exact build.dag.contractKeys_perm _

/-! ## Bounds -/

/-- Whether a text is accepted does not depend on the path it is reported under. -/
theorem validateChars_of_ok {allowed : Char → Bool} {message path value : String} (path' : String)
    (hok : validateChars allowed message path value = .ok ()) :
    validateChars allowed message path' value = .ok () := by
  unfold validateChars at hok ⊢
  split_ifs at hok ⊢ with hbad
  rfl

/-- The bounds of a node, apart from those on the keys of its dependencies. -/
structure NewDagNode.WithinBounds (node : NewDagNode) : Prop where
  key : validateNodeKey "" node.nodeKey = .ok ()
  platform : validateText "" node.requiredPlatform = .ok ()
  trustPool : validateText "" node.requiredTrustPool = .ok ()
  capabilities_length : node.requiredCapabilities.length ≤ maxDagCapabilities
  capability : ∀ capability ∈ node.requiredCapabilities, validateText "" capability = .ok ()
  capabilities_nodup : node.requiredCapabilities.Nodup
  attempts : 1 ≤ node.maxAttempts ∧ node.maxAttempts ≤ 16
  spec : node.executionSpec.render.utf8ByteSize ≤ maxExecutionSpecBytes
  platformCapability : ∀ capability ∈ node.requiredCapabilities,
    platformCapabilityPrefix.toList <+: capability.toList →
      capability = McLoving.platformCapability node.requiredPlatform
  join : node.kind = .join → 2 ≤ node.dependencies.length
  post : node.kind = .post →
    node.dependencies ≠ [] ∧ ∀ d ∈ node.dependencies, d.condition = .completed

/-- What validation asks of a contract apart from cycles. -/
structure NewDagBuild.WithinBounds [Platform] (input : NewDagBuild) : Prop where
  idempotencyKey : validateText "" input.idempotencyKey = .ok ()
  notifyTargets : validateNotifyTargets input.notifyTargets = .ok ()
  nodes_ne_nil : input.nodes ≠ []
  nodes_length : input.nodes.length ≤ maxDagNodes
  node : ∀ node ∈ input.nodes, node.WithinBounds
  keys : (input.nodes.map NewDagNode.nodeKey).Nodup
  edges : (input.nodes.map fun node => node.dependencies.length).sum ≤ maxDagEdges
  parent : ∀ node ∈ input.nodes, ∀ d ∈ node.dependencies,
    d.nodeKey ∈ input.nodes.map NewDagNode.nodeKey ∧ d.nodeKey ≠ node.nodeKey
  parents : ∀ node ∈ input.nodes, (node.dependencies.map DagDependency.nodeKey).Nodup

theorem validateNodeKeys_of_nodup (hkeys : ∀ node ∈ nodes, validateNodeKey "" node.nodeKey = .ok ())
    (hnodup : (nodes.map NewDagNode.nodeKey ++ seen).Nodup) :
    validateNodeKeys nodes seen = .ok ((nodes.map NewDagNode.nodeKey).reverse ++ seen) := by
  induction nodes generalizing seen with
  | nil => rfl
  | cons node _ ih =>
    rw [map_cons, cons_append] at hnodup
    obtain ⟨hfresh, -⟩ := nodup_cons.mp hnodup
    have hseen : seen.contains node.nodeKey = false := by
      simpa using fun hmem => hfresh (mem_append_right _ hmem)
    rw [validateNodeKeys]
    refine unit_bind_eq_ok.mpr ⟨validateChars_of_ok _ (hkeys node mem_cons_self), ?_⟩
    rw [hseen, if_neg (by simp), ih (fun other hmem => hkeys other (mem_cons_of_mem _ hmem))
      (perm_middle.nodup_iff.mpr hnodup)]
    simp

theorem validateCapabilities_of_nodup {path : String} {capabilities seen : List String}
    (htexts : ∀ capability ∈ capabilities, validateText "" capability = .ok ())
    (hnodup : (capabilities ++ seen).Nodup) :
    validateCapabilities path capabilities seen = .ok () := by
  induction capabilities generalizing seen with
  | nil => rfl
  | cons capability _ ih =>
    rw [cons_append] at hnodup
    obtain ⟨hfresh, -⟩ := nodup_cons.mp hnodup
    have hseen : seen.contains capability = false := by
      simpa using fun hmem => hfresh (mem_append_right _ hmem)
    rw [validateCapabilities]
    refine unit_bind_eq_ok.mpr ⟨validateChars_of_ok _ (htexts capability mem_cons_self), ?_⟩
    rw [hseen, if_neg (by simp)]
    exact ih (fun other hmem => htexts other (mem_cons_of_mem _ hmem))
      (perm_middle.nodup_iff.mpr hnodup)

theorem validateDependencies_of_nodup
    {parents : List String} (hparent : ∀ d ∈ dependencies, d.nodeKey ∈ keys ∧ d.nodeKey ≠ nodeKey)
    (hnodup : (dependencies.map DagDependency.nodeKey ++ parents).Nodup)
    (hedges : edges + dependencies.length ≤ maxDagEdges) :
    validateDependencies keys nodeKey dependencies parents edges =
      .ok (edges + dependencies.length) := by
  induction dependencies generalizing parents edges with
  | nil => rfl
  | cons d _ ih =>
    rw [map_cons, cons_append] at hnodup
    obtain ⟨hfresh, -⟩ := nodup_cons.mp hnodup
    obtain ⟨hknown, hother⟩ := hparent d mem_cons_self
    have hnew : d.nodeKey ∉ parents := fun hmem => hfresh (mem_append_right _ hmem)
    rw [length_cons] at hedges
    rw [validateDependencies, if_neg (by omega), if_neg (by simpa using hknown),
      if_neg (by simp [hother, hnew]),
      ih (fun other hmem => hparent other (mem_cons_of_mem _ hmem))
        (perm_middle.nodup_iff.mpr hnodup) (by omega), length_cons]
    exact congrArg _ (by omega)

theorem NewDagNode.WithinBounds.validateNode_eq (hnode : node.WithinBounds)
    (hparent : ∀ d ∈ node.dependencies, d.nodeKey ∈ keys ∧ d.nodeKey ≠ node.nodeKey)
    (hparents : (node.dependencies.map DagDependency.nodeKey).Nodup)
    (hedges : edges + node.dependencies.length ≤ maxDagEdges) :
    validateNode keys node edges = .ok (edges + node.dependencies.length) := by
  have hcapabilities := @validateCapabilities_of_nodup
    s!"$.nodes.{node.nodeKey}.required_capabilities" _ [] hnode.capability
    (by rw [append_nil]; exact hnode.capabilities_nodup)
  have hmismatch : (node.requiredCapabilities.any fun capability =>
      platformCapabilityPrefix.toList.isPrefixOf capability.toList &&
        capability != McLoving.platformCapability node.requiredPlatform) = false := by
    rw [any_eq_false]
    intro capability hmem
    have := hnode.platformCapability capability hmem
    simpa using this
  have hjoin : ¬ (node.kind = .join ∧ node.dependencies.length < 2) := by
    rintro ⟨hkind, hlt⟩
    have := hnode.join hkind
    omega
  have hpost : ¬ (node.kind = .post ∧ (node.dependencies = [] ∨
      node.dependencies.any fun dependency => dependency.condition ≠ .completed)) := by
    rintro ⟨hkind, hbad⟩
    obtain ⟨hne, hcompleted⟩ := hnode.post hkind
    simp only [hne, false_or, any_eq_true, decide_eq_true_eq] at hbad
    obtain ⟨d, hmem, hcondition⟩ := hbad
    exact hcondition (hcompleted d hmem)
  rw [validateNode]
  refine unit_bind_eq_ok.mpr ⟨validateChars_of_ok _ hnode.platform, ?_⟩
  refine unit_bind_eq_ok.mpr ⟨validateChars_of_ok _ hnode.trustPool, ?_⟩
  rw [if_neg (by have := hnode.capabilities_length; omega)]
  refine unit_bind_eq_ok.mpr ⟨hcapabilities, ?_⟩
  rw [if_neg (not_not.mpr hnode.attempts), if_neg (by have := hnode.spec; omega), hmismatch,
    if_neg (by simp), if_neg hjoin, if_neg hpost]
  exact validateDependencies_of_nodup hparent (by rw [append_nil]; exact hparents) hedges

theorem validateNodes_of_withinBounds (hnodes : ∀ node ∈ nodes, node.WithinBounds)
    (hparent : ∀ node ∈ nodes, ∀ d ∈ node.dependencies, d.nodeKey ∈ keys ∧ d.nodeKey ≠ node.nodeKey)
    (hparents : ∀ node ∈ nodes, (node.dependencies.map DagDependency.nodeKey).Nodup)
    (hedges : edges + (nodes.map fun node => node.dependencies.length).sum ≤ maxDagEdges) :
    ∃ total, validateNodes keys nodes edges = .ok total := by
  induction nodes generalizing edges with
  | nil => exact ⟨edges, rfl⟩
  | cons node rest ih =>
    rw [map_cons, sum_cons] at hedges
    have hnode := mem_cons_self (a := node) (l := rest)
    rw [validateNodes, (hnodes node hnode).validateNode_eq (hparent node hnode)
      (hparents node hnode) (by omega)]
    exact ih (fun other hmem => hnodes other (mem_cons_of_mem _ hmem))
      (fun other hmem => hparent other (mem_cons_of_mem _ hmem))
      (fun other hmem => hparents other (mem_cons_of_mem _ hmem)) (by omega)

/-! ## What the checks establish -/

theorem validateNodeKeys_texts (hok : validateNodeKeys nodes seen = .ok keys) :
    ∀ node ∈ nodes, validateNodeKey "" node.nodeKey = .ok () := by
  induction nodes generalizing seen with
  | nil => exact fun node hmem => absurd hmem not_mem_nil
  | cons _ _ ih =>
    obtain ⟨hkey, hok⟩ := unit_bind_eq_ok.mp hok
    split_ifs at hok
    exact forall_mem_cons.mpr ⟨validateChars_of_ok _ hkey, ih hok⟩

theorem validateCapabilities_eq_ok {path : String} {capabilities seen : List String}
    (hok : validateCapabilities path capabilities seen = .ok ()) (hseen : seen.Nodup) :
    (∀ capability ∈ capabilities, validateText "" capability = .ok ()) ∧
      (capabilities ++ seen).Nodup := by
  induction capabilities generalizing seen with
  | nil => exact ⟨fun capability hmem => absurd hmem not_mem_nil, hseen⟩
  | cons capability _ ih =>
    obtain ⟨htext, hok⟩ := unit_bind_eq_ok.mp hok
    split_ifs at hok with hfresh
    have hnew : capability ∉ seen := by simpa using hfresh
    obtain ⟨htexts, hnodup⟩ := ih hok (nodup_cons.mpr ⟨hnew, hseen⟩)
    exact ⟨forall_mem_cons.mpr ⟨validateChars_of_ok _ htext, htexts⟩,
      perm_middle.nodup_iff.mp hnodup⟩

theorem validateDependencies_count {parents : List String}
    (hok : validateDependencies keys nodeKey dependencies parents edges = .ok answer) :
    answer = edges + dependencies.length ∧ (edges ≤ maxDagEdges → answer ≤ maxDagEdges) := by
  induction dependencies generalizing parents edges with
  | nil =>
    cases hok
    exact ⟨rfl, id⟩
  | cons _ _ ih =>
    rw [validateDependencies] at hok
    split_ifs at hok with hlimit
    obtain ⟨hanswer, hbound⟩ := ih hok
    rw [length_cons]
    exact ⟨by omega, fun _ => hbound (by omega)⟩

theorem withinBounds_of_validateNode (hkey : validateNodeKey "" node.nodeKey = .ok ())
    (hok : validateNode keys node edges = .ok answer) :
    node.WithinBounds ∧ answer = edges + node.dependencies.length ∧
      (edges ≤ maxDagEdges → answer ≤ maxDagEdges) := by
  obtain ⟨hplatform, hok⟩ := unit_bind_eq_ok.mp hok
  obtain ⟨hpool, hok⟩ := unit_bind_eq_ok.mp hok
  split at hok
  · cases hok
  next hlength =>
  obtain ⟨hcapabilities, hok⟩ := unit_bind_eq_ok.mp hok
  split_ifs at hok with hattempts hspec hmismatch hjoin hpost
  obtain ⟨htexts, hnodup⟩ := validateCapabilities_eq_ok hcapabilities nodup_nil
  rw [append_nil] at hnodup
  refine ⟨⟨hkey, validateChars_of_ok _ hplatform, validateChars_of_ok _ hpool, by omega, htexts,
    hnodup, hattempts, by omega, fun capability hmem hstart => ?_, fun hkind => ?_,
    fun hkind => ?_⟩, validateDependencies_count hok⟩
  · by_contra hother
    refine hmismatch (any_eq_true.mpr ⟨capability, hmem, ?_⟩)
    simpa using ⟨hstart, hother⟩
  · by_contra hfew
    exact hjoin ⟨hkind, by omega⟩
  · simp only [hkind, true_and, not_or, any_eq_true, decide_eq_true_eq, not_exists, not_and,
      not_not] at hpost
    exact hpost

theorem withinBounds_of_validateNodes
    (hkeys : ∀ node ∈ nodes, validateNodeKey "" node.nodeKey = .ok ())
    (hok : validateNodes keys nodes edges = .ok answer) (hedges : edges ≤ maxDagEdges) :
    (∀ node ∈ nodes, node.WithinBounds) ∧
      edges + (nodes.map fun node => node.dependencies.length).sum ≤ maxDagEdges := by
  induction nodes generalizing edges with
  | nil => exact ⟨fun node hmem => absurd hmem not_mem_nil, by simpa using hedges⟩
  | cons node _ ih =>
    obtain ⟨counted, hnode, hok⟩ := bind_eq_ok.mp hok
    obtain ⟨hbounds, hcounted, hlimit⟩ :=
      withinBounds_of_validateNode (hkeys node mem_cons_self) hnode
    obtain ⟨hrest, hsum⟩ :=
      ih (fun other hmem => hkeys other (mem_cons_of_mem _ hmem)) hok (hlimit hedges)
    rw [map_cons, sum_cons]
    exact ⟨forall_mem_cons.mpr ⟨hbounds, hrest⟩, by omega⟩

theorem NewDagBuild.withinBounds_of_validateContract [Platform] {input : NewDagBuild}
    (hok : input.validateContract = .ok ()) : input.WithinBounds := by
  have haccepted : input.Accepted := accepted_of_checkContract (by rw [checkContract, hok])
  obtain ⟨hkey, hok⟩ := unit_bind_eq_ok.mp hok
  obtain ⟨htargets, hok⟩ := unit_bind_eq_ok.mp hok
  split at hok
  · cases hok
  next hcount =>
  obtain ⟨keys, hkeys, hok⟩ := bind_eq_ok.mp hok
  obtain ⟨edges, hnodes, -⟩ := bind_eq_ok.mp hok
  obtain ⟨hbounds, hsum⟩ :=
    withinBounds_of_validateNodes (validateNodeKeys_texts hkeys) hnodes (Nat.zero_le _)
  simp only [Bool.or_eq_true, List.isEmpty_iff, decide_eq_true_eq, not_or, not_lt] at hcount
  exact ⟨validateChars_of_ok _ hkey, htargets, hcount.1, hcount.2, hbounds, haccepted.keys,
    by omega, haccepted.parent, haccepted.parents⟩

/-! ## The dependency graph -/

end Checks

namespace NewDagBuild

/-- The node of the first key depends on the second. -/
def DependsOn (input : NewDagBuild) (key parent : String) : Prop :=
  ∃ node ∈ input.nodes, node.nodeKey = key ∧ ∃ d ∈ node.dependencies, d.nodeKey = parent

/-- The keys that the node of a key depends on. -/
def parents (input : NewDagBuild) (key : String) : List String :=
  match input.nodes.find? fun node => node.nodeKey == key with
  | some node => node.dependencies.map DagDependency.nodeKey
  | none => []

/-- Among nodes with different keys the key of a node finds it. -/
theorem find?_nodeKey {nodes : List NewDagNode} (hkeys : (nodes.map NewDagNode.nodeKey).Nodup)
    {node : NewDagNode} (hmem : node ∈ nodes) :
    nodes.find? (fun other => other.nodeKey == node.nodeKey) = some node := by
  cases hfind : nodes.find? fun other => other.nodeKey == node.nodeKey with
  | none => exact absurd (find?_eq_none.mp hfind node hmem) (by simp)
  | some other =>
    have hsame : other.nodeKey = node.nodeKey := by simpa using find?_some hfind
    rw [inj_on_of_nodup_map hkeys (mem_of_find?_eq_some hfind) hmem hsame]

/-- The in-degree of a key is the number of its parents. -/
theorem indegree_eq (input : NewDagBuild) :
    input.indegree = fun key => (input.parents key).length := by
  funext key
  unfold indegree parents
  cases input.nodes.find? fun node => node.nodeKey == key with
  | none => rfl
  | some => exact (length_map _).symm

section Graph

variable {input : NewDagBuild} (hkeys : (input.nodes.map NewDagNode.nodeKey).Nodup)

include hkeys

theorem parents_nodeKey {node : NewDagNode} (hmem : node ∈ input.nodes) :
    input.parents node.nodeKey = node.dependencies.map DagDependency.nodeKey := by
  rw [parents, find?_nodeKey hkeys hmem]

theorem mem_parents_iff {key parent : String} :
    key ∈ input.nodes.map NewDagNode.nodeKey ∧ parent ∈ input.parents key ↔
      input.DependsOn key parent := by
  constructor
  · rintro ⟨hkey, hparent⟩
    obtain ⟨node, hmem, rfl⟩ := mem_map.mp hkey
    rw [parents_nodeKey hkeys hmem] at hparent
    exact ⟨node, hmem, rfl, mem_map.mp hparent⟩
  · rintro ⟨node, hmem, rfl, d, hd, rfl⟩
    rw [parents_nodeKey hkeys hmem]
    exact ⟨mem_map_of_mem hmem, mem_map_of_mem hd⟩

theorem graph (hparent : ∀ node ∈ input.nodes, ∀ d ∈ node.dependencies,
      d.nodeKey ∈ input.nodes.map NewDagNode.nodeKey ∧ d.nodeKey ≠ node.nodeKey)
    (hparents : ∀ node ∈ input.nodes, (node.dependencies.map DagDependency.nodeKey).Nodup) :
    Kahn.Graph (input.nodes.map NewDagNode.nodeKey) input.parents input.children := by
  refine ⟨hkeys, ?_, fun key => hkeys.sublist (filter_sublist.map _), ?_, ?_⟩
  · intro key hkey
    obtain ⟨node, hmem, rfl⟩ := mem_map.mp hkey
    rw [parents_nodeKey hkeys hmem]
    exact hparents node hmem
  · intro key child
    rw [mem_parents_iff hkeys, children, mem_map]
    simp only [mem_filter, any_eq_true, beq_iff_eq, DependsOn]
    constructor
    · rintro ⟨node, ⟨hmem, hdependency⟩, rfl⟩
      exact ⟨node, hmem, rfl, hdependency⟩
    · rintro ⟨node, hmem, rfl, hdependency⟩
      exact ⟨node, ⟨hmem, hdependency⟩, rfl⟩
  · intro key hkey parent hmem
    obtain ⟨node, hnode, -, d, hd, rfl⟩ := (mem_parents_iff hkeys).mp ⟨hkey, hmem⟩
    exact (hparent node hnode d hd).1

/-- A key that is its own ancestor lies on a cycle of dependencies, and conversely. -/
theorem transGen_parents_iff {key : String} (hkey : key ∈ input.nodes.map NewDagNode.nodeKey)
    (hgraph : Kahn.Graph (input.nodes.map NewDagNode.nodeKey) input.parents input.children)
    {ancestor : String} : Relation.TransGen (fun v p => p ∈ input.parents v) key ancestor ↔
      Relation.TransGen input.DependsOn key ancestor := by
  refine ⟨fun hpath => ?_,
    Relation.TransGen.mono (fun _ _ h => ((mem_parents_iff hkeys).mpr h).2) _ _⟩
  have hboth : Relation.TransGen input.DependsOn key ancestor ∧
      ancestor ∈ input.nodes.map NewDagNode.nodeKey := by
    induction hpath with
    | single hstep =>
      exact ⟨.single ((mem_parents_iff hkeys).mp ⟨hkey, hstep⟩), hgraph.parents_mem _ hkey _ hstep⟩
    | tail _ hstep ih =>
      exact ⟨ih.1.tail ((mem_parents_iff hkeys).mp ⟨ih.2, hstep⟩),
        hgraph.parents_mem _ ih.2 _ hstep⟩
  exact hboth.1

end Graph

variable {input : NewDagBuild}

/-- Within the bounds only the walk decides. -/
theorem WithinBounds.validateContract_iff [Platform] (hbounds : input.WithinBounds) :
    input.validateContract = .ok () ↔ input.visited.length = input.nodes.length := by
  have hkeys := @validateNodeKeys_of_nodup input.nodes []
    (fun node hmem => (hbounds.node node hmem).key) (by rw [append_nil]; exact hbounds.keys)
  rw [append_nil] at hkeys
  obtain ⟨total, hnodes⟩ := @validateNodes_of_withinBounds
    (input.nodes.map NewDagNode.nodeKey).reverse 0 input.nodes hbounds.node
    (fun node hmem d hd => by simpa using hbounds.parent node hmem d hd) hbounds.parents
    (by rw [Nat.zero_add]; exact hbounds.edges)
  have hcount : ¬ (input.nodes.isEmpty || input.nodes.length > maxDagNodes) = true := by
    have := hbounds.nodes_length
    simpa [hbounds.nodes_ne_nil] using this
  rw [validateContract, unit_bind_eq_ok, unit_bind_eq_ok, if_neg hcount, bind_eq_ok]
  constructor
  · rintro ⟨-, -, keys, -, hrest⟩
    obtain ⟨_, -, hrest⟩ := bind_eq_ok.mp hrest
    by_contra hne
    rw [if_pos hne] at hrest
    cases hrest
  · intro hlength
    refine ⟨validateChars_of_ok _ hbounds.idempotencyKey, hbounds.notifyTargets, _, hkeys, ?_⟩
    rw [hnodes]
    exact if_neg (not_not.mpr hlength)

theorem WithinBounds.graph [Platform] (hbounds : input.WithinBounds) :
    Kahn.Graph (input.nodes.map NewDagNode.nodeKey) input.parents input.children :=
  NewDagBuild.graph hbounds.keys hbounds.parent hbounds.parents

theorem WithinBounds.walk_start [Platform] (hbounds : input.WithinBounds) :
    Kahn.Walk (input.nodes.map NewDagNode.nodeKey) input.parents input.roots input.indegree [] := by
  rw [indegree_eq]
  refine hbounds.graph.walk_start ((perm_insertionSort _ _).trans ?_)
  rw [indegree_eq]

/-- As many rounds as there are nodes are enough. -/
theorem length_keys_le (input : NewDagBuild) {rounds : ℕ} (hrounds : input.nodes.length ≤ rounds) :
    (input.nodes.map NewDagNode.nodeKey).length ≤ ([] : List String).length + rounds := by
  rw [length_map, length_nil]
  omega

/-- The walk of the validation ends with nothing ready. -/
theorem WithinBounds.walk_visited [Platform] (hbounds : input.WithinBounds) :
    ∃ final, Kahn.Walk (input.nodes.map NewDagNode.nodeKey) input.parents [] final input.visited :=
  (hbounds.graph.walk_end hbounds.walk_start (input.length_keys_le (Nat.le_succ _))).2

/-- Within the bounds exactly the contracts without cycles are accepted. -/
theorem WithinBounds.validateContract_iff_acyclic [Platform] (hbounds : input.WithinBounds) :
    input.validateContract = .ok () ↔ ∀ key, ¬ Relation.TransGen input.DependsOn key key := by
  obtain ⟨final, hwalk⟩ := hbounds.walk_visited
  rw [hbounds.validateContract_iff, ← length_map NewDagNode.nodeKey,
    hbounds.graph.length_eq_iff hwalk]
  constructor
  · intro hacyclic key hcycle
    obtain ⟨_, ⟨node, hmem, rfl, -⟩, -⟩ := Relation.TransGen.head'_iff.mp hcycle
    have hkey : node.nodeKey ∈ input.nodes.map NewDagNode.nodeKey := mem_map_of_mem hmem
    exact hacyclic _ hkey ((transGen_parents_iff hbounds.keys hkey hbounds.graph).mpr hcycle)
  · intro hacyclic key hkey hcycle
    exact hacyclic key ((transGen_parents_iff hbounds.keys hkey hbounds.graph).mp hcycle)

/-- A contract within its bounds is accepted exactly if no node depends on itself through a chain of
dependencies.  For any number of rounds from the number of nodes on, the walk with checked
subtraction meets no in-degree of zero and ends with the same keys, each of a node and none twice.
-/
theorem contract_accepted_iff_no_cycle [Platform] (input : NewDagBuild)
    (hbounds : input.WithinBounds) :
    (input.validateContract = .ok () ↔ ∀ key, ¬ Relation.TransGen input.DependsOn key key) ∧
      (∀ rounds, input.nodes.length ≤ rounds →
        Kahn.visitChecked input.children rounds input.roots input.indegree [] =
          some input.visited) ∧
      input.visited.Nodup ∧ ∀ key ∈ input.visited, key ∈ input.nodes.map NewDagNode.nodeKey := by
  have hvisited : input.visited =
      Kahn.visit input.children (input.nodes.length + 1) input.roots input.indegree [] := rfl
  obtain ⟨final, hwalk⟩ := hbounds.walk_visited
  have hstart := hbounds.walk_start
  refine ⟨hbounds.validateContract_iff_acyclic, fun rounds hrounds => ?_, ?_, ?_⟩
  · rw [(hbounds.graph.walk_end hstart (input.length_keys_le hrounds)).1, hvisited,
      hbounds.graph.visit_add hstart (input.length_keys_le le_rfl) 1,
      ← hbounds.graph.visit_add hstart (input.length_keys_le le_rfl) (rounds - input.nodes.length),
      Nat.add_sub_cancel' hrounds]
  · simpa using hwalk.nodup
  · simpa using hwalk.subset

/-- The order of the nodes does not matter for acceptance. -/
theorem validateContract_of_perm [Platform] {nodes : List NewDagNode}
    (hok : input.validateContract = .ok ()) (hperm : nodes.Perm input.nodes) :
    ({ input with nodes } : NewDagBuild).validateContract = .ok () := by
  have hbounds := withinBounds_of_validateContract hok
  have hkeys := hperm.map NewDagNode.nodeKey
  have hbounds' : ({ input with nodes } : NewDagBuild).WithinBounds :=
    { idempotencyKey := hbounds.idempotencyKey
      notifyTargets := hbounds.notifyTargets
      nodes_ne_nil := fun hnil => hbounds.nodes_ne_nil
        (perm_nil.mp (hperm.symm.trans (List.Perm.of_eq hnil)))
      nodes_length := hperm.length_eq ▸ hbounds.nodes_length
      node := fun node hmem => hbounds.node node (hperm.mem_iff.mp hmem)
      keys := hkeys.nodup_iff.mpr hbounds.keys
      edges := (hperm.map fun node => node.dependencies.length).sum_eq ▸ hbounds.edges
      parent := fun node hmem d hd => by
        obtain ⟨hkey, hne⟩ := hbounds.parent node (hperm.mem_iff.mp hmem) d hd
        exact ⟨hkeys.mem_iff.mpr hkey, hne⟩
      parents := fun node hmem => hbounds.parents node (hperm.mem_iff.mp hmem) }
  have hdepends : ({ input with nodes } : NewDagBuild).DependsOn = input.DependsOn := by
    funext key parent
    simp only [DependsOn, hperm.mem_iff]
  rw [hbounds'.validateContract_iff_acyclic, hdepends]
  exact hbounds.validateContract_iff_acyclic.mp hok

namespace Sample

/-- A node of some name that works on Linux. -/
def node (nodeKey : String) (dependencies : List DagDependency) : NewDagNode :=
  ⟨nodeKey, .work, dependencies, [], "linux", "pool", 0, .null, false, 1⟩

/-- Two builds and what is published after both. -/
def diamond : NewDagBuild :=
  { projectId := 1, pipelineId := 2, pipelineRevision := 1, pipelineOperationalGeneration := 1,
    idempotencyKey := "k", pipelineDigest := .replicate 1, priority := 0,
    nodes := [node "publish" [⟨"linux", .succeeded⟩, ⟨"mac", .succeeded⟩],
      node "linux" [⟨"fetch", .succeeded⟩], node "mac" [⟨"fetch", .succeeded⟩], node "fetch" []],
    notifyTargets := .arr [] }

/-- A platform that reads no addresses. -/
@[reducible]
def offline : Platform := ⟨fun _ => .replicate 0, fun _ _ => 0, fun _ => none, fun _ => .ok ()⟩

theorem node_withinBounds {nodeKey : String} {dependencies : List DagDependency}
    (hkey : validateNodeKey "" nodeKey = .ok ()) : (node nodeKey dependencies).WithinBounds :=
  { key := hkey
    platform := by change validateText "" "linux" = .ok (); decide +kernel
    trustPool := by change validateText "" "pool" = .ok (); decide +kernel
    capabilities_length := Nat.zero_le _
    capability := fun capability hmem => absurd hmem not_mem_nil
    capabilities_nodup := nodup_nil
    attempts := ⟨le_rfl, by change (1 : ℤ) ≤ 16; decide⟩
    spec := by change Json.null.render.utf8ByteSize ≤ maxExecutionSpecBytes; decide +kernel
    platformCapability := fun capability hmem => absurd hmem not_mem_nil
    join := fun hkind => by cases hkind
    post := fun hkind => by cases hkind }

theorem diamond_withinBounds : @WithinBounds offline diamond :=
  letI := offline
  { idempotencyKey := by decide +kernel
    notifyTargets := rfl
    nodes_ne_nil := cons_ne_nil _ _
    nodes_length := by decide
    node := by
      intro n hmem
      simp only [diamond, mem_cons, not_mem_nil, or_false] at hmem
      rcases hmem with rfl | rfl | rfl | rfl
      all_goals exact node_withinBounds (by decide +kernel)
    keys := by decide
    edges := by decide
    parent := by decide
    parents := by decide }

end Sample

open Sample in
/-- The diamond is accepted, so no node of it depends on itself. -/
theorem diamond_accepted_without_cycle : @validateContract offline diamond = .ok () ∧
      ∀ key, ¬ Relation.TransGen diamond.DependsOn key key := by
  have hok : @validateContract offline diamond = .ok () := by decide +kernel
  exact ⟨hok, (@contract_accepted_iff_no_cycle offline diamond diamond_withinBounds).1.mp hok⟩

end NewDagBuild

end McLoving
