import McLoving.Lib.Kahn
import McLoving.Store.Schema
import Mathlib.Data.List.Dedup
import Mathlib.Data.String.Basic

/-!
# DAG contracts

The complete bounded contract of a DAG build, its validation before admission, and the normal form
that is stored with the build and compared on replay.  A sequential build is a contract whose nodes
form one chain of shell steps, together with the stage layout the chain came from.
-/

namespace McLoving

def maxDagNodes : ℕ := 256
def maxDagEdges : ℕ := 4096
def maxDagTextBytes : ℕ := 256
def maxExecutionSpecBytes : ℕ := 256 * 1024
def maxDagCapabilities : ℕ := 64
def maxNotifyTargets : ℕ := 8
def maxStatusContextBytes : ℕ := 255

/-- Idempotency keys that start like this belong to trigger ingress. -/
def triggerDagIdempotencyPrefix : String := "mcloving-trigger-v1-"

/-- The capabilities that name a platform start like this. -/
def platformCapabilityPrefix : String := "platform:"

def platformCapability (platform : String) : String :=
  platformCapabilityPrefix ++ platform

structure DagDependency where
  nodeKey : String
  condition : DependencyCondition
  deriving DecidableEq

structure NewDagNode where
  nodeKey : String
  kind : DagNodeKind
  dependencies : List DagDependency
  requiredCapabilities : List String
  requiredPlatform : String
  requiredTrustPool : String
  priority : ℤ
  executionSpec : Json
  failFast : Bool
  maxAttempts : ℤ
  deriving DecidableEq

structure NewDagBuild where
  projectId : Uuid
  pipelineId : Uuid
  pipelineRevision : ℤ
  pipelineOperationalGeneration : ℤ
  idempotencyKey : String
  pipelineDigest : Digest
  priority : ℤ
  nodes : List NewDagNode
  notifyTargets : Json
  deriving DecidableEq

inductive DagContractErrorCode where
  | invalidText | matrixAxisLimit | matrixValueLimit | matrixCellLimit | duplicateMatrixValue
  | nodeLimit | edgeLimit | duplicateNode | missingDependency | duplicateDependency
  | cycle | retryLimit | invalidNodeKind | platformMismatch | capabilityLimit
  | duplicateCapability | executionSpecLimit | invalidNotifyTargets
  deriving DecidableEq

structure DagContractError where
  code : DagContractErrorCode
  path : String
  message : String
  deriving DecidableEq

/-- The text a contract error is reported with. -/
def DagContractError.toText (error : DagContractError) : String :=
  error.path ++ ": " ++ error.message

/-! ## Field checks -/

/-- A bounded text over the given characters, reported under `path`. -/
def validateChars (allowed : Char → Bool) (message path value : String) :
    Except DagContractError Unit :=
  if value.isEmpty || value.utf8ByteSize > maxDagTextBytes || !value.toList.all allowed then
    .error ⟨.invalidText, path, message⟩
  else .ok ()

/-- `validate_text`. -/
def validateText (path value : String) : Except DagContractError Unit :=
  validateChars (fun c => isAsciiAlphanumeric c || ['.', '_', '-'].contains c)
    "must be bounded ASCII letters, digits, dot, underscore, or hyphen" path value

/-- `validate_node_key`. -/
def validateNodeKey (path value : String) : Except DagContractError Unit :=
  validateChars
    (fun c => isAsciiAlphanumeric c || ['.', '_', '-', '[', ']', '=', ','].contains c)
    "must be a bounded canonical DAG node key" path value

/-- `canonical_mapping_id`. -/
def canonicalMappingId (value : String) : Bool :=
  !value.isEmpty && value.utf8ByteSize ≤ 128 &&
    value.toList.all fun c => isAsciiAlphanumeric c || ['-', '_', '.'].contains c

/-- `is_commit_id`. -/
def isCommitId (value : String) : Bool :=
  7 ≤ value.utf8ByteSize && value.utf8ByteSize ≤ 128 &&
    value.toList.all fun c => ('0' ≤ c && c ≤ '9') || ('a' ≤ c && c ≤ 'f')

/-- `is_status_context`. -/
def isStatusContext (value : String) : Bool :=
  !value.isEmpty && value.utf8ByteSize ≤ maxStatusContextBytes && trim value == value &&
    value.toList.all fun c => 0x20 ≤ c.val && c.val < 0x7f

/-- `is_repository_identity`. -/
def isRepositoryIdentity (value : String) : Bool :=
  match value.toList.span (· != '/') with
  | (_, []) => false
  | (owner, _ :: name) =>
    [owner, name].all fun part =>
      1 ≤ part.length && part.length ≤ 100 && part.head? != some '.' &&
        part.all fun c => isAsciiAlphanumeric c || ['.', '_', '-'].contains c

/-- `webhook_destination_is_well_formed` of a release build. -/
def webhookDestinationIsWellFormed [Platform] (value : String) : Bool :=
  value.utf8ByteSize ≤ 2048 && trim value == value &&
    (Platform.parseUrl value).any fun url =>
      url.scheme == "https" && url.hostStr.any (fun host => !host.isEmpty) &&
        url.username.isEmpty && url.password.isNone && url.fragment.isNone

/-- The check of one resolved notification target, and the members its kind allows. -/
def notifyTargetFields [Platform] (entry : Json) : Except String (List String) :=
  match entry with
  | .obj _ =>
    if !(entry.textField "mapping_id").any canonicalMappingId then
      .error "notification target must name a canonical mapping id"
    else
      match entry.textField "kind" with
      | some "github_status" =>
        if !(entry.textField "commit").any isCommitId
            || !(entry.textField "context").any isStatusContext
            || !(entry.textField "repository").any (fun repository =>
              isRepositoryIdentity repository &&
                repository.toList.all fun c => !('A' ≤ c && c ≤ 'Z')) then
          .error "github_status target needs a commit, a context and a lowercase repository"
        else .ok ["kind", "mapping_id", "commit", "context", "repository"]
      | some "webhook" =>
        if !(entry.textField "destination_url").any webhookDestinationIsWellFormed then
          .error "webhook target needs an https destination"
        else .ok ["kind", "mapping_id", "destination_url"]
      | _ => .error "notification target kind must be github_status or webhook"
  | _ => .error "notification target must be an object"

/-- `validate_notify_targets`. -/
def validateNotifyTargets [Platform] (targets : Json) : Except DagContractError Unit :=
  let invalid (message : String) : DagContractError :=
    ⟨.invalidNotifyTargets, "$.notify_targets", message⟩
  match targets with
  | .arr entries =>
    if entries.length > maxNotifyTargets then .error (invalid "too many notification targets")
    else
      entries.forM fun entry =>
        match notifyTargetFields entry with
        | .error message => .error (invalid message)
        | .ok expected =>
          if entry.onlyFields expected then .ok ()
          else .error (invalid "notification target carries an unknown field")
  | _ => .error (invalid "notification targets must be an array")

/-! ## Nodes and edges -/

/-- The first pass over the nodes: canonical, distinct keys.  `keys` holds the keys seen so far. -/
def validateNodeKeys : List NewDagNode → List String → Except DagContractError (List String)
  | [], keys => .ok keys
  | node :: rest, keys => do
    validateNodeKey "$.nodes.node_key" node.nodeKey
    if keys.contains node.nodeKey then
      .error ⟨.duplicateNode, s!"$.nodes.{node.nodeKey}", "DAG node keys must be unique"⟩
    else
      validateNodeKeys rest (node.nodeKey :: keys)

/-- The capabilities of one node: each a valid text, none twice. -/
def validateCapabilities (path : String) : List String → List String → Except DagContractError Unit
  | [], _ => .ok ()
  | capability :: rest, seen => do
    validateText path capability
    if seen.contains capability then
      .error ⟨.duplicateCapability, path, "capabilities must be unique"⟩
    else
      validateCapabilities path rest (capability :: seen)

/-- A text as `{:?}` writes it; beyond ASCII every character counts as printable. -/
def debugText (text : String) : String :=
  let escape (c : Char) : List Char :=
    if c = '"' || c = '\\' then ['\\', c] else if c = '\t' then ['\\', 't']
    else if c = '\n' then ['\\', 'n'] else if c = '\r' then ['\\', 'r']
    else if c = '\x00' then ['\\', '0'] else if c.toNat < 32 || c.toNat = 127 then
      ['\\', 'u', '\x7b'] ++ Nat.toDigits 16 c.toNat ++ ['\x7d']
    else [c]
  String.ofList ('"' :: text.toList.flatMap escape ++ ['"'])

/-- The dependencies of one node: within the edge bound, each naming another node, none twice.
Answers the number of edges counted so far. -/
def validateDependencies (keys : List String) (nodeKey : String) :
    List DagDependency → List String → ℕ → Except DagContractError ℕ
  | [], _, edges => .ok edges
  | dependency :: rest, parents, edges =>
    if edges + 1 > maxDagEdges then
      .error ⟨.edgeLimit, "$.nodes", s!"DAG edge count exceeds {maxDagEdges}"⟩
    else if !keys.contains dependency.nodeKey then
      .error ⟨.missingDependency, s!"$.nodes.{nodeKey}.dependencies",
        s!"dependency {debugText dependency.nodeKey} does not exist"⟩
    else if dependency.nodeKey == nodeKey || parents.contains dependency.nodeKey then
      .error ⟨.duplicateDependency, s!"$.nodes.{nodeKey}.dependencies",
        "dependencies must be distinct and cannot reference the node itself"⟩
    else
      validateDependencies keys nodeKey rest (dependency.nodeKey :: parents) (edges + 1)

/-- The second pass at one node: its fields, then its dependencies. -/
def validateNode (keys : List String) (node : NewDagNode) (edges : ℕ) :
    Except DagContractError ℕ := do
  validateText s!"$.nodes.{node.nodeKey}.required_platform" node.requiredPlatform
  validateText s!"$.nodes.{node.nodeKey}.required_trust_pool" node.requiredTrustPool
  if node.requiredCapabilities.length > maxDagCapabilities then
    .error ⟨.capabilityLimit, s!"$.nodes.{node.nodeKey}.required_capabilities",
      s!"capability count exceeds {maxDagCapabilities}"⟩
  else
    validateCapabilities s!"$.nodes.{node.nodeKey}.required_capabilities"
      node.requiredCapabilities []
    if ¬ (1 ≤ node.maxAttempts ∧ node.maxAttempts ≤ 16) then
      .error ⟨.retryLimit, s!"$.nodes.{node.nodeKey}.max_attempts",
        "max_attempts must be between 1 and 16"⟩
    else if node.executionSpec.render.utf8ByteSize > maxExecutionSpecBytes then
      .error ⟨.executionSpecLimit, s!"$.nodes.{node.nodeKey}.execution_spec",
        s!"execution specification exceeds {maxExecutionSpecBytes} bytes"⟩
    else if node.requiredCapabilities.any fun capability =>
        platformCapabilityPrefix.toList.isPrefixOf capability.toList &&
          capability != platformCapability node.requiredPlatform then
      .error ⟨.platformMismatch, s!"$.nodes.{node.nodeKey}.required_capabilities",
        "platform capability conflicts with required_platform"⟩
    else if node.kind = .join ∧ node.dependencies.length < 2 then
      .error ⟨.invalidNodeKind, s!"$.nodes.{node.nodeKey}.dependencies",
        "join nodes require at least two dependencies"⟩
    else if node.kind = .post ∧ (node.dependencies = [] ∨
        node.dependencies.any fun dependency => dependency.condition ≠ .completed) then
      .error ⟨.invalidNodeKind, s!"$.nodes.{node.nodeKey}.dependencies",
        "post nodes require one or more completion dependencies"⟩
    else
      validateDependencies keys node.nodeKey node.dependencies [] edges

/-- The second pass over the nodes. -/
def validateNodes (keys : List String) : List NewDagNode → ℕ → Except DagContractError ℕ
  | [], edges => .ok edges
  | node :: rest, edges => do
    let edges ← validateNode keys node edges
    validateNodes keys rest edges

namespace NewDagBuild

/-- The children of a key, in node order. -/
def children (input : NewDagBuild) (key : String) : List String :=
  (input.nodes.filter fun node => node.dependencies.any fun d => d.nodeKey == key).map
    NewDagNode.nodeKey

/-- The number of dependencies of a key. -/
def indegree (input : NewDagBuild) (key : String) : ℕ :=
  match input.nodes.find? fun node => node.nodeKey == key with
  | some node => node.dependencies.length
  | none => 0

/-- The keys without dependencies, in their order. -/
def roots (input : NewDagBuild) : List String :=
  ((input.nodes.map NewDagNode.nodeKey).filter fun key => input.indegree key = 0).insertionSort
    (· ≤ ·)

/-- The keys visited when in-degrees are counted down, latest first. -/
def visited (input : NewDagBuild) : List String :=
  Kahn.visit input.children (input.nodes.length + 1) input.roots input.indegree []

/-- `validate_dag_contract`. -/
def validateContract [Platform] (input : NewDagBuild) : Except DagContractError Unit := do
  validateText "$.idempotency_key" input.idempotencyKey
  validateNotifyTargets input.notifyTargets
  if input.nodes.isEmpty || input.nodes.length > maxDagNodes then
    .error ⟨.nodeLimit, "$.nodes", s!"DAG node count must be between 1 and {maxDagNodes}"⟩
  else
    let keys ← validateNodeKeys input.nodes []
    let _ ← validateNodes keys input.nodes 0
    if input.visited.length ≠ input.nodes.length then
      .error ⟨.cycle, "$.nodes", "DAG contains a dependency cycle"⟩
    else .ok ()

/-- `validate_dag_contract` with its error as the Store reports it. -/
def checkContract [Platform] (input : NewDagBuild) : Except StoreError Unit :=
  match input.validateContract with
  | .ok () => .ok ()
  | .error error => .error (.invalidDag error.toText)

end NewDagBuild

/-! ## The stored contract -/

namespace DependencyCondition

/-- `DependencyCondition::as_str`. -/
def asStr : DependencyCondition → String
  | succeeded => "succeeded"
  | completed => "completed"

end DependencyCondition

namespace DagNodeKind

/-- `DagNodeKind::as_str`. -/
def asStr : DagNodeKind → String
  | work => "work"
  | join => "join"
  | post => "post"

end DagNodeKind

/-- A node's capabilities with its platform's, sorted and without repetition. -/
def NewDagNode.capabilities (node : NewDagNode) : List String :=
  ((node.requiredCapabilities ++ [platformCapability node.requiredPlatform]).insertionSort
    (· ≤ ·)).dedup

/-- The JSON form of a dependency, members in key order. -/
def DagDependency.toJson (dependency : DagDependency) : Json :=
  .obj [("condition", .str dependency.condition.asStr), ("node_key", .str dependency.nodeKey)]

/-- The JSON form of a node in the stored contract, members in key order. -/
def NewDagNode.toJson (node : NewDagNode) : Json :=
  let ordered := node.dependencies.insertionSort fun left right =>
    left.nodeKey < right.nodeKey ∨
      (left.nodeKey = right.nodeKey ∧ left.condition.asStr ≤ right.condition.asStr)
  .obj [("dependencies", .arr (ordered.map DagDependency.toJson)),
    ("execution_spec", node.executionSpec), ("fail_fast", .bool node.failFast),
    ("kind", .str node.kind.asStr), ("max_attempts", .num node.maxAttempts),
    ("node_key", .str node.nodeKey), ("priority", .num node.priority),
    ("required_capabilities", .arr (node.capabilities.map Json.str)),
    ("required_platform", .str node.requiredPlatform),
    ("required_trust_pool", .str node.requiredTrustPool)]

/-- The members of `normalized_dag_contract`, in key order. -/
def NewDagBuild.contractFields (input : NewDagBuild) : List (String × Json) :=
  let ordered := input.nodes.insertionSort fun left right => left.nodeKey ≤ right.nodeKey
  let targets := match input.notifyTargets with
    | .arr (_ :: _) => [("notify_targets", input.notifyTargets)]
    | _ => []
  [("nodes", .arr (ordered.map NewDagNode.toJson))] ++ targets ++
    [("priority", .num input.priority), ("version", .num 1)]

/-- `normalized_dag_contract`. -/
def NewDagBuild.normalizedContract (input : NewDagBuild) : Json :=
  .obj input.contractFields

structure SequentialStepLayout where
  nodeKey : String
  stageId : String
  stageName : String
  stageOrdinal : ℕ
  stepOrdinal : ℕ
  executionOrdinal : ℕ
  deriving DecidableEq

/-- The JSON form of a layout row, members in key order. -/
def SequentialStepLayout.toJson (row : SequentialStepLayout) : Json :=
  .obj [("execution_ordinal", .num row.executionOrdinal), ("node_key", .str row.nodeKey),
    ("stage_id", .str row.stageId), ("stage_name", .str row.stageName),
    ("stage_ordinal", .num row.stageOrdinal), ("step_ordinal", .num row.stepOrdinal)]

/-- One character of `normalized_stage_id`, lowercased when it is an ASCII letter. -/
def asciiLower (c : Char) : Char :=
  if 'A' ≤ c ∧ c ≤ 'Z' then Char.ofNat (c.toNat + 32) else c

/-- The characters of `normalized_stage_id` before its surrounding hyphens are trimmed. -/
def stageIdChars : List Char → Bool → List Char
  | [], _ => []
  | c :: rest, invalidRun =>
    let lower := asciiLower c
    if ('a' ≤ lower && lower ≤ 'z') || ('0' ≤ lower && lower ≤ '9')
        || ['.', '_', '-'].contains lower then
      lower :: stageIdChars rest false
    else if invalidRun then stageIdChars rest true
    else '-' :: stageIdChars rest true

def normalizedStageId (name : String) : String :=
  let chars := stageIdChars name.toList false
  String.ofList ((chars.dropWhile (· == '-')).reverse.dropWhile (· == '-')).reverse

/-- The execution specification of one literal shell step. -/
def shellSpec (script : String) : Json :=
  .obj [("steps", .arr [.obj [("args", .arr [.str "-xe", .str "-c", .str script]), ("env", .obj []),
      ("kind", .str "process"), ("mode", .str "direct"), ("program", .str "/bin/sh"),
      ("timeout_seconds", .null)]]),
    ("version", .num 1)]

/-- `execution_spec.pointer("/steps/0/args/2")`, when it is a text. -/
def shellScript (spec : Json) : Option String := do
  let step ← (← (← spec.get "steps").asArray).head?
  let args ← (← step.get "args").asArray
  (← args[2]?).asStr

/-- Whether a row continues the layout: it starts stage one, takes the next step of its stage, or
starts the next stage under a stage id not used before. -/
def layoutContinues (previous : Option SequentialStepLayout) (stages : List String)
    (row : SequentialStepLayout) : Bool :=
  match previous with
  | none => row.stageOrdinal = 1 && row.stepOrdinal = 1
  | some previous =>
    (row.stageOrdinal = previous.stageOrdinal && row.stageId = previous.stageId &&
      row.stageName = previous.stageName && row.stepOrdinal = previous.stepOrdinal + 1) ||
    (row.stageOrdinal = previous.stageOrdinal + 1 && row.stepOrdinal = 1 &&
      !stages.contains row.stageId)

/-- The walk over the ordered layout: row `index` with the row before it, the keys and stages seen,
and the script bytes counted so far. -/
def validateLayout (dag : NewDagBuild) :
    List SequentialStepLayout → ℕ → Option SequentialStepLayout → List String → List String → ℕ →
      Except String Unit
  | [], _, _, _, _, _ => .ok ()
  | row :: rest, index, previous, keys, stages, scriptBytes =>
    if row.executionOrdinal ≠ index + 1 || keys.contains row.nodeKey || row.stageName.isEmpty
        || row.stageName.utf8ByteSize > 96 || row.stageId.isEmpty
        || row.stageId ≠ normalizedStageId row.stageName then
      .error "invalid sequential layout identity"
    else if !layoutContinues previous stages row then
      .error "sequential stage and step ordinals must be contiguous"
    else if row.stageOrdinal > 32 then .error "sequential stage bound exceeded"
    else
      match dag.nodes.find? fun node => node.nodeKey == row.nodeKey with
      | none => .error "layout has no matching node"
      | some node =>
        let expected := match previous with
          | none => []
          | some before => [⟨before.nodeKey, .succeeded⟩]
        if node.kind ≠ .work || node.dependencies ≠ expected
            || node.requiredCapabilities ≠ [] || node.requiredPlatform ≠ "linux"
            || node.requiredTrustPool ≠ "migration-deny-authority" || node.priority ≠ 0
            || node.failFast || node.maxAttempts ≠ 1 then
          .error "sequential node policy or dependency mismatch"
        else
          match shellScript node.executionSpec with
          | none => .error "sequential process must contain a literal shell script"
          | some script =>
            if script.isEmpty || script.utf8ByteSize > 4096
                || script.toList.contains (Char.ofNat 0)
                || ['#', '!'].isPrefixOf script.toList then
              .error "invalid sequential shell literal"
            else if scriptBytes + script.utf8ByteSize > 4096
                || node.executionSpec ≠ shellSpec script then
              .error "sequential process shape or aggregate literal bound mismatch"
            else
              validateLayout dag rest (index + 1) (some row) (row.nodeKey :: keys)
                (row.stageId :: stages) (scriptBytes + script.utf8ByteSize)

/-- `SequentialDagBuild`: a validated contract with its layout. -/
structure SequentialDagBuild where
  dag : NewDagBuild
  layout : List SequentialStepLayout
  workspaceTransfer : Bool
  deriving DecidableEq

namespace SequentialDagBuild

/-- `SequentialDagBuild::new`. -/
def new [Platform] (dag : NewDagBuild) (layout : List SequentialStepLayout) :
    Except StoreError SequentialDagBuild := do
  dag.checkContract
  if (match dag.notifyTargets with | .arr (_ :: _) => true | _ => false) then
    .error (.invalidDag "sequential admission carries no notification targets")
  else if triggerDagIdempotencyPrefix.toList.isPrefixOf dag.idempotencyKey.toList
      || dag.priority ≠ 0 || dag.pipelineRevision ≤ 0 || dag.pipelineOperationalGeneration ≤ 0
      || layout.isEmpty || layout.length > 64 || layout.length ≠ dag.nodes.length then
    .error (.invalidDag "invalid sequential admission bounds or binding")
  else
    let ordered := layout.insertionSort fun left right =>
      left.executionOrdinal ≤ right.executionOrdinal
    match validateLayout dag ordered 0 none [] [] 0 with
    | .error message => .error (.invalidDag message)
    | .ok () => .ok { dag, layout := ordered, workspaceTransfer := false }

/-- `SequentialDagBuild::with_workspace_transfer`. -/
def withWorkspaceTransfer (build : SequentialDagBuild) : SequentialDagBuild where
  dag := { build.dag with
    nodes := build.dag.nodes.map fun node =>
      { node with requiredCapabilities := [workspaceTransferCapability] } }
  layout := build.layout
  workspaceTransfer := true

/-- `SequentialDagBuild::contract`, members in key order. -/
def contract (build : SequentialDagBuild) : Json :=
  .obj (build.dag.contractFields.dropLast ++
    [("sequential_layout", .obj [("steps", .arr (build.layout.map SequentialStepLayout.toJson)),
      ("version", .num 1)]), ("version", .num 1)] ++
    if build.workspaceTransfer then [("workspace_transfer", .obj [("version", .num 1)])] else [])

end SequentialDagBuild

end McLoving
