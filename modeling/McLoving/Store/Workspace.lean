import Mathlib.Data.Finset.Dedup
import Mathlib.Data.Finset.SDiff
import McLoving.Store.Lease
import Mathlib.Data.List.Lex

/-!
# Workspaces

A contained sequential build hands a bounded snapshot from one attempt to the next through the
controller; other multi-stage builds may stay with the agent that ran their first stage.
-/

namespace McLoving

/-- The controller's wrapping of a workspace error. -/
def workspaceInvalid {α : Type} : Except String α → Except StoreError α
  | .ok value => .ok value
  | .error message => .error (.sequentialIntegrity ("workspace transfer: " ++ message))

/-- Replaces a member of an object. -/
def Json.setField (key : String) (value : Json) : Json → Json
  | .obj fields => .obj (fields.map fun field => if field.1 = key then (key, value) else field)
  | other => other

namespace WorkspaceEntryReceipt

/-- The JSON form of an entry receipt, members in declaration order. -/
def toJson : WorkspaceEntryReceipt → Json
  | directory path => .obj [("kind", .str "directory"), ("path", .str path)]
  | file path executable sizeBytes digest =>
    .obj [("kind", .str "file"), ("path", .str path), ("executable", .bool executable),
      ("size_bytes", .num sizeBytes), ("digest", digest.toJson)]

end WorkspaceEntryReceipt

/-- The JSON form of a snapshot receipt, members in declaration order. -/
def WorkspaceSnapshotReceipt.toJson (receipt : WorkspaceSnapshotReceipt) : Json :=
  .obj [("version", .num receipt.version), ("digest", receipt.digest.toJson),
    ("total_bytes", .num receipt.totalBytes),
    ("entries", .arr (receipt.entries.map WorkspaceEntryReceipt.toJson))]

/-- `jsonb_array_length(dag_contract->'sequential_layout'->'steps')`. -/
def BuildRow.stepCount (build : BuildRow) : Option ℕ := do
  let layout ← (← build.dagContract).get "sequential_layout"
  return (← (← layout.get "steps").asArray).length

/-- `workspace::validate_checkpoint`. -/
def validateCheckpoint [Platform] (generation : ℤ) (snapshot : Option WorkspaceSnapshot)
    (receipt : Option WorkspaceSnapshotReceipt) (closed : Bool) (stepCount : ℕ) :
    Except StoreError (Option WorkspaceSnapshotReceipt) := do
  if ¬ (1 ≤ stepCount ∧ stepCount ≤ 64) ∨ ¬ (0 ≤ generation ∧ generation ≤ stepCount) then
    .error (.sequentialIntegrity "workspace checkpoint generation exceeds the build layout")
  else
    if let some receipt := receipt then workspaceInvalid receipt.validate
    if (generation = 0) ≠ (receipt = none) then
      .error (.sequentialIntegrity "workspace generation and receipt presence disagree")
    else if closed then
      if snapshot.isSome then
        .error (.sequentialIntegrity "closed workspace retained checkpoint bytes")
      else .ok receipt
    else
      match snapshot with
      | none => .error (.sequentialIntegrity "open workspace missing snapshot")
      | some snapshot =>
        let actual ← workspaceInvalid snapshot.receipt
        if generation = 0 then
          if snapshot.entries ≠ [] then
            .error (.sequentialIntegrity "initial workspace is not empty")
          else .ok receipt
        else if receipt ≠ some actual then
          .error (.sequentialIntegrity "workspace checkpoint differs from its durable receipt")
        else .ok receipt

/-- `WorkspaceGrant`, the checkpoint an attempt starts from. -/
structure WorkspaceGrant where
  organizationId : String
  buildId : String
  namespaceId : String
  generation : ℕ
  digest : Digest
  snapshot : WorkspaceSnapshot
  deriving DecidableEq

/-- `workspace::normalize`: the reported transfer, and the summary with its bytes replaced by their
receipt. -/
def normalizeTransfer [Platform] (summary : Json) :
    Except StoreError (Json × Option WorkspaceTransferResult) := do
  match summary.get "workspace_transfer" with
  | none => return (summary, none)
  | some value =>
    match WorkspaceTransferResult.ofJson value with
    | none => .error (.sequentialIntegrity "malformed workspace transfer")
    | some transfer =>
      workspaceInvalid transfer.validate
      let receipt ← match transfer.snapshot with
        | none => pure none
        | some snapshot => some <$> workspaceInvalid snapshot.receipt
      let normalized := Json.obj
        [("build_id", .str transfer.buildId), ("error", optionJson Json.str transfer.error),
          ("generation", .num transfer.generation),
          ("input_digest", transfer.inputDigest.toJson),
          ("namespace_id", .str transfer.namespaceId),
          ("organization_id", .str transfer.organizationId),
          ("receipt", optionJson WorkspaceSnapshotReceipt.toJson receipt),
          ("version", .num transfer.version)]
      return (summary.setField "workspace_transfer" normalized, some transfer)

namespace Store

/-- `workspace::grant` for a build that has a workspace. -/
def workspaceGrant [Platform] (s : Store) (buildId workspaceNamespace : Uuid) (build : BuildRow) :
    Except StoreError WorkspaceGrant := do
  match build.stepCount with
  | none => .error .database
  | some stepCount =>
    if build.workspaceClosed then
      .error (.sequentialIntegrity "closed workspace cannot be assigned")
    else
      match build.workspaceSnapshot with
      | none => .error (.sequentialIntegrity "missing workspace checkpoint")
      | some snapshot =>
        let _ ← validateCheckpoint build.workspaceGeneration (some snapshot)
          build.workspaceReceipt false stepCount
        let digest ← workspaceInvalid snapshot.digest
        let grant : WorkspaceGrant :=
          { organizationId := Uuid.toText s.organizationId, buildId := Uuid.toText buildId,
            namespaceId := Uuid.toText workspaceNamespace,
            generation := build.workspaceGeneration.toNat, digest, snapshot }
        workspaceInvalid (validateIdentity 1 grant.organizationId grant.buildId
          grant.namespaceId grant.generation)
        return grant

/-- `workspace::commit`. -/
def commitWorkspace [Platform] (s : Store) (buildId : Uuid)
    (transfer : Option WorkspaceTransferResult) (outcome : TerminalOutcome) :
    Except StoreError Store := do
  match s.builds.lookup buildId with
  | none => .error .database
  | some build =>
    match build.workspaceNamespace with
    | none =>
      if transfer.isSome then
        .error (.sequentialIntegrity "workspace transfer supplied for legacy build")
      else .ok s
    | some workspaceNamespace =>
      let current ← s.workspaceGrant buildId workspaceNamespace build
      match transfer with
      | none =>
        if outcome = .succeeded then
          .error (.sequentialIntegrity "successful workspace attempt omitted transfer")
        else .ok s
      | some transfer =>
        if transfer.organizationId ≠ current.organizationId
            ∨ transfer.buildId ≠ current.buildId
            ∨ transfer.namespaceId ≠ current.namespaceId
            ∨ transfer.generation ≠ current.generation
            ∨ transfer.inputDigest ≠ current.digest then
          .error (.sequentialIntegrity
            "workspace ownership or checkpoint generation mismatch")
        else
          match transfer.snapshot with
          | some snapshot =>
            let receipt ← workspaceInvalid snapshot.receipt
            .ok (s.modifyBuild buildId fun row =>
              { row with workspaceGeneration := row.workspaceGeneration + 1,
                         workspaceSnapshot := some snapshot,
                         workspaceReceipt := some receipt })
          | none =>
            if outcome = .succeeded then
              .error (.sequentialIntegrity
                "successful workspace attempt reported capture failure")
            else .ok s

/-! ## Affinity -/

/-- The work nodes of a build that satisfy a condition. -/
def anyWorkNode (s : Store) (buildId : Uuid) (p : Uuid → NodeRow → Bool) : Bool :=
  s.nodes.any fun id n => n.buildId = buildId && n.nodeKind = .work && p id n

/-- Whether the work nodes of a build share one agent's workspace: there are at least two, and all
of them require the affinity capability. -/
def sharesWorkspace (s : Store) (buildId : Uuid) (build : BuildRow) : Bool :=
  build.dagMode && 1 < s.countNodes buildId (fun n => n.nodeKind = .work) &&
    !s.anyWorkNode buildId fun _ n => !n.requiredCapabilities.contains workspaceAffinityCapability

/-- The column check on `workspace_affinity_agent_id`. -/
def affinityAgentAllowed (agentId : String) : Bool :=
  0 < agentId.length && agentId.length ≤ 512 &&
    agentId.toList.head? != some ' ' && agentId.toList.getLast? != some ' '

/-- `record_successful_agent`: pins the build to the agent, or checks the pin. -/
def recordSuccessfulAgent (s : Store) (buildId nodeId : Uuid) (agentId : String) :
    Except StoreError Store :=
  if (s.nodes.lookup nodeId).any fun n =>
      n.buildId = buildId && n.nodeKind = .work &&
        n.requiredCapabilities.contains workspaceAffinityCapability then
    match s.builds.lookup buildId with
    | none => .ok s
    | some build =>
      if s.sharesWorkspace buildId build && build.workspaceNamespace = none &&
          build.workspaceAffinityAgentId = none then
        if affinityAgentAllowed agentId then
          .ok (s.modifyBuild buildId fun row =>
            { row with workspaceAffinityAgentId := some agentId })
        else .error .database
      else
        match build.workspaceAffinityAgentId with
        | some existing =>
          if existing ≠ agentId then
            .error (.sequentialIntegrity
              s!"workspace affinity agent mismatch: pinned {existing}, got {agentId}")
          else .ok s
        | none => .ok s
  else .ok s

/-- Whether an agent's session is recent and can run a node of a build pinned to the agent. -/
def pinnedAgentServes (s : Store) (now : Timestamp) (agentId : String) (n : NodeRow) : Bool :=
  (s.agentSessions.lookup agentId).any fun session =>
    session.capabilities.contains workspaceAffinityCapability &&
      session.features.contains workspaceAffinityFeature &&
      n.requiredTrustPool = session.trustPool &&
      n.requiredCapabilities.all session.capabilities.contains &&
      session.updatedAt > now - seconds 300

/-- A queued work node of a build that stays with one agent. -/
def isQueuedAffinityWork (n : NodeRow) : Bool :=
  n.status = .queued && n.nodeKind = .work &&
    n.requiredCapabilities.contains workspaceAffinityCapability

/-- Whether a build's pinned agent is gone while affinity work waits for it. -/
def isOrphaned (s : Store) (now : Timestamp) (buildId : Uuid) (build : BuildRow) : Bool :=
  build.dagMode && (build.status = .queued || build.status = .running) &&
    build.workspaceNamespace = none && build.cancellationRequestedAt = none &&
    build.workspaceAffinityAgentId.any fun agentId =>
      (s.nodes.any fun id n => n.buildId = buildId && isQueuedAffinityWork n &&
        n.cancellationRequestedAt = none &&
        s.attempts.any fun _ a => a.nodeId = id && a.status = .queued) &&
      s.nodes.any fun _ n => n.buildId = buildId && isQueuedAffinityWork n &&
        !s.pinnedAgentServes now agentId n

/-- The terminal summary of work whose pinned agent is gone. -/
def agentGoneSummary (agentId : String) : Json :=
  .obj [("agent_id", .str agentId), ("reason", .str "workspace_affinity_agent_gone")]

/-- One iteration of `fail_orphaned_affinity_builds`. -/
def failOrphanedBuild (s : Store) (now : Timestamp) (buildId : Uuid) (agentId : String) : Store :=
  let s := s.updateAttemptsJoin
    (fun _ a n => n.buildId = buildId && (a.status = .queued || a.status = .offered) &&
      (n.status = .blocked || n.status = .queued || n.status = .offered))
    fun a => { a with status := .aborted, terminalSummary := some (agentGoneSummary agentId),
                      leaseExpiresAt := none }
  let s := s.updateNodes now
    (fun _ n => n.buildId = buildId &&
      (n.status = .blocked || n.status = .queued || n.status = .offered) &&
      n.logicalOutcome = none)
    fun n => { n with status := .aborted, logicalOutcome := some .aborted }
  let s := s.modifyBuild buildId fun row =>
    if row.status = .queued ∨ row.status = .running then { row with status := .failed } else row
  (s.appendEvent buildId (.buildWorkspaceAffinityAgentGone agentId)).recordTerminalNotifications
    now buildId .failed

/-- The builds that `fail_orphaned_affinity_builds` selects, with their pinned agents. -/
def orphanedBuilds (s : Store) (now : Timestamp) : List (Uuid × String) :=
  (s.builds.select (s.isOrphaned now)).filterMap fun (buildId, build) =>
    build.workspaceAffinityAgentId.map fun agentId => (buildId, agentId)

/-- `fail_orphaned_affinity_builds`. -/
def failOrphanedAffinityBuilds (s : Store) (now : Timestamp) : Store :=
  (s.orphanedBuilds now).foldl (fun s orphan => s.failOrphanedBuild now orphan.1 orphan.2) s

end Store

end McLoving
