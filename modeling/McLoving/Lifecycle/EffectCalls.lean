import McLoving.Lifecycle.Path

/-!
# The calls of an agent, as paths

For each call that has several ways to end, the list of these ways.  Then sessions, acceptance, the
start of work, renewal, recovery, log appends and the writes to the effect ledger as paths of
changes.
-/

namespace McLoving

open Option

/-- The primary key of a chunk. -/
def NewLogChunk.id (chunk : NewLogChunk) : LogChunkId :=
  ⟨chunk.authority.attemptId, chunk.authority.fence, chunk.sequence⟩

theorem isLive_of_isExecuting {status : AttemptStatus} (hexec : status.isExecuting = true) :
    status.isLive = true := by
  cases status <;> simp_all [AttemptStatus.isExecuting, AttemptStatus.isLive]

namespace Store

variable {s s' : Store}

/-- The rows that `joinedAttempt` finds. -/
theorem joinedAttempt_eq_some {a : Uuid} {r : AttemptRow} {n : NodeRow} {b : BuildRow} :
    s.joinedAttempt a = some (r, n, b) ↔ s.Holds a ⟨b, n, r⟩ := by
  simp only [joinedAttempt, bind_eq_bind, bind_eq_some_iff, pure_def,
    Option.some.injEq, Prod.mk.injEq]
  constructor
  · rintro ⟨r', hr, n', hn, b', hb, rfl, rfl, rfl⟩
    exact ⟨hr, hn, hb⟩
  · rintro ⟨hr, hn, hb⟩
    exact ⟨r, hr, n, hn, b, hb, rfl, rfl, rfl⟩

/-- The attempt is executing under the presented authority and an unexpired lease. -/
structure Executing (s : Store) (now : Timestamp) (authority : LeaseAuthority) (x : Rows) :
    Prop where
  holds : s.Holds authority.attemptId x
  lease : s.holdsLease authority x.attempt = true
  live : x.attempt.leaseLive now = true
  executing : x.attempt.status.isExecuting = true

/-! ## Log chunks -/

/-- The bytes counted for a fence of an attempt. -/
def accountedBytes (s : Store) (attemptId : Uuid) (fence : ℤ) : ℤ :=
  (s.logAccounting.lookup (attemptId, fence)).getD 0

section Append

variable [Platform] {now : Timestamp} {chunk redacted : NewLogChunk} {session : Option ℕ}

/-- The redaction changes nothing but the content; no granted secret is left in it, and where none
occurs it is as presented. -/
theorem redactChunk_spec (hredacted : s.redactChunk chunk = .ok redacted) :
    let secrets := s.grantedSecrets chunk.authority.attemptId chunk.authority.fence
    ∃ content, redacted = { chunk with content } ∧ Logs.Clean secrets content ∧
      (Logs.Clean secrets chunk.content → content = chunk.content) := by
  unfold redactChunk at hredacted
  split at hredacted
  · cases hredacted
  next content hok =>
  cases hredacted
  obtain ⟨-, hclean, hkept, -⟩ := Logs.redactToFixedPoint_spec hok
  exact ⟨content, rfl, hclean, hkept⟩

/-- The call reaches the tables: its session is current and allows the sequence, and its agent owns
the attempt under the attempt's restore epoch, which is the controller's. -/
structure MayAppend (s : Store) (chunk : NewLogChunk) (session : Option ℕ) : Prop where
  sequence : s.logSequenceAllowed chunk.authority.agentId session chunk.sequence = .ok true
  session : s.sessionAdmits chunk.authority.agentId session = .ok true
  owner : ∃ x, s.Holds chunk.authority.attemptId x ∧
    x.attempt.restoreEpoch = chunk.authority.restoreEpoch ∧
    x.attempt.restoreEpoch = s.restoreEpoch ∧ x.attempt.leaseOwner = some chunk.authority.agentId

/-- The chunk is the stored one as far as the store compares them. -/
structure Repeats (chunk : NewLogChunk) (row : LogChunkRow) : Prop where
  stream : row.stream = chunk.stream
  digest : row.digest = Platform.sha256 chunk.content
  stepOrdinal : row.stepOrdinal = chunk.stepOrdinal

/-- The chunk is inserted under a new key, within the quota. -/
def InsertsChunk (s : Store) (chunk : NewLogChunk) (s' : Store) : Prop :=
  ∃ buildId build, s.logChunks.lookup chunk.id = none ∧ s.builds.lookup buildId = some build ∧
    s.accountedBytes chunk.authority.attemptId chunk.authority.fence + chunk.content.length ≤
      maxAttemptLogBytes ∧ s' = s.insertLogChunk chunk buildId build

/-- The ways in which an append ends. -/
inductive AppendCase (s : Store) (chunk : NewLogChunk) (session : Option ℕ) : Store → Bool → Prop
  | refused : AppendCase s chunk session s false
  | repeated {redacted : NewLogChunk} {row : LogChunkRow} (hmay : s.MayAppend chunk session)
      (hredacted : s.redactChunk chunk = .ok redacted)
      (hrow : s.logChunks.lookup chunk.id = some row) (hrepeats : Repeats redacted row) :
      AppendCase s chunk session s true
  | inserted {redacted : NewLogChunk} {s' : Store} (hmay : s.MayAppend chunk session)
      (hredacted : s.redactChunk chunk = .ok redacted) (hinserts : s.InsertsChunk redacted s') :
      AppendCase s chunk session s' true

/-- Every append that returns ends in one of these ways. -/
theorem appendLog_cases {answer : Bool} (hok : s.appendLog now chunk session = .ok (s', answer)) :
    AppendCase s chunk session s' answer := by
  unfold appendLog at hok
  simp only at hok
  split at hok
  · cases hok
  · cases hok
    exact .refused
  next hsequence =>
  split at hok
  · cases hok
  · cases hok
    exact .refused
  next hsession =>
  split at hok
  · cases hok
  next redacted hredacted =>
  obtain ⟨content, rfl, -⟩ := redactChunk_spec hredacted
  split at hok
  · cases hok
    exact .refused
  next attempt node build hjoined =>
  have hx := joinedAttempt_eq_some.mp hjoined
  split at hok
  · next row hrow =>
    obtain ⟨rfl, hsame⟩ := Prod.mk.inj (Except.ok.inj hok)
    cases answer with
    | false => exact .refused
    | true =>
      simp only [Bool.and_eq_true, decide_eq_true_eq] at hsame
      obtain ⟨⟨⟨⟨⟨hepoch, hlive⟩, howner⟩, hstream⟩, hdigest⟩, hstep⟩ := hsame
      exact .repeated ⟨hsequence, hsession, _, hx, hepoch, hlive, howner⟩ hredacted hrow
        ⟨hstream, hdigest, hstep⟩
  next hfresh =>
  split at hok
  · cases hok
    exact .refused
  next hquota =>
  split at hok
  · cases hok
    exact .refused
  next hlease =>
  split at hok
  · cases hok
    simp only [Bool.not_eq_true', Bool.not_eq_false, Bool.and_eq_true, holdsLease,
      decide_eq_true_eq] at hlease
    obtain ⟨⟨⟨⟨⟨-, hepoch⟩, hlive⟩, howner⟩, -⟩, -⟩ := hlease
    refine .inserted ⟨hsequence, hsession, _, hx, hepoch, hlive, howner⟩ hredacted
      ⟨_, _, hfresh, hx.build, ?_, rfl⟩
    rw [Bool.not_eq_true, Bool.not_eq_false'] at hquota
    simp only [logQuotaAllows, Bool.and_eq_true, decide_eq_true_eq] at hquota
    exact (min_le_iff.mp hquota.2).resolve_right (by decide)
  · cases hok

variable (s now chunk session) in
/-- An append changes nothing or inserts a chunk. -/
theorem after_appendLog : s.after (s.appendLog now chunk session) = s ∨
    s.MayAppend chunk session ∧ ∃ redacted, s.redactChunk chunk = .ok redacted ∧
      s.InsertsChunk redacted (s.after (s.appendLog now chunk session)) := by
  rcases hcall : s.appendLog now chunk session with error | ⟨s', answer⟩
  · exact .inl rfl
  cases appendLog_cases hcall with
  | refused => exact .inl rfl
  | repeated => exact .inl rfl
  | inserted hmay hredacted hinserts => exact .inr ⟨hmay, _, hredacted, hinserts⟩

end Append

/-! ## Finalization -/

/-- The outcome a finalization publishes: an attempt that was cancelled ends as aborted if its
agent knows about cancellation. -/
def publishedOutcome (x : Rows) (outcome : TerminalOutcome) (cancellationAborts : Bool) :
    TerminalOutcome :=
  if cancellationAborts &&
      (x.attempt.status = .cancelling || x.node.cancellationRequestedAt.isSome) then .aborted
  else outcome

/-- The summary a finalization stores. -/
def recordedSummary (x : Rows) (outcome : TerminalOutcome) (summary : Json)
    (cancellationAborts : Bool) : Json :=
  if cancellationAborts &&
      (x.attempt.status = .cancelling || x.node.cancellationRequestedAt.isSome) then
    cancelledSummary outcome summary
  else summary

/-- The ways in which `finalizeAttempt` ends. -/
inductive FinalizeCase [Platform] (s : Store) (now : Timestamp) (retryId : Uuid)
    (authority : LeaseAuthority) (outcome : TerminalOutcome) (summary : Json)
    (cancellationAborts : Bool) : Store → Option TerminalOutcome → Prop
  | refused : FinalizeCase s now retryId authority outcome summary cancellationAborts s none
  | replayed {x : Rows} {normal : Json} {transfer : Option WorkspaceTransferResult}
      (hx : s.Holds authority.attemptId x) (hlease : s.holdsLease authority x.attempt = true)
      (hterminal : x.attempt.status.isTerminal = true)
      (hnormal : normalizeTransfer summary = .ok (normal, transfer)) :
      FinalizeCase s now retryId authority outcome summary cancellationAborts s
        (replayedOutcome x.attempt outcome normal cancellationAborts)
  | parked {x : Rows} (hexec : s.Executing now authority x)
      (huncertain : 0 < s.countUncertain authority.attemptId authority.fence) :
      FinalizeCase s now retryId authority outcome summary cancellationAborts
        (s.parkTerminal now authority x.attempt x.node
          (publishedOutcome x outcome cancellationAborts)
          (s.countUncertain authority.attemptId authority.fence)) none
  | published {x : Rows} {normal : Json} {transfer : Option WorkspaceTransferResult}
      {closed : Store} (hexec : s.Executing now authority x)
      (hnormal : normalizeTransfer summary = .ok (normal, transfer))
      (hcertain : s.countUncertain authority.attemptId authority.fence = 0)
      (hcomplete : (s.effects.any fun id e => id.attemptId = authority.attemptId &&
        id.fence = authority.fence &&
          e.isIncomplete (publishedOutcome x outcome cancellationAborts)) = false)
      (hpublish : s.publishTerminal now retryId authority x.attempt x.node
        (publishedOutcome x outcome cancellationAborts)
        (recordedSummary x outcome normal cancellationAborts) transfer = .ok closed) :
      FinalizeCase s now retryId authority outcome summary cancellationAborts closed
        (some (publishedOutcome x outcome cancellationAborts))

/-- Every finalization that returns ends in one of these ways. -/
theorem finalizeAttempt_cases [Platform] {now : Timestamp} {retryId : Uuid}
    {authority : LeaseAuthority} {session : Option ℕ} {outcome : TerminalOutcome} {summary : Json}
    {cancellationAborts : Bool} {answer : Option TerminalOutcome}
    (hok : s.finalizeAttempt now retryId authority session outcome summary cancellationAborts =
      .ok (s', answer)) :
    FinalizeCase s now retryId authority outcome summary cancellationAborts s' answer := by
  unfold finalizeAttempt at hok
  split at hok
  · cases hok
  next normal transfer hnormal =>
  split at hok
  · cases hok
  · cases hok
    exact .refused
  split at hok
  · cases hok
    exact .refused
  next attempt node build hjoin =>
  have hx := joinedAttempt_eq_some.mp hjoin
  split at hok
  · cases hok
    exact .refused
  next hlease =>
  rw [Bool.not_eq_true, Bool.not_eq_false'] at hlease
  split at hok
  · next hterminal =>
    cases hok
    exact .replayed hx hlease hterminal hnormal
  split at hok
  · cases hok
    exact .refused
  next hlive =>
  simp only [Bool.not_eq_true, Bool.not_eq_false', Bool.and_eq_true] at hlive
  have hexec : s.Executing now authority ⟨build, node, attempt⟩ := ⟨hx, hlease, hlive.1, hlive.2⟩
  dsimp only at hok
  by_cases huncertain : 0 < s.countUncertain authority.attemptId authority.fence
  · rw [if_pos huncertain] at hok
    cases hok
    exact .parked hexec huncertain
  rw [if_neg huncertain] at hok
  by_cases hcomplete : (s.effects.any fun id e => id.attemptId = authority.attemptId &&
      id.fence = authority.fence && e.isIncomplete
        (publishedOutcome ⟨build, node, attempt⟩ outcome cancellationAborts)) = true
  · rw [publishedOutcome] at hcomplete
    rw [if_pos hcomplete] at hok
    cases hok
    exact .refused
  cases hpublish : s.publishTerminal now retryId authority attempt node
      (publishedOutcome ⟨build, node, attempt⟩ outcome cancellationAborts)
      (recordedSummary ⟨build, node, attempt⟩ outcome normal cancellationAborts) transfer with
  | error error =>
    rw [publishedOutcome] at hcomplete hpublish
    rw [recordedSummary] at hpublish
    rw [if_neg hcomplete, hpublish] at hok
    cases hok
  | ok closed =>
    have hclosed := hpublish
    have hincomplete := hcomplete
    rw [publishedOutcome] at hcomplete hpublish
    rw [recordedSummary] at hpublish
    rw [if_neg hcomplete, hpublish] at hok
    cases hok
    exact .published hexec hnormal (Nat.eq_zero_of_not_pos huncertain)
      (Bool.eq_false_of_not_eq_true hincomplete) hclosed

/-- The checks of the operator's decision on a parked attempt. -/
structure Reconcilable (s : Store) (attemptId : Uuid) (fence : ℤ) (outcome : TerminalOutcome)
    (x : Rows) : Prop where
  holds : s.Holds attemptId x
  fence : x.attempt.fence = fence
  parked : x.attempt.status = .reconciliationRequired
  current : ¬ s.Superseded attemptId
  undead : s.deadLetters.lookup attemptId = none
  resolved : (s.effects.any fun id e => id.attemptId = attemptId &&
    (e.isUnresolved || e.isIncomplete outcome)) = false

/-- Whether an attempt has a retry, as the queries ask it. -/
theorem any_retryOf_eq_true {a : Uuid} :
    (s.attempts.any fun _ child => child.retryOf = some a) = true ↔ s.Superseded a := by
  simp only [Table.any_eq_true, decide_eq_true_eq]
  rfl

/-- The ways in which `finalizeReconciledAttempt` ends. -/
inductive ReconcileCase (s : Store) (now : Timestamp) (retryId attemptId : Uuid) (fence : ℤ)
    (actor : String) (outcome : TerminalOutcome) (summary : Json) : Store → Bool → Prop
  | refused : ReconcileCase s now retryId attemptId fence actor outcome summary s false
  | replayed
      (hdecided : s.hasReconciliationDecision attemptId fence actor outcome summary = true) :
      ReconcileCase s now retryId attemptId fence actor outcome summary s true
  | published {x : Rows} {closed : Store} (hreconcilable : s.Reconcilable attemptId fence outcome x)
      (hverified : s.claimsUnverifiedOutput x.node x.build outcome summary = false)
      (hundecided : s.hasReconciliationDecision attemptId fence actor outcome summary = false)
      (hpublish : s.publishReconciled now retryId attemptId x.attempt x.node actor outcome summary =
        .ok closed) :
      ReconcileCase s now retryId attemptId fence actor outcome summary closed true

/-- Every decision that returns ends in one of these ways. -/
theorem finalizeReconciledAttempt_cases {now : Timestamp} {retryId attemptId : Uuid} {fence : ℤ}
    {actor : String} {outcome : TerminalOutcome} {summary : Json} {answer : Bool}
    (hok : s.finalizeReconciledAttempt now retryId attemptId fence actor outcome summary =
      .ok (s', answer)) :
    ReconcileCase s now retryId attemptId fence actor outcome summary s' answer := by
  unfold finalizeReconciledAttempt at hok
  split at hok
  · cases hok
    exact .refused
  split at hok
  · cases hdecided : s.hasReconciliationDecision attemptId fence actor outcome summary <;>
      rw [hdecided] at hok <;> cases hok
    · exact .refused
    · exact .replayed hdecided
  next attempt node build hjoin =>
  split at hok
  · cases hok
    exact .refused
  next hverified =>
  split at hok
  · next hdecided =>
    cases hok
    exact .replayed hdecided
  next hundecided =>
  split at hok
  · next hchecked =>
    simp only [Bool.and_eq_true, Bool.not_eq_true', decide_eq_true_eq, isNone_iff_eq_none]
      at hchecked
    obtain ⟨⟨⟨⟨⟨hfence, hparked⟩, -⟩, hchild⟩, hundead⟩, hresolved⟩ := hchecked
    split at hok
    · cases hok
    next closed hpublish =>
    cases hok
    refine .published ⟨joinedAttempt_eq_some.mp hjoin, hfence, hparked, fun hsup => ?_, hundead,
      hresolved⟩ (Bool.eq_false_of_not_eq_true hverified)
      (Bool.eq_false_of_not_eq_true hundecided) hpublish
    rw [any_retryOf_eq_true.mpr hsup] at hchild
    cases hchild
  · cases hok
    exact .refused

end Store

end McLoving

namespace McLoving.Store

variable {own : Prop} {s s' : Store}

/-- A path followed by a report. -/
theorem Changes.report (hpath : Changes own s s') (buildId : Uuid) {payload : EventPayload}
    (hpayload : payload.isOffer = false) : Changes own s (s'.appendEvent buildId payload) :=
  hpath.trans (.single (.frame (frame_appendEvent s' buildId hpayload)))

/-- A change of sessions, logs, recovery points and the like. -/
theorem Changes.of_frame (hframe : s.Frame s') : Changes own s s' := .single (.frame hframe)

/-- The stores that differ in what no change is about. -/
theorem frame_of_eq (hrest : s.SameRest s') (hnodes : s'.nodes = s.nodes)
    (hdependencies : s'.dependencies = s.dependencies) (hbuilds : s'.builds = s.builds)
    (hattempts : s'.attempts = s.attempts) (hevents : s'.events = s.events) : s.Frame s' :=
  ⟨hrest, hnodes, hdependencies, fun _ => by rw [hbuilds], .of_eq hbuilds,
    fun _ => by rw [hattempts], [], hevents, Quiet.nil⟩

theorem changes_openAgentSession (now : Timestamp) (agentId trustPool : String) (sessionEpoch : ℕ)
    (features capabilities : List String) :
    Changes own s (s.after (s.openAgentSession now agentId trustPool sessionEpoch features
      capabilities)) := by
  unfold openAgentSession
  split
  · split
    · exact .of_frame (frame_of_eq ⟨rfl, rfl, rfl, rfl, rfl⟩ rfl rfl rfl rfl rfl)
    · exact .refl s
  · exact .refl s

theorem changes_authorizeAgentSession (now : Timestamp) (agentId : String) (sessionEpoch : ℕ) :
    Changes own s (s.after (s.authorizeAgentSession now agentId sessionEpoch)) := by
  unfold authorizeAgentSession
  split
  · exact .refl s
  · exact .refl s
  · exact .of_frame (frame_of_eq ⟨rfl, rfl, rfl, rfl, rfl⟩ rfl rfl rfl rfl rfl)

/-- Only an attempt that is not parked, failed or aborted is executing or offered. -/
theorem Coherent.not_superseded_of_isLive (hco : s.Coherent) {a : Uuid} {r : AttemptRow}
    (hr : s.attempts.lookup a = some r) (hlive : r.status.isLive = true) : ¬ s.Superseded a := by
  refine hco.not_superseded hr ?_
  rintro (h | h | h) <;> simp [h, AttemptStatus.isLive] at hlive

/-- An accepted offer is moved. -/
theorem changes_acceptOffer (hco : s.Coherent) (now : Timestamp) (authority : LeaseAuthority)
    (session : Option ℕ) : Changes own s (s.after (s.acceptOffer now authority session)) := by
  unfold acceptOffer
  split
  · exact .refl s
  · exact .refl s
  split
  · exact .refl s
  next attempt node build hjoin =>
  have hx := joinedAttempt_eq_some.mp hjoin
  split
  · exact .refl s
  split
  · exact .refl s
  simp only
  split
  · exact .refl s
  next hoffered =>
  rw [not_not] at hoffered
  have hlive : attempt.status.isLive = true := by rw [hoffered]; rfl
  have htouch := hx.touches_node (f := fun a => { a with status := .accepted })
    (p := fun id _ => id = attempt.nodeId) (g := fun n => { n with status := .running }) rfl
    (fun _ _ _ => by simp) rfl now
  rw [translateRetryReadiness_eq _ _ (.inr (by simp))] at htouch
  refine Changes.report (.single (.move htouch ⟨rfl, rfl, rfl, rfl, rfl⟩
    (hco.not_superseded_of_isLive hx.attempt hlive) (.start ?_ rfl Quiet.nil) rfl)) _ rfl
  exact .inl ⟨hoffered, rfl⟩

/-- An accepted attempt is moved. -/
theorem changes_markAttemptRunning (hco : s.Coherent) (now : Timestamp)
    (authority : LeaseAuthority) (session : Option ℕ) :
    Changes own s (s.after (s.markAttemptRunning now authority session)) := by
  unfold markAttemptRunning
  split
  · exact .refl s
  · exact .refl s
  split
  · exact .refl s
  next attempt node build hjoin =>
  have hx := joinedAttempt_eq_some.mp hjoin
  split
  · exact .refl s
  next hauthority =>
  split
  · exact .refl s
  split
  · exact .refl s
  next hrunning =>
  have haccepted : attempt.status = .accepted := by
    simp only [Bool.not_eq_true, Bool.not_eq_false', Bool.and_eq_true, Bool.or_eq_true,
      decide_eq_true_eq] at hauthority
    exact hauthority.2.resolve_right hrunning
  have hlive : attempt.status.isLive = true := by rw [haccepted]; rfl
  have hcur := hco.not_superseded_of_isLive hx.attempt hlive
  have hnode : node.status = .running := by
    have hphase := (hco.ok hx.attempt hx.node hx.build hcur).phase
    cases hdag : build.dagMode <;> simp_all [Phase, DagPhase, SoloPhase]
  have hone : ∀ id n, s.nodes.lookup id = some n → ((decide (id = attempt.nodeId) &&
        (decide (n.status = .offered) || decide (n.status = .running))) = true ↔
          id = attempt.nodeId) := by
    intro id n hn
    simp only [Bool.and_eq_true, Bool.or_eq_true, decide_eq_true_eq, and_iff_left_iff_imp]
    rintro rfl
    rw [hx.node] at hn
    exact .inr (Option.some.inj hn ▸ hnode)
  have htouch := hx.touches_node (f := fun a => { a with status := .running })
    (g := fun n => { n with status := .running }) rfl hone rfl now
  rw [translateRetryReadiness_eq _ _ (.inr (by simp))] at htouch
  refine Changes.report (.single (.move htouch ⟨rfl, rfl, rfl, rfl, rfl⟩ hcur
    (.start ?_ rfl Quiet.nil) rfl)) _ rfl
  exact .inr ⟨haccepted, rfl⟩

theorem changes_recordLeaseRenewalRejection (attemptId : Uuid) (fence : ℤ)
    (agentId cause : String) :
    Changes own s (s.recordLeaseRenewalRejection attemptId fence agentId cause) := by
  unfold recordLeaseRenewalRejection
  split
  · exact .refl s
  · split
    · exact .of_frame (frame_appendEvent s _ rfl)
    · exact .refl s

theorem changes_recordLiveLeaseRenewalRejection (now : Timestamp) (attemptId : Uuid) (fence : ℤ)
    (agentId cause : String) :
    Changes own s (s.after (s.recordLiveLeaseRenewalRejection now attemptId fence agentId
      cause)) := by
  unfold recordLiveLeaseRenewalRejection
  split
  · exact changes_recordLeaseRenewalRejection attemptId fence agentId cause
  · exact .refl s

/-- A new deadline of a lease changes nothing else. -/
theorem frame_renewed (s : Store) (a : Uuid) (expiry : Option Timestamp) :
    s.Frame (s.modifyAttempt a fun r => { r with leaseExpiresAt := expiry }) := by
  refine ⟨⟨rfl, rfl, rfl, rfl, rfl⟩, rfl, rfl, fun _ => rfl, .of_eq rfl, fun a' => ?_, [], rfl,
    Quiet.nil⟩
  rw [modifyAttempt_attempts, Table.lookup_modify]
  split
  · rw [Option.map_map]
    rfl
  · rfl

/-- A renewal changes only the end of the lease. -/
theorem changes_renewAttemptLease (now : Timestamp) (authority : LeaseAuthority)
    (session : Option ℕ) (leaseSeconds : ℤ) :
    Changes own s (s.after (s.renewAttemptLease now authority session leaseSeconds)) := by
  unfold renewAttemptLease
  split
  · exact .refl s
  split
  · exact .refl s
  · exact changes_recordLeaseRenewalRejection _ _ _ _
  split
  · exact .refl s
  split
  · exact .refl s
  split
  · exact .of_frame (s.frame_renewed _ _)
  split
  · exact .refl s
  · exact changes_recordLeaseRenewalRejection _ _ _ _

/-- Recovery moves an attempt to the agent's local phase. -/
theorem changes_recoverAgentFinalization (hco : s.Coherent) (now : Timestamp)
    (authority : LeaseAuthority) (session : Option ℕ) (localPhase : Option RecoveryPhase)
    (leaseSeconds : ℤ) :
    Changes own s (s.after (s.recoverAgentFinalization now authority session localPhase
      leaseSeconds)) := by
  unfold recoverAgentFinalization
  split
  · exact .refl s
  next phase =>
  split
  · exact .refl s
  split
  · exact .refl s
  · exact .refl s
  split
  · exact .refl s
  next attempt hattempt =>
  split
  · exact .refl s
  split
  · next hstatus =>
    obtain ⟨node, hnode⟩ := hco.node hattempt
    obtain ⟨build, hbuild⟩ := hco.build hnode
    have hx : s.Holds authority.attemptId ⟨build, node, attempt⟩ := ⟨hattempt, hnode, hbuild⟩
    have hlive : attempt.status.isLive = true := by
      cases hfrom : attempt.status <;>
        simp_all [recoverableFinalizationStatus, AttemptStatus.isLive]
    have htouch := hx.touches_attempt (f := fun a =>
      { a with status := phase.attemptStatus, leaseExpiresAt := some (now + seconds leaseSeconds) })
      rfl
    exact .single (.move htouch ⟨rfl, rfl, rfl, rfl, rfl⟩
      (hco.not_superseded_of_isLive hattempt hlive)
      (.recover hstatus rfl Quiet.nil) rfl)
  · exact .refl s

theorem keepsPins_insertLogChunk [Platform] (s : Store) (chunk : NewLogChunk) (buildId : Uuid)
    (build : BuildRow) : s.KeepsPins (s.insertLogChunk chunk buildId build) := by
  refine KeepsPins.of_modify
    (f := fun b => { b with committedLogPosition := build.committedLogPosition + 1 }) rfl ?_
  exact fun _ _ _ hpin => hpin

/-- A log chunk is in no column that the changes are about. -/
theorem changes_appendLog [Platform] (now : Timestamp) (chunk : NewLogChunk)
    (session : Option ℕ) : Changes own s (s.after (s.appendLog now chunk session)) := by
  obtain heq | ⟨-, redacted, -, buildId, build, -, -, -, heq⟩ := after_appendLog s now chunk session
  · rw [heq]
    exact .refl s
  rw [heq]
  refine .of_frame ⟨⟨rfl, rfl, rfl, rfl, rfl⟩, rfl, rfl, fun id => ?_,
    keepsPins_insertLogChunk s chunk _ _, fun _ => rfl, [], rfl, Quiet.nil⟩
  simp only [insertLogChunk, modifyBuild_builds, Table.lookup_modify]
  split
  · rw [Option.map_map]
    rfl
  · rfl

open Option Table

variable {id : EffectId} {e : EffectRow}

/-- A write to one effect. -/
theorem writesLedger_modifyEffect {f : EffectRow → EffectRow}
    (he : s.effects.lookup id = some e) (hwrite : EffectWrite s id e (f e)) :
    s.WritesLedger (s.modifyEffect id f) where
  rest := rfl
  written {id' e'} he' := by
    rw [modifyEffect_effects, lookup_modify_of_eq he]
    split
    · next heq =>
      subst heq
      obtain rfl := mem_unique he he'
      exact ⟨f e, rfl, hwrite⟩
    · exact ⟨e', he', .keep rfl⟩
  fresh {id' e'} he' hnone := by
    rw [modifyEffect_effects, lookup_modify, hnone] at he'
    simp at he'

variable {authority : LeaseAuthority} {r : AttemptRow}

/-- The rows of an attempt that an executing lease authorizes. -/
theorem executingAttempt_eq_some {now : Timestamp} {n : NodeRow} {b : BuildRow}
    (hexec : s.executingAttempt now authority = some (r, n, b)) :
    s.Holds authority.attemptId ⟨b, n, r⟩ ∧ s.holdsLease authority r = true ∧
      r.leaseLive now = true ∧ r.status.isExecuting = true := by
  rw [executingAttempt, filter_eq_some_iff] at hexec
  obtain ⟨hjoin, hauthority⟩ := hexec
  simp only [Bool.and_eq_true] at hauthority
  exact ⟨joinedAttempt_eq_some.mp hjoin, hauthority.1.1, hauthority.1.2, hauthority.2⟩

/-- The presented fence is the attempt's. -/
theorem fence_of_holdsLease (hlease : s.holdsLease authority r = true) :
    r.fence = authority.fence := by
  simp only [holdsLease, Bool.and_eq_true, decide_eq_true_eq] at hlease
  exact hlease.1.1.1

theorem isOpen_of_isExecuting {status : AttemptStatus} (hexec : status.isExecuting = true) :
    status.isOpen = true := by
  cases status <;> simp_all [AttemptStatus.isExecuting, AttemptStatus.isOpen, AttemptStatus.isLive]

/-- A checkpoint prepares an effect or takes it one status further under the executing lease. -/
theorem change_checkpointEffect [Platform] (now : Timestamp) (authority : LeaseAuthority)
    (effectKey : String) (effectClass : EffectClass) (status : EffectStatus) (payload : Json) :
    Change True s (s.after (s.checkpointEffect now authority effectKey effectClass status
      payload)) := by
  unfold checkpointEffect
  split
  · exact .refl s
  split
  · exact .refl s
  next attempt node build hexec =>
  obtain ⟨hx, hlease, -, hexecuting⟩ := executingAttempt_eq_some hexec
  simp only
  split
  · next existing he =>
    split
    · exact .refl s
    next hchecked =>
    split
    · exact .refl s
    split
    · exact .refl s
    rw [Bool.not_eq_true, Bool.not_eq_false'] at hchecked
    simp only [Bool.and_eq_true, Bool.not_eq_true', Bool.and_eq_false_iff, Bool.or_eq_false_iff,
      decide_eq_false_iff_not] at hchecked
    obtain ⟨⟨⟨-, hevidence⟩, hcommitted⟩, hvalid⟩ := hchecked
    refine .write (writesLedger_modifyEffect he
      (.advance hx.attempt (isOpen_of_isExecuting hexecuting) hvalid ?_ ?_ rfl))
    · intro hne
      exact hcommitted.resolve_left (by simpa using hne)
    · intro hsome
      exact hevidence.resolve_right (by simp [hsome])
  · next hnone =>
    split
    · exact .refl s
    split
    · exact .refl s
    refine .write ⟨rfl, fun {id e} he => ⟨e, ?_, .keep rfl⟩, fun {id e'} he' hfresh => ?_⟩
    · refine (AList.lookup_insert_ne ?_).trans he
      rintro rfl
      rw [hnone] at he
      cases he
    · rcases lookup_insert_cases he' with ⟨rfl, rfl⟩ | ⟨-, hold⟩
      · exact ⟨rfl, rfl, rfl, attempt, hx.attempt, hexecuting, fence_of_holdsLease hlease⟩
      · rw [hfresh] at hold
        cases hold

/-- A dispatch is committed under the executing lease and without a stop of the work. -/
theorem change_commitEffectDispatch [Platform] (now : Timestamp) (authority : LeaseAuthority)
    (effectKey : String) (effectClass : EffectClass) (payload : Json) :
    Change True s (s.after (s.commitEffectDispatch now authority effectKey effectClass
      payload)) := by
  unfold commitEffectDispatch
  split
  · exact .refl s
  split
  · exact .refl s
  next attempt node build hexec =>
  obtain ⟨hx, hlease, -, hexecuting⟩ := executingAttempt_eq_some hexec
  split
  · exact .refl s
  simp only
  split
  · exact .refl s
  next e he =>
  split
  · next hchecked =>
    simp only [Bool.and_eq_true, Bool.or_eq_true, Bool.not_eq_true', decide_eq_true_eq] at hchecked
    obtain ⟨⟨⟨⟨-, hprepared⟩, -⟩, hevidence⟩, hfresh⟩ := hchecked
    refine .write (writesLedger_modifyEffect he (.commit hx hexecuting
      (fence_of_holdsLease hlease) hprepared hevidence (fun hnone => ?_) rfl))
    exact hfresh.resolve_left (by simp [hnone])
  · exact .refl s

/-- Evidence is added once, by the executing agent or for a parked attempt. -/
theorem change_appendEffectEvidence [Platform] (now : Timestamp) (authority : LeaseAuthority)
    (effectKey : String) (kind : EffectEvidenceKind) (receipt : Json) :
    Change True s (s.after (s.appendEffectEvidence now authority effectKey kind receipt)) := by
  unfold appendEffectEvidence
  split
  · exact .refl s
  split
  · exact .refl s
  next attempt node build hjoin =>
  have hx := joinedAttempt_eq_some.mp hjoin
  split
  · exact .refl s
  next hauthority =>
  split
  · exact .refl s
  simp only
  split
  · exact .refl s
  next e he =>
  split
  · exact .refl s
  next haccepts =>
  rw [Bool.not_eq_true, Bool.not_eq_false'] at haccepts
  split
  · exact .refl s
  next hnone =>
  have hopen : attempt.status.isOpen = true := by
    simp only [Bool.not_eq_true, Bool.not_eq_false', Bool.and_eq_true, Bool.or_eq_true,
      decide_eq_true_eq, isReconciling] at hauthority
    rcases hauthority.2 with hlease | hparked
    · exact isOpen_of_isExecuting hlease.2
    · simp [AttemptStatus.isOpen, hparked.1.1.1]
  exact .write (writesLedger_modifyEffect he
    (.evidence hx.attempt hopen haccepts hnone rfl))

theorem isOpen_of_reconcilesFence {fence : ℤ} (hreconciles : s.reconcilesFence r fence = true) :
    r.status.isOpen = true := by
  simp only [reconcilesFence, isReconciling, Bool.and_eq_true, decide_eq_true_eq] at hreconciles
  simp [AttemptStatus.isOpen, hreconciles.1.1.1]

/-- An uncertain effect of a parked attempt is confirmed. -/
theorem change_confirmUncertainEffect [Platform] (id : EffectId) (effectClass : EffectClass)
    (payload : Json) :
    Change True s (s.after (s.confirmUncertainEffect id effectClass payload)) := by
  unfold confirmUncertainEffect
  split
  · exact .refl s
  split
  · next e attempt he hattempt =>
    split
    · next hchecked =>
      simp only [Bool.and_eq_true, Bool.or_eq_true, decide_eq_true_eq] at hchecked
      obtain ⟨⟨-, hstatus⟩, hreconciles⟩ := hchecked
      refine .write (writesLedger_modifyEffect he
        (.advance hattempt (isOpen_of_reconcilesFence hreconciles) ?_ (by simp) (by simp) rfl))
      rcases hstatus with hstatus | hstatus <;> rw [hstatus] <;> rfl
    · exact .refl s
  · exact .refl s

/-- An effect that was not dispatched is released, or its release is left pending. -/
theorem change_recordUndispatchedRelease [Platform] (now : Timestamp)
    (authority : LeaseAuthority) (effectKey : String) (effectClass : EffectClass) (payload : Json)
    (released : Bool) :
    Change True s (s.after (s.recordUndispatchedRelease now authority effectKey effectClass
      payload released)) := by
  unfold recordUndispatchedRelease
  split
  · exact .refl s
  simp only
  split
  · next e attempt node build he hjoin =>
    split
    · next hchecked =>
      simp only [Bool.and_eq_true, Bool.or_eq_true, decide_eq_true_eq] at hchecked
      obtain ⟨⟨⟨-, hstatus⟩, hundispatched⟩, -⟩ := hchecked
      refine .write (writesLedger_modifyEffect he ?_)
      rcases hstatus with hopen | ⟨rfl, habandoned⟩
      · exact .release hundispatched (or_assoc.mp hopen) (by cases released <;> simp) rfl
      · exact .keep (by simp [← habandoned])
    · exact .refl s
  · exact .refl s

/-- A pending release whose lease has expired is abandoned. -/
theorem change_abandonExpiredReleasePending [Platform] (now : Timestamp) (id : EffectId)
    (effectClass : EffectClass) (payload : Json) :
    Change True s (s.after (s.abandonExpiredReleasePending now id effectClass payload)) := by
  unfold abandonExpiredReleasePending
  split
  · exact .refl s
  split
  · next e attempt he hattempt =>
    split
    · next hchecked =>
      simp only [Bool.and_eq_true, Bool.or_eq_true, decide_eq_true_eq] at hchecked
      obtain ⟨⟨⟨⟨-, hstatus⟩, hundispatched⟩, -⟩, -⟩ := hchecked
      refine .write (writesLedger_modifyEffect he ?_)
      rcases hstatus with hpending | habandoned
      · exact .release hundispatched (.inr (.inr hpending)) (.inl rfl) rfl
      · exact .keep (by simp [← habandoned])
    · exact .refl s
  · exact .refl s

/-- Open effects of one attempt become uncertain. -/
theorem change_uncertain {p : EffectId → EffectRow → Bool} {a : Uuid}
    (hr : s.attempts.lookup a = some r) (hopen : r.status.isOpen = true)
    (hp : ∀ id e, p id e = true → id.attemptId = a ∧ (e.status = .prepared ∨ e.status = .applied)) :
    Change own s { s with effects := s.effects.update p fun _ e =>
      { e with status := .uncertain } } := by
  refine .ledger ⟨rfl, fun {id e} he => ?_, fun {id e'} he' hnone => ?_⟩ (.inr fun id => ?_)
  · simp only [lookup_update, he, map_some]
    split
    · next hpe =>
      obtain ⟨ha, hstatus⟩ := hp id e hpe
      refine ⟨_, rfl, .advance (ha ▸ hr) hopen ?_ (by simp) (by simp) rfl⟩
      rcases hstatus with hstatus | hstatus <;> rw [hstatus] <;> rfl
    · exact ⟨e, rfl, .keep rfl⟩
  · simp [hnone] at he'
  · rcases he : s.effects.lookup id with _ | e
    · simp [he]
    · by_cases hpe : p id e = true
      · simp [he, hpe, EffectRow.doubted, (hp id e hpe).2]
      · simp [he, hpe]

end McLoving.Store
