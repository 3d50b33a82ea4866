import McLoving.Lifecycle.Sweep

/-!
# Paths of changes

A transaction is a path of changes.  This file has the rules for composing paths, the paths of the
routines that several calls share, and those of ending an attempt: an automatic retry, the
settlement of a DAG node with what follows for its peers, or the result of a single-node build.
-/

namespace McLoving.Store

open Table

variable {own : Prop} {s s' s'' : Store}

/-- Finitely many changes lead from the first store to the second. -/
def Changes (own : Prop) : Store → Store → Prop :=
  Relation.ReflTransGen (Change own)

namespace Changes

theorem refl (s : Store) : Changes own s s := Relation.ReflTransGen.refl

theorem single (hchange : Change own s s') : Changes own s s' :=
  Relation.ReflTransGen.single hchange

theorem trans (hfst : Changes own s s') (hsnd : Changes own s' s'') : Changes own s s'' :=
  Relation.ReflTransGen.trans hfst hsnd

/-- What every change of a coherent store preserves, every path preserves. -/
theorem invariant {inv : Store → Prop}
    (hstep : ∀ {s s'}, s.Coherent → Change own s s' → inv s → inv s')
    (hpath : Changes own s s') (hco : s.Coherent) (hinv : inv s) : s'.Coherent ∧ inv s' := by
  induction hpath with
  | refl => exact ⟨hco, hinv⟩
  | tail _ hlast ih => exact ⟨hlast.coherent ih.1, hstep ih.1 hlast ih.2⟩

/-- A reflexive and transitive relation that holds across every change of a coherent store holds
across every path. -/
theorem relation {rel : Store → Store → Prop} (hrefl : ∀ s, rel s s)
    (htrans : ∀ {s s' s''}, rel s s' → rel s' s'' → rel s s'')
    (hstep : ∀ {s s'}, s.Coherent → Change own s s' → rel s s') (hpath : Changes own s s')
    (hco : s.Coherent) : rel s s' := by
  have hboth : s'.Coherent ∧ rel s s' := by
    induction hpath with
    | refl => exact ⟨hco, hrefl s⟩
    | tail _ hlast ih => exact ⟨hlast.coherent ih.1, htrans ih.2 (hstep ih.1 hlast)⟩
  exact hboth.2

theorem coherent (hpath : Changes own s s') (hco : s.Coherent) : s'.Coherent := by
  have hboth : s'.Coherent ∧ True := hpath.invariant (fun _ _ _ => trivial) hco trivial
  exact hboth.1

/-- A path that starts where another one ends, given that the store there is coherent. -/
theorem bind (hco : s.Coherent) (hfst : Changes own s s')
    (hsnd : s'.Coherent → Changes own s' s'') : Changes own s s'' :=
  hfst.trans (hsnd (hfst.coherent hco))

end Changes

/-- A path on which the attempt gets the row. -/
def Closes (own : Prop) (s : Store) (a : Uuid) (row : AttemptRow) (s' : Store) : Prop :=
  ∃ mid, Changes own s mid ∧ mid.attempts.lookup a = some row ∧ Changes own mid s'

namespace Closes

variable {a : Uuid} {row : AttemptRow}

theorem changes (hcloses : Closes own s a row s') : Changes own s s' := by
  obtain ⟨mid, hfst, -, hsnd⟩ := hcloses
  exact hfst.trans hsnd

theorem single (hchange : Change own s s') (hrow : s'.attempts.lookup a = some row) :
    Closes own s a row s' :=
  ⟨s', .single hchange, hrow, .refl s'⟩

theorem trans (hfst : Closes own s a row s') (hsnd : Changes own s' s'') :
    Closes own s a row s'' := by
  obtain ⟨mid, hbefore, hrow, hafter⟩ := hfst
  exact ⟨mid, hbefore, hrow, hafter.trans hsnd⟩

/-- A path before the attempt gets the row, given that the store there is coherent. -/
theorem bind (hco : s.Coherent) (hfst : Changes own s s')
    (hsnd : s'.Coherent → Closes own s' a row s'') : Closes own s a row s'' := by
  obtain ⟨mid, hbefore, hrow, hafter⟩ := hsnd (hfst.coherent hco)
  exact ⟨mid, hfst.trans hbefore, hrow, hafter⟩

end Closes

/-! ## Reports and notifications -/

theorem Frame.refl (s : Store) : s.Frame s :=
  ⟨⟨rfl, rfl, rfl, rfl, rfl⟩, rfl, rfl, fun _ => rfl, .of_eq rfl, fun _ => rfl, [], rfl, Quiet.nil⟩

theorem Change.refl (s : Store) : Change own s s := .frame (.refl s)

/-- A write of effects under its own authority. -/
theorem Change.write (hledger : s.WritesLedger s') : Change True s s' :=
  .ledger hledger (.inl trivial)

/-- Reporting anything but an offer changes nothing else. -/
theorem frame_appendEvent (s : Store) (buildId : Uuid) {payload : EventPayload}
    (hpayload : payload.isOffer = false) : s.Frame (s.appendEvent buildId payload) :=
  ⟨⟨rfl, rfl, rfl, rfl, rfl⟩, rfl, rfl, fun _ => rfl, .of_eq rfl, fun _ => rfl, [⟨buildId, payload⟩],
    rfl, Quiet.single hpayload⟩

theorem recordTerminalNotifications_eq (s : Store) (now : Timestamp) (buildId : Uuid)
    (status : BuildStatus) : ∃ notifications new, s.recordTerminalNotifications now buildId status =
        { s with notifications, events := new ++ s.events } ∧ Quiet new := by
  unfold recordTerminalNotifications
  split
  · exact ⟨s.notifications, [], rfl, Quiet.nil⟩
  · exact ⟨_, [_], rfl, Quiet.single rfl⟩

theorem frame_recordTerminalNotifications (s : Store) (now : Timestamp) (buildId : Uuid)
    (status : BuildStatus) : s.Frame (s.recordTerminalNotifications now buildId status) := by
  obtain ⟨notifications, new, heq, hquiet⟩ := s.recordTerminalNotifications_eq now buildId status
  rw [heq]
  exact ⟨⟨rfl, rfl, rfl, rfl, rfl⟩, rfl, rfl, fun _ => rfl, .of_eq rfl, fun _ => rfl, new, rfl,
    hquiet⟩

/-! ## The status of the build -/

/-- Rewriting one build's row by a function. -/
theorem rebuilds_modifyBuild {buildId : Uuid} {b : BuildRow} {f : BuildRow → BuildRow}
    (hb : s.builds.lookup buildId = some b) (hf : (f b).identity = b.identity)
    (hpin : (f b).workspaceAffinityAgentId = b.workspaceAffinityAgentId) :
    s.Rebuilds (s.modifyBuild buildId f) buildId b (f b) where
  toSameRest := ⟨rfl, rfl, rfl, rfl, rfl⟩
  build := hb
  identity := hf
  pin := hpin
  builds id := by
    rw [modifyBuild_builds, lookup_modify]
    split
    · next heq => rw [heq, hb, Option.map_some]
    · rfl
  nodes := rfl
  attempts := rfl
  dependencies := rfl
  events := ⟨[], rfl, Quiet.nil⟩

/-- Notifications after a change of one build's row. -/
theorem Rebuilds.notify {buildId : Uuid} {b b' : BuildRow} (hre : s.Rebuilds s' buildId b b')
    (now : Timestamp) (status : BuildStatus) :
    s.Rebuilds (s'.recordTerminalNotifications now buildId status) buildId b b' := by
  obtain ⟨notifications, new, heq, hquiet⟩ := s'.recordTerminalNotifications_eq now buildId status
  obtain ⟨old, hevents, hold⟩ := hre.events
  rw [heq]
  refine ⟨⟨hre.effects, hre.restoreEpoch, hre.restoreEpochs, hre.pipelines, hre.pipelineStates⟩,
    hre.build, hre.identity, hre.pin, hre.builds, hre.nodes, hre.attempts, hre.dependencies,
    new ++ old, ?_, ?_⟩
  · simp only [hevents, List.append_assoc]
  · intro e hmem
    exact (List.mem_append.mp hmem).elim (hquiet e) (hold e)

theorem changes_deriveBuildOutcome {buildId : Uuid} {b : BuildRow}
    (hb : s.builds.lookup buildId = some b) (hdag : b.dagMode = true) (now : Timestamp) :
    Changes own s (s.deriveBuildOutcome now buildId) := by
  rw [deriveBuildOutcome, hb]
  simp only
  split
  · next hcount =>
      have hre := s.rebuilds_modifyBuild
        (f := fun row => closeWorkspace { row with status := s.derivedVerdict buildId b }) hb rfl
        rfl
      have hmark : BuildMark s buildId b
          (closeWorkspace { b with status := s.derivedVerdict buildId b }) :=
        .derive rfl (by rw [if_pos hcount]; rfl)
      split
      · exact .single (.mark hre hdag hmark)
      · exact .single (.mark (hre.notify now _) hdag hmark)
  · next hcount =>
      refine .single (.mark (s.rebuilds_modifyBuild hb ?_ ?_) hdag (.derive ?_ ?_))
      · rfl
      · rfl
      · rfl
      · rw [if_neg hcount]

/-! ## Changes of one attempt's rows -/

theorem lookup_updateNodes_one {id : Uuid} {n : NodeRow} (hn : s.nodes.lookup id = some n)
    (now : Timestamp) {p : Uuid → NodeRow → Bool} (f : NodeRow → NodeRow)
    (hp : ∀ id' n', s.nodes.lookup id' = some n' → (p id' n' = true ↔ id' = id)) (id' : Uuid) :
    (s.updateNodes now p f).nodes.lookup id' =
      if id' = id then some (s.translateRetryReadiness now id n (f n)) else s.nodes.lookup id' := by
  rw [updateNodes_nodes, lookup_update]
  rcases hlook : s.nodes.lookup id' with _ | n'
  · split
    · next heq =>
        rw [heq, hn] at hlook
        cases hlook
    · rfl
  · have hiff := hp id' n' hlook
    by_cases hid : id' = id
    · subst hid
      obtain rfl := Option.mem_unique hn hlook
      simp [hiff]
    · simp [hiff, hid]

section Touch

variable {a : Uuid} {x : Rows} {f : AttemptRow → AttemptRow} {p : Uuid → NodeRow → Bool}
  {g : NodeRow → NodeRow} {h : BuildRow → BuildRow} (hx : s.Holds a x)
  (hf : (f x.attempt).identity = x.attempt.identity)
include hx hf

/-- A change of an attempt's row alone. -/
theorem Holds.touches_attempt :
    s.Touches (s.modifyAttempt a f) a x ⟨x.build, x.node, f x.attempt⟩ :=
  ⟨hx, lookup_modify_of_eq hx.attempt f, lookup_eq_ite hx.node,
    lookup_eq_ite hx.build, rfl, hf, rfl, rfl⟩

variable (hp : ∀ id n, s.nodes.lookup id = some n → (p id n = true ↔ id = x.attempt.nodeId))
  (hg : (g x.node).identity = x.node.identity)
include hp hg

/-- A change of an attempt's row and its node's. -/
theorem Holds.touches_node (now : Timestamp) :
    s.Touches ((s.modifyAttempt a f).updateNodes now p g) a x
      ⟨x.build, s.translateRetryReadiness now x.attempt.nodeId x.node (g x.node), f x.attempt⟩ :=
  ⟨hx, lookup_modify_of_eq hx.attempt f,
    (s.modifyAttempt a f).lookup_updateNodes_one hx.node now g hp,
    lookup_eq_ite hx.build, rfl, hf, by rw [translateRetryReadiness_identity, hg], rfl⟩

/-- A change of the rows of an attempt, its node and its build. -/
theorem Holds.touches_build (now : Timestamp) (hh : (h x.build).identity = x.build.identity) :
    s.Touches (((s.modifyAttempt a f).updateNodes now p g).modifyBuild x.node.buildId h) a x
      ⟨h x.build, s.translateRetryReadiness now x.attempt.nodeId x.node (g x.node), f x.attempt⟩ :=
  ⟨hx, lookup_modify_of_eq hx.attempt f,
    (s.modifyAttempt a f).lookup_updateNodes_one hx.node now g hp,
    lookup_modify_of_eq hx.build h, rfl, hf, by rw [translateRetryReadiness_identity, hg], hh⟩

end Touch

/-! ## The readiness loop -/

section Dag

variable {buildId : Uuid} {b : BuildRow} (hb : s.builds.lookup buildId = some b)
  (hdag : b.dagMode = true)
include hb hdag

/-- A sweep is a path, and the build's row stays. -/
theorem Changes.sweep (own : Prop) (hsweep : s.Sweeps s' buildId) :
    Changes own s s' ∧ s'.builds.lookup buildId = some b :=
  ⟨.single (.sweep hb hdag hsweep), by rw [hsweep.builds]; exact hb⟩

theorem changes_advanceBlockedRounds (hco : s.Coherent) (now : Timestamp) (rounds : ℕ) :
    Changes own s (advanceBlockedRounds now buildId rounds s) ∧
      (advanceBlockedRounds now buildId rounds s).builds = s.builds := by
  induction rounds generalizing s with
  | zero => exact ⟨.refl s, rfl⟩
  | succ _ ih =>
    have hskip : s.Sweeps (s.skipImpossibleNodes now buildId) buildId :=
      hco.sweeps_skipImpossibleNodes hb hdag now
    obtain ⟨hpath, hb₁⟩ := Changes.sweep hb hdag own hskip
    have hco₁ := hpath.coherent hco
    have hqueue : Sweeps _ (queueReadyNodes _ now buildId) buildId :=
      hco₁.sweeps_queueReadyNodes hb₁ hdag now
    obtain ⟨hpath', hb₂⟩ := Changes.sweep hb₁ hdag own hqueue
    have hnext := hpath.trans hpath'
    have hbuilds := hqueue.builds.trans hskip.builds
    rw [advanceBlockedRounds]
    split
    · obtain ⟨hrest, hbuilds'⟩ := ih hb₂ (hnext.coherent hco)
      exact ⟨hnext.trans hrest, hbuilds'.trans hbuilds⟩
    · exact ⟨hnext, hbuilds⟩

end Dag

end McLoving.Store

namespace McLoving.Store

open Option Except

variable {own : Prop} {s s' : Store}

/-! ## The peers of a settled node -/

/-- What follows for the rest of the build when a node has been settled. -/
def afterSettlement (s : Store) (now : Timestamp) (attemptId : Uuid) (attempt : AttemptRow)
    (node : NodeRow) (outcome : TerminalOutcome) (enabled : Bool) : Store :=
  if !enabled then
    ((s.fenceUnstartedDagWork now node.buildId attempt.nodeId).deriveBuildOutcome now
      node.buildId).appendEvent node.buildId
        (.dagPipelineGenerationFenced attempt.nodeId node.nodeKey attemptId outcome)
  else
    let s := if outcome = .failed && node.failFast then
        (s.stopActiveNodes now node.buildId (some attempt.nodeId)).markUnstartedSkipped now
          node.buildId true
      else s
    ((s.advanceBlockedNodes now node.buildId).deriveBuildOutcome now node.buildId).appendEvent
      node.buildId (.dagNodeTerminal attempt.nodeId node.nodeKey attemptId outcome node.failFast)

theorem settleDagNode_eq (s : Store) (now : Timestamp) (attemptId : Uuid) (attempt : AttemptRow)
    (node : NodeRow) (outcome : TerminalOutcome) :
    s.settleDagNode now attemptId attempt node outcome =
      (s.modifyNode now attempt.nodeId (·.settled outcome)).afterSettlement now attemptId attempt
        node outcome (s.buildPipelineEnabled node.buildId) :=
  rfl

section Peers

variable {a : Uuid} {r : AttemptRow} {n : NodeRow} {b : BuildRow} {outcome : TerminalOutcome}
  {now : Timestamp} (hb : s.builds.lookup n.buildId = some b) (hdag : b.dagMode = true)
include hb hdag

private theorem changes_derive_report {payload : EventPayload}
    (hpayload : payload.isOffer = false) :
    Changes own s ((s.deriveBuildOutcome now n.buildId).appendEvent n.buildId payload) :=
  (changes_deriveBuildOutcome hb hdag now).trans
    (.single (.frame (frame_appendEvent _ _ hpayload)))

/-- Fail-fast stops the active peers and skips the waiting ones. -/
private theorem changes_failFast (hco : s.Coherent) (except : Option Uuid) :
    Changes own s ((s.stopActiveNodes now n.buildId except).markUnstartedSkipped now n.buildId
      true) ∧
    ((s.stopActiveNodes now n.buildId except).markUnstartedSkipped now n.buildId true).builds =
      s.builds := by
  have hstop : s.Sweeps (s.stopActiveNodes now n.buildId except) n.buildId :=
    hco.sweeps_stopActiveNodes hb hdag now except
  obtain ⟨hpath, hb₁⟩ := Changes.sweep hb hdag own hstop
  have hskip : Sweeps _ (markUnstartedSkipped _ now n.buildId true) n.buildId :=
    (hpath.coherent hco).sweeps_markUnstartedSkipped hb₁ hdag now true
  exact ⟨hpath.trans (Changes.sweep hb₁ hdag own hskip).1, hskip.builds.trans hstop.builds⟩

/-- What follows for the rest of the build is a path. -/
theorem changes_afterSettlement (hco : s.Coherent) (enabled : Bool) :
    Changes own s (s.afterSettlement now a r n outcome enabled) := by
  unfold afterSettlement
  cases enabled with
  | false =>
    obtain ⟨hpath, hb₁⟩ := Changes.sweep hb hdag own
      (hco.sweeps_fenceUnstartedDagWork hb hdag now r.nodeId)
    exact hpath.trans (changes_derive_report hb₁ hdag rfl)
  | true =>
    -- The readiness loop and the report, from the state in which fail-fast leaves the peers.
    have hloop {t : Store} (hpath : Changes own s t) (hbuilds : t.builds = s.builds) :
        Changes own s (((t.advanceBlockedNodes now n.buildId).deriveBuildOutcome now
          n.buildId).appendEvent n.buildId
            (.dagNodeTerminal r.nodeId n.nodeKey a outcome n.failFast)) := by
      have hb_t : t.builds.lookup n.buildId = some b := hbuilds ▸ hb
      obtain ⟨hrounds, hbuilds'⟩ := changes_advanceBlockedRounds hb_t hdag (hpath.coherent hco)
        now (t.countNodes n.buildId (fun m => m.status = .blocked) + 1)
      exact (hpath.trans hrounds).trans
        (changes_derive_report (by rw [hbuilds']; exact hb_t) hdag rfl)
    simp only [Bool.not_true, Bool.false_eq_true, if_false]
    split
    · obtain ⟨hpath, hbuilds⟩ := changes_failFast hb hdag hco (some r.nodeId)
      exact hloop hpath hbuilds
    · exact hloop (.refl s) rfl

end Peers

theorem insertAttempt_eq_ok {attemptId : Uuid} {row : AttemptRow}
    (hok : s.insertAttempt attemptId row = .ok s') :
    s.attempts.lookup attemptId = none ∧ s' = s.withAttempt attemptId row := by
  unfold insertAttempt at hok
  split at hok
  · cases hok
  · next hfresh =>
      rw [not_or] at hfresh
      exact ⟨AList.lookup_eq_none.mpr hfresh.1, (ok.inj hok).symm⟩

section Close

variable {a : Uuid} {x : Rows} {close : AttemptRow → AttemptRow} {outcome : TerminalOutcome}
  {summary : Json} {expiry : Option Timestamp}
  (hx : s.Holds a x) (hclose : close x.attempt = x.attempt.closed outcome summary expiry)
include hx hclose

theorem joinedAttempt_closed : (s.modifyAttempt a close).joinedAttempt a =
      some (x.attempt.closed outcome summary expiry, x.node, x.build) := by
  have hattempt : (s.modifyAttempt a close).attempts.lookup a =
      some (x.attempt.closed outcome summary expiry) := by
    rw [modifyAttempt_attempts, Table.lookup_modify_of_eq hx.attempt, if_pos rfl, hclose]
  have hnode : (s.modifyAttempt a close).nodes.lookup
      (x.attempt.closed outcome summary expiry).nodeId = some x.node := hx.node
  have hbuild : (s.modifyAttempt a close).builds.lookup x.node.buildId = some x.build := hx.build
  simp only [joinedAttempt, hattempt, hnode, hbuild, bind_eq_bind, bind_some, pure_def]

/-- Closing an attempt together with a change of its node to a status that does not wait. -/
theorem touches_closed (now : Timestamp) {f : NodeRow → NodeRow}
    (hf : (f x.node).identity = x.node.identity)
    (hstatus : (f x.node).status ≠ .queued ∧ (f x.node).status ≠ .blocked) :
    s.Touches ((s.modifyAttempt a close).modifyNode now x.attempt.nodeId f) a x
      ⟨x.build, f x.node, x.attempt.closed outcome summary expiry⟩ := by
  have htouch := hx.touches_node (f := close) (p := fun id _ => id = x.attempt.nodeId)
    (by rw [hclose]; rfl) (fun _ _ _ => by simp) hf now
  rwa [hclose, translateRetryReadiness_eq _ _ (.inr hstatus)] at htouch

variable {now : Timestamp} {retryId : Uuid}

theorem closes_settleDagNode (hco : s.Coherent) (hcur : ¬ s.Superseded a)
    (hopen : x.attempt.status.isOpen = true) (hdag : x.build.dagMode = true)
    (hlogical : x.node.logicalOutcome = none) (hvouched : outcome = .succeeded → s.Vouched x) :
    Closes own s a (x.attempt.closed outcome summary expiry)
      ((s.modifyAttempt a close).settleDagNode now a (x.attempt.closed outcome summary expiry)
        x.node outcome) := by
  have hsettled : (x.node.settled outcome).status ≠ .queued ∧
      (x.node.settled outcome).status ≠ .blocked := by
    cases outcome <;> simp [NodeRow.settled, TerminalOutcome.nodeStatus]
  have htouch := touches_closed hx hclose now (f := (·.settled outcome)) rfl hsettled
  have hmove : Change own s ((s.modifyAttempt a close).modifyNode now x.attempt.nodeId
      (·.settled outcome)) :=
    .move htouch ⟨rfl, rfl, rfl, rfl, rfl⟩ hcur (.settle hopen hdag hlogical hvouched rfl
      Quiet.nil) rfl
  have hb_mid : ((s.modifyAttempt a close).modifyNode now x.attempt.nodeId
      (·.settled outcome)).builds.lookup x.node.buildId = some x.build := hx.build
  rw [settleDagNode_eq]
  exact (Closes.single hmove htouch.holds_after.attempt).trans
    (changes_afterSettlement hb_mid hdag (hmove.coherent hco) _)

theorem closes_scheduleAutomaticRetry (hcur : ¬ s.Superseded a)
    (hopen : x.attempt.status.isOpen = true) (hdag : x.build.dagMode = true)
    (hunstamped : x.Unstamped) (hlogical : x.node.logicalOutcome = none)
    (hclean : s.hasUnabandonedNonIdempotentEffect a = false) (hfailed : outcome = .failed)
    (hok : (s.modifyAttempt a close).scheduleAutomaticRetry now retryId a
      (x.attempt.closed outcome summary expiry) x.node = .ok s') :
    Closes own s a (x.attempt.closed outcome summary expiry) s' := by
  subst hfailed
  obtain ⟨inserted, hinsert, hok⟩ := Except.bind_eq_ok.mp hok
  obtain ⟨hfresh, rfl⟩ := insertAttempt_eq_ok hinsert
  have hfresh : s.attempts.lookup retryId = none := by
    rw [modifyAttempt_attempts, Table.lookup_modify] at hfresh
    split at hfresh
    · simpa using hfresh
    · exact hfresh
  have hsucc : s.Succeeds a retryId x
      (retryRow x.attempt.nodeId a (x.attempt.ordinal + 1) 1) :=
    ⟨hfresh, rfl, rfl, rfl, rfl, rfl⟩
  -- The node waits again, for its dependencies or for a claim.
  let waits (n : NodeRow) : NodeRow :=
    { n with
      status := if (s.modifyAttempt a close).dependenciesReady x.attempt.nodeId &&
          decide (x.node.status ≠ .blocked) then .queued else .blocked
      cancellationRequestedAt := none
      queuedAt := if (s.modifyAttempt a close).dependenciesReady x.attempt.nodeId &&
          decide (x.node.status ≠ .blocked) then now else n.queuedAt }
  have hwaits : (waits x.node).status = .queued ∨ (waits x.node).status = .blocked := by
    simp only [waits]
    split
    · exact .inl rfl
    · exact .inr rfl
  have hone : ∀ id n, s.nodes.lookup id = some n →
      ((decide (id = x.attempt.nodeId) && decide (n.logicalOutcome = none)) = true ↔
        id = x.attempt.nodeId) := by
    intro id n hn
    simp only [Bool.and_eq_true, decide_eq_true_eq, and_iff_left_iff_imp]
    rintro rfl
    rw [hx.node] at hn
    exact Option.some.inj hn ▸ hlogical
  have htouch := hx.touches_node (f := close) (g := waits) (by rw [hclose]; rfl) hone rfl now
  obtain ⟨hphase, hphase_logical, hphase_stamp⟩ :=
    s.translateRetryReadiness_waits now x.attempt.nodeId x.node _ hwaits
  have hrenew : Renewal s a x ⟨x.build,
      s.translateRetryReadiness now x.attempt.nodeId x.node (waits x.node), close x.attempt⟩ :=
    .auto hopen hdag hunstamped hlogical hclean hclose rfl
      (by rw [hdag]; exact ⟨hphase, hphase_logical.trans hlogical, hphase_stamp⟩)
  let retried : Store := (((s.modifyAttempt a close).withAttempt retryId
    (retryRow x.attempt.nodeId a (x.attempt.ordinal + 1) 1)).updateNodes now
      (fun id n => decide (id = x.attempt.nodeId) && decide (n.logicalOutcome = none))
      waits).appendEvent x.node.buildId (.dagNodeRetryScheduled x.attempt.nodeId x.node.nodeKey
        retryId (x.attempt.ordinal + 1) x.node.maxAttempts)
  have hchange : Change own s retried :=
    .renew htouch ⟨rfl, rfl, rfl, rfl, rfl⟩ hcur hsucc hrenew ⟨_, rfl, Quiet.single rfl⟩ rfl
  have hb : retried.builds.lookup x.node.buildId = some x.build := hx.build
  rw [← ok.inj hok]
  have hrow : retried.attempts.lookup a = some (x.attempt.closed .failed summary expiry) :=
    hclose ▸ hsucc.lookup_of_mid htouch htouch.holds_after.attempt
  exact (Closes.single hchange hrow).trans (changes_deriveBuildOutcome hb hdag now)

theorem closes_advanceDagAfterAttempt (hco : s.Coherent) (hcur : ¬ s.Superseded a)
    (hopen : x.attempt.status.isOpen = true) (hvouched : outcome = .succeeded → s.Vouched x)
    (hok : (s.modifyAttempt a close).advanceDagAfterAttempt now retryId a outcome =
      .ok (s', true)) : Closes own s a (x.attempt.closed outcome summary expiry) s' := by
  rw [advanceDagAfterAttempt, joinedAttempt_closed hx hclose] at hok
  simp only at hok
  split at hok
  · simp at hok
  next hdag =>
  simp only [Bool.not_eq_true, Bool.not_eq_false'] at hdag
  split at hok
  · next hretries =>
    simp only [retriesAutomatically, Bool.and_eq_true, decide_eq_true_eq, Bool.not_eq_true',
      Bool.or_eq_false_iff, isSome_eq_false_iff, isNone_iff_eq_none] at hretries
    obtain ⟨⟨⟨⟨-, hfailed⟩, -⟩, hunstamped⟩, hclean⟩ := hretries
    have hphase := (hco.ok hx.attempt hx.node hx.build hcur).phase
    rw [hdag] at hphase
    split at hok
    · next retried hretry =>
      obtain rfl := (Prod.mk.inj (Except.ok.inj hok)).1
      exact closes_scheduleAutomaticRetry hx hclose hcur hopen hdag hunstamped
        (Phase.logicalOutcome_of_open hphase hopen hunstamped.2) hclean hfailed hretry
    · cases hok
  · split at hok
    · next hlogical =>
      obtain rfl := (Prod.mk.inj (ok.inj hok)).1
      have htouch := hx.touches_attempt (f := close) (by rw [hclose]; rfl)
      rw [hclose] at htouch
      exact .single (.move htouch ⟨rfl, rfl, rfl, rfl, rfl⟩ hcur
        (.keep hopen hdag (isSome_iff_ne_none.mp hlogical) hvouched rfl Quiet.nil) rfl)
        htouch.holds_after.attempt
    · next hlogical =>
      obtain rfl := (Prod.mk.inj (ok.inj hok)).1
      rw [Bool.not_eq_true, isSome_eq_false_iff, isNone_iff_eq_none] at hlogical
      exact closes_settleDagNode hx hclose hco hcur hopen hdag hlogical hvouched

/-- A build that is not a DAG is left to the caller. -/
theorem advanceDagAfterAttempt_solo
    (hok : (s.modifyAttempt a close).advanceDagAfterAttempt now retryId a outcome =
      .ok (s', false)) : x.build.dagMode = false ∧ s' = s.modifyAttempt a close := by
  rw [advanceDagAfterAttempt, joinedAttempt_closed hx hclose] at hok
  simp only at hok
  split at hok
  · next hdag =>
    rw [Bool.not_eq_true'] at hdag
    exact ⟨hdag, (Prod.mk.inj (ok.inj hok)).1.symm⟩
  · split at hok
    · split at hok <;> simp at hok
    · split at hok <;> simp at hok

theorem closes_publishOutcome (hco : s.Coherent) (hcur : ¬ s.Superseded a)
    (hopen : x.attempt.status.isOpen = true) (hvouched : outcome = .succeeded → s.Vouched x)
    (hok : (s.modifyAttempt a close).publishOutcome now retryId a outcome = .ok s') :
    Closes own s a (x.attempt.closed outcome summary expiry) s' := by
  rw [publishOutcome] at hok
  split at hok
  · cases hok
  · next hadvance =>
    cases hok
    exact closes_advanceDagAfterAttempt hx hclose hco hcur hopen hvouched hadvance
  · next hadvance =>
    -- A build that is not a DAG: the result goes to the node and the build directly.
    obtain ⟨hdag, rfl⟩ := advanceDagAfterAttempt_solo hx hclose hadvance
    rw [joinedAttempt_closed hx hclose] at hok
    cases hok
    have hstatus : outcome.nodeStatus ≠ .queued ∧ outcome.nodeStatus ≠ .blocked := by
      cases outcome <;> simp [TerminalOutcome.nodeStatus]
    have htouch := hx.touches_build (f := close) (p := fun id _ => id = x.attempt.nodeId)
      (g := fun n => { n with status := outcome.nodeStatus })
      (h := fun b => { b with status := outcome.buildStatus }) (by rw [hclose]; rfl)
      (fun _ _ _ => by simp) rfl now rfl
    rw [hclose, translateRetryReadiness_eq _ _ (.inr hstatus)] at htouch
    exact .single (.move htouch ⟨rfl, rfl, rfl, rfl, rfl⟩ hcur (.closeSolo hopen hdag rfl Quiet.nil)
      rfl)
      htouch.holds_after.attempt

end Close

end McLoving.Store
