import McLoving.Lifecycle.Evolution

/-!
# The effect ledger moves forward

An effect keeps its contract and its receipts for ever, its status follows one graph, and once it is
abandoned nothing about it changes.  Once the dispatch of an effect that must not be repeated is
committed, the attempt keeps its fence for ever, nothing retries it, and it never returns to the
queue: six routines can put work back there, and each of them is stopped by the ledger.
-/

namespace McLoving

open Option

/-- The moves of an effect's status. -/
inductive EffectStatus.Moves : EffectStatus → EffectStatus → Prop where
  | apply : Moves .prepared .applied
  | confirm : Moves .applied .confirmed
  | doubtPrepared : Moves .prepared .uncertain
  | doubtApplied : Moves .applied .uncertain
  | doubtConfirmed : Moves .confirmed .uncertain
  | resolve : Moves .uncertain .confirmed
  | release : Moves .prepared .releasePending
  | releaseUncertain : Moves .uncertain .releasePending
  | abandonPrepared : Moves .prepared .abandoned
  | abandonUncertain : Moves .uncertain .abandoned
  | abandonReleased : Moves .releasePending .abandoned

namespace EffectStatus

/-- Finitely many moves of an effect's status. -/
abbrev Reaches : EffectStatus → EffectStatus → Prop :=
  Relation.ReflTransGen Moves

/-- Once in doubt, an effect is never again prepared or applied. -/
theorem Reaches.doubted {status status' : EffectStatus} (hreach : status.Reaches status')
    (hpast : status ≠ .prepared ∧ status ≠ .applied) :
    status' ≠ .prepared ∧ status' ≠ .applied := by
  induction hreach with
  | refl => exact hpast
  | tail _ hmove => cases hmove <;> simp_all

/-- The transitions that a checkpoint may make are moves. -/
theorem moves_of_validEffectTransition {status status' : EffectStatus}
    (hvalid : validEffectTransition status status' = true) :
    status' = status ∨ status.Moves status' := by
  by_cases hsame : status' = status
  · exact .inl hsame
  · refine .inr ?_
    cases status <;> cases status' <;> simp_all [validEffectTransition] <;> constructor

/-- A status that is left in doubt stays or takes one move. -/
theorem moves_doubted (e : EffectRow) :
    e.doubted.status = e.status ∨ e.status.Moves e.doubted.status := by
  unfold EffectRow.doubted
  split
  · next hopen =>
    rcases hopen with hprepared | happlied
    · rw [hprepared]
      exact .inr .doubtPrepared
    · rw [happlied]
      exact .inr .doubtApplied
  · exact .inl rfl

end EffectStatus

/-- No checkpoint leaves the abandoned status. -/
theorem eq_abandoned_of_validEffectTransition {status : EffectStatus}
    (hvalid : validEffectTransition .abandoned status = true) : status = .abandoned := by
  cases status <;> first | rfl | cases hvalid

namespace EffectRow

/-- The later row of an effect: the same contract, at least the same receipts and commitment, and a
status that the moves lead to. -/
structure Forward (e e' : EffectRow) : Prop where
  effectClass : e'.effectClass = e.effectClass
  payload : e'.payload = e.payload
  payloadDigest : e'.payloadDigest = e.payloadDigest
  receipt : ∀ {kind receipt}, e.receiptOf kind = some receipt → e'.receiptOf kind = some receipt
  commitment : ∀ {time}, e.dispatchCommittedAt = some time → e'.dispatchCommittedAt = some time
  status : e.status.Reaches e'.status
  abandoned : e.status = .abandoned → e' = e

namespace Forward

variable {e e' e'' : EffectRow}

theorem refl (e : EffectRow) : e.Forward e :=
  ⟨rfl, rfl, rfl, fun h => h, fun h => h, .refl, fun _ => rfl⟩

theorem trans (hfst : e.Forward e') (hsnd : e'.Forward e'') : e.Forward e'' where
  effectClass := hsnd.effectClass.trans hfst.effectClass
  payload := hsnd.payload.trans hfst.payload
  payloadDigest := hsnd.payloadDigest.trans hfst.payloadDigest
  receipt h := hsnd.receipt (hfst.receipt h)
  commitment h := hsnd.commitment (hfst.commitment h)
  status := hfst.status.trans hsnd.status
  abandoned h := by
    obtain rfl := hfst.abandoned h
    exact hsnd.abandoned h

theorem of_status {status : EffectStatus} (hmoves : status = e.status ∨ e.status.Moves status)
    (habandoned : e.status = .abandoned → status = .abandoned) : e.Forward { e with status } := by
  refine ⟨rfl, rfl, rfl, fun h => h, fun h => h, ?_, fun h => by rw [habandoned h, ← h]⟩
  rcases hmoves with rfl | hmove
  · exact .refl
  · exact .single hmove

end Forward

/-- Storing a receipt changes nothing but its slot. -/
theorem withReceipt_columns (e : EffectRow) (receipt : Receipt) (kind : EffectEvidenceKind) :
    (e.withReceipt receipt kind).effectClass = e.effectClass ∧
      (e.withReceipt receipt kind).payload = e.payload ∧
      (e.withReceipt receipt kind).payloadDigest = e.payloadDigest ∧
      (e.withReceipt receipt kind).status = e.status ∧
      (e.withReceipt receipt kind).dispatchCommittedAt = e.dispatchCommittedAt := by
  cases kind <;> exact ⟨rfl, rfl, rfl, rfl, rfl⟩

/-- A receipt stored in an empty slot leaves the other slots. -/
theorem receiptOf_withReceipt (e : EffectRow) {receipt old : Receipt}
    {kind kind' : EffectEvidenceKind} (hnone : e.receiptOf kind = none)
    (hold : e.receiptOf kind' = some old) :
    (e.withReceipt receipt kind).receiptOf kind' = some old := by
  have hne : kind' ≠ kind := by
    rintro rfl
    simp [hnone] at hold
  cases kind <;> cases kind' <;> first | exact hold | exact absurd rfl hne

/-- The columns of an effect agree: what was released or abandoned was never dispatched, and what
was abandoned has no receipt. -/
structure Consistent (e : EffectRow) : Prop where
  undispatched : e.status = .releasePending ∨ e.status = .abandoned → e.dispatchCommittedAt = none
  unevidenced : e.status = .abandoned → e.hasEvidence = false

end EffectRow

variable {e : EffectRow}

/-- Nothing but its preparation is recorded of an undispatched effect. -/
theorem Store.undispatched_columns (hundispatched : Store.isUndispatched e = true) :
    e.hasEvidence = false ∧ e.dispatchCommittedAt = none := by
  simp only [Store.isUndispatched, Bool.and_eq_true, Bool.not_eq_true', decide_eq_true_eq]
    at hundispatched
  exact hundispatched.1

namespace EffectWrite

variable {s : Store} {id : EffectId} {e e' : EffectRow}

/-- A write leaves the status or takes one move. -/
theorem moves (hwrite : EffectWrite s id e e') :
    e'.status = e.status ∨ e.status.Moves e'.status := by
  cases hwrite with
  | keep he => exact .inl (by rw [he])
  | advance _ _ hvalid _ _ he => exact he ▸ EffectStatus.moves_of_validEffectTransition hvalid
  | commit _ _ _ _ _ _ he => exact .inl (by rw [he])
  | @evidence kind receipt _ _ _ _ _ he =>
    exact .inl (by rw [he, (e.withReceipt_columns receipt kind).2.2.2.1])
  | release _ hfrom hstatus he =>
    subst he
    rcases hfrom with hfrom | hfrom | hfrom <;> rcases hstatus with rfl | rfl <;> rw [hfrom]
    · exact .inr .abandonPrepared
    · exact .inr .release
    · exact .inr .abandonUncertain
    · exact .inr .releaseUncertain
    · exact .inr .abandonReleased
    · exact .inl rfl

/-- A write moves an effect forward. -/
theorem forward (hwrite : EffectWrite s id e e') : e.Forward e' := by
  have hmoves := hwrite.moves
  cases hwrite with
  | keep he => exact he ▸ .refl _
  | advance _ _ hvalid _ _ he =>
    subst he
    refine .of_status hmoves fun habandoned => ?_
    rw [habandoned] at hvalid
    exact eq_abandoned_of_validEffectTransition hvalid
  | commit _ _ _ hprepared _ _ he =>
    subst he
    refine ⟨rfl, rfl, rfl, fun h => h, fun h => ?_, .refl, fun habandoned => ?_⟩
    · simp [h]
    · simp [hprepared] at habandoned
  | @evidence kind receipt _ _ _ haccepts hnone he =>
    subst he
    obtain ⟨hclass, hpayload, hdigest, hstatus, hdispatch⟩ := e.withReceipt_columns receipt kind
    refine ⟨hclass, hpayload, hdigest, e.receiptOf_withReceipt hnone, fun h => by rw [hdispatch, h],
      by rw [hstatus], fun habandoned => ?_⟩
    cases kind <;> simp [EffectRow.acceptsEvidence, habandoned] at haccepts
  | release _ hfrom hstatus he =>
    subst he
    exact .of_status hmoves fun habandoned => by simp [habandoned] at hfrom

/-- Every write keeps the columns of an effect consistent. -/
theorem consistent (hwrite : EffectWrite s id e e') (hold : e.Consistent) : e'.Consistent := by
  cases hwrite with
  | keep he => exact he ▸ hold
  | advance _ _ _ hcommitted hevidence he =>
    subst he
    refine ⟨fun hreleased => ?_, fun habandoned => ?_⟩
    · by_contra hne
      obtain ⟨hnot, hnot'⟩ := hcommitted hne
      exact hreleased.elim hnot' hnot
    · by_contra hsome
      rw [Bool.not_eq_false] at hsome
      exact hevidence hsome habandoned
  | commit _ _ _ hprepared _ _ he =>
    subst he
    refine ⟨fun hreleased => ?_, fun habandoned => ?_⟩
    · simp [hprepared] at hreleased
    · simp [hprepared] at habandoned
  | @evidence kind receipt _ _ _ haccepts _ he =>
    subst he
    obtain ⟨-, -, -, hstatus, hdispatch⟩ := e.withReceipt_columns receipt kind
    refine ⟨fun hreleased => ?_, fun habandoned => ?_⟩
    · rw [hdispatch]
      exact hold.undispatched (hstatus ▸ hreleased)
    · rw [hstatus] at habandoned
      cases kind <;> simp [EffectRow.acceptsEvidence, habandoned] at haccepts
  | release hundispatched _ _ he =>
    subst he
    obtain ⟨hevidence, hdispatch⟩ := Store.undispatched_columns hundispatched
    exact ⟨fun _ => hdispatch, fun _ => hevidence⟩

end EffectWrite

namespace Store

variable {own : Prop} {s s' : Store}

/-- Every effect of the first store is in the second one, moved forward. -/
def LedgerForward (s s' : Store) : Prop :=
  ∀ id e, s.effects.lookup id = some e → ∃ e', s'.effects.lookup id = some e' ∧ e.Forward e'

theorem ledgerForward_of_run [Platform] {guard : Store → Op → Prop} (hco : s.Coherent)
    (hrun : RunWhere guard s s') : s.LedgerForward s' := by
  refine relation_of_any_run (fun _ id e he => ⟨e, he, .refl e⟩) (fun hfst hsnd id e he => ?_)
    (fun _ hchange id e he => ?_) hrun hco
  · obtain ⟨e', he', hforward⟩ := hfst id e he
    obtain ⟨e'', he'', hforward'⟩ := hsnd id e' he'
    exact ⟨e'', he'', hforward.trans hforward'⟩
  · obtain ⟨e', he', hwrite⟩ := hchange.effect he
    exact ⟨e', he', hwrite.forward⟩

/-- The columns of every effect agree. -/
def LedgerConsistent (s : Store) : Prop :=
  ∀ id e, s.effects.lookup id = some e → e.Consistent

theorem Change.ledgerConsistent (hchange : Change own s s') (hold : s.LedgerConsistent) :
    s'.LedgerConsistent := by
  intro id e' he'
  rcases hchange.effects_eq_or_ledger with hsame | ⟨hledger, -⟩
  · exact hold id e' (hsame ▸ he')
  · rcases he : s.effects.lookup id with _ | e
    · obtain ⟨hprepared, hdispatch, hevidence, -⟩ := hledger.fresh he' he
      exact ⟨fun _ => hdispatch, fun _ => hevidence⟩
    · obtain ⟨e'', he'', hwrite⟩ := hledger.written he
      obtain rfl := mem_unique he'' he'
      exact hwrite.consistent (hold id e he)

theorem Reachable.ledgerConsistent [Platform] (hreach : s.Reachable) : s.LedgerConsistent := by
  obtain ⟨organizationId, hrun⟩ := hreach
  refine invariant_of_any_run (fun _ hchange hold => hchange.ledgerConsistent hold) hrun
    (coherent_initial organizationId) fun id e he => ?_
  cases he

/-- What one call does to the ledger: a status stays or takes one move, and a commitment appears only
while neither the build nor the node was asked to stop and the attempt is not cancelling. -/
structure LedgerStep (s s' : Store) : Prop where
  status : ∀ {id e e'}, s.effects.lookup id = some e → s'.effects.lookup id = some e' →
    e'.status = e.status ∨ e.status.Moves e'.status
  commitment : ∀ {id e'}, s'.effects.lookup id = some e' → e'.dispatchCommittedAt ≠ none →
    (∃ e, s.effects.lookup id = some e ∧ e.dispatchCommittedAt ≠ none) ∨
      ∃ x, s.Holds id.attemptId x ∧ x.build.cancellationRequestedAt = none ∧
        x.node.cancellationRequestedAt = none ∧ x.attempt.status ≠ .cancelling

theorem Doubts.trans {s'' : Store} (hfst : s.Doubts s') (hsnd : s'.Doubts s'') : s.Doubts s'' := by
  intro id
  have hdoubted : ∀ e : EffectRow, e.doubted.doubted = e.doubted := by
    intro e
    unfold EffectRow.doubted
    split <;> simp_all
  rcases hsnd id with hsame | hdoubt
  · rw [hsame]
    exact hfst id
  rw [hdoubt]
  rcases hfst id with hsame' | hdoubt'
  · exact .inr (by rw [hsame'])
  · refine .inr ?_
    rw [hdoubt', Option.map_map]
    exact congrArg (Option.map · _) (funext hdoubted)

/-- Calls that write no effect of their own do no more than leave open effects uncertain. -/
theorem Changes.doubts (hpath : Changes False s s') (hco : s.Coherent) : s.Doubts s' := by
  refine hpath.relation (fun _ _ => .inl rfl) Doubts.trans (fun _ hchange => ?_) hco
  rcases hchange.effects_eq_or_ledger with hsame | ⟨-, hdoubts⟩
  · exact fun id => .inl (by rw [hsame])
  · exact hdoubts.resolve_left id

theorem Doubts.ledgerStep (hdoubts : s.Doubts s') : s.LedgerStep s' where
  status {id e e'} he he' := by
    rcases hdoubts id with hsame | hdoubt
    · rw [hsame, he] at he'
      exact .inl (by rw [Option.some.inj he'])
    · rw [hdoubt, he] at he'
      exact Option.some.inj he' ▸ EffectStatus.moves_doubted e
  commitment {id e'} he' hcommitted := by
    rcases hdoubts id with hsame | hdoubt
    · exact .inl ⟨e', hsame ▸ he', hcommitted⟩
    · rw [hdoubt] at he'
      obtain ⟨e, he, rfl⟩ := Option.map_eq_some_iff.mp he'
      refine .inl ⟨e, he, fun hnone => hcommitted ?_⟩
      unfold EffectRow.doubted
      split <;> exact hnone

/-- A write commits nothing new but under an executing lease that nothing stops. -/
theorem WritesLedger.ledgerStep (hledger : s.WritesLedger s') : s.LedgerStep s' where
  status {id e e'} he he' := by
    obtain ⟨e'', he'', hwrite⟩ := hledger.written he
    obtain rfl := mem_unique he'' he'
    exact hwrite.moves
  commitment {id e'} he' hcommitted := by
    rcases he : s.effects.lookup id with _ | e
    · exact absurd (hledger.fresh he' he).2.1 hcommitted
    obtain ⟨e'', he'', hwrite⟩ := hledger.written he
    obtain rfl := mem_unique he'' he'
    by_cases hold : e.dispatchCommittedAt = none
    · refine .inr ?_
      cases hwrite with
      | keep heq | advance _ _ _ _ _ heq | release _ _ _ heq =>
        exact absurd (by rw [heq, hold]) hcommitted
      | @commit _ x hx _ _ _ _ hfresh =>
        obtain ⟨hnot, hunstamped⟩ := hfresh hold
        simp only [cancellationStamped, Bool.or_eq_false_iff, Option.isSome_eq_false_iff,
          Option.isNone_iff_eq_none] at hunstamped
        exact ⟨x, hx, hunstamped.1, hunstamped.2, hnot⟩
      | @evidence kind receipt _ _ _ _ _ heq =>
        rw [heq, (e.withReceipt_columns receipt kind).2.2.2.2] at hcommitted
        exact absurd hold hcommitted
    · exact .inl ⟨e, rfl, hold⟩

theorem ledgerStep_step [Platform] (hco : s.Coherent) (op : Op) : s.LedgerStep (s.step op) := by
  rcases change_or_changes_step hco op with hchange | hpath
  · rcases hchange.effects_eq_or_ledger with hsame | ⟨hledger, -⟩
    · exact Doubts.ledgerStep fun id => .inl (by rw [hsame])
    · exact hledger.ledgerStep
  · exact ((hpath False).doubts hco).ledgerStep

/-- The build of an effect's attempt was asked to stop while the effect was not committed. -/
def StoppedEffect (s : Store) (id : EffectId) : Prop :=
  ∃ x, s.Holds id.attemptId x ∧ x.build.cancellationRequestedAt ≠ none ∧
    ∀ e, s.effects.lookup id = some e → e.dispatchCommittedAt = none

/-- No change commits an effect of a build that was asked to stop. -/
theorem Change.stoppedEffect (hchange : Change own s s') {id : EffectId}
    (hstopped : s.StoppedEffect id) : s'.StoppedEffect id := by
  obtain ⟨x, hx, hstamp, hnone⟩ := hstopped
  obtain ⟨y, hy, -, hnode, -⟩ := hchange.toExtends.holds hx
  obtain ⟨b', hb', -, hstamp'⟩ := hchange.build hx.build
  have hbuild : y.node.buildId = x.node.buildId := congrArg (·.1) hnode
  have hy_build : y.build = b' := by
    have hlook := hy.build
    rw [hbuild, hb'] at hlook
    exact (Option.some.inj hlook).symm
  refine ⟨y, hy, hy_build ▸ hstamp' hstamp, fun e' he' => of_not_not fun hcommitted => ?_⟩
  rcases hchange.effects_eq_or_ledger with hsame | ⟨hledger, -⟩
  · exact hcommitted (hnone e' (hsame ▸ he'))
  rcases hledger.ledgerStep.commitment he' hcommitted with ⟨e, he, hold⟩ | ⟨x', hx', hunstamped, -⟩
  · exact hold (hnone e he)
  · obtain rfl := hx.unique hx'
    exact hstamp hunstamped

/-- **The effect ledger moves forward.**  Along every run an effect keeps its contract, its receipts
and its commitment, its status follows the moves, and an abandoned effect stays as it is.  What was
in doubt is never again prepared or applied.  What was released or abandoned was never dispatched,
what was abandoned has no receipt, and no commitment appears once the build was asked to stop.  Each
call leaves a status or takes one move, and commits only what is not asked to stop. -/
theorem effect_ledger_moves_forward [Platform] (hreach : s.Reachable) (hrun : Run s s') :
    s.LedgerForward s' ∧ (∀ id e e', s.effects.lookup id = some e → s'.effects.lookup id = some e' →
        e.status = .uncertain → e'.status ≠ .prepared ∧ e'.status ≠ .applied) ∧
      s'.LedgerConsistent ∧ (∀ id, s.StoppedEffect id → s'.StoppedEffect id) ∧
      ∀ op, s'.LedgerStep (s'.step op) := by
  have hforward := ledgerForward_of_run hreach.coherent hrun
  refine ⟨hforward, fun id e e' he he' hdoubt => ?_, (hreach.run hrun).ledgerConsistent,
    fun _ hstopped => ?_, ledgerStep_step (hreach.run hrun).coherent⟩
  · obtain ⟨e'', he'', hmoved⟩ := hforward id e he
    obtain rfl := mem_unique he'' he'
    exact hmoved.status.doubted (by simp [hdoubt])
  · exact invariant_of_any_run (fun _ hchange hinv => hchange.stoppedEffect hinv) hrun
      hreach.coherent hstopped

/-! ## A sample database -/

namespace Sample

/-- The digest of every text under the sample platform. -/
def digest : Digest := .replicate 1

/-- A platform with one digest and one hash. -/
@[reducible]
def platform : Platform := ⟨fun _ => digest, fun _ _ => 0, fun _ => none, fun _ => .ok ()⟩

/-- A pipeline of project 1. -/
def pipeline : PipelineWrite := ⟨1, 2, "p", "src", digest, digest, 1, 0, .obj []⟩

/-- A single-node build of the pipeline. -/
def single : NewBuild := ⟨1, 2, 1, 1, "k", digest, "a", [], "pool", 0, .null⟩

/-- The claim of the agent. -/
def request : ClaimRequest := ⟨"scheduler", "agent", ["platform:linux"], "pool", 60, 0⟩

/-- The authority of the agent over the first claim of an attempt. -/
def authority (attemptId : Uuid) : LeaseAuthority := ⟨attemptId, 1, 1, "agent"⟩

/-- The calls that store the pipeline and admit the single-node build as build 100, node 101 and
attempt 102. -/
def admitted : List Op :=
  [.putPipeline 0 pipeline none "owner", .admitBuild 0 (fun i => 100 + i) single]

/-- A checkpoint of the effect `e` of an attempt. -/
def checkpoint (attemptId : Uuid) (status : EffectStatus) : Op :=
  .checkpointEffect 10 (authority attemptId) "e" .idempotent status .null

/-- The calls that bring attempt 102 to execution with a prepared effect. -/
def prepared : List Op :=
  admitted ++ [.claimNext 10 request none, .acceptOffer 10 (authority 102) none,
    checkpoint 102 .prepared]

/-- The state after a sequence of Store calls under the sample platform. -/
def stateAfter (ops : List Op) : Store :=
  @runOps platform (initial 9) ops

end Sample

open Sample in
/-- A confirmed effect can become uncertain again, and an effect that is pending release can carry
a receipt. -/
theorem confirmed_effect_doubted_and_released_effect_receipted :
    (((stateAfter (prepared ++ [checkpoint 102 .applied, checkpoint 102 .confirmed])).effects.lookup
        ⟨102, 1, "e"⟩).map EffectRow.status = some .confirmed ∧
      ((stateAfter (prepared ++ [checkpoint 102 .applied, checkpoint 102 .confirmed,
        checkpoint 102 .uncertain])).effects.lookup ⟨102, 1, "e"⟩).map EffectRow.status =
          some .uncertain) ∧
    ((stateAfter (prepared ++ [.appendEffectEvidence 10 (authority 102) "e" .outcome .null,
        checkpoint 102 .releasePending])).effects.lookup ⟨102, 1, "e"⟩).map
      (fun e => (e.status, e.hasEvidence)) = some (.releasePending, true) := by
  decide +kernel

open Sample in
/-- The ledger of the sample build moves forward when its effect is confirmed, and by one move when
it is doubted again. -/
theorem effect_ledger_moves_forward_prepared :
    let s' := @runOps platform (stateAfter prepared)
      [checkpoint 102 .applied, checkpoint 102 .confirmed]
    (stateAfter prepared).LedgerForward s' ∧
      s'.LedgerStep (@step platform s' (checkpoint 102 .uncertain)) := by
  have hmoved := @effect_ledger_moves_forward _ _ platform (@reachable_runOps platform 9 prepared)
    (@run_runOps platform _ [checkpoint 102 .applied, checkpoint 102 .confirmed])
  exact ⟨hmoved.1, hmoved.2.2.2.2 _⟩

end Store

/-- The dispatch of an effect that must not be repeated is committed. -/
def EffectRow.IsDispatched (e : EffectRow) : Prop :=
  e.effectClass = .nonIdempotent ∧ e.dispatchCommittedAt ≠ none

/-- A dispatched effect is among the effects that a retry or a requeue looks for. -/
theorem EffectRow.IsDispatched.isProtected (he : e.IsDispatched) : e.isProtected = true := by
  simp [EffectRow.isProtected, he.1]

namespace Store

variable {own : Prop} {s s' : Store}

/-- The attempt of an effect is its node's last one, still under the effect's fence, and will not be
offered again. -/
structure Pinned (s : Store) (id : EffectId) (r : AttemptRow) (n : NodeRow) : Prop where
  attempt : s.attempts.lookup id.attemptId = some r
  node : s.nodes.lookup r.nodeId = some n
  fence : r.fence = id.fence
  current : ¬ s.Superseded id.attemptId
  started : r.status ≠ .queued ∧ r.status ≠ .offered
  unskipped : n.status ≠ .skipped

/-- Every dispatched effect pins its attempt and was not given up. -/
def DispatchPinned (s : Store) : Prop :=
  ∀ id e, s.effects.lookup id = some e → e.IsDispatched →
    (∃ r n, s.Pinned id r n) ∧ e.status ≠ .abandoned ∧ e.status ≠ .releasePending

/-- What a move does to an attempt that has started and whose protected effects are not given up. -/
private theorem moved_started {a : Uuid} {x y : Rows} {new : List BuildEvent}
    (hmove : Move s a x y new) (hstarted : x.attempt.status ≠ .queued ∧
      x.attempt.status ≠ .offered) (hunskipped : x.node.status ≠ .skipped)
    (hkept : ∃ id e, s.effects.lookup id = some e ∧ id.attemptId = a ∧
      id.fence = x.attempt.fence ∧ e.isProtected = true ∧ e.status ≠ .abandoned) :
    y.attempt.fence = x.attempt.fence ∧
      (y.attempt.status ≠ .queued ∧ y.attempt.status ≠ .offered) ∧ y.node.status ≠ .skipped := by
  cases hmove with
  | offer hqueued => exact absurd hqueued hstarted.1
  | start hstatus hy =>
    subst hy
    refine ⟨rfl, ?_, by simp⟩
    rcases hstatus with ⟨-, rfl⟩ | ⟨-, rfl⟩ <;> simp
  | @recover phase _ _ hy =>
    subst hy
    exact ⟨rfl, by cases phase <;> simp [RecoveryPhase.attemptStatus], hunskipped⟩
  | @settle outcome _ _ _ _ _ _ hy =>
    subst hy
    refine ⟨rfl, ?_, ?_⟩ <;> cases outcome <;>
      simp [AttemptRow.closed, NodeRow.settled, TerminalOutcome.attemptStatus,
        TerminalOutcome.nodeStatus]
  | @keep outcome _ _ _ _ _ _ hy =>
    subst hy
    refine ⟨rfl, ?_, hunskipped⟩
    cases outcome <;> simp [AttemptRow.closed, TerminalOutcome.attemptStatus]
  | @closeSolo outcome _ _ _ _ hy =>
    subst hy
    refine ⟨rfl, ?_, ?_⟩ <;> cases outcome <;>
      simp [AttemptRow.closed, TerminalOutcome.attemptStatus, TerminalOutcome.nodeStatus]
  | park _ _ hy =>
    subst hy
    exact ⟨rfl, by simp, by simp⟩
  | requeue _ _ hclean =>
    obtain ⟨id, e, he, hid, hfence, hprotected, habandoned⟩ := hkept
    exact absurd (hclean id e he hid hfence hprotected) habandoned
  | deadLetter _ _ hy =>
    subst hy
    exact ⟨rfl, by simp [AttemptRow.closed, TerminalOutcome.attemptStatus], by simp⟩
  | cancelQueued _ hqueued => exact absurd hqueued hstarted.1
  | cancelActive _ _ hy =>
    subst hy
    exact ⟨rfl, by simp, hunskipped⟩

/-- What a sweep does to an attempt that has started. -/
private theorem swept_started {r r' : AttemptRow} {n n' : NodeRow}
    (hswept : Swept n r n' r') (hphase : DagPhase n r.status)
    (hstarted : r.status ≠ .queued ∧ r.status ≠ .offered) (hunskipped : n.status ≠ .skipped) :
    r'.fence = r.fence ∧ (r'.status ≠ .queued ∧ r'.status ≠ .offered) ∧ n'.status ≠ .skipped := by
  cases hswept with
  | keep hn hr =>
    subst hn hr
    exact ⟨rfl, hstarted, hunskipped⟩
  | ready hblocked => exact absurd (hphase.queued_of_waiting (.inl hblocked)) hstarted.1
  | skip hqueued => exact absurd hqueued hstarted.1
  | drop hstatus => exact absurd hstatus (not_or.mpr hstarted)
  | stop _ _ hn hr =>
    subst hn hr
    exact ⟨rfl, by simp, hunskipped⟩
  | outlive _ _ hn hr =>
    subst hn hr
    exact ⟨rfl, hstarted, by simp⟩

/-- No retry supersedes an attempt with a dispatched effect. -/
private theorem not_renewed {id : EffectId} {x y : Rows}
    (hrenew : Renewal s id.attemptId x y) (he : s.effects.lookup id = some e)
    (hdispatched : e.IsDispatched) (hkept : e.status ≠ .abandoned)
    (hunskipped : x.node.status ≠ .skipped) : False := by
  cases hrenew with
  | auto _ _ _ _ hclean =>
    rw [hasUnabandonedNonIdempotentEffect, Table.any_eq_false] at hclean
    simpa [hdispatched.1, hkept] using hclean id e he
  | retry _ _ hclean => exact hclean id e he rfl hdispatched.1
  | reopen _ hskipped => exact hunskipped hskipped

/-- A pinned attempt stays pinned while its effect is dispatched and not given up. -/
theorem Pinned.change {id : EffectId} {r : AttemptRow} {n : NodeRow}
    (hpin : s.Pinned id r n) (hchange : Change own s s') (hco : s.Coherent)
    (he : s.effects.lookup id = some e) (hdispatched : e.IsDispatched)
    (hkept : e.status ≠ .abandoned) : ∃ r' n', s'.Pinned id r' n' := by
  obtain ⟨n', r', hn', hr', hevolves⟩ := hchange.evolves hco hpin.attempt hpin.node hpin.current
  have hnode : r'.nodeId = r.nodeId := by
    obtain ⟨r'', hr'', hid⟩ := hchange.toExtends.attempt hpin.attempt
    obtain rfl := mem_unique hr'' hr'
    exact congrArg (·.1) hid
  have hn'' : s'.nodes.lookup r'.nodeId = some n' := by rw [hnode, hn']
  cases hevolves with
  | still hn hr hcur =>
    subst hn
    exact ⟨r', n', hr', hn'', by rw [hr]; exact hpin.fence, hcur, by rw [hr]; exact hpin.started,
      hpin.unskipped⟩
  | moved _ _ hmove hcur =>
    obtain ⟨hfence, hstarted, hunskipped⟩ := moved_started hmove hpin.started hpin.unskipped
      ⟨id, e, he, rfl, hpin.fence.symm, hdispatched.isProtected, hkept⟩
    exact ⟨r', n', hr', hn'', hfence.trans hpin.fence, hcur, hstarted, hunskipped⟩
  | swept hb hdag hswept hcur =>
    have hphase := hco.dagPhase hb hdag hpin.attempt hpin.node rfl hpin.current
    obtain ⟨hfence, hstarted, hunskipped⟩ := swept_started hswept hphase hpin.started hpin.unskipped
    exact ⟨r', n', hr', hn'', hfence.trans hpin.fence, hcur, hstarted, hunskipped⟩
  | renewed _ _ hrenew =>
    exact (not_renewed hrenew he hdispatched hkept hpin.unskipped).elim

/-- An executing attempt is pinned by what it dispatches. -/
theorem Coherent.pinned (hco : s.Coherent) {id : EffectId} {x : Rows}
    (hx : s.Holds id.attemptId x) (hexec : x.attempt.status.isExecuting = true)
    (hfence : x.attempt.fence = id.fence) : s.Pinned id x.attempt x.node := by
  have hlive := isLive_of_isExecuting hexec
  have hcur := hco.not_superseded_of_isLive hx.attempt hlive
  have hphase := (hco.ok hx.attempt hx.node hx.build hcur).phase
  refine ⟨hx.attempt, hx.node, hfence, hcur, ?_, fun hskipped => ?_⟩
  · constructor <;> intro hstatus <;> simp [hstatus, AttemptStatus.isExecuting] at hexec
  · rcases hphase.leased hlive with hnode | hnode | ⟨hnode, -⟩ <;> simp [hskipped] at hnode

theorem Change.dispatchPinned (hchange : Change own s s') (hco : s.Coherent)
    (hold : s.DispatchPinned) : s'.DispatchPinned := by
  intro id e' he' hdispatched'
  rcases hchange.effects_eq_or_ledger with hsame | ⟨hledger, -⟩
  · rw [hsame] at he'
    obtain ⟨⟨r, n, hpin⟩, habandoned, hpending⟩ := hold id e' he' hdispatched'
    exact ⟨hpin.change hchange hco he' hdispatched' habandoned, habandoned, hpending⟩
  rcases he : s.effects.lookup id with _ | e
  · exact absurd (hledger.fresh he' he).2.1 hdispatched'.2
  obtain ⟨e'', he'', hwrite⟩ := hledger.written he
  obtain rfl := mem_unique he'' he'
  have hsame_rows {r : AttemptRow} {n : NodeRow} (hpin : s.Pinned id r n) : s'.Pinned id r n := by
    rw [hledger.rest]
    exact ⟨hpin.attempt, hpin.node, hpin.fence, hpin.current, hpin.started, hpin.unskipped⟩
  -- Unless the write is the commitment, the effect was dispatched before.
  have hbefore (hclass : e''.effectClass = e.effectClass)
      (hcommit : e''.dispatchCommittedAt = e.dispatchCommittedAt) :
      (∃ r n, s'.Pinned id r n) ∧ e.status ≠ .abandoned ∧ e.status ≠ .releasePending := by
    obtain ⟨⟨r, n, hpin⟩, hkept⟩ := hold id e he
      ⟨hclass ▸ hdispatched'.1, hcommit ▸ hdispatched'.2⟩
    exact ⟨⟨r, n, hsame_rows hpin⟩, hkept⟩
  cases hwrite with
  | keep heq =>
    subst heq
    exact hbefore rfl rfl
  | advance _ _ _ hcommitted _ heq =>
    subst heq
    exact ⟨(hbefore rfl rfl).1, hcommitted hdispatched'.2⟩
  | commit hx hexec hfence hprepared _ _ heq =>
    subst heq
    exact ⟨⟨_, _, hsame_rows (hco.pinned hx hexec hfence)⟩, by simp [hprepared],
      by simp [hprepared]⟩
  | @evidence kind receipt _ _ _ _ _ heq =>
    subst heq
    obtain ⟨hclass, -, -, hstatus, hcommit⟩ := e.withReceipt_columns receipt kind
    rw [hstatus]
    exact hbefore hclass hcommit
  | release hundispatched _ _ heq =>
    subst heq
    exact absurd (undispatched_columns hundispatched).2 hdispatched'.2

theorem Reachable.dispatchPinned [Platform] (hreach : s.Reachable) : s.DispatchPinned := by
  obtain ⟨organizationId, hrun⟩ := hreach
  refine invariant_of_any_run (fun hco hchange hold => hchange.dispatchPinned hco hold) hrun
    (coherent_initial organizationId) fun id e he => ?_
  cases he

theorem commitEffectDispatch_eq_ok [Platform] {now : Timestamp} {authority : LeaseAuthority}
    {effectKey : String} {effectClass : EffectClass} {payload : Json}
    (hok : s.commitEffectDispatch now authority effectKey effectClass payload = .ok (s', true)) :
    ∃ e, s'.effects.lookup ⟨authority.attemptId, authority.fence, effectKey⟩ = some e ∧
      e.effectClass = effectClass ∧ e.dispatchCommittedAt ≠ none := by
  unfold commitEffectDispatch at hok
  split at hok
  · cases hok
  split at hok
  · cases hok
  split at hok
  · cases hok
  simp only at hok
  split at hok
  · cases hok
  next e he =>
  split at hok
  · next hchecked =>
    simp only [Bool.and_eq_true, decide_eq_true_eq] at hchecked
    obtain ⟨rfl, -⟩ := Prod.mk.inj (Except.ok.inj hok)
    refine ⟨_, (Table.lookup_modify_of_eq he _ _).trans (if_pos rfl), hchecked.1.1.1.1, ?_⟩
    cases e.dispatchCommittedAt <;> simp
  · cases hok

/-- **A dispatched non-idempotent effect is never executed twice.**  After the commitment, whatever
calls follow, an attempt of the node that is queued, offered, accepted or running is the attempt
that committed, under the fence of the commitment. -/
theorem dispatched_effect_not_executed_twice [Platform] {now : Timestamp}
    {authority : LeaseAuthority} {effectKey : String} {payload : Json} {t t' : Store} {a' : Uuid}
    {r r' : AttemptRow} (hreach : s.Reachable)
    (hcommit : s.commitEffectDispatch now authority effectKey .nonIdempotent payload =
      .ok (t, true)) (hr : s.attempts.lookup authority.attemptId = some r) (hrun : Run t t')
    (hr' : t'.attempts.lookup a' = some r') (hnode : r'.nodeId = r.nodeId)
    (hstatus : r'.status = .queued ∨ r'.status = .offered ∨ r'.status = .accepted ∨
      r'.status = .running) : a' = authority.attemptId ∧ r'.fence = authority.fence := by
  let op : Op := .commitEffectDispatch now authority effectKey .nonIdempotent payload
  have hstep : s.step op = t := by simp only [op, step, hcommit, after]
  have hrun_t : Run s t := hstep ▸ Transition.Run.single trivial
  have hrun_s := hrun_t.trans hrun
  have hreach_t := hreach.run hrun_t
  have hreach_t' := hreach_t.run hrun
  -- The effect is still dispatched, so it pins its attempt.
  obtain ⟨e, he, hclass, hcommitted⟩ := commitEffectDispatch_eq_ok hcommit
  obtain ⟨e', he', hforward⟩ := ledgerForward_of_run hreach_t.coherent hrun _ e he
  obtain ⟨time, htime⟩ := ne_none_iff_exists'.mp hcommitted
  have hdispatched : e'.IsDispatched :=
    ⟨hforward.effectClass.trans hclass, by simp [hforward.commitment htime]⟩
  obtain ⟨⟨r'', n, hpin⟩, -⟩ := hreach_t'.dispatchPinned _ e' he' hdispatched
  -- The node's current attempt is the pinned one.
  have hco := hreach_t'.coherent
  obtain ⟨q, hq, hid⟩ := (extends_of_run hrun_s hreach.coherent).attempt hr
  obtain rfl := mem_unique hq hpin.attempt
  have hsame : r'.nodeId = q.nodeId := hnode.trans (congrArg (·.1) hid).symm
  have hcur : ¬ t'.Superseded a' := hco.not_superseded hr' (by
    rintro (h | h | h) <;> simp [h] at hstatus)
  have ha := hco.current hr' hpin.attempt hsame hcur hpin.current
  subst ha
  obtain rfl := mem_unique hr' hpin.attempt
  exact ⟨rfl, hpin.fence⟩

/-- The calls that bring attempt 102 to execution with a prepared effect that must not be
repeated. -/
def Sample.guarded : List Op :=
  Sample.admitted ++ [.claimNext 10 Sample.request none, .acceptOffer 10 (Sample.authority 102) none,
    .checkpointEffect 10 (Sample.authority 102) "e" .nonIdempotent .prepared .null]

/-- Calls that may come after the commitment: the agent goes on, and others look for work. -/
def Sample.goneOn : List Op :=
  [.markAttemptRunning 20 (authority 102) none,
    .checkpointEffect 20 (authority 102) "e" .nonIdempotent .applied .null,
    .requeueOneExpired 30 300, .claimNext 30 request none,
    .scheduleRetry 30 (fun i => 400 + i) 102 3 "again" "owner"]

open Sample in
/-- After the commitment and what follows, the sample build's node executes its attempt 102 under
the fence of the commitment. -/
theorem dispatched_effect_not_executed_twice_guarded :
    let t := (stateAfter guarded).after (@commitEffectDispatch platform (stateAfter guarded) 10
      (authority 102) "e" .nonIdempotent .null)
    ((@runOps platform t goneOn).attempts.lookup 102).map
      (fun r => (r.status, r.fence)) = some (.running, 1) := by
  intro t
  have hanswer : (@commitEffectDispatch platform (stateAfter guarded) 10 (authority 102) "e"
      .nonIdempotent .null).map Prod.snd = .ok true := by decide +kernel
  have hbefore : ((stateAfter guarded).attempts.lookup 102).map AttemptRow.nodeId = some 101 := by
    decide +kernel
  have hafter : ((@runOps platform t goneOn).attempts.lookup 102).map
      (fun r => (r.nodeId, r.status)) = some (101, .running) := by decide +kernel
  obtain ⟨r, hr, hnode⟩ := map_eq_some_iff.mp hbefore
  obtain ⟨r', hr', hcolumns⟩ := map_eq_some_iff.mp hafter
  obtain ⟨hnode', hstatus⟩ := Prod.mk.inj hcolumns
  obtain ⟨-, hfence⟩ := @dispatched_effect_not_executed_twice (stateAfter guarded) platform 10
    (authority 102) "e" .null t (@runOps platform t goneOn) 102 r r'
    (@reachable_runOps platform 9 guarded) (eq_ok_after hanswer) hr
    (@run_runOps platform t goneOn) hr' (hnode'.trans hnode.symm) (.inr (.inr (.inr hstatus)))
  rw [hr', map_some, hfence, hstatus]
  rfl

end Store

end McLoving
