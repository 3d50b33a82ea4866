import McLoving.Safety.Ledger

/-!
# Attempts over whole runs

The attempts of a node form one chain: admission makes the first one of each new node, and retries
make the next one of an attempt that has not been retried.  Each of them implements the repository's
specification of leases, and its fence counts its offers, which the event log names.
-/

namespace McLoving

open Option Table

/-! ## The specification of leases -/

/-- The phases of `AttemptLease.tla`. -/
inductive LeasePhase where
  | ready | offered | running | reconciliation | terminal

/-- The variables of `AttemptLease.tla`, which specifies one attempt; `NoAgent` and `NoLease` are
`none`. -/
structure AttemptLease where
  phase : LeasePhase
  leaseAgent : Option String
  leaseEpoch : ℤ
  acceptedLease : Option (String × ℤ)
  completion : Option (String × ℤ)
  lastRejected : Option (String × ℤ)
  terminalSeen : Bool

namespace AttemptLease

variable {t t' : AttemptLease}

/-- `Init`. -/
def init : AttemptLease := ⟨.ready, none, 0, none, none, none, false⟩

/-- The lease that holds. -/
def lease (t : AttemptLease) : Option (String × ℤ) :=
  t.leaseAgent.map fun agent => (agent, t.leaseEpoch)

/-- `Fence`. -/
def fenced (t : AttemptLease) : AttemptLease :=
  { t with phase := .reconciliation, leaseAgent := none, leaseEpoch := t.leaseEpoch + 1,
           acceptedLease := none }

/-- `Next`, without `MaxEpoch`, which only bounds the model checker. -/
inductive Next (t : AttemptLease) : AttemptLease → Prop where
  | offer (agent : String) (hphase : t.phase = .ready ∨ t.phase = .reconciliation) :
      Next t { t with phase := .offered, leaseAgent := some agent,
                      leaseEpoch := t.leaseEpoch + 1, acceptedLease := none }
  | accept {held : String × ℤ} (hphase : t.phase = .offered) (hlease : t.lease = some held) :
      Next t { t with phase := .running, acceptedLease := some held }
  | publish {held : String × ℤ} (hphase : t.phase = .running)
      (haccepted : t.acceptedLease = some held) (hlease : t.lease = some held) :
      Next t { t with phase := .terminal, completion := some held, terminalSeen := true }
  | reject {held : String × ℤ} (hstale : ¬ (t.phase = .running ∧ t.acceptedLease = some held)) :
      Next t { t with lastRejected := some held }
  | fence (hphase : t.phase = .offered ∨ t.phase = .running) : Next t t.fenced
  | requeue (hphase : t.phase = .reconciliation) : Next t { t with phase := .ready }

/-- The invariants of the specification. -/
structure Safe (t : AttemptLease) : Prop where
  leaseShape : t.leaseAgent = none ↔ t.phase = .ready ∨ t.phase = .reconciliation
  runningLeaseIsCurrent : t.phase = .running → t.acceptedLease = t.lease
  completionHasAuthority : t.completion ≠ none →
    t.phase = .terminal ∧ t.completion = t.acceptedLease ∧ t.completion = t.lease
  terminalIsConsistent : t.terminalSeen = true ↔ t.phase = .terminal

theorem Next.safe (hnext : t.Next t') (hsafe : t.Safe) : t'.Safe := by
  obtain ⟨hshape, hrunning, hcompletion, hterminal⟩ := hsafe
  cases hnext <;> constructor <;> grind [lease, fenced]

theorem Safe.exists_lease (hsafe : t.Safe) (hphase : t.phase = .offered ∨ t.phase = .running) :
    ∃ held, t.lease = some held := by
  rw [← ne_none_iff_exists', lease, ne_eq, map_eq_none_iff, hsafe.leaseShape]
  rcases hphase with h | h <;> simp [h]

end AttemptLease

/-- The phase of the specification in which an attempt is.  One that ends without a result under its
lease stays where it was, or has been fenced. -/
def AttemptStatus.Shows (status : AttemptStatus) (phase : LeasePhase) : Prop :=
  match status with
  | .queued => phase = .ready
  | .offered => phase = .offered ∨ phase = .running
  | .accepted | .running | .finalizing | .cancelling => phase = .running
  | .reconciliationRequired => phase = .reconciliation
  | .aborted => phase = .ready ∨ phase = .reconciliation
  | .succeeded | .failed => phase = .terminal ∨ phase = .ready ∨ phase = .reconciliation

/-- The row of an attempt shows a state of the specification, whose epoch counts the ends of leases
without a result, too. -/
structure AttemptRow.Shows (r : AttemptRow) (t : AttemptLease) : Prop where
  safe : t.Safe
  phase : r.status.Shows t.phase
  free : t.leaseAgent = none → t.leaseEpoch = 2 * r.fence
  held : t.leaseAgent ≠ none → t.leaseAgent = r.leaseOwner ∧ t.leaseEpoch + 1 = 2 * r.fence

/-- The fence, the agent and the restore epoch of an offer of the attempt. -/
def BuildEvent.offerOf (a : Uuid) (e : BuildEvent) : Option (ℤ × String × ℤ) :=
  match e.payload with
  | .attemptOffered attemptId _ agentId _ _ fence restoreEpoch =>
    if attemptId = a then some (fence, agentId, restoreEpoch) else none
  | _ => none

/-- The numbers from the given one down to one. -/
def countdown : ℕ → List ℤ
  | 0 => []
  | k + 1 => (k + 1 : ℤ) :: countdown k

namespace Store

variable {own : Prop} {s s' : Store}

/-- A change keeps the place of every attempt in its chain, or it inserts a retry of an attempt that
has not been retried, or it admits a build. -/
theorem Change.rewrites_or (hchange : Change own s s') : s.Rewrites s' ∨
    (∃ mid a c x y child, s.Touches mid a x y ∧ ¬ s.Superseded a ∧ s.Succeeds a c x child ∧
      s'.builds = mid.builds ∧ s'.nodes = mid.nodes ∧
      s'.attempts = mid.attempts.insert c child) ∨
    ∃ buildId build newNodes newAttempts newDependencies,
      s.Admits s' buildId build newNodes newAttempts newDependencies := by
  cases hchange with
  | frame hframe => exact .inl hframe.rewrites
  | pipelines hadvance =>
    rw [hadvance.rest]
    exact .inl ⟨fun _ => rfl, fun _ => rfl, fun _ => rfl, rfl⟩
  | ledger hledger =>
    rw [hledger.rest]
    exact .inl ⟨fun _ => rfl, fun _ => rfl, fun _ => rfl, rfl⟩
  | epoch _ hs =>
    rw [hs]
    exact .inl ⟨fun _ => rfl, fun _ => rfl, fun _ => rfl, rfl⟩
  | mark hre => exact .inl hre.rewrites
  | move htouch => exact .inl htouch.rewrites
  | renew htouch _ hcur hsucc _ _ hs =>
    exact .inr (.inl ⟨_, _, _, _, _, _, htouch, hcur, hsucc, by rw [hs]; rfl,
      by rw [hs]; rfl, by rw [hs]; rfl⟩)
  | sweep _ _ hsweep => exact .inl hsweep.rewrites
  | enter hnew => exact .inr (.inr ⟨_, _, _, _, _, hnew⟩)

/-- First attempts have ordinal one, every node has at most one of them, and no attempt is retried
twice. -/
structure Lined (s : Store) : Prop where
  first : ∀ {a r}, s.attempts.lookup a = some r → r.retryOf = none → r.ordinal = 1
  unique_first : ∀ {a r a' r'}, s.attempts.lookup a = some r → s.attempts.lookup a' = some r' →
    r.nodeId = r'.nodeId → r.retryOf = none → r'.retryOf = none → a = a'
  unique_next : ∀ {a r a' r' p}, s.attempts.lookup a = some r → s.attempts.lookup a' = some r' →
    r.retryOf = some p → r'.retryOf = some p → a = a'

/-- The chains stay when the rows keep their places. -/
theorem Rewrites.lined (hrw : s.Rewrites s') (hold : s.Lined) : s'.Lined where
  first hr' hnone := by
    obtain ⟨r, hr, hid⟩ := hrw.symm.attempt hr'
    exact (congrArg (·.2.1) hid).symm.trans (hold.first hr ((congrArg (·.2.2) hid).trans hnone))
  unique_first hr₁ hr₂ hnode hnone₁ hnone₂ := by
    obtain ⟨r, hr, hid⟩ := hrw.symm.attempt hr₁
    obtain ⟨q, hq, hid'⟩ := hrw.symm.attempt hr₂
    refine hold.unique_first hr hq ?_ ((congrArg (·.2.2) hid).trans hnone₁)
      ((congrArg (·.2.2) hid').trans hnone₂)
    exact (congrArg (·.1) hid).trans (hnode.trans (congrArg (·.1) hid').symm)
  unique_next hr₁ hr₂ hretry₁ hretry₂ := by
    obtain ⟨r, hr, hid⟩ := hrw.symm.attempt hr₁
    obtain ⟨q, hq, hid'⟩ := hrw.symm.attempt hr₂
    exact hold.unique_next hr hq ((congrArg (·.2.2) hid).trans hretry₁)
      ((congrArg (·.2.2) hid').trans hretry₂)

/-- A retry of an attempt that has not been retried extends its chain. -/
theorem Lined.insert (hold : s.Lined) {a c : Uuid} {x : Rows} {child : AttemptRow}
    (hcur : ¬ s.Superseded a) (hsucc : s.Succeeds a c x child)
    (hattempts : s'.attempts = s.attempts.insert c child) : s'.Lined where
  first hr hnone := by
    rw [hattempts] at hr
    rcases lookup_insert_cases hr with ⟨-, rfl⟩ | ⟨-, hr⟩
    · simp [hsucc.retryOf] at hnone
    · exact hold.first hr hnone
  unique_first hr₁ hr₂ hnode hnone₁ hnone₂ := by
    rw [hattempts] at hr₁ hr₂
    rcases lookup_insert_cases hr₁ with ⟨-, rfl⟩ | ⟨-, hr₁⟩
    · simp [hsucc.retryOf] at hnone₁
    rcases lookup_insert_cases hr₂ with ⟨-, rfl⟩ | ⟨-, hr₂⟩
    · simp [hsucc.retryOf] at hnone₂
    · exact hold.unique_first hr₁ hr₂ hnode hnone₁ hnone₂
  unique_next {a₁ r₁ a₂ r₂ p} hr₁ hr₂ hretry₁ hretry₂ := by
    rw [hattempts] at hr₁ hr₂
    -- The retried attempt had no retry before.
    rcases lookup_insert_cases hr₁ with ⟨rfl, rfl⟩ | ⟨-, hq₁⟩ <;>
      rcases lookup_insert_cases hr₂ with ⟨rfl, rfl⟩ | ⟨-, hq₂⟩
    · rfl
    · obtain rfl := mem_unique hsucc.retryOf hretry₁
      exact absurd ⟨a₂, r₂, hq₂, hretry₂⟩ hcur
    · obtain rfl := mem_unique hsucc.retryOf hretry₂
      exact absurd ⟨a₁, r₁, hq₁, hretry₁⟩ hcur
    · exact hold.unique_next hq₁ hq₂ hretry₁ hretry₂

/-- Admission starts a chain for every new node. -/
theorem Admits.lined {buildId : Uuid} {build : BuildRow} {newNodes : List (Uuid × NodeRow)}
    {newAttempts : List (Uuid × AttemptRow)} {newDependencies : List DependencyRow}
    (hnew : s.Admits s' buildId build newNodes newAttempts newDependencies) (hco : s.Coherent)
    (hold : s.Lined) : s'.Lined where
  first hr hnone := by
    rcases (hnew.attempts _ _).mp hr with hr | hmem
    · exact hold.first hr hnone
    · rw [(hnew.attempt hmem).2.1]
      rfl
  unique_first hr₁ hr₂ hnode hnone₁ hnone₂ := by
    -- The nodes of old attempts are not among the new ones.
    have hold_node : ∀ {a r}, s.attempts.lookup a = some r → s.nodes.lookup r.nodeId ≠ none := by
      intro a r hr hnone
      obtain ⟨n, hn⟩ := hco.node hr
      simp [hn] at hnone
    rcases (hnew.attempts _ _).mp hr₁ with hr₁ | hmem₁ <;>
      rcases (hnew.attempts _ _).mp hr₂ with hr₂ | hmem₂
    · exact hold.unique_first hr₁ hr₂ hnode hnone₁ hnone₂
    · exact absurd (hnode ▸ (hnew.attempt hmem₂).2.2.1) (hold_node hr₁)
    · exact absurd (hnode ▸ (hnew.attempt hmem₁).2.2.1) (hold_node hr₂)
    · exact hnew.attempt_unique hmem₁ hmem₂ hnode
  unique_next hr₁ hr₂ hretry₁ hretry₂ := by
    have hnew_first : ∀ {a r}, (a, r) ∈ newAttempts → r.retryOf = none := by
      intro a r hmem
      rw [(hnew.attempt hmem).2.1]
      rfl
    rcases (hnew.attempts _ _).mp hr₁ with hr₁ | hmem₁
    · rcases (hnew.attempts _ _).mp hr₂ with hr₂ | hmem₂
      · exact hold.unique_next hr₁ hr₂ hretry₁ hretry₂
      · simp [hnew_first hmem₂] at hretry₂
    · simp [hnew_first hmem₁] at hretry₁

theorem Change.lined (hchange : Change own s s') (hco : s.Coherent) (hold : s.Lined) :
    s'.Lined := by
  rcases hchange.rewrites_or with hrw | ⟨mid, a, c, x, y, child, htouch, hcur, hsucc, -, -, hs⟩ |
    ⟨buildId, build, newNodes, newAttempts, newDependencies, hnew⟩
  · exact hrw.lined hold
  · have hmid := htouch.rewrites
    have hfresh : mid.attempts.lookup c = none := by
      rw [htouch.attempts, if_neg]
      · exact hsucc.fresh
      · rintro rfl
        exact absurd hsucc.fresh (by simp [htouch.holds.attempt])
    exact (hmid.lined hold).insert (fun hsup => hcur (hmid.superseded_iff.mp hsup))
      ⟨hfresh, hsucc.nodeId, hsucc.ordinal, hsucc.retryOf, hsucc.status, hsucc.fence⟩ hs
  · exact hnew.lined hco hold

theorem Reachable.lined [Platform] (hreach : s.Reachable) : s.Lined := by
  obtain ⟨organizationId, hrun⟩ := hreach
  refine invariant_of_any_run (fun hco hchange hold => hchange.lined hco hold) hrun
    (coherent_initial organizationId) ⟨fun hr => ?_, fun hr => ?_, fun hr => ?_⟩ <;> cases hr

/-! ## The chain of a node -/

/-- An attempt of the node. -/
def IsAttemptOf (s : Store) (nodeId a : Uuid) : Prop :=
  ∃ r, s.attempts.lookup a = some r ∧ r.nodeId = nodeId

/-- The ordinal of an attempt. -/
def ordinalOf (s : Store) (a : Uuid) : ℤ :=
  ((s.attempts.lookup a).map AttemptRow.ordinal).getD 0

/-- The attempt that an attempt retries. -/
def retriedBy (s : Store) (a : Uuid) : Option Uuid :=
  (s.attempts.lookup a).bind AttemptRow.retryOf

theorem Lined.isLineage (hlined : s.Lined) (hco : s.Coherent) (nodeId : Uuid) :
    Lineage.IsLineage (s.IsAttemptOf nodeId) s.ordinalOf s.retriedBy where
  finite := by
    refine (s.attempts.keys.finite_toSet).subset ?_
    rintro a ⟨r, hr, -⟩
    exact AList.mem_keys.mpr (AList.lookup_isSome.mp (by simp [hr]))
  first := by
    rintro a ⟨r, hr, -⟩ hnone
    simp only [retriedBy, hr, bind_some] at hnone
    simp [ordinalOf, hr, hlined.first hr hnone]
  next := by
    rintro a p ⟨r, hr, hnode⟩ hretry
    simp only [retriedBy, hr, bind_some] at hretry
    obtain ⟨q, hq, hsame, hord⟩ := hco.retryOf hr hretry
    exact ⟨⟨q, hq, hsame.trans hnode⟩, by simp [ordinalOf, hr, hq, hord]⟩
  unique_first := by
    rintro a b ⟨r, hr, hnode⟩ ⟨q, hq, hnode'⟩ hnone hnone'
    simp only [retriedBy, hr, hq, bind_some] at hnone hnone'
    exact hlined.unique_first hr hq (hnode.trans hnode'.symm) hnone hnone'
  unique_next := by
    rintro a b p ⟨r, hr, -⟩ ⟨q, hq, -⟩ hretry hretry'
    simp only [retriedBy, hr, hq, bind_some] at hretry hretry'
    exact hlined.unique_next hr hq hretry hretry'

/-- **The attempts of a node form one chain.**  In every reachable state the ordinals of a node's
attempts are `1, …, k`, each once; an attempt is retried by exactly the attempt with the next
ordinal; and only the last one can wait in the queue or be under a lease. -/
theorem attempts_form_one_chain [Platform] (hreach : s.Reachable) {nodeId : Uuid} {n : NodeRow}
    (hn : s.nodes.lookup nodeId = some n) : ∃ k : ℤ, 1 ≤ k ∧
      (∀ a r, s.attempts.lookup a = some r → r.nodeId = nodeId → 1 ≤ r.ordinal ∧ r.ordinal ≤ k) ∧
      (∀ j, 1 ≤ j → j ≤ k → ∃! a, ∃ r, s.attempts.lookup a = some r ∧ r.nodeId = nodeId ∧
        r.ordinal = j) ∧
      (∀ a r c q, s.attempts.lookup a = some r → r.nodeId = nodeId → s.attempts.lookup c = some q →
          (q.retryOf = some a ↔ q.nodeId = nodeId ∧ q.ordinal = r.ordinal + 1)) ∧
      ∀ a r, s.attempts.lookup a = some r → r.nodeId = nodeId →
        (r.status = .queued ∨ r.status.isLive = true) → r.ordinal = k := by
  have hco := hreach.coherent
  have hline := hreach.lined.isLineage hco nodeId
  have hordinal {a : Uuid} {r : AttemptRow} (hr : s.attempts.lookup a = some r) :
      s.ordinalOf a = r.ordinal := by simp [ordinalOf, hr]
  have hretried {a : Uuid} {r : AttemptRow} (hr : s.attempts.lookup a = some r) :
      s.retriedBy a = r.retryOf := by simp [retriedBy, hr]
  obtain ⟨a₀, r₀, hr₀, hnode₀, -⟩ := hco.attempted hn
  obtain ⟨last, hlast, hmax, hchildless⟩ := hline.exists_last ⟨r₀, hr₀, hnode₀⟩
  refine ⟨s.ordinalOf last, hline.one_le_ordinal hlast, ?_, ?_, ?_, ?_⟩
  · intro a r hr hnode
    rw [← hordinal hr]
    exact ⟨hline.one_le_ordinal ⟨r, hr, hnode⟩, hmax a ⟨r, hr, hnode⟩⟩
  · intro j hone hle
    obtain ⟨a, ⟨r, hr, hnode⟩, hord⟩ := hline.exists_ordinal hlast hone hle
    refine ⟨a, ⟨r, hr, hnode, by rw [← hordinal hr, hord]⟩, ?_⟩
    rintro b ⟨q, hq, hnode', hord'⟩
    exact hline.eq_of_ordinal_eq ⟨q, hq, hnode'⟩ ⟨r, hr, hnode⟩ (by rw [hordinal hq, hord', hord])
  · intro a r c q hr hnode hq
    constructor
    · intro hretry
      obtain ⟨r', hr', hsame, hord⟩ := hco.retryOf hq hretry
      obtain rfl := mem_unique hr' hr
      exact ⟨hsame.symm.trans hnode, hord⟩
    · rintro ⟨hnode', hord⟩
      rw [← hretried hq]
      refine (hline.parent_eq_some_iff ⟨r, hr, hnode⟩ ⟨q, hq, hnode'⟩).mpr ?_
      rw [hordinal hq, hordinal hr, hord]
  · intro a r hr hnode hactive
    have hcur : ¬ s.Superseded a := hco.not_superseded hr <| by
      rintro (h | h | h) <;> simp [h, AttemptStatus.isLive] at hactive
    rw [← hordinal hr, hchildless a ⟨r, hr, hnode⟩]
    rintro c ⟨q, hq, -⟩ hretry
    exact hcur ⟨c, q, hq, (hretried hq).symm.trans hretry⟩

/-- The calls after which attempt 102 has failed and attempt 200, its requested retry, is offered. -/
def Sample.requested : List Op :=
  admitted ++ [.claimNext 10 request none, .acceptOffer 10 (authority 102) none,
    .finalizeAttempt 20 150 (authority 102) none .failed .null false,
    .scheduleRetry 30 (fun i => 200 + i) 102 3 "flaky" "owner", .claimNext 40 request none]

open Sample in
/-- The attempts of a retried node are the failed one and, under the next ordinal, its retry. -/
theorem attempts_form_one_chain_retried :
    let s := stateAfter requested
    (s.attempts.lookup 102).map (fun r => (r.nodeId, r.ordinal, r.status)) =
        some (101, 1, .failed) ∧
      (s.attempts.lookup 200).map (fun r => (r.nodeId, r.ordinal, r.retryOf)) =
        some (101, 2, some 102) ∧
      (∀ a r, s.attempts.lookup a = some r → r.nodeId = 101 → 1 ≤ r.ordinal ∧ r.ordinal ≤ 2) ∧
      (∀ j, 1 ≤ j → j ≤ 2 → ∃! a, ∃ r, s.attempts.lookup a = some r ∧ r.nodeId = 101 ∧
        r.ordinal = j) ∧
      (∀ a r c q, s.attempts.lookup a = some r → r.nodeId = 101 → s.attempts.lookup c = some q →
        (q.retryOf = some a ↔ q.nodeId = 101 ∧ q.ordinal = r.ordinal + 1)) ∧
      ∀ a r, s.attempts.lookup a = some r → r.nodeId = 101 →
        (r.status = .queued ∨ r.status.isLive = true) → r.ordinal = 2 := by
  have hnode : ((stateAfter requested).nodes.lookup 101).isSome = true := by decide +kernel
  have hlast : ((stateAfter requested).attempts.lookup 200).map
      (fun r => (r.nodeId, r.ordinal, r.status)) = some (101, 2, .offered) := by decide +kernel
  obtain ⟨n, hn⟩ := isSome_iff_exists.mp hnode
  obtain ⟨k, -, hbounds, hunique, hretry, hactive⟩ := @attempts_form_one_chain _ platform
    (@reachable_runOps platform 9 requested) 101 n hn
  -- The offered attempt is the last one, so the chain has two members.
  obtain ⟨r, hr, heq⟩ := map_eq_some_iff.mp hlast
  simp only [Prod.mk.injEq] at heq
  have hlive : r.status.isLive = true := by simp [heq.2.2, AttemptStatus.isLive]
  obtain rfl : 2 = k := heq.2.1.symm.trans (hactive 200 r hr heq.1 (.inr hlive))
  exact ⟨by decide +kernel, by decide +kernel, hbounds, hunique, hretry, hactive⟩

/-! ## Leases -/

open List

variable {a : Uuid} {r r' : AttemptRow}

/-- An attempt that is leased under the same fence as before was leased then, to the same agent. -/
theorem AttemptStep.lease_before (hstep : AttemptStep s a r r') (hsame : r'.fence = r.fence)
    (hlive : r'.status.isLive = true) : r.status.isLive = true ∧
      r'.leaseOwner = r.leaseOwner ∧ r'.restoreEpoch = r.restoreEpoch := by
  cases hstep with
  | keep hr =>
    rw [hr] at hlive ⊢
    exact ⟨hlive, rfl, rfl⟩
  | offer _ hr =>
    rw [hr] at hsame
    simp at hsame
  | lease hlive' _ hr =>
    rw [hr]
    exact ⟨hlive', rfl, rfl⟩
  | park _ hr | requeue _ _ hr =>
    rw [hr] at hlive
    simp [AttemptStatus.isLive] at hlive
  | @close outcome _ _ _ hr =>
    rw [hr] at hlive
    cases outcome <;>
      simp [AttemptRow.closed, TerminalOutcome.attemptStatus, AttemptStatus.isLive] at hlive

/-- **A closed attempt is final.**  Whatever calls follow, an attempt that has succeeded, failed or
been aborted keeps its row, its summary included, up to the deadline of its lease. -/
theorem closed_attempts_final [Platform] (organizationId : Uuid) (ops later : List Op) :
    ((initial organizationId).runOps ops).KeepsClosed
      (((initial organizationId).runOps ops).runOps later) :=
  relation_of_any_run KeepsClosed.refl KeepsClosed.trans (fun hco hchange => hchange.keepsClosed hco)
    (run_runOps _ later) (reachable_runOps organizationId ops).coherent

section Specification

open AttemptLease AttemptStatus Relation

/-- A state of the specification that an attempt shows; before there is one, it is the first. -/
def Shown (row : Option AttemptRow) (t : AttemptLease) : Prop :=
  row.elim (t = .init) fun r => r.Shows t

/-- Actions of the specification that go with a change of an attempt: a lease that does not end with
an abort ends with `Publish`. -/
structure Follows (row row' : Option AttemptRow) (t t' : AttemptLease) : Prop where
  steps : ReflTransGen Next t t'
  shows : Shown row' t'
  publishes : ∀ r ∈ row, ∀ r' ∈ row', r.status.isLive = true → r'.status.isTerminal = true →
    r'.status = .aborted ∨ t'.phase = .terminal

theorem AttemptStep.follows {t : AttemptLease} (hstep : AttemptStep s a r r')
    (hshows : r.Shows t) : ∃ t', Follows (some r) (some r') t t' := by
  obtain ⟨hsafe, hphase, hfree, hheld⟩ := hshows
  have hshape := hsafe.leaseShape
  have hleased (hlive : r.status.isLive = true) : t.phase = .offered ∨ t.phase = .running := by
    cases hstatus : r.status <;> simp_all [Shows, isLive]
  have hopen {status : AttemptStatus} (hlive : status.isLive = true) : status.isTerminal = false := by
    cases status <;> simp_all [isLive, isTerminal]
  -- The holder of a lease has accepted it, or does so now.
  have haccepted (hlive : r.status.isLive = true) : ∃ t', ReflTransGen Next t t' ∧ t'.Safe ∧
      t'.phase = .running ∧ t'.leaseAgent = t.leaseAgent ∧ t'.leaseEpoch = t.leaseEpoch := by
    rcases hleased hlive with hoffered | hrunning
    · obtain ⟨held, hlease⟩ := hsafe.exists_lease (.inl hoffered)
      have hnext := Next.accept hoffered hlease
      exact ⟨_, .single hnext, hnext.safe hsafe, rfl, rfl, rfl⟩
    · exact ⟨t, .refl, hsafe, hrunning, rfl, rfl⟩
  cases hstep with
  | keep hr =>
    rw [hr]
    exact ⟨t, .refl, ⟨hsafe, hphase, hfree, hheld⟩, by simp +contextual [hopen]⟩
  | @offer agentId hqueued hr =>
    have hready : t.phase = .ready := by rwa [hqueued] at hphase
    have hnext := Next.offer agentId (.inl hready)
    rw [hr]
    exact ⟨_, .single hnext, ⟨hnext.safe hsafe, .inl rfl, by simp, by grind⟩, by simp [isTerminal]⟩
  | lease hlive hlive' hr =>
    obtain ⟨t', hsteps, hsafe', hrunning, hagent, hepoch⟩ := haccepted hlive
    rw [hr]
    refine ⟨t', hsteps, ⟨hsafe', ?_, by grind, by grind⟩, by simp [hopen hlive']⟩
    rw [hrunning]
    revert hlive'
    cases r'.status <;> simp [Shows, isLive]
  | park hlive hr =>
    have hnext := Next.fence (hleased hlive)
    rw [hr]
    exact ⟨_, .single hnext, ⟨hnext.safe hsafe, rfl, by grind [fenced], by simp [fenced]⟩,
      by simp [isTerminal]⟩
  | @close outcome _ _ hopen hr =>
    rw [hr]
    by_cases hlive : r.status.isLive = true
    · cases outcome with
      | aborted =>
        have hnext := Next.fence (hleased hlive)
        exact ⟨_, .single hnext, ⟨hnext.safe hsafe, .inr rfl, by grind [fenced, AttemptRow.closed],
          by simp [fenced]⟩, by simp [AttemptRow.closed, TerminalOutcome.attemptStatus]⟩
      | succeeded | failed =>
        obtain ⟨t', hsteps, hsafe', hrunning, hagent, hepoch⟩ := haccepted hlive
        obtain ⟨held, hlease⟩ := hsafe'.exists_lease (.inr hrunning)
        have hnext := Next.publish hrunning
          ((hsafe'.runningLeaseIsCurrent hrunning).trans hlease) hlease
        exact ⟨_, hsteps.tail hnext, ⟨hnext.safe hsafe', .inl rfl, by grind [AttemptRow.closed],
          by grind [AttemptRow.closed]⟩, by simp⟩
    · refine ⟨t, .refl, ⟨hsafe, ?_, hfree, hheld⟩, by simp [hlive]⟩
      cases outcome <;> cases hstatus : r.status <;> simp_all [Shows, isLive, isTerminal,
        AttemptRow.closed, TerminalOutcome.attemptStatus]
  | requeue hlive _ hr =>
    have hfence := Next.fence (hleased hlive)
    have hnext := Next.requeue (t := t.fenced) rfl
    rw [hr]
    exact ⟨_, .tail (.single hfence) hnext, ⟨hnext.safe (hfence.safe hsafe), rfl,
      by grind [fenced], by simp [fenced]⟩, by simp [isTerminal]⟩

theorem Change.follows {t : AttemptLease} (hchange : Change own s s') (hco : s.Coherent)
    (hshows : Shown (s.attempts.lookup a) t) :
    ∃ t', Follows (s.attempts.lookup a) (s'.attempts.lookup a) t t' := by
  rcases hr : s.attempts.lookup a with _ | r <;> rw [hr] at hshows
  · rcases hr' : s'.attempts.lookup a with _ | r'
    · exact ⟨t, .refl, hshows, by simp⟩
    rcases hchange.attempt_before hr' with ⟨r, hbefore⟩ | ⟨hqueued, hfence⟩
    · cases hr.symm.trans hbefore
    obtain rfl : t = .init := hshows
    exact ⟨_, .refl, ⟨by constructor <;> simp [init], by rw [hqueued]; rfl, by simp [hfence, init],
      by simp [init]⟩, by simp⟩
  · obtain ⟨r', hr', hstep⟩ := hchange.attempt hco hr
    rw [hr']
    exact hstep.follows hshows

/-- One change of the store beside actions of the specification for every attempt. -/
structure LockStep (p q : Store × (Uuid → AttemptLease)) : Prop where
  change : Change True p.1 q.1
  follows : ∀ a, Follows (p.1.attempts.lookup a) (q.1.attempts.lookup a) (p.2 a) (q.2 a)

/-- From all states that the attempts show in the first store, the specification goes in lock step
with the store to states that they show in the second. -/
def Implements (s s' : Store) : Prop :=
  ∀ leases, (∀ a, Shown (s.attempts.lookup a) (leases a)) →
    ∃ leases', ReflTransGen LockStep (s, leases) (s', leases') ∧
      ∀ a, Shown (s'.attempts.lookup a) (leases' a)

theorem Change.implements (hchange : Change True s s') (hco : s.Coherent) : s.Implements s' := by
  intro leases hshows
  choose leases' hfollows using fun a => hchange.follows hco (hshows a)
  exact ⟨leases', .single ⟨hchange, hfollows⟩, fun a => (hfollows a).shows⟩

/-- **Attempts implement the specification of leases.**  Whatever calls follow, every change of the
store goes with actions that `AttemptLease.tla` allows each attempt, from the first state on; the
rows show the states that these lead to, and a result under a lease is its `Publish`. -/
theorem attempts_implement_lease [Platform] (organizationId : Uuid) (ops later : List Op) :
    ((initial organizationId).runOps ops).Implements
      (((initial organizationId).runOps ops).runOps later) := by
  refine relation_of_any_run (fun _ leases hshows => ⟨leases, .refl, hshows⟩)
    (fun hfst hsnd leases hshows => ?_) (fun hco hchange => hchange.implements hco)
    (run_runOps _ later) (reachable_runOps organizationId ops).coherent
  obtain ⟨leases', hsteps, hshows'⟩ := hfst leases hshows
  obtain ⟨leases'', hsteps', hshows''⟩ := hsnd leases' hshows'
  exact ⟨leases'', hsteps.trans hsteps', hshows''⟩

end Specification

/-! ## Nodes and their attempts -/

/-- What the rows of a node, of its build and of an attempt say about each other. -/
structure Agrees (s : Store) (id : Uuid) (n : NodeRow) (b : BuildRow) (a : Uuid) (r : AttemptRow) :
    Prop where
  nodeId : r.nodeId = id
  /-- Every other attempt of the node has ended or waits for reconciliation. -/
  alone : ∀ a' r', s.attempts.lookup a' = some r' → r'.nodeId = id → a' ≠ a → r'.status.IsRetried
  waiting : n.status = .queued ∨ n.status = .blocked → r.status = .queued
  active : n.status = .offered ∨ n.status = .running → r.status.isLive = true
  working : r.status = .accepted ∨ r.status = .running → n.status = .running
  succeeded : n.status = .succeeded → r.status = .succeeded
  failed : n.status = .failed → r.status = .failed
  parked : r.status = .reconciliationRequired → n.status = .reconciliationRequired
  /-- The owner's request to stop a DAG build has reached every node under a lease. -/
  stopped : b.dagMode = true → b.cancellationRequestedAt ≠ none → r.status.isLive = true →
    n.cancellationRequestedAt ≠ none
  verdict : b.dagMode = false → b.status = soloStatus r.status

/-- Every node has one attempt that its status is about. -/
def NodesAgree (s : Store) : Prop :=
  ∀ id n, s.nodes.lookup id = some n → ∃ b a r, s.builds.lookup n.buildId = some b ∧
    s.attempts.lookup a = some r ∧ s.Agrees id n b a r

/-- **A node's status tells the status of its attempt.**  The two rows are written by different
calls and statements; after every sequence of calls, each node has one attempt that its status is
about, every other attempt of the node is over or parked, the status of a single-node build is that
of its attempt, and the request to stop a DAG build has reached all its leased nodes. -/
theorem nodes_agree [Platform] (organizationId : Uuid) (ops : List Op) :
    ((initial organizationId).runOps ops).NodesAgree := by
  intro id n hn
  have hco := (reachable_runOps organizationId ops).coherent
  obtain ⟨b, hb⟩ := hco.build hn
  obtain ⟨a, r, hr, rfl, hcur⟩ := hco.attempted hn
  have hok := hco.ok hr hn hb hcur
  have hphase := hok.phase
  refine ⟨b, a, r, hb, hr, rfl, fun a' r' hr' hnode hne => ?_, ?_, ?_, ?_, ?_, ?_, ?_, hok.stopped,
    hok.verdict⟩
  · by_contra hlive
    exact hne (hco.current hr' hr hnode (fun hsup => hlive (hco.retried hr' hsup)) hcur)
  all_goals
    cases hdag : b.dagMode <;> cases hstatus : r.status <;>
      grind [Phase, DagPhase, SoloPhase, AttemptStatus.isLive, NodeRow.Outlived]

/-! ## The log of offers -/

/-- The offers of an attempt in the log, latest first. -/
def offers (s : Store) (a : Uuid) : List (ℤ × String × ℤ) :=
  s.events.filterMap (·.offerOf a)

/-- The log agrees with the attempts: their fences number their offers, and the holder of a lease is
the agent of the last offer. -/
structure OffersLogged (s : Store) : Prop where
  unoffered : ∀ {a}, s.attempts.lookup a = none → s.offers a = []
  numbered : ∀ {a r}, s.attempts.lookup a = some r →
    (s.offers a).map Prod.fst = countdown r.fence.toNat
  held : ∀ {a r}, s.attempts.lookup a = some r → r.status.isLive = true →
    ∃ agentId rest, r.leaseOwner = some agentId ∧
      s.offers a = (r.fence, agentId, r.restoreEpoch) :: rest

/-- Reports that are no offers leave the offers. -/
theorem offers_of_quiet {new : List BuildEvent} (hevents : s'.events = new ++ s.events)
    (hquiet : Quiet new) (a : Uuid) : s'.offers a = s.offers a := by
  have hnone : new.filterMap (·.offerOf a) = [] := by
    refine filterMap_eq_nil_iff.mpr fun e he => ?_
    have hoffer := hquiet e he
    unfold BuildEvent.offerOf
    split
    · next hpayload => simp [hpayload, EventPayload.isOffer] at hoffer
    · rfl
  rw [offers, hevents, filterMap_append, hnone, nil_append, offers]

/-- The change reports no offer and keeps the fences. -/
def KeepsFences (s s' : Store) : Prop :=
  (∃ new, s'.events = new ++ s.events ∧ Quiet new) ∧
    ∀ a r r', s.attempts.lookup a = some r → s'.attempts.lookup a = some r' → r'.fence = r.fence

/-- The change offers one claimable attempt under its next fence, and reports it. -/
structure Offers (s s' : Store) (a : Uuid) (x : Rows) (request : ClaimRequest) (e : BuildEvent) :
    Prop where
  holds : s.Holds a x
  claimable : s.isClaimable request x.attempt.nodeId x.node x.build = true
  buildId : e.buildId = x.node.buildId
  offer : e.offerOf a = some (x.attempt.fence + 1, request.agentId, s.restoreEpoch)
  other : ∀ a', a' ≠ a → e.offerOf a' = none
  events : s'.events = e :: s.events
  rows : ∃ expiry, ∀ a', s'.attempts.lookup a' = if a' = a then some { x.attempt with
    status := .offered, fence := x.attempt.fence + 1, leaseOwner := some request.agentId,
    leaseExpiresAt := expiry, restoreEpoch := s.restoreEpoch } else s.attempts.lookup a'

/-- A change of one attempt's rows that keeps its fence keeps all fences. -/
theorem Touches.fence_eq {x y : Rows} (htouch : s.Touches s' a x y)
    (hfence : y.attempt.fence = x.attempt.fence) {a' : Uuid} (hr : s.attempts.lookup a' = some r)
    (hr' : s'.attempts.lookup a' = some r') : r'.fence = r.fence := by
  rw [htouch.attempts] at hr'
  split at hr'
  · next heq =>
    subst heq
    rw [← some.inj hr', ← some.inj (htouch.holds.attempt.symm.trans hr), hfence]
  · rw [mem_unique hr' hr]

/-- Every change is an offer, or reports none. -/
theorem Change.keepsFences_or_offers (hchange : Change own s s') (hco : s.Coherent) :
    s.KeepsFences s' ∨ ∃ a x request e, s.Offers s' a x request e := by
  have hsame (hevents : s'.events = s.events) (hattempts : s'.attempts = s.attempts) :
      s.KeepsFences s' :=
    ⟨⟨[], hevents, Quiet.nil⟩, fun _ _ _ hr hr' =>
      congrArg AttemptRow.fence (mem_unique (hattempts ▸ hr') hr)⟩
  cases hchange with
  | frame hframe =>
    refine .inl ⟨hframe.events, fun a r r' hr hr' => ?_⟩
    obtain ⟨q, hq, heq⟩ := hframe.attempt hr'
    rw [heq, mem_unique hq hr]
  | pipelines hadvance => exact .inl (hsame (by rw [hadvance.rest]) (by rw [hadvance.rest]))
  | ledger hledger => exact .inl (hsame (by rw [hledger.rest]) (by rw [hledger.rest]))
  | epoch _ hs => exact .inl (hsame (by rw [hs]) (by rw [hs]))
  | mark hre =>
    exact .inl ⟨hre.events, fun _ _ _ hr hr' =>
      congrArg AttemptRow.fence (mem_unique (hre.attempts ▸ hr') hr)⟩
  | sweep _ _ hsweep =>
    refine .inl ⟨⟨[], hsweep.events, Quiet.nil⟩, fun a r r' hr hr' => ?_⟩
    by_cases hsup : s.Superseded a
    · rw [mem_unique hr' (hsweep.superseded hr hsup)]
    obtain ⟨n, hn⟩ := hco.node hr
    obtain ⟨n', q, -, hq, hswept, -⟩ := hsweep.swept hr hn hsup
    rw [mem_unique hr' hq, hswept.fence_eq]
  | renew htouch _ _ hsucc hrenew hevents hs =>
    refine .inl ⟨hevents, fun a' r r' hr hr' => ?_⟩
    rw [hs] at hr'
    rcases Table.lookup_insert_cases hr' with ⟨rfl, -⟩ | ⟨-, hmid⟩
    · cases hsucc.fresh.symm.trans hr
    refine htouch.fence_eq ?_ hr hmid
    cases hrenew with
    | auto _ _ _ _ _ hattempt | retry _ _ _ hattempt | reopen _ _ _ hattempt =>
      exact (congrArg AttemptRow.fence hattempt :)
  | enter hnew =>
    refine .inl ⟨hnew.events, fun a r r' hr hr' => ?_⟩
    rw [mem_unique hr' ((hnew.attempts _ _).mpr (.inl hr))]
  | @move a x y new htouch _ _ hmove hevents =>
    cases hmove with
    | @offer request expiry _ hclaim hy hnew =>
      refine .inr ⟨a, x, request, _, htouch.holds, hclaim, rfl, ?_, fun a' hne => ?_,
        hevents.trans (by rw [hnew, singleton_append]), expiry, fun a' => ?_⟩
      · simp [BuildEvent.offerOf]
      · simp [BuildEvent.offerOf, hne.symm]
      · rw [htouch.attempts, hy]
    | start _ hy hnew | recover _ hy hnew | settle _ _ _ _ hy hnew | keep _ _ _ _ hy hnew
    | closeSolo _ _ hy hnew | park _ _ hy hnew | requeue _ _ _ _ _ _ hy hnew
    | deadLetter _ _ hy hnew | cancelQueued _ _ hy hnew | cancelActive _ _ hy hnew =>
      subst hy
      exact .inl ⟨⟨new, hevents, hnew⟩, fun _ _ _ => htouch.fence_eq rfl⟩

/-- Every change keeps the log in agreement with the attempts. -/
theorem Change.offersLogged (hchange : Change own s s') (hco : s.Coherent)
    (hold : s.OffersLogged) : s'.OffersLogged := by
  rcases hchange.keepsFences_or_offers hco with
    ⟨⟨new, hevents, hquiet⟩, hfence⟩ | ⟨a, x, request, e, hoffers⟩
  · have hoffers := offers_of_quiet hevents hquiet
    refine ⟨fun {a} hnone => ?_, fun {a r'} hr' => ?_, fun {a r'} hr' hlive => ?_⟩
    · rw [hoffers]
      refine hold.unoffered (Option.eq_none_iff_forall_ne_some.mpr fun r hr => ?_)
      obtain ⟨r', hr', -⟩ := hchange.attempt hco hr
      cases hnone.symm.trans hr'
    · rw [hoffers]
      rcases hlookup : s.attempts.lookup a with _ | r
      · rcases hchange.attempt_before hr' with ⟨r, hr⟩ | ⟨-, hzero⟩
        · cases hlookup.symm.trans hr
        · rw [hold.unoffered hlookup, hzero]
          rfl
      · rw [hfence a r r' hlookup hr', hold.numbered hlookup]
    · rw [hoffers]
      rcases hchange.attempt_before hr' with ⟨r, hr⟩ | ⟨hqueued, -⟩
      · obtain ⟨q, hq, hstep⟩ := hchange.attempt hco hr
        obtain rfl := mem_unique hr' hq
        obtain ⟨hlive, howner, hepoch⟩ := hstep.lease_before (hfence a r r' hr hr') hlive
        rw [hfence a r r' hr hr', howner, hepoch]
        exact hold.held hr hlive
      · simp [hqueued, AttemptStatus.isLive] at hlive
  · obtain ⟨expiry, hrows⟩ := hoffers.rows
    have hlog (a' : Uuid) : s'.offers a' = if a' = a then
        (x.attempt.fence + 1, request.agentId, s.restoreEpoch) :: s.offers a' else s.offers a' := by
      split_ifs with heq
      · rw [heq, offers, hoffers.events, filterMap_cons_some hoffers.offer, offers]
      · rw [offers, hoffers.events, filterMap_cons_none (hoffers.other a' heq), offers]
    refine ⟨fun {a'} hnone => ?_, fun {a' r'} hr' => ?_, fun {a' r'} hr' hlive => ?_⟩ <;>
      rw [hlog] <;> by_cases heq : a' = a
    · simp [hrows, heq] at hnone
    · rw [hrows, if_neg heq] at hnone
      rw [if_neg heq, hold.unoffered hnone]
    · rw [hrows, if_pos heq] at hr'
      have hr := hoffers.holds.attempt
      obtain ⟨k, hk⟩ := Int.eq_ofNat_of_zero_le (hco.fence hr)
      have hnumbered := hold.numbered hr
      rw [hk, Int.toNat_natCast] at hnumbered
      rw [if_pos heq, heq, map_cons, hnumbered, ← some.inj hr', hk, ← Int.natCast_succ,
        Int.toNat_natCast]
      rfl
    · rw [hrows, if_neg heq] at hr'
      rw [if_neg heq, hold.numbered hr']
    · rw [hrows, if_pos heq] at hr'
      obtain rfl := some.inj hr'
      exact ⟨request.agentId, _, rfl, if_pos heq⟩
    · rw [hrows, if_neg heq] at hr'
      rw [if_neg heq]
      exact hold.held hr' hlive

/-- **The log says who holds a lease.**  After every sequence of calls, the offers of an attempt in
the event log carry the fences `1, …, k` in their order, where `k` is its present fence, and an
attempt under a lease is held by the agent of the last offer, under the epoch of that offer. -/
theorem offers_logged [Platform] (organizationId : Uuid) (ops : List Op) :
    ((initial organizationId).runOps ops).OffersLogged := by
  refine invariant_of_any_run (fun hco hchange => hchange.offersLogged hco) (run_runOps _ ops)
    (coherent_initial organizationId) ⟨fun _ => rfl, fun hr => ?_, fun hr => ?_⟩
  · cases hr
  · cases hr

/-! ## Builds that get no more work -/

/-- The generation of a pipeline never goes back. -/
theorem Change.generation_le (hchange : Change own s s') {p : Uuid} {row : PipelineRow}
    (hrow : s.pipelines.lookup p = some row) : ∃ row', s'.pipelines.lookup p = some row' ∧
      row.operationalGeneration ≤ row'.operationalGeneration := by
  have hsame (hpipelines : s'.pipelines = s.pipelines) : ∃ row', s'.pipelines.lookup p = some row' ∧
        row.operationalGeneration ≤ row'.operationalGeneration :=
    ⟨row, by rw [hpipelines, hrow], le_rfl⟩
  cases hchange with
  | pipelines hadvance =>
    obtain ⟨row', hrow', hsame | hlt⟩ := hadvance.advance p row hrow
    · exact ⟨row', hrow', hsame.1.ge⟩
    · exact ⟨row', hrow', hlt.le⟩
  | frame hframe => exact hsame hframe.pipelines
  | ledger hledger => exact hsame (by rw [hledger.rest])
  | epoch _ hs => exact hsame (by rw [hs])
  | move _ hrest => exact hsame hrest.pipelines
  | renew _ hrest _ _ _ _ hs => exact hsame (by rw [hs]; exact hrest.pipelines)
  | sweep _ _ hsweep => exact hsame hsweep.pipelines
  | mark hre => exact hsame hre.pipelines
  | enter hnew => exact hsame hnew.pipelines

/-- The build was asked to stop, or its pipeline has gone on to a later generation. -/
def Barred (s : Store) (buildId : Uuid) : Prop :=
  ∃ b, s.builds.lookup buildId = some b ∧ (b.cancellationRequestedAt ≠ none ∨
    ∃ p row generation, b.pipelineId = some p ∧ s.pipelines.lookup p = some row ∧
      b.pipelineOperationalGeneration = some generation ∧ generation < row.operationalGeneration)

/-- A barred build has no claimable node. -/
theorem Barred.not_isClaimable {buildId : Uuid} (hbarred : s.Barred buildId) {b : BuildRow}
    (hb : s.builds.lookup buildId = some b) (request : ClaimRequest) (id : Uuid) (n : NodeRow) :
    s.isClaimable request id n b ≠ true := by
  intro hclaim
  simp only [isClaimable, Bool.and_eq_true, decide_eq_true_eq] at hclaim
  obtain ⟨⟨⟨⟨⟨⟨⟨⟨-, -⟩, hunstamped⟩, -⟩, -⟩, -⟩, hadmits⟩, -⟩, -⟩ := hclaim
  obtain ⟨b', hb', hstamped | ⟨p, row, generation, hp, hrow, hgeneration, hlt⟩⟩ := hbarred
  · exact hstamped (mem_unique hb' hb ▸ hunstamped)
  · obtain rfl := mem_unique hb' hb
    simp only [pipelineAdmits, hp, any_some, Option.any_eq_true, Bool.and_eq_true,
      decide_eq_true_eq, hgeneration, Prod.exists] at hadmits
    obtain ⟨row', state, hcurrent, ⟨-, hsame⟩, -⟩ := hadmits
    simp only [currentPipelineState, bind_eq_bind, bind_eq_some_iff, Option.pure_def,
      some.injEq, Prod.mk.injEq] at hcurrent
    obtain ⟨row'', hrow'', history, -, rfl, -⟩ := hcurrent
    obtain rfl := mem_unique hrow'' hrow
    exact hlt.ne (some.inj hsame)

/-- A barred build stays so, and the log reports no offer of its work in between. -/
def StaysBarred (buildId : Uuid) (s s' : Store) : Prop :=
  s.Barred buildId → s'.Barred buildId ∧ ∃ new, s'.events = new ++ s.events ∧
    ∀ e ∈ new, e.buildId = buildId → e.payload.isOffer = false

theorem StaysBarred.trans {buildId : Uuid} {s'' : Store} (hfst : StaysBarred buildId s s')
    (hsnd : StaysBarred buildId s' s'') : StaysBarred buildId s s'' := by
  intro hbarred
  obtain ⟨hbarred', new, hnew, hquiet⟩ := hfst hbarred
  obtain ⟨hbarred'', new', hnew', hquiet'⟩ := hsnd hbarred'
  refine ⟨hbarred'', new' ++ new, by rw [hnew', hnew, append_assoc], fun e he => ?_⟩
  exact (mem_append.mp he).elim (hquiet' e) (hquiet e)

theorem Change.staysBarred (hchange : Change own s s') (hco : s.Coherent) (buildId : Uuid) :
    StaysBarred buildId s s' := by
  intro hbarred
  refine ⟨?_, ?_⟩
  · obtain ⟨b, hb, hwhy⟩ := hbarred
    obtain ⟨b', hb', hid, hstamp⟩ := hchange.build hb
    refine ⟨b', hb', hwhy.imp hstamp ?_⟩
    rintro ⟨p, row, generation, hp, hrow, hgeneration, hlt⟩
    obtain ⟨row', hrow', hle⟩ := hchange.generation_le hrow
    simp only [BuildRow.identity, Prod.mk.injEq] at hid
    exact ⟨p, row', generation, hid.2.2.1.trans hp, hrow', hid.2.2.2.1.trans hgeneration,
      hlt.trans_le hle⟩
  · rcases hchange.keepsFences_or_offers hco with
      ⟨⟨new, hevents, hquiet⟩, -⟩ | ⟨a, x, request, e, hoffers⟩
    · exact ⟨new, hevents, fun e he _ => hquiet e he⟩
    · refine ⟨[e], hoffers.events, fun e' he' hbuild => ?_⟩
      rw [mem_singleton.mp he', hoffers.buildId] at hbuild
      subst hbuild
      exact absurd hoffers.claimable
        (hbarred.not_isClaimable hoffers.holds.build request _ x.node)

/-- **A barred build gets no more work.**  Once a build was asked to stop, or its pipeline was
enabled or disabled after its admission, that stays so whatever calls follow, operators' retries
included, and none of its work is offered again. -/
theorem barred_build_not_offered [Platform] (organizationId buildId : Uuid) (ops later : List Op) :
    StaysBarred buildId ((initial organizationId).runOps ops)
      (((initial organizationId).runOps ops).runOps later) :=
  relation_of_any_run (fun _ hbarred => ⟨hbarred, [], rfl, fun _ he => by cases he⟩)
    StaysBarred.trans (fun hco hchange => hchange.staysBarred hco buildId) (run_runOps _ later)
    (reachable_runOps organizationId ops).coherent

end Store

end McLoving
