import McLoving.Safety.Ledger

/-!
# Workspace affinity

A build whose work nodes all require the affinity capability keeps its files on one agent.  Only a
claim makes a node active, and it asks that no other work node of the build is; only the success of
a work node pins the build, and no call takes the pin back.
-/

namespace McLoving

open Option Table

/-- A node that is offered to an agent or runs on it. -/
def NodeRow.IsActive (n : NodeRow) : Prop :=
  n.status = .offered ∨ n.status = .running

/-! ## Moves that make a node active -/

section Moves

variable {own : Prop} {s : Store} {a : Uuid}

variable {x y : Rows} {new : List BuildEvent}

theorem Move.active_or_claimable (hmove : Move s a x y new) (hok : x.Ok)
    (hactive : y.node.IsActive) :
    x.node.IsActive ∨ ∃ request, s.isClaimable request x.attempt.nodeId x.node x.build = true := by
  unfold NodeRow.IsActive at hactive
  cases hmove with
  | @offer request _ _ hclaim => exact .inr ⟨request, hclaim⟩
  | start hstatus =>
    have hphase := hok.phase
    rcases hstatus with ⟨hstatus, -⟩ | ⟨hstatus, -⟩ <;> rw [hstatus] at hphase
    · exact .inl (.inl hphase.offered.1)
    · refine .inl (.inr ?_)
      cases hdag : x.build.dagMode <;> rw [hdag] at hphase
      · exact hphase.2.2
      · exact hphase.1
  | recover _ hy _ | keep _ _ _ _ hy _ | cancelActive _ _ hy _ =>
    subst hy
    exact .inl hactive
  | @settle outcome _ _ _ _ _ _ hy _ | @closeSolo outcome _ _ _ _ hy _ =>
    subst hy
    cases outcome <;> simp [NodeRow.settled, TerminalOutcome.nodeStatus] at hactive
  | park _ _ hy _ | deadLetter _ _ hy _ | cancelQueued _ _ hy _ =>
    subst hy
    simp at hactive
  | requeue _ _ _ hstatus _ _ hy =>
    subst hy
    rcases hstatus with hstatus | ⟨hstatus, -⟩ <;> simp [hstatus] at hactive

theorem Swept.active {n n' : NodeRow} {r r' : AttemptRow}
    (hswept : Swept n r n' r') (hactive : n'.IsActive) : n.IsActive := by
  unfold NodeRow.IsActive at hactive
  cases hswept with
  | keep hn _ | stop _ _ hn _ =>
    subst hn
    exact hactive
  | ready _ hn _ | skip _ hn _ | drop _ hn _ | outlive _ _ hn _ =>
    subst hn
    simp at hactive

theorem Renewal.not_active (hrenew : Renewal s a x y) (hok : x.Ok) : ¬ y.node.IsActive := by
  obtain ⟨-, -, -, hwaits, -⟩ := hrenew.spec hok
  rcases hwaits.waiting.1 with hstatus | hstatus <;> simp [NodeRow.IsActive, hstatus]

theorem Move.pin_eq (hmove : Move s a x y new) :
    y.build.workspaceAffinityAgentId = x.build.workspaceAffinityAgentId := by
  cases hmove with
  | offer _ _ hy =>
    subst hy
    simp only [BuildRow.started]
    split <;> rfl
  | requeue _ _ _ _ _ _ hy =>
    subst hy
    simp only [BuildRow.requeued]
    split <;> rfl
  | start _ hy _ | recover _ hy _ | settle _ _ _ _ hy _ | keep _ _ _ _ hy _ | closeSolo _ _ hy _
  | park _ _ hy _ | deadLetter _ _ hy _ | cancelQueued _ _ hy _ | cancelActive _ _ hy _ =>
    subst hy
    rfl

theorem Renewal.pin_eq (hrenew : Renewal s a x y) :
    y.build.workspaceAffinityAgentId = x.build.workspaceAffinityAgentId := by
  cases hrenew with
  | auto _ _ _ _ _ _ hbuild _ | retry _ _ _ _ hbuild _ | reopen _ _ _ _ hbuild _ => rw [hbuild]

/-- An attempt of a DAG build that moves to success is vouched for. -/
theorem Move.vouched (hmove : Move s a x y new) (hdag : x.build.dagMode = true)
    (hsucceeded : y.attempt.status = .succeeded) :
    s.Vouched x ∧ y.attempt.leaseOwner = x.attempt.leaseOwner := by
  cases hmove with
  | @settle outcome _ _ _ _ _ hvouched hy _ | @keep outcome _ _ _ _ _ hvouched hy _ =>
    subst hy
    cases outcome <;> simp [AttemptRow.closed, TerminalOutcome.attemptStatus] at hsucceeded
    exact ⟨hvouched rfl, rfl⟩
  | closeSolo _ hsolo => simp [hdag] at hsolo
  | start hstatus hy =>
    subst hy
    rcases hstatus with ⟨-, rfl⟩ | ⟨-, rfl⟩ <;> simp at hsucceeded
  | @recover phase _ _ hy =>
    subst hy
    cases phase <;> simp [RecoveryPhase.attemptStatus] at hsucceeded
  | offer _ _ hy _ | park _ _ hy _ | requeue _ _ _ _ _ _ hy _ | deadLetter _ _ hy _
  | cancelQueued _ _ hy _ | cancelActive _ _ hy _ =>
    subst hy
    simp [AttemptRow.closed, TerminalOutcome.attemptStatus] at hsucceeded

end Moves

namespace Store

variable {own : Prop} {s s' : Store} {buildId : Uuid} {b b' : BuildRow}

/-! ## Builds that share a workspace -/

/-- A build with several work nodes that all require the affinity capability, and without a
workspace of its own that the controller transfers. -/
structure UsesAffinity (s : Store) (buildId : Uuid) (b : BuildRow) : Prop where
  build : s.builds.lookup buildId = some b
  several : 1 < s.countNodes buildId (fun n => n.nodeKind = .work)
  capable : ∀ id n, s.nodes.lookup id = some n → n.buildId = buildId → n.nodeKind = .work →
    n.requiredCapabilities.contains workspaceAffinityCapability = true
  untransferred : b.workspaceNamespace = none

namespace UsesAffinity

/-- Only a DAG build has several nodes. -/
theorem dagMode (huses : s.UsesAffinity buildId b) (hwired : s.Wired) : b.dagMode = true := by
  obtain ⟨id, n, id', n', hn, hwork, hn', hwork', hne⟩ := exists_ne_of_one_lt_count huses.several
  simp only [Bool.and_eq_true, decide_eq_true_eq] at hwork hwork'
  by_contra hsolo
  rw [Bool.not_eq_true] at hsolo
  exact hne (hwired.single hn hn' (hwork.1.trans hwork'.1.symm) (hwork.1 ▸ huses.build) hsolo)

/-- The queries of the scheduler recognise the build. -/
theorem sharesWorkspace (huses : s.UsesAffinity buildId b) (hwired : s.Wired) :
    s.sharesWorkspace buildId b = true := by
  have hcapable : s.anyWorkNode buildId
      (fun _ n => !n.requiredCapabilities.contains workspaceAffinityCapability) = false := by
    rw [anyWorkNode, Table.any_eq_false]
    intro id n hn
    by_cases hwork : n.buildId = buildId ∧ n.nodeKind = .work
    · rw [huses.capable id n hn hwork.1 hwork.2]
      simp
    · rcases not_and_or.mp hwork with h | h <;> simp [h]
  simp only [Store.sharesWorkspace, huses.dagMode hwired, huses.several, hcapable, decide_true,
    Bool.not_false, Bool.and_self]

/-- What the queries of the scheduler recognise is such a build. -/
theorem of_sharesWorkspace (hb : s.builds.lookup buildId = some b)
    (hshares : s.sharesWorkspace buildId b = true) (hspace : b.workspaceNamespace = none) :
    s.UsesAffinity buildId b where
  build := hb
  several := by
    simp only [Store.sharesWorkspace, Bool.and_eq_true, decide_eq_true_eq] at hshares
    exact hshares.1.2
  capable _ _ hn hbuild hwork := contains_of_sharesWorkspace hshares hn hbuild hwork
  untransferred := hspace

/-- The condition depends on the identities of the build and of its nodes. -/
theorem transfer (huses : s.UsesAffinity buildId b) (hb' : s'.builds.lookup buildId = some b')
    (hid : b'.identity = b.identity)
    (hnodes : ∀ id key, (∃ n, s'.nodes.lookup id = some n ∧ n.buildId = buildId ∧
        n.identity = key) ↔
      ∃ n, s.nodes.lookup id = some n ∧ n.buildId = buildId ∧ n.identity = key) :
    s'.UsesAffinity buildId b' where
  build := hb'
  several := by
    have hcount := huses.several
    rwa [countNodes, count_congr (t := s'.nodes) fun id => ?_] at hcount
    simp only [Bool.and_eq_true, decide_eq_true_eq]
    constructor
    · rintro ⟨n, hn, hbuild, hwork⟩
      obtain ⟨m, hm, hm_build, hm_id⟩ := (hnodes id n.identity).mpr ⟨n, hn, hbuild, rfl⟩
      exact ⟨m, hm, hm_build, (congrArg (·.2.1) hm_id).trans hwork⟩
    · rintro ⟨n, hn, hbuild, hwork⟩
      obtain ⟨m, hm, hm_build, hm_id⟩ := (hnodes id n.identity).mp ⟨n, hn, hbuild, rfl⟩
      exact ⟨m, hm, hm_build, (congrArg (·.2.1) hm_id).trans hwork⟩
  capable id n hn hbuild hwork := by
    obtain ⟨m, hm, hm_build, hm_id⟩ := (hnodes id n.identity).mp ⟨n, hn, hbuild, rfl⟩
    have hkind : m.nodeKind = n.nodeKind := congrArg (·.2.1) hm_id
    have hcaps : m.requiredCapabilities = n.requiredCapabilities := congrArg (·.2.2.2.1) hm_id
    rw [← hcaps]
    exact huses.capable id m hm hm_build (hkind.trans hwork)
  untransferred := (congrArg (·.2.2.2.2.1) hid).trans huses.untransferred

end UsesAffinity

/-- A change keeps which builds share a workspace. -/
theorem Change.usesAffinity_iff (hchange : Change own s s')
    (hb : s.builds.lookup buildId = some b) (hb' : s'.builds.lookup buildId = some b') :
    s'.UsesAffinity buildId b' ↔ s.UsesAffinity buildId b := by
  have hext := hchange.toExtends
  have hid : b'.identity = b.identity := by
    obtain ⟨c, hc, hid⟩ := hext.build hb
    exact mem_unique hc hb' ▸ hid
  have hnodes : ∀ id key, (∃ n, s'.nodes.lookup id = some n ∧ n.buildId = buildId ∧
        n.identity = key) ↔
      ∃ n, s.nodes.lookup id = some n ∧ n.buildId = buildId ∧ n.identity = key := by
    intro id key
    constructor
    · rintro ⟨n', hn', hbuild, rfl⟩
      rcases hchange.node_before hn' with ⟨n, hn, hn_id⟩ | ⟨hnone, -⟩
      · exact ⟨n, hn, (congrArg (·.1) hn_id).trans hbuild, hn_id⟩
      · rw [hbuild, hb] at hnone
        cases hnone
    · rintro ⟨n, hn, hbuild, rfl⟩
      obtain ⟨n', hn', hn_id⟩ := hext.node hn
      exact ⟨n', hn', (congrArg (·.1) hn_id).trans hbuild, hn_id⟩
  exact ⟨fun huses => huses.transfer hb hid.symm fun id key => (hnodes id key).symm,
    fun huses => huses.transfer hb' hid hnodes⟩

theorem Touches.keepsPins {mid : Store} {a : Uuid} {x y : Rows} (htouch : s.Touches mid a x y)
    (hpin : y.build.workspaceAffinityAgentId = x.build.workspaceAffinityAgentId)
    (hbuilds : s'.builds = mid.builds) : s.KeepsPins s' := by
  intro id b b' agent hb hb' hagent
  rw [hbuilds, htouch.builds] at hb'
  split at hb'
  · next hid =>
    subst hid
    obtain rfl := mem_unique hb htouch.holds.build
    rw [← some.inj hb', hpin, hagent]
  · exact mem_unique hb' hb ▸ hagent

theorem Change.keepsPins (hchange : Change own s s') : s.KeepsPins s' := by
  cases hchange with
  | frame hframe => exact hframe.pins
  | pipelines hadvance => exact .of_eq (by rw [hadvance.rest])
  | ledger hledger => exact .of_eq (by rw [hledger.rest])
  | epoch _ hs => exact .of_eq (by rw [hs])
  | sweep _ _ hsweep => exact .of_eq hsweep.builds
  | mark hre =>
    intro id b b' agent hb hb' hpin
    rw [hre.builds] at hb'
    split at hb'
    · next hid =>
      subst hid
      obtain rfl := mem_unique hb hre.build
      rw [← some.inj hb', hre.pin, hpin]
    · exact mem_unique hb' hb ▸ hpin
  | move htouch _ _ hmove => exact htouch.keepsPins hmove.pin_eq rfl
  | renew htouch _ _ _ hrenew _ hs => exact htouch.keepsPins hrenew.pin_eq (by rw [hs]; rfl)
  | enter hnew =>
    intro id b b' agent hb hb' hpin
    rw [(hnew.builds _ _).mpr (.inl hb)] at hb'
    exact some.inj hb' ▸ hpin

/-! ## Single flight -/

/-- An active work node of the build. -/
def IsActiveWork (s : Store) (buildId id : Uuid) : Prop :=
  ∃ n, s.nodes.lookup id = some n ∧ n.buildId = buildId ∧ n.nodeKind = .work ∧ n.IsActive

/-- At most one work node of a build that shares a workspace is active. -/
def SingleFlight (s : Store) : Prop :=
  ∀ buildId b, s.UsesAffinity buildId b → ∀ id id', s.IsActiveWork buildId id →
    s.IsActiveWork buildId id' → id = id'

variable {id : Uuid} {n : NodeRow} {agent : String}

/-- A node that is active after a change was active before, or the change offers it. -/
theorem Change.active_before (hchange : Change own s s') (hco : s.Coherent) {n' : NodeRow}
    (hn' : s'.nodes.lookup id = some n') (hactive : n'.IsActive) :
    (∃ n, s.nodes.lookup id = some n ∧ n.identity = n'.identity ∧ n.IsActive) ∨
    ∃ a x y request, s.Touches s' a x y ∧ x.attempt.nodeId = id ∧
      s.isClaimable request id x.node x.build = true := by
  rcases hchange.node_before hn' with ⟨n, hn, hid⟩ | ⟨-, hwaits, -⟩
  swap
  · rcases hactive with h | h <;> simp [h] at hwaits
  have hsame (hnodes : s'.nodes.lookup id = s.nodes.lookup id) :
      ∃ n, s.nodes.lookup id = some n ∧ n.identity = n'.identity ∧ n.IsActive :=
    ⟨n', by rw [← hnodes, hn'], rfl, hactive⟩
  cases hchange with
  | frame hframe => exact .inl (hsame (by rw [hframe.nodes]))
  | pipelines hadvance => exact .inl (hsame (by rw [hadvance.rest]))
  | ledger hledger => exact .inl (hsame (by rw [hledger.rest]))
  | epoch _ hs => exact .inl (hsame (by rw [hs]))
  | mark hre => exact .inl (hsame (by rw [hre.nodes]))
  | enter hnew => exact .inl (hsame (by rw [(hnew.nodes _ _).mpr (.inl hn), hn]))
  | @move a x y _ htouch _ hcur hmove =>
    by_cases hnode : id = x.attempt.nodeId
    · subst hnode
      have hy : y.node = n' := by
        rw [htouch.nodes, if_pos rfl] at hn'
        exact some.inj hn'
      obtain rfl := mem_unique hn htouch.holds.node
      have hok := hco.ok htouch.holds.attempt hn htouch.holds.build hcur
      rcases hmove.active_or_claimable hok (hy ▸ hactive) with hbefore | ⟨request, hclaim⟩
      · exact .inl ⟨x.node, hn, hid, hbefore⟩
      · exact .inr ⟨a, x, y, request, htouch, rfl, hclaim⟩
    · exact .inl (hsame (by rw [htouch.nodes, if_neg hnode]))
  | @renew _ _ _ x y _ htouch _ hcur _ hrenew _ hs =>
    have hnodes : s'.nodes.lookup id = if id = x.attempt.nodeId then some y.node
        else s.nodes.lookup id := by
      rw [hs]
      exact htouch.nodes id
    by_cases hnode : id = x.attempt.nodeId
    · have hok := hco.ok htouch.holds.attempt htouch.holds.node htouch.holds.build hcur
      rw [hnodes, if_pos hnode] at hn'
      exact absurd (some.inj hn' ▸ hactive) (hrenew.not_active hok)
    · exact .inl (hsame (by rw [hnodes, if_neg hnode]))
  | sweep _ _ hsweep =>
    obtain ⟨a, r, hr, rfl, hcur⟩ := hco.attempted hn
    obtain ⟨m, r', hm, -, hswept, -⟩ := hsweep.swept hr hn hcur
    obtain rfl := mem_unique hm hn'
    exact .inl ⟨n, hn, hid, hswept.active hactive⟩

/-- A claim takes a work node of a build that shares a workspace only if no other one is active. -/
theorem not_isActiveWork_of_claimable {request : ClaimRequest} {id' : Uuid}
    (hclaim : s.isClaimable request id n b = true) (huses : s.UsesAffinity n.buildId b)
    (hwired : s.Wired) (hne : id' ≠ id) : ¬ s.IsActiveWork n.buildId id' := by
  rintro ⟨m, hm, hbuild, hwork, hactive⟩
  simp only [isClaimable, Bool.and_eq_true] at hclaim
  have hadmits := hclaim.1.2
  simp only [affinityAdmits, Bool.and_eq_true, huses.sharesWorkspace hwired, huses.untransferred,
    isSome_none, Bool.not_true, Bool.false_or, Bool.or_self, Bool.not_eq_true'] at hadmits
  have hnone := any_eq_false.mp hadmits.2 id' m hm
  rcases hactive with hactive | hactive <;> simp [hbuild, hwork, hne, hactive] at hnone

theorem Change.singleFlight (hchange : Change own s s') (hco : s.Coherent)
    (hold : s.SingleFlight) : s'.SingleFlight := by
  intro buildId b' huses' id id' hactive hactive'
  obtain ⟨n, hn, hbuild, hwork, hstatus⟩ := hactive
  obtain ⟨m, hm, hbuild', hwork', hstatus'⟩ := hactive'
  -- An offer leaves every other node as it was.
  have halone {id₁ id₂ : Uuid} {n₁ n₂ : NodeRow} (hn₁ : s'.nodes.lookup id₁ = some n₁)
      (hb₁ : n₁.buildId = buildId) (hn₂ : s'.nodes.lookup id₂ = some n₂)
      (hb₂ : n₂.buildId = buildId) (hw₂ : n₂.nodeKind = .work) (ha₂ : n₂.IsActive) {a : Uuid}
      {x y : Rows} {request : ClaimRequest} (htouch : s.Touches s' a x y)
      (hid : x.attempt.nodeId = id₁)
      (hclaim : s.isClaimable request id₁ x.node x.build = true) : id₁ = id₂ := by
    by_contra hne
    have hx : x.node.buildId = buildId := by
      rw [htouch.nodes, if_pos hid.symm] at hn₁
      rw [← hb₁, ← some.inj hn₁]
      exact (congrArg (·.1) htouch.node_identity).symm
    have huses : s.UsesAffinity x.node.buildId x.build := by
      rw [hx]
      exact (hchange.usesAffinity_iff (hx ▸ htouch.holds.build) huses'.build).mp huses'
    refine not_isActiveWork_of_claimable hclaim huses hco.toWired (Ne.symm hne) ?_
    rw [htouch.nodes, if_neg (by rw [hid]; exact Ne.symm hne)] at hn₂
    exact ⟨n₂, hn₂, hb₂.trans hx.symm, hw₂, ha₂⟩
  rcases hchange.active_before hco hn hstatus with ⟨n₀, hn₀, hid₀, hactive₀⟩ |
    ⟨a, x, y, request, htouch, hid, hclaim⟩
  swap
  · exact halone hn hbuild hm hbuild' hwork' hstatus' htouch hid hclaim
  rcases hchange.active_before hco hm hstatus' with ⟨m₀, hm₀, hid₀', hactive₀'⟩ |
    ⟨a, x, y, request, htouch, hid, hclaim⟩
  swap
  · exact (halone hm hbuild' hn hbuild hwork hstatus htouch hid hclaim).symm
  have hbuild₀ : n₀.buildId = buildId := (congrArg (·.1) hid₀).trans hbuild
  have hbuild₀' : m₀.buildId = buildId := (congrArg (·.1) hid₀').trans hbuild'
  obtain ⟨b, hb⟩ := hco.build hn₀
  rw [hbuild₀] at hb
  exact hold buildId b ((hchange.usesAffinity_iff hb huses'.build).mp huses') id id'
    ⟨n₀, hn₀, hbuild₀, (congrArg (·.2.1) hid₀).trans hwork, hactive₀⟩
    ⟨m₀, hm₀, hbuild₀', (congrArg (·.2.1) hid₀').trans hwork', hactive₀'⟩

/-! ## The pin -/

/-- Work that succeeded in a shared workspace pinned its build to the agent that ran it. -/
def PinsSuccess (s : Store) : Prop :=
  ∀ a x, s.Holds a x → s.UsesAffinity x.node.buildId x.build → x.node.nodeKind = .work →
    x.attempt.status = .succeeded → ∃ agent, x.attempt.leaseOwner = some agent ∧
      x.build.workspaceAffinityAgentId = some agent

theorem Change.pinsSuccess (hchange : Change own s s') (hco : s.Coherent)
    (hold : s.PinsSuccess) : s'.PinsSuccess := by
  intro a y hy huses' hwork' hsucceeded
  rcases hchange.attempt_before hy.attempt with ⟨r, hr⟩ | ⟨hqueued, -⟩
  swap
  · simp [hsucceeded] at hqueued
  by_cases hsup : s.Superseded a
  · obtain ⟨-, r', hr', heq⟩ := hchange.retried hr hsup
    obtain rfl := mem_unique hr' hy.attempt
    rw [heq] at hsucceeded
    rcases hco.retried hr hsup with h | h | h <;> simp [h] at hsucceeded
  obtain ⟨n, b, hx⟩ := hco.exists_holds hr
  -- The rows before the change belong to the same node and build.
  obtain ⟨z, hz, hz_attempt, hz_node, hz_build⟩ := hchange.toExtends.holds hx
  obtain rfl := hz.unique hy
  have hbuild : z.node.buildId = n.buildId := congrArg (·.1) hz_node
  have hwork : n.nodeKind = .work := (congrArg (·.2.1) hz_node).symm.trans hwork'
  have hb' : s'.builds.lookup n.buildId = some z.build := hbuild ▸ hy.build
  have huses : s.UsesAffinity n.buildId b :=
    (hchange.usesAffinity_iff hx.build hb').mp (hbuild ▸ huses')
  have hdag := huses.dagMode hco.toWired
  have hpin {agent : String} (hagent : b.workspaceAffinityAgentId = some agent) :
      z.build.workspaceAffinityAgentId = some agent :=
    hchange.keepsPins _ b z.build agent hx.build hb' hagent
  have hkept (heq : z.attempt = { r with leaseExpiresAt := z.attempt.leaseExpiresAt }) :
      ∃ agent, z.attempt.leaseOwner = some agent ∧
        z.build.workspaceAffinityAgentId = some agent := by
    rw [heq] at hsucceeded
    obtain ⟨agent, howner, hagent⟩ := hold a _ hx huses hwork hsucceeded
    exact ⟨agent, by rw [heq]; exact howner, hpin hagent⟩
  obtain ⟨n', r', -, hr', hevolves⟩ := hchange.evolves hco hr hx.node hsup
  obtain rfl := mem_unique hr' hy.attempt
  cases hevolves with
  | still _ heq => exact hkept heq
  | moved hb _ hmove =>
    obtain rfl := mem_unique hb hx.build
    obtain ⟨hvouched, howner⟩ := hmove.vouched hdag hsucceeded
    obtain ⟨agent, hlease, hagent⟩ :=
      hvouched ⟨huses.sharesWorkspace hco.toWired, huses.untransferred, hwork⟩
    exact ⟨agent, howner.trans hlease, hpin hagent⟩
  | swept _ _ hswept =>
    cases hswept with
    | keep _ heq | ready _ _ heq | outlive _ _ _ heq => exact hkept (by rw [heq])
    | skip _ _ heq | drop _ _ heq | stop _ _ _ heq =>
      rw [heq] at hsucceeded
      simp [AttemptRow.closed, TerminalOutcome.attemptStatus] at hsucceeded
  | renewed _ _ hrenew =>
    cases hrenew with
    | retry _ _ _ heq _ _ | reopen _ _ _ heq _ _ => exact hkept (by rw [heq])
    | auto _ _ _ _ _ heq =>
      rw [heq] at hsucceeded
      simp [AttemptRow.closed, TerminalOutcome.attemptStatus] at hsucceeded

/-! ## Offers after the pin -/

/-- If the event offers a work node of the build, it offers it to the agent. -/
def OfferedTo (s : Store) (buildId : Uuid) (agent : String) (e : BuildEvent) : Prop :=
  ∀ a nodeId agentId trustPool schedulerId fence epoch,
    e = ⟨buildId, .attemptOffered a nodeId agentId trustPool schedulerId fence epoch⟩ →
      ∃ n, s.nodes.lookup nodeId = some n ∧ (n.nodeKind = .work → agentId = agent)

theorem offeredTo_of_quiet {new : List BuildEvent} (hquiet : Quiet new) {e : BuildEvent}
    (hmem : e ∈ new) : s.OfferedTo buildId agent e := by
  rintro a nodeId agentId trustPool schedulerId fence epoch rfl
  exact absurd (hquiet _ hmem) (by simp [EventPayload.isOffer])

/-- A build that is pinned to the agent stays so, and its work is offered to nobody else. -/
def StaysWith (buildId : Uuid) (agent : String) (s s' : Store) : Prop :=
  ∀ b, s.UsesAffinity buildId b → b.workspaceAffinityAgentId = some agent →
    s.Extends s' ∧ (∃ b', s'.UsesAffinity buildId b' ∧ b'.workspaceAffinityAgentId = some agent) ∧
    ∃ new, s'.events = new ++ s.events ∧ ∀ e ∈ new, s'.OfferedTo buildId agent e

namespace StaysWith

variable {agent : String}

theorem refl (s : Store) : StaysWith buildId agent s s :=
  fun b huses hpin => ⟨.refl s, ⟨b, huses, hpin⟩, [], rfl, fun _ hmem => absurd hmem (by simp)⟩

theorem trans {s'' : Store} (hfst : StaysWith buildId agent s s')
    (hsnd : StaysWith buildId agent s' s'') : StaysWith buildId agent s s'' := by
  intro b huses hpin
  obtain ⟨hext, ⟨b', huses', hpin'⟩, new, hnew, hoffers⟩ := hfst b huses hpin
  obtain ⟨hext', hafter, new', hnew', hoffers'⟩ := hsnd b' huses' hpin'
  refine ⟨hext.trans hext', hafter, new' ++ new, by rw [hnew', hnew, List.append_assoc], ?_⟩
  intro e hmem
  rcases List.mem_append.mp hmem with hmem | hmem
  · exact hoffers' e hmem
  · intro a nodeId agentId trustPool schedulerId fence epoch heq
    obtain ⟨n, hn, hto⟩ := hoffers e hmem a nodeId agentId trustPool schedulerId fence epoch heq
    obtain ⟨n', hn', hid⟩ := hext'.node hn
    exact ⟨n', hn', fun hwork => hto ((congrArg (·.2.1) hid).symm.trans hwork)⟩

end StaysWith

/-- A claim takes work of a pinned build only for the agent of the pin. -/
theorem eq_of_claimable {request : ClaimRequest} (hclaim : s.isClaimable request id n b = true)
    (hpin : b.workspaceAffinityAgentId = some agent) (hwork : n.nodeKind = .work) :
    request.agentId = agent := by
  simp only [isClaimable, Bool.and_eq_true] at hclaim
  have hadmits := hclaim.1.2
  simp only [affinityAdmits, Bool.and_eq_true, hpin, hwork] at hadmits
  simpa [eq_comm] using hadmits.1.1

theorem Change.staysWith (hchange : Change own s s') : StaysWith buildId agent s s' := by
  intro b huses hpin
  refine ⟨hchange.toExtends, ?_, ?_⟩
  · obtain ⟨b', hb', -⟩ := hchange.build huses.build
    exact ⟨b', (hchange.usesAffinity_iff huses.build hb').mpr huses,
      hchange.keepsPins _ b b' agent huses.build hb' hpin⟩
  have hquiet (hevents : ∃ new, s'.events = new ++ s.events ∧ Quiet new) :
      ∃ new, s'.events = new ++ s.events ∧ ∀ e ∈ new, s'.OfferedTo buildId agent e := by
    obtain ⟨new, hnew, hquiet⟩ := hevents
    exact ⟨new, hnew, fun e hmem => offeredTo_of_quiet hquiet hmem⟩
  have hsame (hevents : s'.events = s.events) :
      ∃ new, s'.events = new ++ s.events ∧ ∀ e ∈ new, s'.OfferedTo buildId agent e :=
    hquiet ⟨[], hevents, Quiet.nil⟩
  cases hchange with
  | frame hframe => exact hquiet hframe.events
  | pipelines hadvance => exact hsame (by rw [hadvance.rest])
  | ledger hledger => exact hsame (by rw [hledger.rest])
  | epoch _ hs => exact hsame (by rw [hs])
  | sweep _ _ hsweep => exact hsame hsweep.events
  | mark hre => exact hquiet hre.events
  | renew _ _ _ _ _ hevents => exact hquiet hevents
  | enter hnew => exact hquiet hnew.events
  | @move _ _ _ new htouch _ _ hmove hevents =>
    cases hmove with
    | offer _ hclaim hy hnew =>
      refine ⟨new, hevents, fun e hmem => ?_⟩
      rw [hnew, List.mem_singleton] at hmem
      subst hmem hy
      rintro a' nodeId agentId trustPool schedulerId fence epoch heq
      simp only [BuildEvent.mk.injEq, EventPayload.attemptOffered.injEq] at heq
      obtain ⟨rfl, rfl, rfl, rfl, -⟩ := heq
      refine ⟨_, (htouch.nodes _).trans (if_pos rfl), fun hwork => ?_⟩
      obtain rfl := mem_unique huses.build htouch.holds.build
      exact eq_of_claimable hclaim hpin hwork
    | start _ _ hnew | recover _ _ hnew | settle _ _ _ _ _ hnew | keep _ _ _ _ _ hnew
    | closeSolo _ _ _ hnew | park _ _ _ hnew | requeue _ _ _ _ _ _ _ hnew
    | deadLetter _ _ _ hnew | cancelQueued _ _ _ hnew | cancelActive _ _ _ hnew =>
      exact hquiet ⟨new, hevents, hnew⟩

theorem Coherent.exists_succeeded (hco : s.Coherent) (hn : s.nodes.lookup id = some n)
    (hb : s.builds.lookup n.buildId = some b) (hdag : b.dagMode = true)
    (hstatus : n.status = .succeeded) :
    ∃ a r, s.attempts.lookup a = some r ∧ r.nodeId = id ∧ r.status = .succeeded := by
  obtain ⟨a, r, hr, rfl, hcur⟩ := hco.attempted hn
  refine ⟨a, r, hr, rfl, ?_⟩
  have hphase := (hco.ok hr hn hb hcur).phase
  rw [hdag] at hphase
  cases hfrom : r.status <;> simp_all [Phase, DagPhase]

/-- **Workspace affinity is single flight and pinned.**  Let a build have several work nodes that
all require the affinity capability and no workspace of its own.  At most one of them is offered or
running; each of them that succeeded has an attempt that did; and once an attempt of one of them has
succeeded, it did so on some agent, and in every continuation all work of the build is offered to
that agent. -/
theorem affinity_single_flight_and_pinned [Platform] (hreach : s.Reachable)
    (huses : s.UsesAffinity buildId b) :
    (∀ id id', s.IsActiveWork buildId id → s.IsActiveWork buildId id' → id = id') ∧
    (∀ id n, s.nodes.lookup id = some n → n.buildId = buildId → n.nodeKind = .work →
      n.status = .succeeded →
        ∃ a r, s.attempts.lookup a = some r ∧ r.nodeId = id ∧ r.status = .succeeded) ∧
    ∀ a r n, s.attempts.lookup a = some r → s.nodes.lookup r.nodeId = some n →
      n.buildId = buildId → n.nodeKind = .work → r.status = .succeeded →
        ∃ agent, r.leaseOwner = some agent ∧ ∀ s', Run s s' →
          ∃ new, s'.events = new ++ s.events ∧ ∀ e ∈ new, s'.OfferedTo buildId agent e := by
  have hco := hreach.coherent
  obtain ⟨organizationId, hrun⟩ := hreach
  have hboth : s.SingleFlight ∧ s.PinsSuccess := by
    refine invariant_of_any_run (I := fun s => s.SingleFlight ∧ s.PinsSuccess)
      (fun hco hchange hold => ⟨hchange.singleFlight hco hold.1, hchange.pinsSuccess hco hold.2⟩)
      hrun (coherent_initial organizationId) ⟨?_, ?_⟩
    · rintro buildId b - id id' ⟨n, hn, -⟩
      cases hn
    · rintro a x ⟨hr, -, -⟩
      cases hr
  refine ⟨hboth.1 buildId b huses, ?_, ?_⟩
  · rintro id n hn rfl - hstatus
    exact hco.exists_succeeded hn huses.build (huses.dagMode hco.toWired) hstatus
  · rintro a r n hr hn rfl hwork hsucceeded
    obtain ⟨agent, howner, hpin⟩ :=
      hboth.2 a ⟨b, n, r⟩ ⟨hr, hn, huses.build⟩ huses hwork hsucceeded
    refine ⟨agent, howner, fun s' hrun' => ?_⟩
    have hstays : StaysWith n.buildId agent s s' :=
      relation_of_any_run StaysWith.refl StaysWith.trans (fun _ hchange => hchange.staysWith)
        hrun' hco
    exact (hstays b huses hpin).2.2

namespace Sample

/-- A work node that shares the workspace of its build. -/
def stage (key : String) : NewDagNode :=
  { nodeKey := key, kind := .work, dependencies := [],
    requiredCapabilities := [workspaceAffinityCapability], requiredPlatform := "linux",
    requiredTrustPool := "pool", priority := 0, executionSpec := .null, failFast := false,
    maxAttempts := 1 }

/-- A build of two such nodes. -/
def staged : NewDagBuild :=
  ⟨1, 2, 1, 1, "k", digest, 0, [stage "a", stage "b"], .arr []⟩

/-- The claim of an agent with the affinity capability. -/
def stageRequest : ClaimRequest :=
  ⟨"scheduler", "agent", ["platform:linux", workspaceAffinityCapability], "pool", 60, 0⟩

/-- The calls that admit the build and bring attempt 102 of its first node to success. -/
def stagePassed : List Op :=
  [.putPipeline 0 pipeline none "owner", .admitDag 0 (fun i => 100 + i) staged,
    .claimNext 10 stageRequest none, .acceptOffer 10 (authority 102) none,
    .finalizeAttempt 10 0 (authority 102) none .succeeded .null false]

end Sample

open Sample in
/-- After the first node of the sample build has succeeded, the second one is offered to the same
agent only. -/
theorem affinity_single_flight_and_pinned_staged :
    ((stateAfter stagePassed).attempts.lookup 102).any (fun r =>
      r.status = .succeeded && r.leaseOwner = some "agent" &&
        ((stateAfter stagePassed).nodes.lookup r.nodeId).any fun n =>
          n.buildId = 100 && n.nodeKind = .work) = true ∧
    ∀ s', @Run platform (stateAfter stagePassed) s' →
      ∃ new, s'.events = new ++ (stateAfter stagePassed).events ∧
        ∀ e ∈ new, s'.OfferedTo 100 "agent" e := by
  have hbuild : ((stateAfter stagePassed).builds.lookup 100).any (fun b =>
      (stateAfter stagePassed).sharesWorkspace 100 b && b.workspaceNamespace = none) = true := by
    decide +kernel
  have hattempt : ((stateAfter stagePassed).attempts.lookup 102).any (fun r =>
      r.status = .succeeded && r.leaseOwner = some "agent" &&
        ((stateAfter stagePassed).nodes.lookup r.nodeId).any fun n =>
          n.buildId = 100 && n.nodeKind = .work) = true := by
    decide +kernel
  obtain ⟨b, hb, hshares⟩ := (any_eq_true _ _).mp hbuild
  obtain ⟨r, hr, hchecked⟩ := (any_eq_true _ _).mp hattempt
  simp only [Bool.and_eq_true, decide_eq_true_eq] at hshares hchecked
  obtain ⟨⟨hsucceeded, howner⟩, hnode⟩ := hchecked
  obtain ⟨n, hn, hwork⟩ := (any_eq_true _ _).mp hnode
  simp only [Bool.and_eq_true, decide_eq_true_eq] at hwork
  obtain ⟨-, -, hpinned⟩ := @affinity_single_flight_and_pinned _ 100 b platform
    (@reachable_runOps platform 9 stagePassed) (.of_sharesWorkspace hb hshares.1 hshares.2)
  obtain ⟨agent, hagent, hoffers⟩ := hpinned 102 r n hr hn hwork.1 hwork.2 hsucceeded
  obtain rfl := mem_unique hagent howner
  exact ⟨hattempt, hoffers⟩

end Store

end McLoving
