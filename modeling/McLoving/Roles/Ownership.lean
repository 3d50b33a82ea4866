import McLoving.Lib.History
import McLoving.Roles.Memberships

/-!
# Owners, fences and revisions over whole runs

What one call can do to the tables is said once, as `RoleStep`.  From it follow the facts that the
results about runs combine: a lifecycle generation never decreases and increases with every
demotion, revocation and deactivation; a revision counter never decreases, and a membership changes
only to a row with a revision above its counter, or goes away.
-/

namespace McLoving.Roles

open History RoleStore AList Option Except

/-! ## Calls -/

/-- The calls of a run, each with its readings of the clock. -/
inductive RoleCall where
  | grant (clock : Clock) (request : ProjectRoleGrant)
  | revoke (clock : Clock) (request : ProjectRoleRevocation)
  | transition (clock : Clock) (identityId : Uuid) (expectedGeneration : ℤ)
      (next : IdentityLifecycle) (reason actorSubject : String)

/-- What a call answers. -/
inductive RoleOutcome where
  | granted (outcome : ProjectRoleGrantOutcome)
  | revoked (outcome : ProjectRoleRevocationOutcome)
  | transitioned (generation : ℤ)
  deriving DecidableEq

/-- The result of a call. -/
def RoleCall.result (s : RoleStore) : RoleCall → Except RoleError (RoleStore × RoleOutcome)
  | .grant clock request =>
    (grantProjectRole clock s request).map fun answer => (answer.1, .granted answer.2)
  | .revoke clock request =>
    (revokeProjectRole clock s request).map fun answer => (answer.1, .revoked answer.2)
  | .transition clock identityId expectedGeneration next reason actorSubject =>
    (transitionIdentityLifecycle clock s identityId expectedGeneration next reason
      actorSubject).map fun answer => (answer.1, .transitioned answer.2)

/-- The tables after a call; a failed transaction is rolled back. -/
def step (s : RoleStore) (call : RoleCall) : RoleStore :=
  match call.result s with
  | .ok answer => answer.1
  | .error _ => s

/-- The membership a call writes, on which authority and under which condition. -/
structure MembershipWrite where
  projectId : Uuid
  identityId : Uuid
  authority : MembershipAuthority
  expectedMembershipRevision : Option ℤ

/-- The membership write of a call. -/
def RoleCall.write : RoleCall → Option MembershipWrite
  | .grant _ request =>
    some ⟨request.projectId, request.identityId, request.authority,
      request.expectedMembershipRevision⟩
  | .revoke _ request =>
    some ⟨request.projectId, request.identityId, request.authority,
      request.expectedMembershipRevision⟩
  | .transition .. => none

/-- The durable credential an authority rests on. -/
def MembershipAuthority.durableCaller : MembershipAuthority → Option DurableCaller
  | .bootstrap => none
  | .principal caller => some caller
  | .delegated caller _ => caller

/-- The lifecycle generation of an identity. -/
def RoleStore.generation (s : RoleStore) (identityId : Uuid) : Option ℤ :=
  (s.identities.lookup identityId).map IdentityRow.lifecycleGeneration

/-! ## Resolving an authority -/

section Resolving

variable {clock : Clock} {s : RoleStore} {projectId identityId : Uuid}
variable {authority : MembershipAuthority} {resolved : ResolvedAuthority}
variable {caller : DurableCaller} {actorRole : Option ProjectRole} {role : ProjectRole}
variable {grant : ProjectRoleGrant} {answer : RoleStore × ProjectRoleGrantOutcome}
variable {revocation : ProjectRoleRevocation}

/-- A revalidated caller is active at the generation it authenticated under. -/
theorem DurableCaller.generation_of_revalidate (hok : caller.revalidate clock s = .ok ()) :
    s.generation caller.identityId = some caller.lifecycleGeneration ∧
      s.isActive caller.identityId = true := by
  rw [revalidate, unit_bind_eq_ok, refuseIf_eq_ok, not_not] at hok
  rcases hrow : s.identities.lookup caller.identityId with _ | row
  · simp [hrow] at hok
  · by_cases hactive : row.lifecycleState = .active
    · have hgeneration : row.lifecycleGeneration = caller.lifecycleGeneration := by
        simpa [hrow, hactive, Option.filter] using hok.1
      simp [generation, isActive, hrow, hactive, hgeneration]
    · simp [hrow, hactive, Option.filter] at hok

theorem MembershipAuthority.revalidated_of_resolve
    (hok : authority.resolve clock s projectId = .ok resolved)
    (hcaller : authority.durableCaller = some caller) : caller.revalidate clock s = .ok () := by
  rcases authority with _ | principal | ⟨delegate, policyGeneration⟩
  · cases hcaller
  · cases hcaller
    rw [resolve, unit_bind_eq_ok] at hok
    exact hok.1
  · cases hcaller
    rcases policyGeneration with _ | policyGeneration
    · rw [resolve, unit_bind_eq_ok] at hok
      exact hok.1
    · rw [resolve, unit_bind_eq_ok, unit_bind_eq_ok] at hok
      exact hok.2.1

/-- Only the admin tool acts without a role, and only a principal that owns the project acts as its
Owner. -/
theorem MembershipAuthority.role_of_resolve
    (hok : authority.resolve clock s projectId = .ok resolved) :
    (resolved.role = none → authority = .bootstrap) ∧
      (resolved.role = some .owner → ∃ caller, authority = .principal caller ∧
        s.currentRole projectId caller.identityId = some .owner) := by
  rcases authority with _ | caller | ⟨_ | delegate, _ | policyGeneration⟩
  · cases hok
    exact ⟨fun _ => rfl, by simp⟩
  · rw [resolve, unit_bind_eq_ok] at hok
    rcases hrole : s.currentRole projectId caller.identityId with _ | role
    · rw [hrole] at hok
      cases hok.2
    · rw [hrole] at hok
      cases hok.2
      exact ⟨by simp, fun howner => ⟨caller, rfl, hrole.trans howner⟩⟩
  · cases hok
    simp
  · rw [resolve, unit_bind_eq_ok] at hok
    cases hok.2
    simp
  · rw [resolve, unit_bind_eq_ok] at hok
    cases hok.2
    simp
  · rw [resolve, unit_bind_eq_ok, unit_bind_eq_ok] at hok
    cases hok.2.2
    simp

/-- An authority that may touch the Owner role is the admin tool or an active Owner. -/
def MembershipAuthority.OwnsOrBootstraps (authority : MembershipAuthority) (s : RoleStore)
    (projectId : Uuid) : Prop :=
  authority = .bootstrap ∨ ∃ caller, authority = .principal caller ∧
    s.currentRole projectId caller.identityId = some .owner ∧
    s.isActive caller.identityId = true

theorem MembershipAuthority.ownsOrBootstraps_of_resolve
    (hok : authority.resolve clock s projectId = .ok resolved)
    (hrole : ∀ role, resolved.role = some role → role = .owner) :
    authority.OwnsOrBootstraps s projectId := by
  obtain ⟨hnone, howner⟩ := role_of_resolve hok
  rcases hactor : resolved.role with _ | role
  · exact .inl (hnone hactor)
  · obtain ⟨caller, rfl, hcurrent⟩ := howner (by rw [hactor, hrole role hactor])
    have hvalid : caller.revalidate clock s = .ok () := revalidated_of_resolve hok rfl
    exact .inr ⟨caller, rfl, hcurrent, (DurableCaller.generation_of_revalidate hvalid).2⟩

/-- A role check that passed for a change of the Owner role was made for an Owner. -/
theorem owner_of_authorizeGrant {owners : ℕ} {previous : Option ProjectRole}
    (hok : authorizeGrant actorRole role owners previous = .ok ())
    (hchange : role = .owner ∨ previous = some .owner) :
    ∀ actor, actorRole = some actor → actor = .owner := by
  rintro actor rfl
  simp only [authorizeGrant, unit_bind_eq_ok, refuseIf_eq_ok] at hok
  by_contra hother
  exact hok.2.2 ⟨hchange, hother⟩

theorem owner_of_authorizeRevocation (hok : authorizeRevocation actorRole .owner = .ok ()) :
    ∀ actor, actorRole = some actor → actor = .owner := by
  rintro actor rfl
  simp only [authorizeRevocation, unit_bind_eq_ok, refuseIf_eq_ok] at hok
  by_contra hother
  exact hok.2 ⟨trivial, hother⟩

/-! ## What one call does -/

/-- An identity's row moves on by one generation. -/
def Fenced (s s' : RoleStore) (identityId : Uuid) (next : IdentityLifecycle) : Prop :=
  ∃ row, s.identities.lookup identityId = some row ∧ s'.identities = s.identities.insert identityId
      { row with lifecycleState := next, lifecycleGeneration := row.lifecycleGeneration + 1 }

/-- An identity's row moves on by one generation and keeps its state. -/
def FencedInPlace (s s' : RoleStore) (identityId : Uuid) : Prop :=
  ∃ row, s.identities.lookup identityId = some row ∧ Fenced s s' identityId row.lifecycleState

/-- The tables before and after a call that succeeded. -/
inductive RoleStep (s : RoleStore) : RoleCall → RoleStore → Prop where
  | kept (call : RoleCall) : RoleStep s call s
  | granted {clock : Clock} {grant : ProjectRoleGrant} {s' : RoleStore}
      {resolved : ResolvedAuthority}
      (hresolved : grant.authority.resolve clock s grant.projectId = .ok resolved)
      (hauthorized : authorizeGrant resolved.role grant.role (s.ownerCount grant.projectId)
        (s.currentRole grant.projectId grant.identityId) = .ok ())
      (hmemberships : s'.memberships = s.memberships.insert (grant.identityId, grant.projectId)
        (grant.row clock (s.lastRevision grant.projectId grant.identityId + 1)))
      (hcounters : s'.revisionCounters = s.revisionCounters.insert
        (grant.projectId, grant.identityId) (s.lastRevision grant.projectId grant.identityId + 1))
      (hidentities : FencedInPlace s s' grant.identityId ∨ s'.identities = s.identities ∧
        ∀ role, s.currentRole grant.projectId grant.identityId = some role → ¬ grant.role < role) :
      RoleStep s (.grant clock grant) s'
  | revoked {clock : Clock} {revocation : ProjectRoleRevocation} {s' : RoleStore}
      {resolved : ResolvedAuthority} {previous : ProjectRole}
      (hresolved : revocation.authority.resolve clock s revocation.projectId = .ok resolved)
      (hprevious : s.currentRole revocation.projectId revocation.identityId = some previous)
      (hauthorized : authorizeRevocation resolved.role previous = .ok ())
      (hmemberships : s'.memberships =
        s.memberships.erase (revocation.identityId, revocation.projectId))
      (hcounters : s'.revisionCounters = s.revisionCounters)
      (hidentities : FencedInPlace s s' revocation.identityId) :
      RoleStep s (.revoke clock revocation) s'
  | transitioned {clock : Clock} {identityId : Uuid} {expectedGeneration : ℤ}
      {next : IdentityLifecycle} {reason actorSubject : String} {s' : RoleStore}
      (hmemberships : s'.memberships = s.memberships)
      (hcounters : s'.revisionCounters = s.revisionCounters)
      (hidentities : Fenced s s' identityId next) :
      RoleStep s (.transition clock identityId expectedGeneration next reason actorSubject) s'

theorem nextBigint_eq_ok {value next : ℤ} (hok : nextBigint value = .ok next) :
    next = value + 1 := by
  rw [nextBigint, unit_bind_eq_ok] at hok
  cases hok.2
  rfl

theorem RoleStore.allocateMembershipRevision_eq_ok {allocated : RoleStore × ℤ}
    (hok : s.allocateMembershipRevision projectId identityId = .ok allocated) :
    allocated.2 = s.lastRevision projectId identityId + 1 ∧
      allocated.1 = { s with revisionCounters :=
        s.revisionCounters.insert (projectId, identityId) allocated.2 } := by
  obtain ⟨revision, hnext, hdone⟩ := bind_eq_ok.mp hok
  cases hdone
  exact ⟨nextBigint_eq_ok hnext, rfl⟩

theorem RoleStore.storeMembership_eq_ok {s' : RoleStore} {row : MembershipRow}
    (hok : s.storeMembership projectId identityId row = .ok s') :
    s' = { s with memberships := s.memberships.insert (identityId, projectId) row } := by
  rw [storeMembership, unit_bind_eq_ok] at hok
  cases hok.2
  rfl

theorem RoleStore.fenceIdentitySessions_eq_ok {fenced : RoleStore × ℤ}
    (hok : s.fenceIdentitySessions identityId = .ok fenced) :
    FencedInPlace s fenced.1 identityId ∧ fenced.1.memberships = s.memberships ∧
      fenced.1.revisionCounters = s.revisionCounters := by
  rw [fenceIdentitySessions] at hok
  rcases hrow : s.identities.lookup identityId with _ | row
  · rw [hrow] at hok
    cases hok
  · rw [hrow] at hok
    obtain ⟨generation, hnext, hdone⟩ := bind_eq_ok.mp hok
    cases hdone
    cases nextBigint_eq_ok hnext
    exact ⟨⟨row, hrow, row, hrow, rfl⟩, rfl, rfl⟩

theorem RoleStore.fenceIfDemoted_eq_ok {existing : ProjectRole} {fenced : RoleStore × Option ℤ}
    (hok : s.fenceIfDemoted identityId existing role = .ok fenced) :
    (FencedInPlace s fenced.1 identityId ∨ fenced.1.identities = s.identities ∧ ¬ role < existing) ∧
      fenced.1.memberships = s.memberships ∧
      fenced.1.revisionCounters = s.revisionCounters := by
  rw [fenceIfDemoted] at hok
  by_cases hdemoted : role < existing
  · rw [if_pos hdemoted] at hok
    obtain ⟨inner, hfence, hdone⟩ := bind_eq_ok.mp hok
    cases hdone
    obtain ⟨hfenced, hmemberships, hcounters⟩ := fenceIdentitySessions_eq_ok hfence
    exact ⟨.inl hfenced, hmemberships, hcounters⟩
  · rw [if_neg hdemoted] at hok
    cases hok
    exact ⟨.inr ⟨rfl, hdemoted⟩, rfl, rfl⟩

theorem grantProjectRole_eq_ok (hok : grantProjectRole clock s grant = .ok answer) :
    requireMembershipPrecondition grant.expectedMembershipRevision
        (s.currentMembershipRevision grant.projectId grant.identityId) = .ok () ∧
      ∃ subject resolved, grant.authority.resolve clock s grant.projectId = .ok resolved ∧
        authorizeGrant resolved.role grant.role (s.ownerCount grant.projectId)
          (s.currentRole grant.projectId grant.identityId) = .ok () ∧
        grant.write clock s subject = .ok answer := by
  simp only [grantProjectRole, unit_bind_eq_ok] at hok
  obtain ⟨-, -, -, -, hok⟩ := hok
  obtain ⟨subject, -, hok⟩ := bind_eq_ok.mp hok
  obtain ⟨hprecondition, hok⟩ := unit_bind_eq_ok.mp hok
  obtain ⟨resolved, hresolved, hok⟩ := bind_eq_ok.mp hok
  obtain ⟨hauthorized, hok⟩ := unit_bind_eq_ok.mp hok
  exact ⟨hprecondition, subject, resolved, hresolved, hauthorized, hok⟩

/-- The parts of a revocation that succeeded. -/
theorem revokeProjectRole_eq_ok {answer : RoleStore × ProjectRoleRevocationOutcome}
    (hok : revokeProjectRole clock s revocation = .ok answer) :
    requireMembershipPrecondition revocation.expectedMembershipRevision
        (s.currentMembershipRevision revocation.projectId revocation.identityId) = .ok () ∧
      ∃ previous resolved fenced,
        s.currentRole revocation.projectId revocation.identityId = some previous ∧
        revocation.authority.resolve clock s revocation.projectId = .ok resolved ∧
        authorizeRevocation resolved.role previous = .ok () ∧
        RoleStore.fenceIdentitySessions { s with
          memberships := s.memberships.erase (revocation.identityId, revocation.projectId) }
            revocation.identityId = .ok fenced ∧
        answer.1 = fenced.1 := by
  simp only [revokeProjectRole, unit_bind_eq_ok] at hok
  obtain ⟨-, -, -, -, hprecondition, hok⟩ := hok
  obtain ⟨previous, hheld, hok⟩ := bind_eq_ok.mp hok
  obtain ⟨resolved, hresolved, hok⟩ := bind_eq_ok.mp hok
  obtain ⟨hauthorized, hok⟩ := unit_bind_eq_ok.mp hok
  obtain ⟨-, hok⟩ := unit_bind_eq_ok.mp hok
  obtain ⟨fenced, hfenced, hdone⟩ := bind_eq_ok.mp hok
  cases hdone
  refine ⟨hprecondition, previous, resolved, fenced, ?_, hresolved, hauthorized, hfenced, rfl⟩
  rw [revokeProjectRole.heldRole] at hheld
  rcases hrole : s.currentRole revocation.projectId revocation.identityId with _ | role
  · rw [hrole] at hheld
    cases hheld
  · rw [hrole] at hheld
    cases hheld
    rfl

theorem roleStep_of_grant (hok : grantProjectRole clock s grant = .ok answer) :
    RoleStep s (.grant clock grant) answer.1 := by
  obtain ⟨-, subject, resolved, hresolved, hauthorized, hwrite⟩ := grantProjectRole_eq_ok hok
  rw [ProjectRoleGrant.write] at hwrite
  rcases hrow : s.membership grant.projectId grant.identityId with _ | row
  · rw [hrow] at hwrite
    obtain ⟨allocated, hallocated, hwrite⟩ := bind_eq_ok.mp hwrite
    obtain ⟨stored, hstored, hdone⟩ := bind_eq_ok.mp hwrite
    obtain ⟨hrevision, hallocated⟩ := allocateMembershipRevision_eq_ok hallocated
    cases hdone
    cases storeMembership_eq_ok hstored
    refine .granted hresolved hauthorized (by simp [hallocated, hrevision])
      (by simp [hallocated, hrevision]) (.inr ⟨by simp [hallocated], fun role hrole => ?_⟩)
    simp [currentRole, hrow] at hrole
  · rw [hrow] at hwrite
    dsimp only at hwrite
    by_cases hsame : row.role = grant.role
    · rw [if_pos hsame] at hwrite
      cases hwrite
      exact .kept _
    · rw [if_neg hsame] at hwrite
      obtain ⟨-, hwrite⟩ := unit_bind_eq_ok.mp hwrite
      obtain ⟨allocated, hallocated, hwrite⟩ := bind_eq_ok.mp hwrite
      obtain ⟨stored, hstored, hwrite⟩ := bind_eq_ok.mp hwrite
      obtain ⟨fenced, hfenced, hdone⟩ := bind_eq_ok.mp hwrite
      obtain ⟨hrevision, hallocated⟩ := allocateMembershipRevision_eq_ok hallocated
      obtain ⟨hidentities, hmemberships, hcounters⟩ := fenceIfDemoted_eq_ok hfenced
      cases hdone
      cases storeMembership_eq_ok hstored
      refine .granted hresolved hauthorized (by simp [hmemberships, hallocated, hrevision])
        (by simp [hcounters, hallocated, hrevision]) ?_
      rcases hidentities with hfence | ⟨hidentities, hkept⟩
      · left
        simpa [FencedInPlace, Fenced, hallocated] using hfence
      · refine .inr ⟨by simp [hidentities, hallocated], fun role hrole => ?_⟩
        obtain rfl := by simpa [currentRole, hrow] using hrole
        exact hkept

theorem roleStep_of_revoke {answer : RoleStore × ProjectRoleRevocationOutcome}
    (hok : revokeProjectRole clock s revocation = .ok answer) :
    RoleStep s (.revoke clock revocation) answer.1 := by
  obtain ⟨-, previous, resolved, fenced, hprevious, hresolved, hauthorized, hfenced, heq⟩ :=
    revokeProjectRole_eq_ok hok
  obtain ⟨hidentities, hmemberships, hcounters⟩ := fenceIdentitySessions_eq_ok hfenced
  rw [heq]
  exact .revoked hresolved hprevious hauthorized hmemberships hcounters hidentities

theorem roleStep_of_transition {expectedGeneration : ℤ} {next : IdentityLifecycle}
    {reason actorSubject : String} {answer : RoleStore × ℤ}
    (hok : transitionIdentityLifecycle clock s identityId expectedGeneration next reason
      actorSubject = .ok answer) :
    RoleStep s (.transition clock identityId expectedGeneration next reason actorSubject)
      answer.1 := by
  simp only [transitionIdentityLifecycle, unit_bind_eq_ok] at hok
  obtain ⟨-, -, -, hok⟩ := hok
  rcases hrow : s.identities.lookup identityId with _ | row
  · rw [hrow] at hok
    cases hok
  · rw [hrow] at hok
    simp only [transitionRow, unit_bind_eq_ok] at hok
    obtain ⟨-, -, hok⟩ := hok
    by_cases hsame : row.lifecycleState = next
    · rw [if_pos hsame] at hok
      cases hok
      exact .kept _
    · rw [if_neg hsame] at hok
      simp only [transitionRow.leave, unit_bind_eq_ok] at hok
      obtain ⟨-, -, -, hdone⟩ := hok
      cases hdone
      by_cases hactive : row.lifecycleState = .active
      · rw [if_pos hactive]
        exact .transitioned rfl rfl ⟨row, hrow, rfl⟩
      · rw [if_neg hactive]
        exact .transitioned rfl rfl ⟨row, hrow, rfl⟩

theorem roleStep_step (s : RoleStore) (call : RoleCall) : RoleStep s call (step s call) := by
  rcases hresult : call.result s with error | answer
  · have hkept : step s call = s := by rw [step, hresult]
    rw [hkept]
    exact .kept call
  · have hmoved : step s call = answer.1 := by rw [step, hresult]
    rw [hmoved]
    cases call with
    | grant =>
      rw [RoleCall.result] at hresult
      obtain ⟨inner, hinner, rfl⟩ := map_eq_ok.mp hresult
      exact roleStep_of_grant hinner
    | revoke =>
      rw [RoleCall.result] at hresult
      obtain ⟨inner, hinner, rfl⟩ := map_eq_ok.mp hresult
      exact roleStep_of_revoke hinner
    | transition =>
      rw [RoleCall.result] at hresult
      obtain ⟨inner, hinner, rfl⟩ := map_eq_ok.mp hresult
      exact roleStep_of_transition hinner

end Resolving

/-! ## Memberships and revisions -/

section Memberships

variable {s s' : RoleStore} {call : RoleCall}

/-- The role of an identity is the one its membership names. -/
theorem RoleStore.currentRole_eq (s : RoleStore) (projectId identityId : Uuid) :
    s.currentRole projectId identityId =
      (s.membership projectId identityId).map MembershipRow.role :=
  rfl

variable {projectId identityId : Uuid}

theorem RoleStore.membership_of_insert {row : MembershipRow}
    (hmemberships : s'.memberships = s.memberships.insert (identityId, projectId) row)
    (project identity : Uuid) : s'.membership project identity =
      if project = projectId ∧ identity = identityId then some row
      else s.membership project identity := by
  rw [membership, hmemberships]
  split_ifs with hkey
  · rw [hkey.1, hkey.2, lookup_insert]
  · rw [lookup_insert_ne fun heq => hkey (Prod.mk.inj heq).symm, membership]

/-- Reading a membership after one was deleted. -/
theorem RoleStore.membership_of_erase
    (hmemberships : s'.memberships = s.memberships.erase (identityId, projectId))
    (project identity : Uuid) : s'.membership project identity =
      if project = projectId ∧ identity = identityId then none
      else s.membership project identity := by
  rw [membership, hmemberships]
  split_ifs with hkey
  · rw [hkey.1, hkey.2, lookup_erase]
  · rw [lookup_erase_ne fun heq => hkey (Prod.mk.inj heq).symm, membership]

/-- Reading a counter after one moved on. -/
theorem RoleStore.lastRevision_of_insert {revision : ℤ}
    (hcounters : s'.revisionCounters = s.revisionCounters.insert (projectId, identityId) revision)
    (project identity : Uuid) : s'.lastRevision project identity =
      if project = projectId ∧ identity = identityId then revision
      else s.lastRevision project identity := by
  rw [lastRevision, hcounters]
  split_ifs with hkey
  · rw [hkey.1, hkey.2, lookup_insert, getD_some]
  · rw [lookup_insert_ne fun heq => hkey (Prod.mk.inj heq), lastRevision]

/-- The membership a call leaves under a key: the old one, none, or a new one whose revision is the
next of the key's counter. -/
theorem RoleStep.membership_cases (hstep : RoleStep s call s') (projectId identityId : Uuid) :
    s'.membership projectId identityId = s.membership projectId identityId ∨
      s'.membership projectId identityId = none ∨
      ∃ row, s'.membership projectId identityId = some row ∧
        row.membershipRevision = s.lastRevision projectId identityId + 1 ∧
        s'.lastRevision projectId identityId = row.membershipRevision := by
  cases hstep with
  | kept => exact .inl rfl
  | transitioned hmemberships =>
    exact .inl (by rw [membership, hmemberships, membership])
  | revoked _ _ _ hmemberships =>
    rw [membership_of_erase hmemberships]
    split_ifs with hkey
    · exact .inr (.inl rfl)
    · exact .inl rfl
  | granted _ _ hmemberships hcounters =>
    rw [membership_of_insert hmemberships, lastRevision_of_insert hcounters]
    split_ifs with hkey
    · obtain ⟨rfl, rfl⟩ := hkey
      exact .inr (.inr ⟨_, rfl, rfl, rfl⟩)
    · exact .inl rfl

theorem RoleStep.lastRevision_le (hstep : RoleStep s call s') (projectId identityId : Uuid) :
    s.lastRevision projectId identityId ≤ s'.lastRevision projectId identityId := by
  cases hstep with
  | kept => exact le_rfl
  | transitioned _ hcounters =>
    rw [lastRevision, lastRevision, hcounters]
  | revoked _ _ _ _ hcounters =>
    rw [lastRevision, lastRevision, hcounters]
  | granted _ _ _ hcounters =>
    rw [lastRevision_of_insert hcounters]
    split_ifs with hkey
    · rw [hkey.1, hkey.2]
      omega
    · exact le_rfl

/-- The Owner role of a membership is given and taken only by a write to that membership, on the
authority of the admin tool or of an active Owner. -/
theorem RoleStep.owner_change (hstep : RoleStep s call s')
    (hchange : ¬ (s.currentRole projectId identityId = some .owner ↔
      s'.currentRole projectId identityId = some .owner)) :
    ∃ write, call.write = some write ∧ write.projectId = projectId ∧
      write.identityId = identityId ∧ write.authority.OwnsOrBootstraps s projectId := by
  cases hstep with
  | kept => exact absurd .rfl hchange
  | transitioned hmemberships =>
    refine absurd ?_ hchange
    rw [currentRole, currentRole, membership, membership, hmemberships]
  | @revoked _ _ s' _ previous hresolved hprevious hauthorized hmemberships =>
    rw [currentRole_eq s', membership_of_erase hmemberships] at hchange
    split_ifs at hchange with hkey
    · obtain ⟨rfl, rfl⟩ := hkey
      obtain rfl := by simpa [hprevious] using hchange
      exact ⟨_, rfl, rfl, rfl, MembershipAuthority.ownsOrBootstraps_of_resolve hresolved
        (owner_of_authorizeRevocation hauthorized)⟩
    · exact absurd .rfl hchange
  | @granted _ grant s' _ hresolved hauthorized hmemberships =>
    rw [currentRole_eq s', membership_of_insert hmemberships] at hchange
    split_ifs at hchange with hkey
    · obtain ⟨rfl, rfl⟩ := hkey
      have howner : grant.role = .owner ∨
          s.currentRole grant.projectId grant.identityId = some .owner := by
        by_contra hneither
        rw [not_or] at hneither
        simp [ProjectRoleGrant.row, hneither] at hchange
      exact ⟨_, rfl, rfl, rfl, MembershipAuthority.ownsOrBootstraps_of_resolve hresolved
        (owner_of_authorizeGrant hauthorized howner)⟩
    · exact absurd .rfl hchange

end Memberships

/-! ## Lifecycle generations -/

section Generations

variable {s s' : RoleStore} {call : RoleCall} {identityId : Uuid}

theorem Fenced.generation {next : IdentityLifecycle} (hfenced : Fenced s s' identityId next) :
    ∃ generation, s.generation identityId = some generation ∧
      s'.generation identityId = some (generation + 1) := by
  obtain ⟨row, hrow, hidentities⟩ := hfenced
  refine ⟨row.lifecycleGeneration, by rw [RoleStore.generation, hrow, map_some], ?_⟩
  rw [RoleStore.generation, hidentities, AList.lookup_insert, map_some]

/-- The row of an identity after a call is the old one, or the call fenced the identity. -/
theorem RoleStep.identity_cases (hstep : RoleStep s call s') (identityId : Uuid) :
    s'.identities.lookup identityId = s.identities.lookup identityId ∨
      ∃ next, Fenced s s' identityId next := by
  have hcases : s'.identities = s.identities ∨ ∃ fenced next, Fenced s s' fenced next := by
    cases hstep with
    | kept => exact .inl rfl
    | transitioned _ _ hidentities => exact .inr ⟨_, _, hidentities⟩
    | revoked _ _ _ _ _ hidentities =>
      obtain ⟨row, -, hfenced⟩ := hidentities
      exact .inr ⟨_, _, hfenced⟩
    | granted _ _ _ _ hidentities =>
      rcases hidentities with ⟨row, -, hfenced⟩ | ⟨hidentities, -⟩
      · exact .inr ⟨_, _, hfenced⟩
      · exact .inl hidentities
  rcases hcases with heq | ⟨fenced, next, hfenced⟩
  · exact .inl (by rw [heq])
  · by_cases hkey : identityId = fenced
    · exact .inr ⟨next, hkey ▸ hfenced⟩
    · obtain ⟨row, -, hidentities⟩ := hfenced
      exact .inl (by rw [hidentities, lookup_insert_ne hkey])

/-- A call that changes an identity's role without fencing the identity does not lower the role. -/
theorem RoleStep.role_cases (hstep : RoleStep s call s') (projectId identityId : Uuid) :
    s'.currentRole projectId identityId = s.currentRole projectId identityId ∨
      (∃ next, Fenced s s' identityId next) ∨
      ∃ role', s'.currentRole projectId identityId = some role' ∧
        ∀ role, s.currentRole projectId identityId = some role → ¬ role' < role := by
  cases hstep with
  | kept => exact .inl rfl
  | transitioned hmemberships =>
    left
    rw [currentRole, membership, hmemberships, currentRole, membership]
  | revoked _ _ _ hmemberships _ hidentities =>
    rw [currentRole_eq s', membership_of_erase hmemberships]
    split_ifs with hkey
    · obtain ⟨row, -, hfenced⟩ := hidentities
      exact .inr (.inl ⟨_, hkey.2 ▸ hfenced⟩)
    · exact .inl rfl
  | granted _ _ hmemberships _ hidentities =>
    rw [currentRole_eq s', membership_of_insert hmemberships]
    split_ifs with hkey
    · rcases hidentities with ⟨row, -, hfenced⟩ | ⟨-, hkept⟩
      · exact .inr (.inl ⟨_, hkey.2 ▸ hfenced⟩)
      · exact .inr (.inr ⟨_, rfl, by rwa [hkey.1, hkey.2]⟩)
    · exact .inl rfl

/-- The standing of an identity falls: one of its roles goes away or becomes a lower one, or it is
no longer active. -/
def Lowers (s s' : RoleStore) (identityId : Uuid) : Prop :=
  (∃ projectId role, s.currentRole projectId identityId = some role ∧
    ∀ role', s'.currentRole projectId identityId = some role' → role' < role) ∨
  (s.isActive identityId = true ∧ s'.isActive identityId = false)

/-- A call that lowers an identity's standing fences the identity. -/
theorem RoleStep.fenced_of_lowers (hstep : RoleStep s call s') (hlowers : Lowers s s' identityId) :
    ∃ next, Fenced s s' identityId next := by
  rcases hlowers with ⟨projectId, role, hrole, hlower⟩ | ⟨hactive, hinactive⟩
  · rcases hstep.role_cases projectId identityId with hsame | hfenced | ⟨role', hrole', hkept⟩
    · exact absurd (hlower role (hsame.trans hrole)) (Nat.lt_irrefl role.rank)
    · exact hfenced
    · exact absurd (hlower role' hrole') (hkept role hrole)
  · rcases hstep.identity_cases identityId with hsame | hfenced
    · rw [isActive, hsame, ← isActive, hactive] at hinactive
      cases hinactive
    · exact hfenced

theorem RoleStep.generation_le (hstep : RoleStep s call s') {generation : ℤ}
    (hgeneration : s.generation identityId = some generation) :
    ∃ generation', s'.generation identityId = some generation' ∧ generation ≤ generation' := by
  rcases hstep.identity_cases identityId with hsame | ⟨next, hfenced⟩
  · exact ⟨generation, by rw [RoleStore.generation, hsame, ← RoleStore.generation, hgeneration],
      le_rfl⟩
  · obtain ⟨old, hold, hnew⟩ := hfenced.generation
    obtain rfl := mem_unique hgeneration hold
    exact ⟨generation + 1, hnew, by omega⟩

/-- A membership write that succeeds met its precondition and resolved its authority. -/
theorem write_of_result_ok {answer : RoleStore × RoleOutcome} {write : MembershipWrite}
    (hok : call.result s = .ok answer) (hwrite : call.write = some write) :
    requireMembershipPrecondition write.expectedMembershipRevision
      (s.currentMembershipRevision write.projectId write.identityId) = .ok () ∧
    ∃ clock resolved, write.authority.resolve clock s write.projectId = .ok resolved := by
  cases call with
  | grant =>
    rw [RoleCall.result] at hok
    obtain ⟨inner, hinner, -⟩ := map_eq_ok.mp hok
    obtain ⟨hprecondition, subject, resolved, hresolved, -⟩ := grantProjectRole_eq_ok hinner
    cases hwrite
    exact ⟨hprecondition, _, resolved, hresolved⟩
  | revoke =>
    rw [RoleCall.result] at hok
    obtain ⟨inner, hinner, -⟩ := map_eq_ok.mp hok
    obtain ⟨hprecondition, previous, resolved, fenced, -, hresolved, -⟩ :=
      revokeProjectRole_eq_ok hinner
    cases hwrite
    exact ⟨hprecondition, _, resolved, hresolved⟩
  | transition => cases hwrite

end Generations

/-! ## Runs -/

section Runs

/-- Every membership was issued its revision by its counter. -/
def RoleStore.Counted (s : RoleStore) : Prop :=
  ∀ projectId identityId row, s.membership projectId identityId = some row →
    row.membershipRevision ≤ s.lastRevision projectId identityId

theorem RoleStore.Counted.step {s : RoleStore} (hcounted : s.Counted) (call : RoleCall) :
    (step s call).Counted := by
  intro projectId identityId row hrow
  have hstep := roleStep_step s call
  rcases hstep.membership_cases projectId identityId with hsame | hnone | ⟨new, hnew, -, hlast⟩
  · exact (hcounted projectId identityId row (hsame ▸ hrow)).trans
      (hstep.lastRevision_le projectId identityId)
  · rw [hnone] at hrow
    cases hrow
  · rw [hnew] at hrow
    cases hrow
    exact hlast.ge

variable {s : RoleStore} {identityId : Uuid} {call : RoleCall}

theorem RoleStore.Counted.final (hcounted : s.Counted) (calls : List RoleCall) :
    (History.final Roles.step s calls).Counted :=
  @History.invariant _ _ Roles.step RoleStore.Counted (fun _ call hinv => hinv.step call) s hcounted
    calls

/-- A revision counter never decreases along a run. -/
theorem lastRevision_le_final (s : RoleStore) (calls : List RoleCall)
    (projectId identityId : Uuid) : s.lastRevision projectId identityId ≤
      (History.final step s calls).lastRevision projectId identityId :=
  @History.invariant _ _ step
    (fun t : RoleStore =>
      s.lastRevision projectId identityId ≤ t.lastRevision projectId identityId)
    (fun t call hle => hle.trans ((roleStep_step t call).lastRevision_le projectId identityId))
    s le_rfl calls

/-- Along a run a membership stays, or a later one has a revision that had not been issued. -/
theorem membership_final (s : RoleStore) (calls : List RoleCall) (projectId identityId : Uuid) :
    (History.final step s calls).membership projectId identityId =
        s.membership projectId identityId ∨
      ∀ row, (History.final step s calls).membership projectId identityId = some row →
        s.lastRevision projectId identityId < row.membershipRevision := by
  induction calls using List.reverseRecOn with
  | nil => exact .inl rfl
  | append_singleton before call =>
    rw [final_append]
    have hstep := roleStep_step (final step s before) call
    rcases hstep.membership_cases projectId identityId with hsame | hnone | ⟨row, hrow, hnew, -⟩
    · rwa [final_cons, final_nil, hsame]
    · exact .inr (by simp [hnone])
    · refine .inr fun found hfound => ?_
      rw [final_cons, final_nil, hrow] at hfound
      cases hfound
      have hle := lastRevision_le_final s before projectId identityId
      omega

theorem generation_final {generation : ℤ} (hgeneration : s.generation identityId = some generation)
    (calls : List RoleCall) :
    ∃ generation', (History.final step s calls).generation identityId = some generation' ∧
      generation ≤ generation' := by
  refine @History.invariant _ _ step
    (fun t : RoleStore => ∃ generation', t.generation identityId = some generation' ∧
      generation ≤ generation') ?_ s ⟨generation, hgeneration, le_rfl⟩ calls
  rintro t call ⟨middle, hmiddle, hle⟩
  obtain ⟨later, hlater, hle'⟩ := (roleStep_step t call).generation_le hmiddle
  exact ⟨later, hlater, hle.trans hle'⟩

/-- A write that expects a positive revision finds a membership with this revision. -/
theorem revision_of_result_ok {answer : RoleStore × RoleOutcome} {write : MembershipWrite}
    {revision : ℤ} (hok : call.result s = .ok answer) (hwrite : call.write = some write)
    (hexpected : write.expectedMembershipRevision = some revision) (hpositive : 0 < revision) :
    s.currentMembershipRevision write.projectId write.identityId = some revision := by
  obtain ⟨hprecondition, -⟩ := write_of_result_ok hok hwrite
  simp only [hexpected, requireMembershipPrecondition, unit_bind_eq_ok,
    refuseIf_eq_ok, not_not] at hprecondition
  rcases hcurrent : s.currentMembershipRevision write.projectId write.identityId with _ | current
  · rw [hcurrent, getD_none] at hprecondition
    omega
  · rw [hcurrent, getD_some] at hprecondition
    rw [hprecondition.2]

/-- A caller fenced by a call finds every later membership write refused. -/
theorem refused_after_lowers (hlowers : Lowers s (step s call) identityId) :
    ∃ generation, s.generation identityId = some generation ∧
      ∀ (later : List RoleCall) (late : RoleCall) (write : MembershipWrite)
        (caller : DurableCaller), late.write = some write →
        write.authority.durableCaller = some caller → caller.identityId = identityId →
        caller.lifecycleGeneration ≤ generation →
        ∃ error, late.result (History.final step (step s call) later) = .error error := by
  obtain ⟨next, hfenced⟩ := (roleStep_step s call).fenced_of_lowers hlowers
  obtain ⟨generation, hbefore, hafter⟩ := hfenced.generation
  refine ⟨generation, hbefore, ?_⟩
  rintro later late write caller hwrite hcaller rfl hstale
  obtain ⟨current, hcurrent, hle⟩ := generation_final hafter later
  rcases hresult : late.result (final step (step s call) later) with error | answer
  · exact ⟨error, rfl⟩
  · obtain ⟨-, clock, resolved, hresolved⟩ := write_of_result_ok hresult hwrite
    have hvalid := MembershipAuthority.revalidated_of_resolve hresolved hcaller
    have hgeneration := (DurableCaller.generation_of_revalidate hvalid).1
    obtain rfl := mem_unique hcurrent hgeneration
    omega

variable {calls earlier rest : List RoleCall}

/-- A written membership has a greater revision than every earlier one. -/
theorem revision_lt_of_written (hcounted : s.Counted) {projectId : Uuid} {row old : MembershipRow}
    (hrow : (step (History.final step s calls) call).membership projectId identityId = some row)
    (hwritten : (History.final step s calls).membership projectId identityId ≠ some row)
    (hcalls : calls = earlier ++ rest)
    (hold : (History.final step s earlier).membership projectId identityId = some old) :
    old.membershipRevision < row.membershipRevision := by
  have hissued := hcounted.final earlier projectId identityId old hold
  have hmono := lastRevision_le_final (final step s earlier) rest projectId identityId
  rw [← final_append, ← hcalls] at hmono
  rcases (roleStep_step (final step s calls) call).membership_cases projectId identityId
    with hsame | hnone | ⟨new, hnew, hnext, -⟩
  · exact absurd (hsame.symm.trans hrow) hwritten
  · rw [hnone] at hrow
    cases hrow
  · rw [hnew] at hrow
    cases hrow
    omega

/-- A revision that had been issued and is still the current one belongs to the same membership. -/
theorem membership_eq_of_issued {projectId : Uuid} {revision : ℤ} (hcalls : calls = earlier ++ rest)
    (hcurrent : (History.final step s calls).currentMembershipRevision projectId identityId =
      some revision)
    (hissued : revision ≤ (History.final step s earlier).lastRevision projectId identityId) :
    (History.final step s earlier).membership projectId identityId =
      (History.final step s calls).membership projectId identityId := by
  have hfinal := membership_final (final step s earlier) rest projectId identityId
  rw [← final_append, ← hcalls] at hfinal
  rcases hfinal with hsame | hlater
  · exact hsame.symm
  · obtain ⟨row, hrow, hrevision⟩ := map_eq_some_iff.mp hcurrent
    have hlt := hlater row hrow
    omega

/-- Ownership, fences and revisions in every run, stated for the calls so far and one more.

* If the call makes or unmakes an Owner of a project, it is a write to that very membership, by the
  admin tool or by a principal that is an active Owner of the project in the state before.
* If the call lowers an identity's standing, then after any further calls every membership write by a
  caller that authenticated as this identity under its generation before the call fails.
* If the call writes a membership, its revision exceeds the revision the membership had in any
  earlier state, revocations in between or not.
* If the call is a write on a positive revision and succeeds, the membership has this revision and
  has been the same ever since its counter issued it. -/
theorem owners_decide_and_fences_last (s : RoleStore) (hcounted : s.Counted)
    (calls : List RoleCall) (call : RoleCall) : (∀ projectId identityId,
      ¬ ((History.final step s calls).currentRole projectId identityId = some .owner ↔
        (step (History.final step s calls) call).currentRole projectId identityId = some .owner) →
      ∃ write, call.write = some write ∧ write.projectId = projectId ∧
        write.identityId = identityId ∧
        (write.authority = .bootstrap ∨ ∃ caller, write.authority = .principal caller ∧
          (History.final step s calls).currentRole projectId caller.identityId = some .owner ∧
          (History.final step s calls).isActive caller.identityId = true)) ∧
    (∀ identityId,
      Lowers (History.final step s calls) (step (History.final step s calls) call) identityId →
      ∃ generation, (History.final step s calls).generation identityId = some generation ∧
        ∀ (later : List RoleCall) (late : RoleCall) (write : MembershipWrite)
          (caller : DurableCaller), late.write = some write →
          write.authority.durableCaller = some caller → caller.identityId = identityId →
          caller.lifecycleGeneration ≤ generation →
          ∃ error, late.result (History.final step (step (History.final step s calls) call) later) =
              .error error) ∧
    (∀ projectId identityId row,
      (step (History.final step s calls) call).membership projectId identityId = some row →
      (History.final step s calls).membership projectId identityId ≠ some row →
      ∀ earlier rest, calls = earlier ++ rest → ∀ old,
        (History.final step s earlier).membership projectId identityId = some old →
        old.membershipRevision < row.membershipRevision) ∧
    (∀ write revision answer, call.write = some write →
      write.expectedMembershipRevision = some revision → 0 < revision →
      call.result (History.final step s calls) = .ok answer →
      (History.final step s calls).currentMembershipRevision write.projectId write.identityId =
          some revision ∧
        ∀ earlier rest, calls = earlier ++ rest →
          revision ≤ (History.final step s earlier).lastRevision write.projectId write.identityId →
          (History.final step s earlier).membership write.projectId write.identityId =
            (History.final step s calls).membership write.projectId write.identityId) := by
  refine ⟨?_, ?_, ?_, ?_⟩
  · intro projectId identityId hchange
    exact (roleStep_step _ call).owner_change hchange
  · intro identityId hlowers
    exact refused_after_lowers hlowers
  · intro projectId identityId row hrow hwritten earlier rest hcalls old hold
    exact revision_lt_of_written hcounted hrow hwritten hcalls hold
  · intro write revision answer hwrite hexpected hpositive hok
    have hcurrent := revision_of_result_ok hok hwrite hexpected hpositive
    exact ⟨hcurrent, fun earlier rest hcalls hissued =>
      membership_eq_of_issued hcalls hcurrent hissued⟩

end Runs

/-! ## A project and its two owners -/

namespace Sample

/-- A human identity signed in through provider 9. -/
def human (subject : String) : IdentityRow where
  subject := subject
  kind := .human
  lifecycleState := .active
  lifecycleGeneration := 1
  providerId := some 9
  externalSubject := some subject
  groupGeneration := 1
  sourceRealmDigest := none
  sourceIdentityId := none
  sourceMembershipGeneration := none
  aliasHistory := .arr []
  provenanceDigest := none

/-- One project and two human identities without roles. -/
def tables : RoleStore where
  projects := {7}
  identities := (AList.insert 1 (human "ann") ∅ : Table Uuid IdentityRow).insert 2 (human "bob")
  sessions := ∅
  providers := ∅
  serviceCredentials := ∅
  projectPolicies := ∅
  policyVersions := ∅
  mappings := ∅
  configureGrants := ∅
  memberships := ∅
  revisionCounters := ∅

/-- A grant in the project of the sample. -/
def grant (identityId : Uuid) (role : ProjectRole) (authority : MembershipAuthority)
    (expectedMembershipRevision : Option ℤ) : RoleCall :=
  .grant ⟨0, 0, 0⟩ ⟨7, identityId, role, authority, "a", "r", expectedMembershipRevision⟩

/-- The admin tool makes both identities Owners. -/
def bootstrapped : List RoleCall :=
  [grant 1 .owner .bootstrap none, grant 2 .owner .bootstrap none]

/-- The first Owner demotes the second on the revision it saw. -/
def demotion : RoleCall :=
  grant 2 .viewer (.principal ⟨1, 1, none, none⟩) (some 1)

end Sample

/-- The second Owner, demoted by the first and made Owner again by the admin tool, cannot write with
the credential from before. -/
theorem demoted_owner_stays_out : Sample.tables.Counted ∧
    ∃ error, (Sample.grant 1 .viewer (.principal ⟨2, 1, none, none⟩) none).result
      (History.final step (step (History.final step Sample.tables Sample.bootstrapped)
        Sample.demotion) [Sample.grant 2 .owner .bootstrap none]) = .error error := by
  have hcounted : Sample.tables.Counted := by
    intro projectId identityId row hrow
    cases hrow
  have hrole : (final step Sample.tables Sample.bootstrapped).currentRole 7 2 =
      some .owner := by decide +kernel
  have hlower : (step (final step Sample.tables Sample.bootstrapped)
      Sample.demotion).currentRole 7 2 = some .viewer := by decide +kernel
  have hgeneration : (final step Sample.tables Sample.bootstrapped).generation 2 =
      some 1 := by decide +kernel
  have hlowers : Lowers (final step Sample.tables Sample.bootstrapped)
      (step (final step Sample.tables Sample.bootstrapped) Sample.demotion) 2 := by
    refine .inl ⟨7, .owner, hrole, fun role hrole' => ?_⟩
    rw [hlower] at hrole'
    cases hrole'
    decide
  obtain ⟨generation, hbefore, hrefused⟩ :=
    (owners_decide_and_fences_last Sample.tables hcounted Sample.bootstrapped
      Sample.demotion).2.1 2 hlowers
  rw [hgeneration] at hbefore
  cases hbefore
  exact ⟨hcounted, hrefused _ _ _ _ rfl rfl rfl (by decide)⟩

end McLoving.Roles
