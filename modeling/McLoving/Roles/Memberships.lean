import McLoving.Domain.Primitives
import McLoving.Lib.Table
import Mathlib.Data.Finset.Basic
import McLoving.Lib.Except

/-!
# Identities, memberships and their writes

`grant_project_role`, `revoke_project_role` and `transition_identity_lifecycle` are each one atomic
call on the tables of one organization.  A write names its authority, which is resolved again
against these tables.  The revision of a membership comes from a counter of its own.
-/

namespace McLoving.Roles

/-! ## Roles and states -/

inductive ProjectRole where
  | viewer
  | developer
  | admin
  | owner
  deriving DecidableEq

/-- The position of a role in the order of its declaration. -/
def ProjectRole.rank : ProjectRole → ℕ
  | .viewer => 0
  | .developer => 1
  | .admin => 2
  | .owner => 3

instance : LT ProjectRole := ⟨fun left right => left.rank < right.rank⟩

instance (left right : ProjectRole) : Decidable (left < right) :=
  inferInstanceAs (Decidable (left.rank < right.rank))

inductive IdentityLifecycle where
  | active
  | disabled
  | deleted
  deriving DecidableEq

/-- The kinds of `identities.kind`. -/
inductive IdentityKind where
  | human
  | service
  deriving DecidableEq

/-- The decisions of `authorization_action_grants.decision`. -/
inductive GrantDecision where
  | allow
  | deny
  deriving DecidableEq

/-! ## Rows -/

/-- A row of `identities`. -/
structure IdentityRow where
  subject : String
  kind : IdentityKind
  lifecycleState : IdentityLifecycle
  lifecycleGeneration : ℤ
  providerId : Option Uuid
  externalSubject : Option String
  groupGeneration : ℤ
  sourceRealmDigest : Option Digest
  sourceIdentityId : Option String
  sourceMembershipGeneration : Option ℤ
  aliasHistory : Json
  provenanceDigest : Option Digest

/-- The part of the constraint `identities_oidc_shape` that a change of the lifecycle state can
break. -/
def IdentityRow.oidcShape (row : IdentityRow) : Bool :=
  match row.kind with
  | .human =>
    (row.providerId.isSome && row.externalSubject.isSome) ||
      (row.providerId.isNone && row.externalSubject.isNone &&
        decide (row.lifecycleState = .disabled))
  | .service => row.providerId.isNone && row.externalSubject.isNone

/-- A row of `identity_sessions`. -/
structure SessionRow where
  identityId : Uuid
  providerConfigurationGeneration : ℤ
  providerJwksGeneration : ℤ
  identityLifecycleGeneration : ℤ
  groupGeneration : ℤ
  expiresAtUnixMs : ℤ
  revokedAtUnixMs : Option ℤ

/-- A row of `identity_providers`. -/
structure ProviderRow where
  enabled : Bool
  configurationGeneration : ℤ
  jwksGeneration : ℤ

/-- A row of `service_credentials`. -/
structure ServiceCredentialRow where
  identityId : Uuid
  issuedAtUnixMs : ℤ
  expiresAtUnixMs : Option ℤ
  revokedAtUnixMs : Option ℤ

/-- A row of `authorization_principal_mappings`. -/
structure MappingRow where
  targetIdentityId : Uuid
  sourceIdentityId : String
  sourceAliasHistory : Json
  sourceMembershipGeneration : ℤ
  targetProviderId : Option Uuid
  targetExternalSubject : Option String
  targetLifecycleGeneration : ℤ
  targetGroupGeneration : ℤ
  targetProvenanceDigest : Digest

/-- A row of `project_memberships`. -/
structure MembershipRow where
  role : ProjectRole
  grantedBy : String
  grantedAtUnixMs : ℤ
  membershipRevision : ℤ
  deriving DecidableEq

/-- The tables of one organization. -/
structure RoleStore where
  /-- `projects`. -/
  projects : Finset Uuid
  /-- `identities`. -/
  identities : Table Uuid IdentityRow
  /-- `identity_sessions`. -/
  sessions : Table Uuid SessionRow
  /-- `identity_providers`. -/
  providers : Table Uuid ProviderRow
  /-- `service_credentials`. -/
  serviceCredentials : Table Uuid ServiceCredentialRow
  /-- `authorization_project_policies.current_generation`, by project. -/
  projectPolicies : Table Uuid ℤ
  /-- `authorization_policy_versions.source_realm_digest`, by project and generation. -/
  policyVersions : Table (Uuid × ℤ) Digest
  /-- `authorization_principal_mappings`, by project, generation and mapping. -/
  mappings : Table (Uuid × ℤ × Uuid) MappingRow
  /-- The rows of `authorization_action_grants` for the action `project_configure`. -/
  configureGrants : Table (Uuid × ℤ × Uuid) GrantDecision
  /-- `project_memberships`, by identity and project. -/
  memberships : Table (Uuid × Uuid) MembershipRow
  /-- `project_membership_revision_counters`, by project and identity. -/
  revisionCounters : Table (Uuid × Uuid) ℤ

/-- The errors of `StoreError` that the calls report. -/
inductive RoleError where
  | invalidIdentityOperation (message : String)
  | identityConflict (message : String)
  | projectRoleDenied (message : String)
  | membershipPreconditionFailed (currentMembershipRevision : ℤ)
  | database
  deriving DecidableEq

/-! ## Requests -/

/-- The readings of the database's clock that one call takes. -/
structure Clock where
  sessionUnixMs : ℤ
  credentialUnixMs : ℤ
  nowUnixMs : ℤ

structure DurableCaller where
  identityId : Uuid
  lifecycleGeneration : ℤ
  sessionId : Option Uuid
  serviceCredentialId : Option Uuid

inductive MembershipAuthority where
  | bootstrap
  | principal (caller : DurableCaller)
  | delegated (caller : Option DurableCaller) (policyGeneration : Option ℤ)

/-- `ResolvedAuthority`; its kind is only written to the audit log. -/
structure ResolvedAuthority where
  role : Option ProjectRole
  identityId : Option Uuid

structure ProjectRoleGrant where
  projectId : Uuid
  identityId : Uuid
  role : ProjectRole
  authority : MembershipAuthority
  actorSubject : String
  reason : String
  expectedMembershipRevision : Option ℤ

structure ProjectRoleRevocation where
  projectId : Uuid
  identityId : Uuid
  authority : MembershipAuthority
  actorSubject : String
  reason : String
  expectedMembershipRevision : Option ℤ

structure ProjectMembership where
  identityId : Uuid
  projectId : Uuid
  subject : String
  role : ProjectRole
  grantedBy : String
  grantedAtUnixMs : ℤ
  membershipRevision : ℤ
  deriving DecidableEq

inductive ProjectRoleGrantOutcome where
  | granted (membership : ProjectMembership)
  | changed (membership : ProjectMembership) (previous : ProjectRole) (fencedGeneration : Option ℤ)
  | unchanged (membership : ProjectMembership)
  deriving DecidableEq

structure ProjectRoleRevocationOutcome where
  identityId : Uuid
  projectId : Uuid
  previous : ProjectRole
  fencedGeneration : ℤ
  deriving DecidableEq

open Except (refuseIf)

/-! ## Reading the tables -/

namespace RoleStore

/-- The membership of an identity in a project. -/
def membership (s : RoleStore) (projectId identityId : Uuid) : Option MembershipRow :=
  s.memberships.lookup (identityId, projectId)

def currentRole (s : RoleStore) (projectId identityId : Uuid) : Option ProjectRole :=
  (s.membership projectId identityId).map MembershipRow.role

def currentMembershipRevision (s : RoleStore) (projectId identityId : Uuid) : Option ℤ :=
  (s.membership projectId identityId).map MembershipRow.membershipRevision

/-- Whether an identity is there and active. -/
def isActive (s : RoleStore) (identityId : Uuid) : Bool :=
  (s.identities.lookup identityId).any fun row => decide (row.lifecycleState = .active)

def ownerCount (s : RoleStore) (projectId : Uuid) : ℕ :=
  s.memberships.count fun key row =>
    decide (key.2 = projectId) && decide (row.role = .owner) && s.isActive key.1

def activeOwnerCountExcluding (s : RoleStore) (projectId excludeIdentityId : Uuid) : ℕ :=
  s.memberships.count fun key row =>
    decide (key.2 = projectId) && decide (row.role = .owner) &&
      decide (key.1 ≠ excludeIdentityId) && s.isActive key.1

/-- The projects an identity owns, in the order of their identifiers. -/
def ownerProjects (s : RoleStore) (identityId : Uuid) : List Uuid :=
  ((s.memberships.select fun key row =>
    decide (key.1 = identityId) && decide (row.role = .owner)).map fun entry =>
      entry.1.2).insertionSort (· ≤ ·)

def requireProject (s : RoleStore) (projectId : Uuid) : Except RoleError Unit :=
  refuseIf (projectId ∉ s.projects) (.identityConflict "project is unknown in the organization")

def requireHumanIdentity (s : RoleStore) (identityId : Uuid) : Except RoleError String :=
  match s.identities.lookup identityId with
  | none => .error (.identityConflict "identity is unknown")
  | some row => do
    refuseIf (row.kind ≠ .human)
      (.identityConflict "project roles are held by human identities; services carry scopes")
    refuseIf (row.lifecycleState ≠ .active)
      (.identityConflict "only an active human identity can hold a project role")
    return row.subject

end RoleStore

/-! ## Authority -/

def denied (message : String) : RoleError :=
  .projectRoleDenied message

/-- `validate_text`, which `identity.rs` repeats as `validate_canonical`. -/
def validateText (value label : String) (max : ℕ) : Except RoleError Unit :=
  refuseIf
    (value.isEmpty ∨ value.utf8ByteSize > max ∨ trim value ≠ value ∨
      value.toList.contains (Char.ofNat 0))
    (.invalidIdentityOperation s!"{label} is empty, non-canonical, or too long")

/-- The join that `reauthorize_mapped_configure` asks twice: a mapping of the current policy, valid
for the identity as it is now, decides `project_configure` in this way. -/
def mappedDecision (s : RoleStore) (projectId identityId : Uuid) (generation : ℤ)
    (decision : GrantDecision) : Bool :=
  decide (s.projectPolicies.lookup projectId = some generation) &&
    s.mappings.any fun key mapping =>
      decide (key.1 = projectId) && decide (key.2.1 = generation) &&
        decide (mapping.targetIdentityId = identityId) &&
        decide (s.configureGrants.lookup key = some decision) &&
        (s.policyVersions.lookup (projectId, generation)).any fun sourceRealmDigest =>
          (s.identities.lookup identityId).any fun identity =>
            decide (identity.lifecycleState = .active) &&
              decide (identity.lifecycleGeneration = mapping.targetLifecycleGeneration) &&
              decide (identity.groupGeneration = mapping.targetGroupGeneration) &&
              decide (identity.providerId = mapping.targetProviderId) &&
              decide (identity.externalSubject = mapping.targetExternalSubject) &&
              (decide (identity.kind = .service) || (decide (identity.kind = .human) &&
                  decide (identity.sourceRealmDigest = some sourceRealmDigest) &&
                  decide (identity.sourceIdentityId = some mapping.sourceIdentityId) &&
                  decide (identity.sourceMembershipGeneration =
                    some mapping.sourceMembershipGeneration) &&
                  decide (identity.aliasHistory = mapping.sourceAliasHistory) &&
                  decide (identity.provenanceDigest = some mapping.targetProvenanceDigest)))

def reauthorizeMappedConfigure (s : RoleStore) (projectId identityId : Uuid)
    (expectedGeneration : ℤ) : Except RoleError Unit := do
  refuseIf (s.projectPolicies.lookup projectId ≠ some expectedGeneration)
    (denied "the project's imported authorization policy changed after the caller authenticated")
  refuseIf (mappedDecision s projectId identityId expectedGeneration .allow = false)
    (denied "the caller's imported ProjectConfigure grant is no longer current")
  refuseIf (mappedDecision s projectId identityId expectedGeneration .deny = true)
    (denied "the caller's imported ProjectConfigure decision is denied under the current policy")

/-- Whether a session passes the whole predicate of authentication. -/
def sessionLive (clock : Clock) (s : RoleStore) (sessionId : Uuid) : Bool :=
  (s.sessions.lookup sessionId).any fun session =>
    (s.identities.lookup session.identityId).any fun identity =>
      (identity.providerId.bind s.providers.lookup).any fun provider =>
        session.revokedAtUnixMs.isNone &&
          decide (clock.sessionUnixMs < session.expiresAtUnixMs) &&
          decide (identity.lifecycleState = .active) &&
          decide (session.identityLifecycleGeneration = identity.lifecycleGeneration) &&
          decide (session.groupGeneration = identity.groupGeneration) &&
          provider.enabled &&
          decide (session.providerConfigurationGeneration = provider.configurationGeneration) &&
          decide (session.providerJwksGeneration = provider.jwksGeneration)

/-- Whether a service credential is neither revoked nor expired. -/
def credentialLive (clock : Clock) (s : RoleStore) (credentialId : Uuid) : Bool :=
  (s.serviceCredentials.lookup credentialId).any fun credential =>
    credential.revokedAtUnixMs.isNone &&
      credential.expiresAtUnixMs.all fun expiry => decide (clock.credentialUnixMs < expiry)

/-- The session check of `DurableCaller::revalidate`.  A session of an identity without a provider
fails to decode. -/
def DurableCaller.revalidateSession (caller : DurableCaller) (clock : Clock) (s : RoleStore) :
    Except RoleError Unit :=
  match caller.sessionId with
  | none => .ok ()
  | some sessionId =>
    match (s.sessions.lookup sessionId).filter fun session =>
        decide (session.identityId = caller.identityId) &&
          (s.identities.lookup caller.identityId).isSome with
    | none => .error (denied "the caller's session is unknown")
    | some _ => do
      refuseIf ((s.identities.lookup caller.identityId).all fun row => row.providerId.isNone)
        .database
      refuseIf (sessionLive clock s sessionId = false)
        (denied ("the caller's session was revoked or fenced after it authenticated; " ++
          "sign in again"))

/-- The credential check of `DurableCaller::revalidate`. -/
def DurableCaller.revalidateCredential (caller : DurableCaller) (clock : Clock) (s : RoleStore) :
    Except RoleError Unit :=
  match caller.serviceCredentialId with
  | none => .ok ()
  | some credentialId =>
    refuseIf (credentialLive clock s credentialId = false)
      (denied "the caller's service credential was revoked after it authenticated")

/-- `DurableCaller::revalidate`. -/
def DurableCaller.revalidate (caller : DurableCaller) (clock : Clock) (s : RoleStore) :
    Except RoleError Unit := do
  refuseIf
    (((s.identities.lookup caller.identityId).filter fun row =>
      decide (row.lifecycleState = .active)).map IdentityRow.lifecycleGeneration ≠
        some caller.lifecycleGeneration)
    (denied "the caller's identity was fenced after it authenticated; sign in again")
  caller.revalidateSession clock s
  caller.revalidateCredential clock s

/-- `MembershipAuthority::resolve`. -/
def MembershipAuthority.resolve (clock : Clock) (s : RoleStore) (projectId : Uuid) :
    MembershipAuthority → Except RoleError ResolvedAuthority
  | .bootstrap => .ok ⟨none, none⟩
  | .delegated none none => .ok ⟨some .admin, none⟩
  | .delegated none (some policyGeneration) => do
    refuseIf (s.projectPolicies.lookup projectId ≠ some policyGeneration)
      (denied "the caller's imported policy generation is no longer current")
    return ⟨some .admin, none⟩
  | .delegated (some caller) none => do
    caller.revalidate clock s
    return ⟨some .admin, some caller.identityId⟩
  | .delegated (some caller) (some policyGeneration) => do
    reauthorizeMappedConfigure s projectId caller.identityId policyGeneration
    caller.revalidate clock s
    return ⟨some .admin, some caller.identityId⟩
  | .principal caller => do
    caller.revalidate clock s
    match s.currentRole projectId caller.identityId with
    | none => throw (denied "the caller holds no role in the project")
    | some role => return ⟨some role, some caller.identityId⟩

def lockMappedPolicyIfNeeded (s : RoleStore) (projectId : Uuid) :
    MembershipAuthority → Except RoleError Unit
  | .bootstrap => .ok ()
  | .delegated _ (some _) => .ok ()
  | .delegated _ none => refuseUnmapped
  | .principal _ => refuseUnmapped
where
  /-- A caller that claimed no imported policy is refused once one is current. -/
  refuseUnmapped : Except RoleError Unit :=
    refuseIf ((s.projectPolicies.lookup projectId).isSome)
      (denied ("the project gained an imported authorization policy after the caller " ++
        "authenticated; retry"))

/-! ## Writing the tables -/

def requireMembershipPrecondition (expectedMembershipRevision currentMembershipRevision : Option ℤ) :
    Except RoleError Unit :=
  match expectedMembershipRevision with
  | none => .ok ()
  | some expected => do
    refuseIf (expected < 0)
      (.invalidIdentityOperation "membership If-Match revision must be non-negative")
    refuseIf (currentMembershipRevision.getD 0 ≠ expected)
      (.membershipPreconditionFailed (currentMembershipRevision.getD 0))

/-- The value a counter takes next; a `bigint` that would overflow fails the statement. -/
def nextBigint (value : ℤ) : Except RoleError ℤ := do
  refuseIf (value + 1 > i64Max) .database
  return value + 1

/-- The last revision issued for a membership, zero if none was. -/
def RoleStore.lastRevision (s : RoleStore) (projectId identityId : Uuid) : ℤ :=
  (s.revisionCounters.lookup (projectId, identityId)).getD 0

/-- `allocate_membership_revision`: inserts the counter at one, or advances it. -/
def RoleStore.allocateMembershipRevision (s : RoleStore) (projectId identityId : Uuid) :
    Except RoleError (RoleStore × ℤ) := do
  let revision ← nextBigint (s.lastRevision projectId identityId)
  return ({ s with
    revisionCounters := s.revisionCounters.insert (projectId, identityId) revision }, revision)

def RoleStore.fenceIdentitySessions (s : RoleStore) (identityId : Uuid) :
    Except RoleError (RoleStore × ℤ) :=
  match s.identities.lookup identityId with
  | none => .error (.identityConflict "identity is unknown")
  | some row => do
    let generation ← nextBigint row.lifecycleGeneration
    return ({ s with
      identities := s.identities.insert identityId
        { row with lifecycleGeneration := generation } }, generation)

/-- The fence a change of role applies: a demotion fences, a promotion does not. -/
def RoleStore.fenceIfDemoted (s : RoleStore) (identityId : Uuid) (existing role : ProjectRole) :
    Except RoleError (RoleStore × Option ℤ) :=
  if role < existing then do
    let fenced ← s.fenceIdentitySessions identityId
    return (fenced.1, some fenced.2)
  else
    .ok (s, none)

/-- Stores a membership row; the time of the grant must not lie before the epoch. -/
def RoleStore.storeMembership (s : RoleStore) (projectId identityId : Uuid) (row : MembershipRow) :
    Except RoleError RoleStore := do
  refuseIf (row.grantedAtUnixMs < 0) .database
  return { s with memberships := s.memberships.insert (identityId, projectId) row }

/-- The checks of a grant against the role of its authority. -/
def authorizeGrant (actorRole : Option ProjectRole) (role : ProjectRole) (owners : ℕ)
    (previous : Option ProjectRole) : Except RoleError Unit :=
  match actorRole with
  | none => .ok ()
  | some actorRole => do
    refuseIf (actorRole < .admin)
      (denied "granting a project role needs the Admin role or better")
    refuseIf (role = .owner ∧ owners = 0)
      (denied ("a project's first Owner is bootstrapped through the identity admin tool, " ++
        "not the API"))
    refuseIf ((role = .owner ∨ previous = some .owner) ∧ actorRole ≠ .owner)
      (denied "only an Owner may grant Owner or change an Owner's role")

/-- The checks of a revocation against the role of its authority. -/
def authorizeRevocation (actorRole : Option ProjectRole) (previous : ProjectRole) :
    Except RoleError Unit :=
  match actorRole with
  | none => .ok ()
  | some actorRole => do
    refuseIf (actorRole < .admin)
      (denied "revoking a project role needs the Admin role or better")
    refuseIf (previous = .owner ∧ actorRole ≠ .owner) (denied "only an Owner may revoke an Owner")

/-- Refuses to take the Owner role from the last active Owner of a project. -/
def RoleStore.requireOtherOwner (s : RoleStore) (projectId identityId : Uuid)
    (previous : ProjectRole) (message : String) : Except RoleError Unit :=
  refuseIf (previous = .owner ∧ s.activeOwnerCountExcluding projectId identityId = 0)
    (denied message)

/-- The membership a grant reports. -/
def ProjectRoleGrant.membership (grant : ProjectRoleGrant) (subject : String)
    (row : MembershipRow) : ProjectMembership where
  identityId := grant.identityId
  projectId := grant.projectId
  subject := subject
  role := row.role
  grantedBy := row.grantedBy
  grantedAtUnixMs := row.grantedAtUnixMs
  membershipRevision := row.membershipRevision

/-- The row a grant writes. -/
def ProjectRoleGrant.row (grant : ProjectRoleGrant) (clock : Clock) (revision : ℤ) :
    MembershipRow where
  role := grant.role
  grantedBy := grant.actorSubject
  grantedAtUnixMs := clock.nowUnixMs
  membershipRevision := revision

/-- The branch of `grant_project_role` for an identity that holds another role. -/
def ProjectRoleGrant.change (grant : ProjectRoleGrant) (clock : Clock) (s : RoleStore)
    (subject : String) (existing : ProjectRole) :
    Except RoleError (RoleStore × ProjectRoleGrantOutcome) := do
  s.requireOtherOwner grant.projectId grant.identityId existing
    "the last Owner of a project cannot be demoted"
  let allocated ← s.allocateMembershipRevision grant.projectId grant.identityId
  let stored ← allocated.1.storeMembership grant.projectId grant.identityId
    (grant.row clock allocated.2)
  let fenced ← stored.fenceIfDemoted grant.identityId existing grant.role
  return (fenced.1,
    .changed (grant.membership subject (grant.row clock allocated.2)) existing fenced.2)

/-- The branch of `grant_project_role` for an identity that holds no role. -/
def ProjectRoleGrant.begin (grant : ProjectRoleGrant) (clock : Clock) (s : RoleStore)
    (subject : String) : Except RoleError (RoleStore × ProjectRoleGrantOutcome) := do
  let allocated ← s.allocateMembershipRevision grant.projectId grant.identityId
  let stored ← allocated.1.storeMembership grant.projectId grant.identityId
    (grant.row clock allocated.2)
  return (stored, .granted (grant.membership subject (grant.row clock allocated.2)))

/-- The branches of `grant_project_role` on the role held before. -/
def ProjectRoleGrant.write (grant : ProjectRoleGrant) (clock : Clock) (s : RoleStore)
    (subject : String) : Except RoleError (RoleStore × ProjectRoleGrantOutcome) :=
  match s.membership grant.projectId grant.identityId with
  | some row =>
    if row.role = grant.role then
      .ok (s, .unchanged (grant.membership subject row))
    else
      grant.change clock s subject row.role
  | none => grant.begin clock s subject

def grantProjectRole (clock : Clock) (s : RoleStore) (grant : ProjectRoleGrant) :
    Except RoleError (RoleStore × ProjectRoleGrantOutcome) := do
  validateText grant.actorSubject "actor subject" 512
  validateText grant.reason "project role reason" 1024
  s.requireProject grant.projectId
  lockMappedPolicyIfNeeded s grant.projectId grant.authority
  let subject ← s.requireHumanIdentity grant.identityId
  requireMembershipPrecondition grant.expectedMembershipRevision
    (s.currentMembershipRevision grant.projectId grant.identityId)
  let authority ← grant.authority.resolve clock s grant.projectId
  authorizeGrant authority.role grant.role (s.ownerCount grant.projectId)
    (s.currentRole grant.projectId grant.identityId)
  grant.write clock s subject

def revokeProjectRole (clock : Clock) (s : RoleStore) (revocation : ProjectRoleRevocation) :
    Except RoleError (RoleStore × ProjectRoleRevocationOutcome) := do
  validateText revocation.actorSubject "actor subject" 512
  validateText revocation.reason "project role reason" 1024
  s.requireProject revocation.projectId
  lockMappedPolicyIfNeeded s revocation.projectId revocation.authority
  requireMembershipPrecondition revocation.expectedMembershipRevision
    (s.currentMembershipRevision revocation.projectId revocation.identityId)
  let previous ← heldRole
  let authority ← revocation.authority.resolve clock s revocation.projectId
  authorizeRevocation authority.role previous
  s.requireOtherOwner revocation.projectId revocation.identityId previous
    "the last Owner of a project cannot be revoked"
  let fenced ← RoleStore.fenceIdentitySessions { s with
    memberships := s.memberships.erase (revocation.identityId, revocation.projectId) }
      revocation.identityId
  return (fenced.1, ⟨revocation.identityId, revocation.projectId, previous, fenced.2⟩)
where
  /-- The role the identity holds. -/
  heldRole : Except RoleError ProjectRole :=
    match s.currentRole revocation.projectId revocation.identityId with
    | none => .error (.identityConflict "identity holds no role in the project")
    | some previous => .ok previous

/-! ## Lifecycle transitions -/

/-- `ensure_usable_owners_remain_after_deactivation`. -/
def RoleStore.ensureUsableOwnersRemain (s : RoleStore) (identityId : Uuid) :
    List Uuid → Except RoleError Unit
  | [] => .ok ()
  | projectId :: rest => do
    refuseIf (s.activeOwnerCountExcluding projectId identityId = 0)
      (.identityConflict
        "disabling or deleting this identity would leave a project with no usable Owner")
    s.ensureUsableOwnersRemain identityId rest

/-- Revokes the live service credentials of an identity. -/
def RoleStore.revokeCredentials (s : RoleStore) (clock : Clock) (identityId : Uuid) : RoleStore :=
  { s with
    serviceCredentials := s.serviceCredentials.update
      (fun _ row => decide (row.identityId = identityId) && row.revokedAtUnixMs.isNone)
      fun _ row => { row with revokedAtUnixMs := some (max row.issuedAtUnixMs clock.nowUnixMs) } }

/-- `transition_identity_lifecycle` on the identity's row.  The source reads the owned projects up
to three times and asks to retry when they differ; in one atomic call they are the same. -/
def RoleStore.transitionRow (clock : Clock) (s : RoleStore) (identityId : Uuid) (row : IdentityRow)
    (expectedGeneration : ℤ) (next : IdentityLifecycle) : Except RoleError (RoleStore × ℤ) := do
  refuseIf (row.lifecycleGeneration ≠ expectedGeneration)
    (.identityConflict "identity lifecycle generation is stale")
  refuseIf (row.lifecycleState = .deleted ∧ next ≠ .deleted)
    (.identityConflict "deleted identity cannot be reactivated or reused")
  if row.lifecycleState = next then
    return (s, row.lifecycleGeneration)
  else
    leave
where
  /-- The transition to another state. -/
  leave : Except RoleError (RoleStore × ℤ) := do
    s.ensureUsableOwnersRemain identityId
      (if row.lifecycleState = .active then s.ownerProjects identityId else [])
    refuseIf (row.lifecycleGeneration + 1 > i64Max)
      (.invalidIdentityOperation "identity generation overflow")
    refuseIf (({ row with lifecycleState := next } : IdentityRow).oidcShape = false) .database
    let moved := { s with
      identities := s.identities.insert identityId
        { row with
          lifecycleState := next
          lifecycleGeneration := row.lifecycleGeneration + 1 } }
    return (if row.lifecycleState = .active then moved.revokeCredentials clock identityId else moved,
      row.lifecycleGeneration + 1)

def transitionIdentityLifecycle (clock : Clock) (s : RoleStore) (identityId : Uuid)
    (expectedGeneration : ℤ) (next : IdentityLifecycle) (reason actorSubject : String) :
    Except RoleError (RoleStore × ℤ) := do
  validateText reason "identity lifecycle reason" 1024
  validateText actorSubject "actor subject" 512
  refuseIf (expectedGeneration ≤ 0)
    (.invalidIdentityOperation "expected identity generation must be positive")
  match s.identities.lookup identityId with
  | none => throw (.identityConflict "identity is unknown")
  | some row => s.transitionRow clock identityId row expectedGeneration next

end McLoving.Roles
