import McLoving.Store.Lease

/-!
# Retention, legal holds and deletion

Content is shared by all organizations, so the deletion of a digest looks at the references, the
retention and the holds of every one of them.
-/

namespace McLoving

inductive ObjectKind where
  | log
  | artifact
  | result
  deriving DecidableEq

inductive ObjectStatus where
  | pending
  | available
  | missing
  | corrupt
  deriving DecidableEq

/-- The primary key of `attempt_objects`. -/
structure ObjectId where
  organizationId : Uuid
  attemptId : Uuid
  fence : ℤ
  kind : ObjectKind
  name : String
  deriving DecidableEq

/-- A row of `attempt_objects`. -/
structure ObjectRow where
  objectDigest : Digest
  bytes : ℤ
  status : ObjectStatus
  deriving DecidableEq

/-- The primary key of `object_retention`. -/
structure RetentionId where
  organizationId : Uuid
  objectDigest : Digest
  deriving DecidableEq

/-- The unique columns of `legal_holds`. -/
structure HoldId where
  organizationId : Uuid
  objectDigest : Digest
  holdKey : String
  deriving DecidableEq

/-- A row of `legal_holds`. -/
structure HoldRow where
  reason : String
  releasedAt : Option Timestamp
  deriving DecidableEq

/-- The status of a deletion claim. -/
inductive DeletionStatus where
  | claimed
  | deleting
  | deleted
  deriving DecidableEq

/-- A row of `object_deletion_claims`. -/
structure DeletionClaimRow where
  claimToken : Uuid
  status : DeletionStatus
  claimedAt : Timestamp
  deletionStartedAt : Option Timestamp
  completedAt : Option Timestamp
  deriving DecidableEq

/-- `ObjectDeletionClaim`: the authority of a deleter over one digest. -/
structure ObjectDeletionClaim where
  digest : Digest
  token : Uuid
  deriving DecidableEq

def maxObjectRetentionSeconds : ℤ := 100 * 365 * 24 * 60 * 60

/-- The tables about stored content, of all organizations. -/
structure ObjectStore where
  attemptObjects : Table ObjectId ObjectRow
  objectRetention : Table RetentionId Timestamp
  legalHolds : Table HoldId HoldRow
  objectDeletionClaims : Table Digest DeletionClaimRow

namespace ObjectStore

/-- `mcloving_guard_object_deletion_write`: a write that protects the digest is available. -/
def protectionWriteAvailable (o : ObjectStore) (digest : Digest) : Bool :=
  (o.objectDeletionClaims.lookup digest).isNone

/-- Whether the organization refers to the digest. -/
def isReferencedBy (o : ObjectStore) (organizationId : Uuid) (digest : Digest) : Bool :=
  o.attemptObjects.any fun id row => id.organizationId = organizationId && row.objectDigest = digest

/-! ## Protection -/

/-- `register_object`, under a lease of the organization's own database. -/
def registerObject (o : ObjectStore) (tenant : Store) (now : Timestamp)
    (authority : LeaseAuthority) (kind : ObjectKind) (name : String) (digest : Digest)
    (bytes : ℤ) : ObjectStore × Bool :=
  if name.isEmpty || name.utf8ByteSize > 512 || bytes < 0 then (o, false)
  else if !((tenant.attempts.lookup authority.attemptId).any fun attempt =>
      tenant.holdsLease authority attempt && attempt.leaseLive now &&
        attempt.status.isExecuting) then (o, false)
  else if !o.protectionWriteAvailable digest then (o, false)
  else
    let id : ObjectId := ⟨tenant.organizationId, authority.attemptId, authority.fence, kind, name⟩
    match o.attemptObjects.lookup id with
    | some row => (o, row.objectDigest = digest && row.bytes = bytes)
    | none =>
      ({ o with attemptObjects := o.attemptObjects.insert id ⟨digest, bytes, .available⟩ }, true)

def retainObjectFor (o : ObjectStore) (now : Timestamp) (organizationId : Uuid) (digest : Digest)
    (retentionSeconds : ℤ) : ObjectStore × Bool :=
  if !(0 ≤ retentionSeconds && retentionSeconds ≤ maxObjectRetentionSeconds) then (o, false)
  else if !o.isReferencedBy organizationId digest then (o, false)
  else if !o.protectionWriteAvailable digest then (o, false)
  else
    let id : RetentionId := ⟨organizationId, digest⟩
    let requested := now + seconds retentionSeconds
    let retainUntil := (o.objectRetention.lookup id).elim requested (max requested)
    ({ o with objectRetention := o.objectRetention.insert id retainUntil }, true)

def acquireLegalHold (o : ObjectStore) (organizationId : Uuid) (digest : Digest)
    (holdKey reason : String) : ObjectStore × Bool :=
  if holdKey.isEmpty || holdKey.utf8ByteSize > 256 || reason.isEmpty ||
      reason.utf8ByteSize > 1024 then (o, false)
  else if !o.isReferencedBy organizationId digest then (o, false)
  else if !o.protectionWriteAvailable digest then (o, false)
  else
    let id : HoldId := ⟨organizationId, digest, holdKey⟩
    match o.legalHolds.lookup id with
    | some row => (o, row.reason = reason && row.releasedAt = none)
    | none => ({ o with legalHolds := o.legalHolds.insert id ⟨reason, none⟩ }, true)

/-- `release_legal_hold`: a write that protects nothing, so the fence does not stop it. -/
def releaseLegalHold (o : ObjectStore) (now : Timestamp) (organizationId : Uuid)
    (digest : Digest) (holdKey : String) : ObjectStore × Bool :=
  let id : HoldId := ⟨organizationId, digest, holdKey⟩
  if (o.legalHolds.lookup id).any fun row => row.releasedAt = none then
    ({ o with legalHolds := o.legalHolds.modify id fun row =>
      { row with releasedAt := some now } }, true)
  else (o, false)

/-! ## Deletion -/

/-- What `claim_objects_globally_for_deletion` requires of a digest: some organization refers to it,
no reference is pending, every organization that refers to it has retention that has expired, no
hold is active and no claim exists. -/
def isClaimable (o : ObjectStore) (now : Timestamp) (digest : Digest) : Bool :=
  (o.attemptObjects.any fun _ row => row.objectDigest = digest) &&
    !(o.attemptObjects.any fun _ row => row.objectDigest = digest && row.status = .pending) &&
    !(o.attemptObjects.any fun id row => row.objectDigest = digest &&
      (o.objectRetention.lookup ⟨id.organizationId, digest⟩).all fun retainUntil =>
        now < retainUntil) &&
    !(o.legalHolds.any fun id row => id.objectDigest = digest && row.releasedAt = none) &&
    (o.objectDeletionClaims.lookup digest).isNone

/-- The re-checked insertion of one claim, under the digest's lock.  Tokens are unique. -/
def claimObject (o : ObjectStore) (now claimedAt : Timestamp) (claim : ObjectDeletionClaim) :
    Except StoreError (ObjectStore × Bool) :=
  if !o.isClaimable now claim.digest then .ok (o, false)
  else if o.objectDeletionClaims.any fun _ row => row.claimToken = claim.token then
    .error .database
  else
    let row : DeletionClaimRow := ⟨claim.token, .claimed, claimedAt, none, none⟩
    .ok ({ o with objectDeletionClaims := o.objectDeletionClaims.insert claim.digest row }, true)

/-- The candidates of `claim_objects_globally_for_deletion`. -/
def deletionCandidates (o : ObjectStore) (now : Timestamp) (limit : ℕ) : List Digest :=
  ((((o.attemptObjects.select fun _ row => o.isClaimable now row.objectDigest).map
    fun (_, row) => row.objectDigest).dedup).insertionSort
      fun left right => left.bytes ≤ right.bytes).take limit

/-- One candidate of `claim_objects_globally_for_deletion`, under its own lock. -/
def claimCandidate (clock : ℕ → Timestamp) (tokens : ℕ → Uuid)
    (made : ObjectStore × List ObjectDeletionClaim) (candidate : Digest × ℕ) :
    Except StoreError (ObjectStore × List ObjectDeletionClaim) := do
  let (digest, i) := candidate
  let claim : ObjectDeletionClaim := ⟨digest, tokens i⟩
  let (o, inserted) ← made.1.claimObject (clock (2 * i + 1)) (clock (2 * i + 2)) claim
  return (o, if inserted then made.2 ++ [claim] else made.2)

/-- `claim_objects_globally_for_deletion`, with the readings of the clock and the new tokens. -/
def claimObjectsGloballyForDeletion (o : ObjectStore) (clock : ℕ → Timestamp) (tokens : ℕ → Uuid)
    (limit : ℤ) : Except StoreError (ObjectStore × List ObjectDeletionClaim) :=
  if !(1 ≤ limit && limit ≤ 10000) then .ok (o, [])
  else (o.deletionCandidates (clock 0) limit.toNat).zipIdx.foldlM (claimCandidate clock tokens)
    (o, [])

/-- Changes the digest's claim if its token is the presented one and its status is as required. -/
def moveClaim (o : ObjectStore) (claim : ObjectDeletionClaim) (p : DeletionStatus → Bool)
    (f : DeletionClaimRow → DeletionClaimRow) : ObjectStore × Bool :=
  if (o.objectDeletionClaims.lookup claim.digest).any fun row =>
      row.claimToken = claim.token && p row.status then
    ({ o with objectDeletionClaims := o.objectDeletionClaims.modify claim.digest f }, true)
  else (o, false)

def beginObjectDeletion (o : ObjectStore) (now : Timestamp) (claim : ObjectDeletionClaim) :
    ObjectStore × Bool :=
  o.moveClaim claim (fun status => status = .claimed || status = .deleting) fun row =>
    { row with status := .deleting, deletionStartedAt := row.deletionStartedAt.or (some now) }

/-- `complete_object_deletion`, which also answers for a completed deletion. -/
def completeObjectDeletion (o : ObjectStore) (now : Timestamp) (claim : ObjectDeletionClaim) :
    ObjectStore × Bool :=
  let completed := o.moveClaim claim (fun status => status = .deleting) fun row =>
    { row with status := .deleted, completedAt := some now }
  (completed.1, completed.2 || (o.objectDeletionClaims.lookup claim.digest).any fun row =>
    row.claimToken = claim.token && row.status = .deleted)

def abandonObjectDeletion (o : ObjectStore) (claim : ObjectDeletionClaim) : ObjectStore × Bool :=
  if (o.objectDeletionClaims.lookup claim.digest).any fun row =>
      row.claimToken = claim.token && row.status = .claimed then
    ({ o with objectDeletionClaims := o.objectDeletionClaims.erase claim.digest }, true)
  else (o, false)

end ObjectStore

/-- One transaction about stored content.  A registration carries the organization's own database,
whose leases it reads. -/
inductive ObjectOp where
  | registerObject (tenant : Store) (now : Timestamp) (authority : LeaseAuthority)
      (kind : ObjectKind) (name : String) (digest : Digest) (bytes : ℤ)
  | retainObjectFor (now : Timestamp) (organizationId : Uuid) (digest : Digest)
      (retentionSeconds : ℤ)
  | acquireLegalHold (organizationId : Uuid) (digest : Digest) (holdKey reason : String)
  | releaseLegalHold (now : Timestamp) (organizationId : Uuid) (digest : Digest)
      (holdKey : String)
  | claimObject (now claimedAt : Timestamp) (claim : ObjectDeletionClaim)
  | beginObjectDeletion (now : Timestamp) (claim : ObjectDeletionClaim)
  | completeObjectDeletion (now : Timestamp) (claim : ObjectDeletionClaim)
  | abandonObjectDeletion (claim : ObjectDeletionClaim)

namespace ObjectStore

/-- The tables after a transaction.  The transaction of a refused claim leaves them as they were. -/
def step (o : ObjectStore) : ObjectOp → ObjectStore
  | .registerObject tenant now authority kind name digest bytes =>
    (o.registerObject tenant now authority kind name digest bytes).1
  | .retainObjectFor now organizationId digest retentionSeconds =>
    (o.retainObjectFor now organizationId digest retentionSeconds).1
  | .acquireLegalHold organizationId digest holdKey reason =>
    (o.acquireLegalHold organizationId digest holdKey reason).1
  | .releaseLegalHold now organizationId digest holdKey =>
    (o.releaseLegalHold now organizationId digest holdKey).1
  | .claimObject now claimedAt claim =>
    ((o.claimObject now claimedAt claim).toOption.map Prod.fst).getD o
  | .beginObjectDeletion now claim => (o.beginObjectDeletion now claim).1
  | .completeObjectDeletion now claim => (o.completeObjectDeletion now claim).1
  | .abandonObjectDeletion claim => (o.abandonObjectDeletion claim).1

end ObjectStore

end McLoving
