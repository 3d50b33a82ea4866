import McLoving.Objects.Protection
import McLoving.Lib.Except
import McLoving.Lib.History

/-!
# Deletion of protected content

A claim is made only of content that nothing protects, and while its row exists nothing new protects
it.
-/

namespace McLoving.ObjectStore

open Table

variable {o o' o'' : ObjectStore} {d : Digest} {op : ObjectOp}

/-- No organization has an active hold on the digest. -/
def NoActiveHold (o : ObjectStore) (d : Digest) : Prop :=
  ∀ id row, o.legalHolds.lookup id = some row → id.objectDigest = d → row.releasedAt ≠ none

/-- No reference to the digest is pending. -/
def NoPending (o : ObjectStore) (d : Digest) : Prop :=
  ∀ id row, o.attemptObjects.lookup id = some row → row.objectDigest = d → row.status ≠ .pending

/-- Every organization that refers to the digest has retention that has expired at the time. -/
def RetentionExpired (o : ObjectStore) (now : Timestamp) (d : Digest) : Prop :=
  ∀ id row, o.attemptObjects.lookup id = some row → row.objectDigest = d →
    ∃ retainUntil, o.objectRetention.lookup ⟨id.organizationId, d⟩ = some retainUntil ∧
      retainUntil ≤ now

/-- Nothing protects the digest. -/
structure Unprotected (o : ObjectStore) (now : Timestamp) (d : Digest) : Prop where
  hold : o.NoActiveHold d
  pending : o.NoPending d
  retention : o.RetentionExpired now d

theorem unprotected_of_isClaimable {now : Timestamp} (hclaimable : o.isClaimable now d = true) :
    o.Unprotected now d := by
  simp only [isClaimable, Bool.and_eq_true, Bool.not_eq_true', any_eq_false,
    Bool.and_eq_false_iff, decide_eq_false_iff_not] at hclaimable
  obtain ⟨⟨⟨⟨-, hpending⟩, hretention⟩, hhold⟩, -⟩ := hclaimable
  refine ⟨fun id row hrow hid => ?_, fun id row hrow hid => ?_, fun id row hrow hid => ?_⟩
  · exact (hhold id row hrow).resolve_left (not_not.mpr hid)
  · exact (hpending id row hrow).resolve_left (not_not.mpr hid)
  · have hexpired := (hretention id row hrow).resolve_left (not_not.mpr hid)
    rcases hlook : o.objectRetention.lookup ⟨id.organizationId, d⟩ with _ | retainUntil
    · simp [hlook] at hexpired
    · exact ⟨retainUntil, hlook, by simpa [hlook] using hexpired⟩

/-! ## A claim fences its digest -/

/-- Between the two stores the digest keeps its references and its retention, and no hold on it has
become active. -/
structure FencedFrom (o o' : ObjectStore) (d : Digest) : Prop where
  references : ∀ id row, row.objectDigest = d →
    (o'.attemptObjects.lookup id = some row ↔ o.attemptObjects.lookup id = some row)
  retention : ∀ organizationId, o'.objectRetention.lookup ⟨organizationId, d⟩ =
    o.objectRetention.lookup ⟨organizationId, d⟩
  holds : ∀ id row, o'.legalHolds.lookup id = some row → id.objectDigest = d →
    row.releasedAt = none → o.legalHolds.lookup id = some row

namespace FencedFrom

theorem refl (o : ObjectStore) (d : Digest) : o.FencedFrom o d :=
  ⟨fun _ _ _ => .rfl, fun _ => rfl, fun _ _ hrow _ _ => hrow⟩

theorem trans (hfst : o.FencedFrom o' d) (hsnd : o'.FencedFrom o'' d) : o.FencedFrom o'' d where
  references id row hd := (hsnd.references id row hd).trans (hfst.references id row hd)
  retention organizationId := (hsnd.retention organizationId).trans (hfst.retention organizationId)
  holds id row hrow hd hactive := hfst.holds id row (hsnd.holds id row hrow hd hactive) hd hactive

theorem of_claims (hreferences : o'.attemptObjects = o.attemptObjects)
    (hretention : o'.objectRetention = o.objectRetention) (hholds : o'.legalHolds = o.legalHolds) :
    o.FencedFrom o' d :=
  ⟨fun _ _ _ => by rw [hreferences], fun _ => by rw [hretention], fun _ _ h _ _ => hholds ▸ h⟩

/-- What nothing protected before, nothing protects after. -/
theorem unprotected (hfenced : o.FencedFrom o' d) {now : Timestamp} (hold : o.Unprotected now d) :
    o'.Unprotected now d where
  hold id row hrow hd hactive := hold.hold id row (hfenced.holds id row hrow hd hactive) hd hactive
  pending id row hrow hd := hold.pending id row ((hfenced.references id row hd).mp hrow) hd
  retention id row hrow hd := by
    obtain ⟨retainUntil, hlook, hle⟩ :=
      hold.retention id row ((hfenced.references id row hd).mp hrow) hd
    exact ⟨retainUntil, (hfenced.retention _).trans hlook, hle⟩

end FencedFrom

/-- A claim refuses every write that would protect its digest. -/
theorem not_available_of_claim {row : DeletionClaimRow}
    (hclaim : o.objectDeletionClaims.lookup d = some row) :
    o.protectionWriteAvailable d = false := by
  simp [protectionWriteAvailable, hclaim]

section Fence

variable {row : DeletionClaimRow} (hclaim : o.objectDeletionClaims.lookup d = some row)
include hclaim

theorem registerObject_of_claim (tenant : Store) (now : Timestamp) (authority : LeaseAuthority)
    (kind : ObjectKind) (name : String) (bytes : ℤ) :
    o.registerObject tenant now authority kind name d bytes = (o, false) := by
  unfold registerObject
  simp [not_available_of_claim hclaim]

theorem retainObjectFor_of_claim (now : Timestamp) (organizationId : Uuid) (retentionSeconds : ℤ) :
    o.retainObjectFor now organizationId d retentionSeconds = (o, false) := by
  unfold retainObjectFor
  simp [not_available_of_claim hclaim]

theorem acquireLegalHold_of_claim (organizationId : Uuid) (holdKey reason : String) :
    o.acquireLegalHold organizationId d holdKey reason = (o, false) := by
  unfold acquireLegalHold
  simp [not_available_of_claim hclaim]

/-- A registration of other content leaves the digest's references. -/
theorem fencedFrom_registerObject (tenant : Store) (now : Timestamp) (authority : LeaseAuthority)
    (kind : ObjectKind) (name : String) (digest : Digest) (bytes : ℤ) :
    o.FencedFrom (o.registerObject tenant now authority kind name digest bytes).1 d := by
  by_cases hd : digest = d
  · rw [hd, registerObject_of_claim hclaim]
    exact .refl o d
  · unfold registerObject
    split_ifs
    · exact .refl o d
    · exact .refl o d
    · exact .refl o d
    simp only
    split
    · exact .refl o d
    · next hnone =>
      refine ⟨fun id row hrow => ?_, fun _ => rfl, fun _ _ h _ _ => h⟩
      constructor
      · intro hlook
        rcases lookup_insert_cases hlook with ⟨-, rfl⟩ | ⟨-, hlook⟩
        · exact absurd hrow hd
        · exact hlook
      · intro hlook
        refine (AList.lookup_insert_ne ?_).trans hlook
        rintro rfl
        simp [hnone] at hlook

/-- Retention of other content leaves the digest's retention. -/
theorem fencedFrom_retainObjectFor (now : Timestamp) (organizationId : Uuid) (digest : Digest)
    (retentionSeconds : ℤ) :
    o.FencedFrom (o.retainObjectFor now organizationId digest retentionSeconds).1 d := by
  by_cases hd : digest = d
  · rw [hd, retainObjectFor_of_claim hclaim]
    exact .refl o d
  · unfold retainObjectFor
    split_ifs
    · exact .refl o d
    · exact .refl o d
    · exact .refl o d
    refine ⟨fun _ _ _ => .rfl, fun organizationId' => ?_, fun _ _ h _ _ => h⟩
    refine AList.lookup_insert_ne fun heq => hd ?_
    exact (congrArg RetentionId.objectDigest heq).symm

/-- A hold on other content is not a hold on the digest. -/
theorem fencedFrom_acquireLegalHold (organizationId : Uuid) (digest : Digest)
    (holdKey reason : String) :
    o.FencedFrom (o.acquireLegalHold organizationId digest holdKey reason).1 d := by
  by_cases hd : digest = d
  · rw [hd, acquireLegalHold_of_claim hclaim]
    exact .refl o d
  · unfold acquireLegalHold
    split_ifs
    · exact .refl o d
    · exact .refl o d
    · exact .refl o d
    simp only
    split
    · exact .refl o d
    · refine ⟨fun _ _ _ => .rfl, fun _ => rfl, fun id row hlook hid _ => ?_⟩
      rcases lookup_insert_cases hlook with ⟨rfl, -⟩ | ⟨-, hlook⟩
      · exact absurd hid hd
      · exact hlook

end Fence

/-- A release ends a hold and begins none. -/
theorem fencedFrom_releaseLegalHold (now : Timestamp) (organizationId : Uuid) (digest : Digest)
    (holdKey : String) :
    o.FencedFrom (o.releaseLegalHold now organizationId digest holdKey).1 d := by
  unfold releaseLegalHold
  simp only
  split
  · refine ⟨fun _ _ _ => .rfl, fun _ => rfl, fun id row hlook _ hactive => ?_⟩
    rw [lookup_modify] at hlook
    split at hlook
    · obtain ⟨old, -, rfl⟩ := Option.map_eq_some_iff.mp hlook
      cases hactive
    · exact hlook
  · exact .refl o d

theorem moveClaim_rest (claim : ObjectDeletionClaim) (p : DeletionStatus → Bool)
    (f : DeletionClaimRow → DeletionClaimRow) : o.FencedFrom (o.moveClaim claim p f).1 d := by
  unfold moveClaim
  split
  · exact .of_claims rfl rfl rfl
  · exact .refl o d

/-- Every transaction leaves a claimed digest fenced. -/
theorem fencedFrom_step {row : DeletionClaimRow}
    (hclaim : o.objectDeletionClaims.lookup d = some row) (op : ObjectOp) :
    o.FencedFrom (o.step op) d := by
  cases op with
  | registerObject tenant now authority kind name digest bytes =>
    exact fencedFrom_registerObject hclaim tenant now authority kind name digest bytes
  | retainObjectFor now organizationId digest retentionSeconds =>
    exact fencedFrom_retainObjectFor hclaim now organizationId digest retentionSeconds
  | acquireLegalHold organizationId digest holdKey reason =>
    exact fencedFrom_acquireLegalHold hclaim organizationId digest holdKey reason
  | releaseLegalHold now organizationId digest holdKey =>
    exact fencedFrom_releaseLegalHold now organizationId digest holdKey
  | claimObject =>
    simp only [step, claimObject]
    split_ifs
    · exact .refl o d
    · exact .refl o d
    · exact .of_claims rfl rfl rfl
  | beginObjectDeletion => exact moveClaim_rest ..
  | completeObjectDeletion => exact moveClaim_rest ..
  | abandonObjectDeletion =>
    simp only [step, abandonObjectDeletion]
    split_ifs
    · exact .of_claims rfl rfl rfl
    · exact .refl o d

open Option AList History

/-! ## How a claim moves -/

/-- The claim that a transaction presents. -/
def presentedClaim : ObjectOp → Option ObjectDeletionClaim
  | .beginObjectDeletion _ claim => some claim
  | .completeObjectDeletion _ claim => some claim
  | .abandonObjectDeletion claim => some claim
  | _ => none

/-- What a transaction makes of a claim row. -/
inductive ClaimMove (op : ObjectOp) (d : Digest) (row : DeletionClaimRow) :
    Option DeletionClaimRow → Prop
  | keep : ClaimMove op d row (some row)
  | begin {row' : DeletionClaimRow} (hop : presentedClaim op = some ⟨d, row.claimToken⟩)
      (hstatus : row.status ≠ .deleted) (hrow : row'.status = .deleting)
      (htoken : row'.claimToken = row.claimToken) : ClaimMove op d row (some row')
  | complete {row' : DeletionClaimRow} (hop : presentedClaim op = some ⟨d, row.claimToken⟩)
      (hstatus : row.status = .deleting) (hrow : row'.status = .deleted)
      (htoken : row'.claimToken = row.claimToken) : ClaimMove op d row (some row')
  | abandon (hop : presentedClaim op = some ⟨d, row.claimToken⟩)
      (hstatus : row.status = .claimed) : ClaimMove op d row none

variable {row : DeletionClaimRow} {clock : ℕ → Timestamp} {tokens : ℕ → Uuid}
variable {result : ObjectStore × List ObjectDeletionClaim}

/-- What a guarded change of a claim does to the digest's row. -/
theorem lookup_moveClaim (hclaim : o.objectDeletionClaims.lookup d = some row)
    (claim : ObjectDeletionClaim) (p : DeletionStatus → Bool)
    (f : DeletionClaimRow → DeletionClaimRow) :
    (o.moveClaim claim p f).1.objectDeletionClaims.lookup d =
      if claim = ⟨d, row.claimToken⟩ ∧ p row.status = true then some (f row) else some row := by
  unfold moveClaim
  by_cases hd : claim.digest = d
  · subst hd
    have hiff : claim = ⟨claim.digest, row.claimToken⟩ ↔ row.claimToken = claim.token := by
      rw [ObjectDeletionClaim.mk.injEq]
      exact ⟨fun h => h.2.symm, fun h => ⟨rfl, h.symm⟩⟩
    simp only [hclaim, any_some, Bool.and_eq_true, decide_eq_true_eq, hiff]
    split
    · exact (lookup_modify_of_eq hclaim _ _).trans (if_pos rfl)
    · exact hclaim
  · have hother : ¬ (claim = ⟨d, row.claimToken⟩ ∧ p row.status = true) := fun h =>
      hd (congrArg ObjectDeletionClaim.digest h.1)
    rw [if_neg hother]
    split
    · exact (lookup_modify ..).trans ((if_neg (Ne.symm hd)).trans hclaim)
    · exact hclaim

/-- Every transaction moves a claim in one of the ways of `ClaimMove`. -/
theorem claimMove_step (hclaim : o.objectDeletionClaims.lookup d = some row) (op : ObjectOp) :
    ClaimMove op d row ((o.step op).objectDeletionClaims.lookup d) := by
  have hkeep {o' : ObjectStore} (hlook : o'.objectDeletionClaims.lookup d = some row) :
      ClaimMove op d row (o'.objectDeletionClaims.lookup d) := by
    rw [hlook]
    exact .keep
  have hsame {o' : ObjectStore} (heq : o'.objectDeletionClaims = o.objectDeletionClaims) :
      ClaimMove op d row (o'.objectDeletionClaims.lookup d) :=
    hkeep (by rw [heq, hclaim])
  cases op with
  | registerObject =>
    refine hsame ?_
    simp only [step, registerObject]
    split_ifs <;> [rfl; rfl; rfl; split <;> rfl]
  | retainObjectFor =>
    refine hsame ?_
    simp only [step, retainObjectFor]
    split_ifs <;> rfl
  | acquireLegalHold =>
    refine hsame ?_
    simp only [step, acquireLegalHold]
    split_ifs <;> [rfl; rfl; rfl; split <;> rfl]
  | releaseLegalHold =>
    refine hsame ?_
    simp only [step, releaseLegalHold]
    split_ifs <;> rfl
  | claimObject _ _ claim =>
    simp only [step, claimObject]
    split_ifs with hclaimable
    · exact hsame rfl
    · exact hsame rfl
    · have hne : d ≠ claim.digest := by
        rintro rfl
        simp [isClaimable, hclaim] at hclaimable
      exact hkeep ((lookup_insert_ne hne).trans hclaim)
  | beginObjectDeletion =>
    simp only [step, beginObjectDeletion, lookup_moveClaim hclaim]
    split_ifs with hmoves
    · obtain ⟨rfl, hstatus⟩ := hmoves
      refine .begin rfl ?_ rfl rfl
      intro hdeleted
      simp [hdeleted] at hstatus
    · exact .keep
  | completeObjectDeletion =>
    simp only [step, completeObjectDeletion, lookup_moveClaim hclaim]
    split_ifs with hmoves
    · obtain ⟨rfl, hstatus⟩ := hmoves
      exact .complete rfl (by simpa using hstatus) rfl rfl
    · exact .keep
  | abandonObjectDeletion claim =>
    simp only [step, abandonObjectDeletion]
    split_ifs with hmoves
    · by_cases hd : claim.digest = d
      · subst hd
        simp only [hclaim, any_some, Bool.and_eq_true, decide_eq_true_eq] at hmoves
        rw [lookup_erase]
        exact .abandon (by rw [presentedClaim, hmoves.1]) hmoves.2
      · exact hkeep ((lookup_erase_ne (Ne.symm hd)).trans hclaim)
    · exact hsame rfl

/-- A new claim row comes from a claim of unprotected content. -/
theorem claimed_of_step (hnone : o.objectDeletionClaims.lookup d = none)
    (hrow : (o.step op).objectDeletionClaims.lookup d = some row) :
    ∃ now claimedAt, op = .claimObject now claimedAt ⟨d, row.claimToken⟩ ∧
      row.status = .claimed ∧ o.Unprotected now d := by
  have hmoved {claim : ObjectDeletionClaim} {p : DeletionStatus → Bool}
      {f : DeletionClaimRow → DeletionClaimRow} :
      (o.moveClaim claim p f).1.objectDeletionClaims.lookup d = none := by
    unfold moveClaim
    split
    · rw [lookup_modify]
      split
      · next heq => rw [hnone, map_none]
      · exact hnone
    · exact hnone
  have habsurd {o' : ObjectStore} (hlook : o'.objectDeletionClaims.lookup d = none)
      (hrow : o'.objectDeletionClaims.lookup d = some row) : False := by
    rw [hlook] at hrow
    cases hrow
  cases op with
  | registerObject =>
    refine (habsurd ?_ hrow).elim
    simp only [step, registerObject]
    split_ifs <;> [exact hnone; exact hnone; exact hnone; split <;> exact hnone]
  | retainObjectFor =>
    refine (habsurd ?_ hrow).elim
    simp only [step, retainObjectFor]
    split_ifs <;> exact hnone
  | acquireLegalHold =>
    refine (habsurd ?_ hrow).elim
    simp only [step, acquireLegalHold]
    split_ifs <;> [exact hnone; exact hnone; exact hnone; split <;> exact hnone]
  | releaseLegalHold =>
    refine (habsurd ?_ hrow).elim
    simp only [step, releaseLegalHold]
    split_ifs <;> exact hnone
  | claimObject now claimedAt =>
    simp only [step, claimObject] at hrow
    split_ifs at hrow with hclaimable
    · exact (habsurd hnone hrow).elim
    · exact (habsurd hnone hrow).elim
    · rcases lookup_insert_cases hrow with ⟨rfl, rfl⟩ | ⟨-, hrow⟩
      · refine ⟨now, claimedAt, rfl, rfl, unprotected_of_isClaimable ?_⟩
        simpa using hclaimable
      · exact (habsurd hnone hrow).elim
  | beginObjectDeletion => exact (habsurd hmoved hrow).elim
  | completeObjectDeletion => exact (habsurd hmoved hrow).elim
  | abandonObjectDeletion claim =>
    refine (habsurd ?_ hrow).elim
    simp only [step, abandonObjectDeletion]
    split_ifs
    · by_cases hd : d = claim.digest
      · rw [hd, lookup_erase]
      · exact (lookup_erase_ne hd).trans hnone
    · exact hnone

/-- The tables at the end of a history of transactions. -/
abbrev after (o : ObjectStore) (ops : List ObjectOp) : ObjectStore :=
  History.final step o ops

/-- The digest is claimed under the token. -/
def ClaimedUnder (o : ObjectStore) (d : Digest) (token : Uuid) : Prop :=
  ∃ row, o.objectDeletionClaims.lookup d = some row ∧ row.claimToken = token

theorem claimed_of_begin {token : Uuid} (hbefore : ¬ o.ClaimedUnder d token)
    (hafter : (o.step op).ClaimedUnder d token) :
    ∃ now claimedAt, op = .claimObject now claimedAt ⟨d, token⟩ ∧ o.Unprotected now d := by
  obtain ⟨row', hrow', rfl⟩ := hafter
  rcases hrow : o.objectDeletionClaims.lookup d with _ | row
  · obtain ⟨now, claimedAt, hop, -, hunprotected⟩ := claimed_of_step hrow hrow'
    exact ⟨now, claimedAt, hop, hunprotected⟩
  · -- The row of another token keeps that token.
    have hmove := claimMove_step hrow op
    rw [hrow'] at hmove
    refine absurd ⟨row, hrow, ?_⟩ hbefore
    cases hmove with
    | keep => rfl
    | begin _ _ _ htoken => exact htoken.symm
    | complete _ _ _ htoken => exact htoken.symm

/-- From its insertion on, whatever is claimed under the token is fenced. -/
theorem fencedFrom_of_claimed {token : Uuid} {ops : List ObjectOp}
    (hclaimed : ∀ k ≤ ops.length, (o.after (ops.take k)).ClaimedUnder d token) :
    o.FencedFrom (o.after ops) d := by
  induction ops generalizing o with
  | nil => exact .refl o d
  | cons op _ ih =>
    obtain ⟨row, hrow, -⟩ := hclaimed 0 (Nat.zero_le _)
    refine (fencedFrom_step hrow op).trans (ih fun k hk => ?_)
    exact hclaimed (k + 1) (Nat.succ_le_succ hk)

theorem fencedFrom_claimObject (now claimedAt : Timestamp) (claim : ObjectDeletionClaim) :
    o.FencedFrom (o.step (.claimObject now claimedAt claim)) d := by
  simp only [step, claimObject]
  split_ifs
  · exact .refl o d
  · exact .refl o d
  · exact .of_claims rfl rfl rfl

theorem claimCandidates_history {candidates : List (Digest × ℕ)}
    {made : ObjectStore × List ObjectDeletionClaim}
    (hok : candidates.foldlM (claimCandidate clock tokens) made = .ok result) :
    ∃ ops, result.1 = made.1.after ops ∧
      ∀ op ∈ ops, ∃ now claimedAt claim, op = .claimObject now claimedAt claim := by
  induction candidates generalizing made with
  | nil => exact ⟨[], by rw [← Except.ok.inj hok]; rfl, by simp⟩
  | cons candidate _ ih =>
    obtain ⟨digest, i⟩ := candidate
    rw [List.foldlM_cons] at hok
    obtain ⟨mid, hfst, hok⟩ := Except.bind_eq_ok.mp hok
    obtain ⟨⟨claimed, inserted⟩, hclaim, hfst⟩ := Except.bind_eq_ok.mp hfst
    obtain ⟨ops, hresult, hops⟩ := ih hok
    refine ⟨.claimObject (clock (2 * i + 1)) (clock (2 * i + 2)) ⟨digest, tokens i⟩ :: ops, ?_, ?_⟩
    · rw [hresult, ← Except.ok.inj hfst, after, after, final_cons, step, hclaim]
      rfl
    · intro op hmem
      rcases List.mem_cons.mp hmem with rfl | hmem
      · exact ⟨_, _, _, rfl⟩
      · exact hops op hmem

/-- The sweep for deletable content is a history of claims. -/
theorem claimObjectsGloballyForDeletion_history {limit : ℤ}
    (hok : o.claimObjectsGloballyForDeletion clock tokens limit = .ok result) :
    ∃ ops, result.1 = o.after ops ∧
      ∀ op ∈ ops, ∃ now claimedAt claim, op = .claimObject now claimedAt claim := by
  unfold claimObjectsGloballyForDeletion at hok
  split at hok
  · exact ⟨[], by rw [← Except.ok.inj hok]; rfl, by simp⟩
  · exact claimCandidates_history hok

/-- **Protected content is never deleted.**  After every history, a claim of a digest was made when
no organization held it, no reference to it was pending and the retention of every organization that
refers to it had expired, and at every later point its references and its retention were the same
and no hold was active.  While the claim exists no reference, retention or hold is added; a deletion
that has begun can only be completed, a completed one is permanent, and a claim moves only under its
own token. -/
theorem protected_content_never_deleted (o : ObjectStore) (d : Digest)
    (hstart : o.objectDeletionClaims.lookup d = none) (ops : List ObjectOp)
    {row : DeletionClaimRow} (hrow : (o.after ops).objectDeletionClaims.lookup d = some row) :
    (∃ before now claimedAt later,
      ops = before ++ .claimObject now claimedAt ⟨d, row.claimToken⟩ :: later ∧
      (o.after before).Unprotected now d ∧
      ∀ k ≤ later.length,
        let u := o.after (before ++ .claimObject now claimedAt ⟨d, row.claimToken⟩ :: later.take k)
        u.Unprotected now d ∧ (o.after before).FencedFrom u d) ∧
    ((∀ tenant now authority kind name bytes,
        (o.after ops).registerObject tenant now authority kind name d bytes =
          (o.after ops, false)) ∧
      (∀ now organizationId retentionSeconds,
        (o.after ops).retainObjectFor now organizationId d retentionSeconds =
          (o.after ops, false)) ∧
      ∀ organizationId holdKey reason,
        (o.after ops).acquireLegalHold organizationId d holdKey reason = (o.after ops, false)) ∧
    ∀ op, (row.status = .deleting → ∃ row',
        ((o.after ops).step op).objectDeletionClaims.lookup d = some row' ∧
          row'.claimToken = row.claimToken ∧
          (row'.status = .deleting ∨ row'.status = .deleted)) ∧
      (row.status = .deleted → ((o.after ops).step op).objectDeletionClaims.lookup d = some row) ∧
      (((o.after ops).step op).objectDeletionClaims.lookup d ≠ some row →
        presentedClaim op = some ⟨d, row.claimToken⟩) := by
  refine ⟨?_, ⟨fun _ _ _ _ _ _ => registerObject_of_claim hrow .., fun _ _ _ =>
    retainObjectFor_of_claim hrow .., fun _ _ _ => acquireLegalHold_of_claim hrow ..⟩, fun op => ?_⟩
  · have hfree : ¬ o.ClaimedUnder d row.claimToken := by
      rintro ⟨row', hrow', -⟩
      simp [hstart] at hrow'
    obtain ⟨before, op, later, rfl, hbefore, hafter⟩ :=
      exists_begin (p := fun u : ObjectStore => u.ClaimedUnder d row.claimToken) hfree
        ⟨row, hrow, rfl⟩
    have hbegin : ((o.after before).step op).ClaimedUnder d row.claimToken := by
      simpa using hafter 0 (Nat.zero_le _)
    obtain ⟨now, claimedAt, rfl, hunprotected⟩ := claimed_of_begin hbefore hbegin
    refine ⟨before, now, claimedAt, later, rfl, hunprotected, fun k hk => ?_⟩
    let claim : ObjectOp := .claimObject now claimedAt ⟨d, row.claimToken⟩
    have hclaimed : ∀ j ≤ (later.take k).length,
        (((o.after before).step claim).after ((later.take k).take j)).ClaimedUnder d
          row.claimToken := by
      intro j hj
      have hj' : j ≤ k ∧ j ≤ later.length := by simpa using hj
      have hstill := hafter j hj'.2
      rw [List.take_take, Nat.min_eq_left hj'.1]
      simpa only [final_append, final_cons] using hstill
    have hfenced : (o.after before).FencedFrom (o.after (before ++ claim :: later.take k)) d := by
      simp only [after, final_append, final_cons]
      exact (fencedFrom_claimObject now claimedAt _).trans (fencedFrom_of_claimed hclaimed)
    exact ⟨hfenced.unprotected hunprotected, hfenced⟩
  · have hmove := claimMove_step hrow op
    generalize ((o.after ops).step op).objectDeletionClaims.lookup d = next at hmove ⊢
    cases hmove with
    | keep => exact ⟨fun h => ⟨row, rfl, rfl, .inl h⟩, fun _ => rfl, fun h => absurd rfl h⟩
    | @begin row' hop hstatus hdeleting htoken =>
      exact ⟨fun _ => ⟨row', rfl, htoken, .inl hdeleting⟩, fun h => absurd h hstatus, fun _ => hop⟩
    | @complete row' hop hstatus hdeleted htoken =>
      exact ⟨fun _ => ⟨row', rfl, htoken, .inr hdeleted⟩, fun h => by simp [hstatus] at h,
        fun _ => hop⟩
    | abandon hop hstatus =>
      exact ⟨fun h => by simp [hstatus] at h, fun h => by simp [hstatus] at h, fun _ => hop⟩

namespace Sample

/-- A digest. -/
def digest : Digest := .replicate 1

/-- Organization 1 has published a result, with retention until time 3. -/
def published : ObjectStore where
  attemptObjects := AList.insert ⟨1, 102, 1, .result, "r"⟩ ⟨digest, 0, .available⟩ ∅
  objectRetention := AList.insert ⟨1, digest⟩ 3 ∅
  legalHolds := ∅
  objectDeletionClaims := ∅

/-- The result is claimed at time 5, and its deletion begins. -/
def deletion : List ObjectOp :=
  [.claimObject 5 5 ⟨digest, 7⟩, .beginObjectDeletion 6 ⟨digest, 7⟩]

end Sample

open Sample in
/-- The sample deletion has begun on content that nothing protected at time 5. -/
theorem protected_content_never_deleted_published : ∃ before now claimedAt later,
      deletion = before ++ .claimObject now claimedAt ⟨digest, 7⟩ :: later ∧
        (published.after before).Unprotected now digest := by
  have hstart : published.objectDeletionClaims.lookup digest = none := by decide +kernel
  have hrow : (published.after deletion).objectDeletionClaims.lookup digest =
      some ⟨7, .deleting, 5, some 6, none⟩ := by decide +kernel
  obtain ⟨before, now, claimedAt, later, hops, hunprotected, -⟩ :=
    (protected_content_never_deleted published digest hstart deletion hrow).1
  exact ⟨before, now, claimedAt, later, hops, hunprotected⟩

end McLoving.ObjectStore
