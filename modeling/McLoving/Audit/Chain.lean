import McLoving.Domain.Primitives
import McLoving.Lib.Except
import McLoving.Lib.History

/-!
# The tenant audit chain

The bytes that `hash_event` hashes determine the event, so a chain is determined by its head, as far
as SHA-256 does not collide.  Verified pages that continue each other add up to a verified export.
-/

namespace McLoving.Audit

/-- What the chain uses of payloads. -/
class AuditPayload (V : Type) where
  /-- `serde_json::to_vec`. -/
  toVec : V → List UInt8

structure AuditEvent (V : Type) where
  sequence : ℤ
  eventId : Uuid
  category : String
  actorSubject : String
  action : String
  subject : String
  payload : V
  occurredAtUnixMs : ℤ
  previousHash : Digest
  eventHash : Digest
  deriving DecidableEq

structure AuditRetentionPolicy where
  retainUntilUnixMs : ℤ
  legalHold : Bool
  deriving DecidableEq

/-- The errors of the audit functions. -/
inductive AuditError where
  /-- A query without its row, or a violated constraint. -/
  | database
  | invalidAuditOperation (message : String)
  | corruptAuditChain (organizationId : Uuid) (sequence : ℤ)
  deriving DecidableEq

def zeroHash : Digest :=
  Digest.replicate 0

def maxAuditExport : ℕ := 100000

variable {V : Type}

/-! ## The encoding -/

section Encoding

variable [AuditPayload V]

/-- The bytes of a text. -/
def textBytes (text : String) : List UInt8 :=
  text.toUTF8.toList

/-- The ranges of the fields' types. -/
structure AuditEvent.Fits (event : AuditEvent V) : Prop where
  sequence : -2 ^ 63 ≤ event.sequence ∧ event.sequence < 2 ^ 63
  eventId : event.eventId < 2 ^ 128
  category : (textBytes event.category).length < 2 ^ 64
  actorSubject : (textBytes event.actorSubject).length < 2 ^ 64
  action : (textBytes event.action).length < 2 ^ 64
  subject : (textBytes event.subject).length < 2 ^ 64
  payload : (AuditPayload.toVec event.payload).length < 2 ^ 64
  occurredAtUnixMs : -2 ^ 63 ≤ event.occurredAtUnixMs ∧ event.occurredAtUnixMs < 2 ^ 63

/-- What `hash_event` feeds to the hasher. -/
def eventBytes (organizationId : Uuid) (sequence : ℤ) (eventId : Uuid)
    (category actorSubject action subject : String) (payload : V) (occurredAtUnixMs : ℤ)
    (previousHash : Digest) : List UInt8 :=
  textBytes "mcloving-audit-v1\x00" ++ (Bytes.bigEndian 16 organizationId ++
    (Bytes.signed 8 sequence ++ (Bytes.bigEndian 16 eventId ++
    (Bytes.field (textBytes category) ++ (Bytes.field (textBytes actorSubject) ++
    (Bytes.field (textBytes action) ++ (Bytes.field (textBytes subject) ++
    (Bytes.field (AuditPayload.toVec payload) ++
    (Bytes.signed 8 occurredAtUnixMs ++ previousHash.bytes)))))))))

/-- The bytes of an event of an organization. -/
def AuditEvent.bytes (organizationId : Uuid) (event : AuditEvent V) : List UInt8 :=
  eventBytes organizationId event.sequence event.eventId event.category event.actorSubject
    event.action event.subject event.payload event.occurredAtUnixMs event.previousHash

variable [Platform]

def hashEvent (organizationId : Uuid) (sequence : ℤ) (eventId : Uuid)
    (category actorSubject action subject : String) (payload : V) (occurredAtUnixMs : ℤ)
    (previousHash : Digest) : Digest :=
  Platform.sha256 (eventBytes organizationId sequence eventId category actorSubject action subject
    payload occurredAtUnixMs previousHash)

def computeAuditEventHash (organizationId : Uuid) (event : AuditEvent V) : Digest :=
  hashEvent organizationId event.sequence event.eventId event.category event.actorSubject
    event.action event.subject event.payload event.occurredAtUnixMs event.previousHash

end Encoding

/-! ## Exports and pages -/

structure AuditExport (V : Type) [AuditPayload V] where
  organizationId : Uuid
  events : List (AuditEvent V)
  nextSequence : ℤ
  headHash : Digest
  retention : Option AuditRetentionPolicy
  fits : organizationId < 2 ^ 128 ∧ ∀ event ∈ events, event.Fits

structure AuditPage (V : Type) [AuditPayload V] where
  organizationId : Uuid
  afterSequence : ℤ
  previousHash : Digest
  events : List (AuditEvent V)
  nextAfterSequence : Option ℤ
  chainNextSequence : ℤ
  chainHeadHash : Digest
  retention : Option AuditRetentionPolicy
  fits : organizationId < 2 ^ 128 ∧ ∀ event ∈ events, event.Fits

section Verification

variable [AuditPayload V] [Platform]

/-- The checks of both loops on one event. -/
def checkEvent (organizationId : Uuid) (expectedSequence : ℤ) (previousHash : Digest)
    (event : AuditEvent V) : Except AuditError Unit := do
  if event.sequence ≠ expectedSequence || event.previousHash ≠ previousHash then
    throw (.corruptAuditChain organizationId event.sequence)
  if event.eventHash ≠ computeAuditEventHash organizationId event then
    throw (.corruptAuditChain organizationId event.sequence)

/-- The loop of `verify_audit_export`. -/
def verifyEvents (organizationId : Uuid) :
    ℤ → Digest → List (AuditEvent V) → Except AuditError (ℤ × Digest)
  | expectedSequence, previousHash, [] => .ok (expectedSequence, previousHash)
  | expectedSequence, previousHash, event :: rest => do
    checkEvent organizationId expectedSequence previousHash event
    verifyEvents organizationId (expectedSequence + 1) event.eventHash rest

def verifyAuditExport (exported : AuditExport V) : Except AuditError Unit := do
  let finish ← verifyEvents exported.organizationId 1 zeroHash exported.events
  if exported.nextSequence ≠ finish.1 || exported.headHash ≠ finish.2 then
    throw (.corruptAuditChain exported.organizationId finish.1)

omit [AuditPayload V] [Platform] in
/-- `checked_add(1)` of a page's sequence. -/
def checkedSucc (sequence : ℤ) : Except AuditError ℤ :=
  if sequence < i64Max then .ok (sequence + 1)
  else .error (.invalidAuditOperation "audit page sequence overflow")

/-- The loop of `verify_audit_page`. -/
def verifyPageEvents (organizationId : Uuid) :
    ℤ → Digest → List (AuditEvent V) → Except AuditError (ℤ × Digest)
  | expectedSequence, previousHash, [] => .ok (expectedSequence, previousHash)
  | expectedSequence, previousHash, event :: rest => do
    checkEvent organizationId expectedSequence previousHash event
    let next ← checkedSucc expectedSequence
    verifyPageEvents organizationId next event.eventHash rest

def verifyAuditPage (page : AuditPage V) : Except AuditError Unit := do
  let first ← checkedSucc page.afterSequence
  let finish ← verifyPageEvents page.organizationId first page.previousHash page.events
  match page.nextAfterSequence with
  | some cursor =>
    if page.events.getLast?.map AuditEvent.sequence ≠ some cursor ||
        page.chainNextSequence ≤ finish.1 then
      throw (.corruptAuditChain page.organizationId finish.1)
  | none =>
    if finish.1 ≠ page.chainNextSequence || finish.2 ≠ page.chainHeadHash then
      throw (.corruptAuditChain page.organizationId finish.1)

end Verification

open List Except Bytes

/-! ## The encoding -/

theorem digest_eq_of_bytes {digest digest' : Digest} (hsame : digest.bytes = digest'.bytes) :
    digest = digest' := by
  obtain ⟨bytes, hlength⟩ := digest
  obtain ⟨bytes', hlength'⟩ := digest'
  obtain rfl := hsame
  rfl

variable [AuditPayload V]

variable {organizationId : Uuid} {expectedSequence : ℤ} {previousHash : Digest}
variable {exported : AuditExport V}

variable {event : AuditEvent V} {events : List (AuditEvent V)} {finish : ℤ × Digest}
variable {pages : List (AuditPage V)}

/-- The hashed bytes determine the organization and every field of an event but its own hash. -/
theorem AuditEvent.bytes_injective {organizationId' : Uuid} {event' : AuditEvent V}
    (horganization : organizationId < 2 ^ 128) (horganization' : organizationId' < 2 ^ 128)
    (hfits : event.Fits) (hfits' : event'.Fits)
    (hpayload : AuditPayload.toVec event.payload = AuditPayload.toVec event'.payload →
      event.payload = event'.payload) (hhash : event.eventHash = event'.eventHash)
    (hsame : event.bytes organizationId = event'.bytes organizationId') :
    organizationId = organizationId' ∧ event = event' := by
  have hnat : (256 : ℕ) ^ 16 = 2 ^ 128 := by norm_num
  unfold AuditEvent.bytes eventBytes at hsame
  obtain ⟨-, hsame⟩ := append_inj hsame rfl
  obtain ⟨horg, hsame⟩ := append_inj hsame (by simp)
  obtain ⟨hsequence, hsame⟩ := append_inj hsame (by simp)
  obtain ⟨heventId, hsame⟩ := append_inj hsame (by simp)
  obtain ⟨hcategory, hsame⟩ := field_append_inj hfits.category hfits'.category hsame
  obtain ⟨hactor, hsame⟩ := field_append_inj hfits.actorSubject hfits'.actorSubject hsame
  obtain ⟨haction, hsame⟩ := field_append_inj hfits.action hfits'.action hsame
  obtain ⟨hsubject, hsame⟩ := field_append_inj hfits.subject hfits'.subject hsame
  obtain ⟨hvalue, hsame⟩ := field_append_inj hfits.payload hfits'.payload hsame
  obtain ⟨hoccurred, hprevious⟩ := append_inj hsame (by simp)
  refine ⟨bigEndian_injective (by rwa [hnat]) (by rwa [hnat]) horg, ?_⟩
  obtain ⟨⟩ := event
  obtain ⟨⟩ := event'
  simp only [AuditEvent.mk.injEq]
  exact ⟨signed_injective hfits.sequence hfits'.sequence hsequence,
    bigEndian_injective (by rw [hnat]; exact hfits.eventId) (by rw [hnat]; exact hfits'.eventId)
      heventId,
    Utf8.bytes_injective hcategory, Utf8.bytes_injective hactor, Utf8.bytes_injective haction,
    Utf8.bytes_injective hsubject, hpayload hvalue,
    signed_injective hfits.occurredAtUnixMs hfits'.occurredAtUnixMs hoccurred,
    digest_eq_of_bytes hprevious, hhash⟩

/-! ## Verification -/

variable [Platform]

/-- The hash chain of an organization's audit events. -/
def scheme (organizationId : Uuid) : HashChain.Scheme (AuditEvent V) Digest where
  sequence := AuditEvent.sequence
  previous := AuditEvent.previousHash
  digest := AuditEvent.eventHash
  compute := computeAuditEventHash organizationId

theorem checkEvent_eq_ok : checkEvent organizationId expectedSequence previousHash event = .ok () ↔
      event.sequence = expectedSequence ∧ event.previousHash = previousHash ∧
        event.eventHash = computeAuditEventHash organizationId event := by
  unfold checkEvent
  simp only [ite_throw_bind_eq_ok]
  split_ifs with hhash
  · simp [hhash]
  · simp_all [pure, Except.pure]

/-- The loop of `verify_audit_export` accepts the chains. -/
theorem verifyEvents_eq_ok :
    verifyEvents organizationId expectedSequence previousHash events = .ok finish ↔
      HashChain.Links (scheme organizationId) (expectedSequence, previousHash) events finish := by
  induction events generalizing expectedSequence previousHash with
  | nil => simp [verifyEvents, HashChain.Links]
  | cons _ _ ih =>
    simp only [verifyEvents, bind_eq_ok, ih, HashChain.Links]
    constructor
    · rintro ⟨⟨⟩, hcheck, hrest⟩
      obtain ⟨hsequence, hprevious, hhash⟩ := checkEvent_eq_ok.mp hcheck
      exact ⟨hsequence, hprevious, hhash, hrest⟩
    · rintro ⟨hsequence, hprevious, hhash, hrest⟩
      exact ⟨(), checkEvent_eq_ok.mpr ⟨hsequence, hprevious, hhash⟩, hrest⟩

theorem verifyAuditExport_eq_ok : verifyAuditExport exported = .ok () ↔
      HashChain.Links (scheme exported.organizationId) (1, zeroHash) exported.events
        (exported.nextSequence, exported.headHash) := by
  unfold verifyAuditExport
  rw [bind_eq_ok]
  constructor
  · rintro ⟨finish, hevents, hok⟩
    split_ifs at hok with hhead
    simp only [Bool.or_eq_true, decide_eq_true_eq, not_or, not_not] at hhead
    rw [hhead.1, hhead.2]
    exact verifyEvents_eq_ok.mp hevents
  · intro hlinks
    refine ⟨_, verifyEvents_eq_ok.mpr hlinks, ?_⟩
    simp [pure, Except.pure]

/-- The hashed bytes of the two exports' events do not collide, nor do the encodings of their
payloads. -/
structure CollisionFree (exported exported' : AuditExport V) : Prop where
  sha256 : ∀ event ∈ exported.events, ∀ event' ∈ exported'.events,
    Platform.sha256 (event.bytes exported.organizationId) =
      Platform.sha256 (event'.bytes exported'.organizationId) →
    event.bytes exported.organizationId = event'.bytes exported'.organizationId
  payload : ∀ event ∈ exported.events, ∀ event' ∈ exported'.events,
    AuditPayload.toVec event.payload = AuditPayload.toVec event'.payload →
      event.payload = event'.payload

theorem events_eq_of_head {exported' : AuditExport V}
    (hverified : verifyAuditExport exported = .ok ())
    (hverified' : verifyAuditExport exported' = .ok ()) (hfree : CollisionFree exported exported')
    (horganization : exported.organizationId = exported'.organizationId)
    (hsequence : exported.nextSequence = exported'.nextSequence)
    (hhead : exported.headHash = exported'.headHash) : exported.events = exported'.events := by
  have hlinks := verifyAuditExport_eq_ok.mp hverified
  have hlinks' := verifyAuditExport_eq_ok.mp hverified'
  rw [← horganization, ← hsequence, ← hhead] at hlinks'
  have hlength := hlinks.fst_eq
  have hlength' := hlinks'.fst_eq
  refine hlinks.eq_of_finish hlinks' (by omega) fun event hevent event' hevent' hhash hcompute => ?_
  rw [horganization] at hcompute
  have hbytes := hfree.sha256 event hevent event' hevent' (by rw [horganization]; exact hcompute)
  exact (AuditEvent.bytes_injective exported.fits.1 exported'.fits.1 (exported.fits.2 event hevent)
    (exported'.fits.2 event' hevent') (hfree.payload event hevent event' hevent') hhash hbytes).2

/-! ## Pages -/

omit [Platform] in
theorem checkedSucc_eq_ok {sequence next : ℤ} (hok : checkedSucc sequence = .ok next) :
    next = sequence + 1 := by
  unfold checkedSucc at hok
  split_ifs at hok
  exact (Except.ok.inj hok).symm

/-- The loop of `verify_audit_page` accepts chains only. -/
theorem links_of_verifyPageEvents
    (hok : verifyPageEvents organizationId expectedSequence previousHash events = .ok finish) :
    HashChain.Links (scheme organizationId) (expectedSequence, previousHash) events finish := by
  induction events generalizing expectedSequence previousHash with
  | nil => exact Except.ok.inj hok
  | cons _ _ ih =>
    simp only [verifyPageEvents, bind_eq_ok] at hok
    obtain ⟨⟨⟩, hcheck, next, hnext, hrest⟩ := hok
    obtain ⟨hsequence, hprevious, hhash⟩ := checkEvent_eq_ok.mp hcheck
    obtain rfl := checkedSucc_eq_ok hnext
    exact ⟨hsequence, hprevious, hhash, ih hrest⟩

/-- The pages of one organization from a cursor on, each verified: a page before the last one has a
cursor, and the next page continues from it and from the hash of its last event. -/
def Continues (organizationId : Uuid) : ℤ → Digest → List (AuditPage V) → Prop
  | _, _, [] => False
  | afterSequence, previousHash, page :: rest =>
    page.organizationId = organizationId ∧ page.afterSequence = afterSequence ∧
      page.previousHash = previousHash ∧ verifyAuditPage page = .ok () ∧
      if rest = [] then page.nextAfterSequence = none
      else ∃ cursor last, page.nextAfterSequence = some cursor ∧
        page.events.getLast? = some last ∧ Continues organizationId cursor last.eventHash rest

theorem links_of_verifyAuditPage {page : AuditPage V} (hok : verifyAuditPage page = .ok ()) :
    ∃ finish, HashChain.Links (scheme page.organizationId)
        (page.afterSequence + 1, page.previousHash) page.events finish ∧
      (page.nextAfterSequence = none → finish = (page.chainNextSequence, page.chainHeadHash)) ∧
      ∀ cursor, page.nextAfterSequence = some cursor →
        page.events.getLast?.map AuditEvent.sequence = some cursor := by
  unfold verifyAuditPage at hok
  simp only [bind_eq_ok] at hok
  obtain ⟨first, hfirst, finish, hevents, hok⟩ := hok
  obtain rfl := checkedSucc_eq_ok hfirst
  refine ⟨finish, links_of_verifyPageEvents hevents, fun hnone => ?_, fun cursor hcursor => ?_⟩
  · rw [hnone] at hok
    split_ifs at hok with hhead
    simp only [Bool.or_eq_true, decide_eq_true_eq, not_or, not_not] at hhead
    exact Prod.ext hhead.1 hhead.2
  · rw [hcursor] at hok
    by_contra hne
    simp [hne, throw, throwThe, MonadExceptOf.throw] at hok

/-- Verified pages that continue each other form one chain up to the head of the last one. -/
theorem links_of_continues {afterSequence : ℤ}
    (hcontinues : Continues organizationId afterSequence previousHash pages) :
    ∃ last, pages.getLast? = some last ∧
      HashChain.Links (scheme organizationId) (afterSequence + 1, previousHash)
        (pages.flatMap AuditPage.events) (last.chainNextSequence, last.chainHeadHash) := by
  induction pages generalizing afterSequence previousHash with
  | nil => exact hcontinues.elim
  | cons page _ ih =>
    obtain ⟨rfl, rfl, rfl, hverified, hrest⟩ := hcontinues
    obtain ⟨finish, hlinks, hend, hcursor⟩ := links_of_verifyAuditPage hverified
    rw [flatMap_cons]
    split_ifs at hrest with hlast
    · subst hlast
      refine ⟨page, rfl, ?_⟩
      rw [flatMap_nil, append_nil, ← hend hrest]
      exact hlinks
    · obtain ⟨cursor, final, hnext, hfinal, hcontinues⟩ := hrest
      obtain ⟨last, hgetLast, hlinks'⟩ := ih hcontinues
      refine ⟨last, ?_, HashChain.links_append.mpr ⟨finish, hlinks, ?_⟩⟩
      · rw [getLast?_cons, hgetLast]
        rfl
      · have hsequence := hcursor cursor hnext
        rw [hfinal] at hsequence
        obtain rfl := Option.some.inj hsequence
        rw [hlinks.finish_eq hfinal]
        exact hlinks'

/-- The concatenation of verified pages is a verified export. -/
theorem verifyAuditExport_of_continues {last : AuditPage V}
    (hcontinues : Continues exported.organizationId 0 zeroHash pages)
    (hlast : pages.getLast? = some last)
    (hevents : exported.events = pages.flatMap AuditPage.events)
    (hsequence : exported.nextSequence = last.chainNextSequence)
    (hhead : exported.headHash = last.chainHeadHash) : verifyAuditExport exported = .ok () := by
  obtain ⟨last', hlast', hlinks⟩ := links_of_continues hcontinues
  obtain rfl := Option.mem_unique hlast hlast'
  rw [verifyAuditExport_eq_ok, hevents, hsequence, hhead]
  exact hlinks

end McLoving.Audit
