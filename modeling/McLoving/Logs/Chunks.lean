import McLoving.Safety.Ledger

/-!
# The stored log chunks

Appends of log chunks in any order, repeated or with stale authority, while everything else in the
store, the credential grants included, changes in between.  A stored chunk stays, its bytes are
counted under its fence, and the chunks of a build are numbered in the order in which they were
accepted.  The store keeps and compares what the redaction of granted secrets leaves of a chunk.
-/

namespace McLoving.Store

open List Option Table AList History

/-- The bytes of the chunks that are stored for a fence of an attempt. -/
def storedBytes (s : Store) (attemptId : Uuid) (fence : ℤ) : ℤ :=
  ((s.logChunks.select fun id _ => id.attemptId = attemptId && id.fence = fence).map
    fun chunk => (chunk.2.content.length : ℤ)).sum

/-- The last position that was given to a chunk of a build. -/
def logPosition (s : Store) (buildId : Uuid) : ℤ :=
  ((s.builds.lookup buildId).map BuildRow.committedLogPosition).getD 0

/-- A change that leaves the chunks and their counters; the counter of a new build is 0. -/
structure KeepsLogs (s s' : Store) : Prop where
  logChunks : s'.logChunks = s.logChunks
  logAccounting : s'.logAccounting = s.logAccounting
  logPosition : s'.logPosition = s.logPosition

/-- What happens to the store: an append, or a change of something else. -/
inductive LogEvent where
  | append (now : Timestamp) (chunk : NewLogChunk) (session : Option ℕ)
  | elsewhere (next : Store)

namespace LogEvent

/-- The state after an event. -/
def step [Platform] (s : Store) : LogEvent → Store
  | append now chunk session => s.after (s.appendLog now chunk session)
  | elsewhere next => next

/-- Only appends write to the log tables. -/
def Permitted (s : Store) : LogEvent → Prop
  | append .. => True
  | elsewhere next => s.KeepsLogs next

/-- The chunk of a build that an event stores under a new key. -/
def stored [Platform] (s : Store) (buildId : Uuid) : LogEvent → List LogChunkId
  | append now chunk session =>
    if chunk.id ∉ s.logChunks ∧ ((step s (append now chunk session)).logChunks.lookup chunk.id).any
        (·.buildId = buildId) then [chunk.id]
    else []
  | elsewhere _ => []

/-- The chunks of a build in the order in which they were accepted. -/
def accepted [Platform] (buildId : Uuid) : Store → List LogEvent → List LogChunkId
  | _, [] => []
  | s, event :: rest => event.stored s buildId ++ accepted buildId (step s event) rest

end LogEvent

variable [Platform] {s s' : Store} {now : Timestamp} {chunk redacted : NewLogChunk}
variable {session : Option ℕ} {row : LogChunkRow}
variable {order : Uuid → List LogChunkId} {events : List LogEvent}

/-! ## One append -/

/-- A repetition of what is stored under the key is accepted and writes nothing. -/
theorem appendLog_repeated (hmay : s.MayAppend chunk session)
    (hredacted : s.redactChunk chunk = .ok redacted)
    (hrow : s.logChunks.lookup chunk.id = some row) (hrepeats : Repeats redacted row) :
    s.appendLog now chunk session = .ok (s, true) := by
  obtain ⟨content, rfl, -⟩ := redactChunk_spec hredacted
  obtain ⟨x, hx, hepoch, hlive, howner⟩ := hmay.owner
  have hjoined := joinedAttempt_eq_some.mpr hx
  have hlookup : s.logChunks.lookup
      ⟨chunk.authority.attemptId, chunk.authority.fence, chunk.sequence⟩ = some row := hrow
  simp only [appendLog, hmay.sequence, hmay.session, hredacted, hjoined, hlookup, hepoch.symm, hlive,
    howner, hrepeats.stream, hrepeats.digest, hrepeats.stepOrdinal, decide_true, Bool.and_self]

/-- An append leaves who may append. -/
theorem MayAppend.of_append (hmay : s.MayAppend chunk session) (now : Timestamp)
    (chunk' : NewLogChunk) (session' : Option ℕ) :
    ((LogEvent.append now chunk' session').step s).MayAppend chunk session := by
  obtain heq | ⟨-, redacted, -, buildId, build, -, hbuild, -, heq⟩ :=
    after_appendLog s now chunk' session'
  · rwa [LogEvent.step, heq]
  rw [LogEvent.step, heq]
  obtain ⟨x, hx, howner⟩ := hmay.owner
  obtain ⟨b, hb⟩ : ∃ b, (s.insertLogChunk redacted buildId build).builds.lookup x.node.buildId =
      some b := by
    simp only [insertLogChunk, modifyBuild_builds, lookup_modify_of_eq hbuild, hx.build]
    split
    · exact ⟨_, rfl⟩
    · exact ⟨_, rfl⟩
  exact ⟨hmay.sequence, hmay.session, ⟨b, x.node, x.attempt⟩, ⟨hx.attempt, hx.node, hb⟩, howner⟩

/-- An append leaves the grants, and so what the redaction makes of a chunk. -/
theorem redactChunk_append (now : Timestamp) (chunk' : NewLogChunk) (session' : Option ℕ) :
    ((LogEvent.append now chunk' session').step s).redactChunk chunk = s.redactChunk chunk := by
  obtain heq | ⟨-, redacted, -, buildId, build, -, -, -, heq⟩ :=
    after_appendLog s now chunk' session'
  · rw [LogEvent.step, heq]
  · rw [LogEvent.step, heq]
    rfl

/-- A stored chunk is not written again. -/
theorem InsertsChunk.lookup (hinserts : s.InsertsChunk chunk s') {id : LogChunkId}
    (hrow : s.logChunks.lookup id = some row) : s'.logChunks.lookup id = some row := by
  obtain ⟨buildId, build, hfresh, -, -, rfl⟩ := hinserts
  refine (lookup_insert_ne ?_).trans hrow
  rintro rfl
  cases hfresh.symm.trans hrow

/-- No event writes a stored chunk again. -/
theorem lookup_step {event : LogEvent} (hpermitted : event.Permitted s) {id : LogChunkId}
    (hrow : s.logChunks.lookup id = some row) : (event.step s).logChunks.lookup id = some row := by
  cases event with
  | elsewhere => exact hpermitted.logChunks ▸ hrow
  | append now chunk session =>
    obtain heq | ⟨-, redacted, -, hinserts⟩ := after_appendLog s now chunk session
    · rwa [LogEvent.step, heq]
    · exact hinserts.lookup hrow

/-- What was accepted is accepted again after any further appends. -/
theorem appendLog_again (hmay : s.MayAppend chunk session)
    (hredacted : s.redactChunk chunk = .ok redacted)
    (hrow : s.logChunks.lookup chunk.id = some row) (hrepeats : Repeats redacted row)
    {appends : List LogEvent}
    (happends : ∀ event ∈ appends, ∃ now chunk session, event = .append now chunk session)
    (now : Timestamp) : (History.final LogEvent.step s appends).appendLog now chunk session =
      .ok (History.final LogEvent.step s appends, true) := by
  have hkept : (History.final LogEvent.step s appends).MayAppend chunk session ∧
      (History.final LogEvent.step s appends).redactChunk chunk = .ok redacted ∧
      (History.final LogEvent.step s appends).logChunks.lookup chunk.id = some row := by
    refine @History.invariant_of_mem _ _ _ (fun s : Store => s.MayAppend chunk session ∧
      s.redactChunk chunk = .ok redacted ∧ s.logChunks.lookup chunk.id = some row) _ ?_ _
      ⟨hmay, hredacted, hrow⟩
    rintro s event hevent ⟨hmay, hredacted, hrow⟩
    obtain ⟨now', chunk', session', rfl⟩ := happends event hevent
    have hpermitted : (LogEvent.append now' chunk' session').Permitted s := trivial
    exact ⟨hmay.of_append now' chunk' session',
      (redactChunk_append now' chunk' session').trans hredacted, lookup_step hpermitted hrow⟩
  exact appendLog_repeated hkept.1 hkept.2.1 hkept.2.2 hrepeats

/-! ## Exact accounting -/

/-- The tables and the counters agree, for chunks that were accepted in the given order. -/
structure LogsExact (s : Store) (order : Uuid → List LogChunkId) : Prop where
  bytes (attemptId : Uuid) (fence : ℤ) :
    s.accountedBytes attemptId fence = s.storedBytes attemptId fence
  quota (attemptId : Uuid) (fence : ℤ) : s.accountedBytes attemptId fence ≤ maxAttemptLogBytes
  digest {id : LogChunkId} {row : LogChunkRow} (hrow : s.logChunks.lookup id = some row) :
    row.digest = Platform.sha256 row.content
  listed {id : LogChunkId} {row : LogChunkRow} (hrow : s.logChunks.lookup id = some row) :
    id ∈ order row.buildId
  placed {buildId : Uuid} {i : ℕ} {id : LogChunkId} (hid : (order buildId)[i]? = some id) :
    ∃ row, s.logChunks.lookup id = some row ∧ row.buildId = buildId ∧ row.buildPosition = i + 1
  position (buildId : Uuid) : s.logPosition buildId = (order buildId).length

/-- A new chunk is counted and takes the next position of its build. -/
theorem LogsExact.insertsChunk (hexact : s.LogsExact order) (hinserts : s.InsertsChunk chunk s') :
    ∃ buildId, (s'.logChunks.lookup chunk.id).map LogChunkRow.buildId = some buildId ∧
      s'.LogsExact fun b => order b ++ if b = buildId then [chunk.id] else [] := by
  obtain ⟨buildId, build, hfresh, hbuild, hquota, rfl⟩ := id hinserts
  refine ⟨buildId, congrArg _ (lookup_insert s.logChunks), ?_⟩
  have hposition (b : Uuid) : (s.insertLogChunk chunk buildId build).logPosition b =
      if b = buildId then s.logPosition buildId + 1 else s.logPosition b := by
    simp only [logPosition, Store.insertLogChunk, modifyBuild_builds,
      lookup_modify_of_eq hbuild, hbuild]
    split
    · rfl
    · rfl
  have haccounted (a : Uuid) (f : ℤ) : (s.insertLogChunk chunk buildId build).accountedBytes a f =
        if (a, f) = (chunk.authority.attemptId, chunk.authority.fence) then
          s.accountedBytes chunk.authority.attemptId chunk.authority.fence + chunk.content.length
        else s.accountedBytes a f := by
    by_cases hsame : (a, f) = (chunk.authority.attemptId, chunk.authority.fence)
    · rw [if_pos hsame, accountedBytes, hsame, Store.insertLogChunk, lookup_insert]
      rfl
    · rw [if_neg hsame, accountedBytes, Store.insertLogChunk, lookup_insert_ne hsame]
      rfl
  have hlast : (order buildId).length = build.committedLogPosition := by
    rw [← hexact.position, logPosition, hbuild]
    rfl
  constructor
  case bytes =>
    intro a f
    have hkey : s.logChunks.lookup
        ⟨chunk.authority.attemptId, chunk.authority.fence, chunk.sequence⟩ = none := hfresh
    rw [haccounted, storedBytes, Store.insertLogChunk]
    dsimp only
    rw [select_insert _ hkey]
    by_cases hsame : (a, f) = (chunk.authority.attemptId, chunk.authority.fence)
    · obtain ⟨rfl, rfl⟩ := Prod.mk.inj hsame
      rw [if_pos rfl, if_pos (by simp), hexact.bytes, map_cons, sum_cons, add_comm]
      rfl
    · rw [if_neg hsame, if_neg, hexact.bytes]
      · rfl
      · rw [Bool.and_eq_true, decide_eq_true_eq, decide_eq_true_eq]
        rintro ⟨rfl, rfl⟩
        exact hsame rfl
  case quota =>
    intro a f
    rw [haccounted]
    split
    · exact hquota
    · exact hexact.quota a f
  case digest =>
    intro id row hrow
    rcases lookup_insert_cases hrow with ⟨-, rfl⟩ | ⟨-, hrow⟩
    · rfl
    · exact hexact.digest hrow
  case listed =>
    intro id row hrow
    rcases lookup_insert_cases hrow with ⟨rfl, rfl⟩ | ⟨-, hrow⟩
    · rw [if_pos rfl]
      exact mem_append_right _ (mem_singleton_self _)
    · exact mem_append_left _ (hexact.listed hrow)
  case placed =>
    intro b i id hid
    rcases Nat.lt_or_ge i (order b).length with hlt | hge
    · rw [getElem?_append_left hlt] at hid
      obtain ⟨row, hrow, hplace⟩ := hexact.placed hid
      exact ⟨row, hinserts.lookup hrow, hplace⟩
    · rw [getElem?_append_right hge] at hid
      split at hid
      · next hb =>
        subst hb
        have hlen : i = (order b).length := by
          have hi := (List.getElem?_eq_some_iff.mp hid).1
          rw [List.length_singleton] at hi
          omega
        obtain rfl := by simpa [hlen] using hid
        refine ⟨_, lookup_insert s.logChunks, rfl, ?_⟩
        rw [hlen, hlast]
      · cases hid
  case position =>
    intro b
    rw [hposition, length_append]
    split
    · next hb => rw [hb, hexact.position, length_singleton, Nat.cast_add, Nat.cast_one]
    · rw [hexact.position, length_nil, Nat.add_zero]

theorem LogsExact.step {order : Uuid → List LogChunkId} (hexact : s.LogsExact order)
    {event : LogEvent} (hpermitted : event.Permitted s) :
    (event.step s).LogsExact fun b => order b ++ event.stored s b := by
  cases event with
  | elsewhere =>
    obtain ⟨hchunks, haccounting, hposition⟩ := hpermitted
    simp only [LogEvent.stored, append_nil]
    constructor
    case bytes =>
      intro a f
      have hbytes := hexact.bytes a f
      rwa [accountedBytes, storedBytes, ← haccounting, ← hchunks] at hbytes
    case quota =>
      intro a f
      have hquota := hexact.quota a f
      rwa [accountedBytes, ← haccounting] at hquota
    case position => exact fun b => (congrFun hposition b).trans (hexact.position b)
    all_goals simp only [LogEvent.step, hchunks]
    case digest => exact hexact.digest
    case listed => exact hexact.listed
    case placed => exact hexact.placed
  | append now chunk session =>
    obtain heq | ⟨-, redacted, hredacted, hinserts⟩ := after_appendLog s now chunk session
    · have hnone (b : Uuid) : (LogEvent.append now chunk session).stored s b = [] := by
        rw [LogEvent.stored, LogEvent.step, heq, if_neg]
        rintro ⟨hnew, hany⟩
        rw [lookup_eq_none.mpr hnew] at hany
        cases hany
      simpa only [LogEvent.step, heq, hnone, append_nil] using hexact
    · have hid : redacted.id = chunk.id := by
        obtain ⟨content, rfl, -⟩ := redactChunk_spec hredacted
        rfl
      obtain ⟨buildId, hrow, hexact'⟩ := hexact.insertsChunk hinserts
      obtain ⟨-, -, hfresh, -⟩ := hinserts
      rw [hid] at hfresh hrow hexact'
      have hone (b : Uuid) : (LogEvent.append now chunk session).stored s b =
          if b = buildId then [chunk.id] else [] := by
        obtain ⟨row, hlookup, rfl⟩ := map_eq_some_iff.mp hrow
        simp only [LogEvent.stored, LogEvent.step, hlookup, lookup_eq_none.mp hfresh,
          not_false_eq_true, true_and, any_some, decide_eq_true_eq, eq_comm (a := b)]
      simpa only [LogEvent.step, hone] using hexact'

/-- A run keeps the accounts exact and appends what it accepts to the order. -/
theorem LogsExact.final (hexact : s.LogsExact order)
    (hrun : History.Along LogEvent.step LogEvent.Permitted s events) :
    (History.final LogEvent.step s events).LogsExact
      fun b => order b ++ LogEvent.accepted b s events := by
  induction events generalizing s order with
  | nil =>
    simpa only [LogEvent.accepted, append_nil, final_nil] using hexact
  | cons _ _ ih =>
    have hrest := ih (hexact.step hrun.1) hrun.2
    simpa only [LogEvent.accepted, append_assoc, final_cons] using hrest

/-- The log tables after a run from an empty database. -/
def logsAfter (organizationId : Uuid) (events : List LogEvent) : Store :=
  History.final LogEvent.step (initial organizationId) events

theorem logsExact_logsAfter {organizationId : Uuid}
    (hrun : History.Along LogEvent.step LogEvent.Permitted (initial organizationId) events) :
    (logsAfter organizationId events).LogsExact
      fun b => LogEvent.accepted b (initial organizationId) events := by
  have hempty : (initial organizationId).LogsExact fun _ => [] :=
    ⟨fun _ _ => rfl, fun _ _ => of_decide_eq_true rfl, fun hrow => (by cases hrow),
      fun hrow => (by cases hrow),
      fun hid => (by cases hid), fun _ => rfl⟩
  exact hempty.final hrun

/-- Log chunks are written once and accounted for exactly, whatever happens before and later.  What
is stored and compared is the content without the secrets that are granted at the time of the
call. -/
theorem log_chunks_are_exact (organizationId : Uuid) (before later : List LogEvent)
    (hrun : History.Along LogEvent.step LogEvent.Permitted (initial organizationId)
      (before ++ later)) (hs : logsAfter organizationId before = s) :
    -- a stored chunk stays
    (∀ id row, s.logChunks.lookup id = some row →
      (logsAfter organizationId (before ++ later)).logChunks.lookup id = some row) ∧
    (∀ now chunk session next answer, s.appendLog now chunk session = .ok (next, answer) →
      -- a refusal writes nothing
      (answer = false → next = s) ∧
      -- the first accepted append stores its redacted content
      (s.logChunks.lookup chunk.id = none → answer = true →
        ∃ redacted row, s.redactChunk chunk = .ok redacted ∧
          next.logChunks.lookup chunk.id = some row ∧ row.content = redacted.content ∧
          row.stream = chunk.stream ∧ row.stepOrdinal = chunk.stepOrdinal) ∧
      -- afterwards only what the redaction makes the same is accepted, and writes nothing
      (∀ row, s.logChunks.lookup chunk.id = some row →
        next = s ∧ (answer = true → ∃ redacted, s.redactChunk chunk = .ok redacted ∧
          row.stream = chunk.stream ∧
          Platform.sha256 row.content = Platform.sha256 redacted.content ∧
          row.stepOrdinal = chunk.stepOrdinal)) ∧
      -- an accepted call can be repeated after any further appends
      (answer = true → ∀ appends now', (∀ event ∈ appends, ∃ now chunk session,
          event = .append now chunk session) →
        (History.final LogEvent.step next appends).appendLog now' chunk session =
          .ok (History.final LogEvent.step next appends, true))) ∧
    -- and by the owner of the attempt under its epoch at any time
    (∀ now chunk redacted session row, s.MayAppend chunk session →
      s.redactChunk chunk = .ok redacted →
      s.logChunks.lookup chunk.id = some row → row.content = redacted.content →
      row.stream = chunk.stream → row.stepOrdinal = chunk.stepOrdinal →
      s.appendLog now chunk session = .ok (s, true)) ∧
    -- the redaction leaves no granted secret, and a chunk without one as it is
    (∀ chunk redacted, s.redactChunk chunk = .ok redacted →
      let secrets := s.grantedSecrets chunk.authority.attemptId chunk.authority.fence
      ∃ content, redacted = { chunk with content } ∧ Logs.Clean secrets content ∧
        (Logs.Clean secrets chunk.content → content = chunk.content)) ∧
    -- the counted bytes are the stored ones, within the quota
    (∀ attemptId fence, s.accountedBytes attemptId fence = s.storedBytes attemptId fence ∧
      s.accountedBytes attemptId fence ≤ maxAttemptLogBytes) ∧
    -- the chunks of a build have the positions 1, 2, … in the order of their acceptance
    ∀ buildId,
      (∀ (i : ℕ) id, (LogEvent.accepted buildId (initial organizationId) before)[i]? = some id →
        ∃ row, s.logChunks.lookup id = some row ∧ row.buildId = buildId ∧
          row.buildPosition = i + 1) ∧
      ∀ id row, s.logChunks.lookup id = some row → row.buildId = buildId →
        id ∈ LogEvent.accepted buildId (initial organizationId) before := by
  obtain ⟨hbefore, hlater⟩ := along_append.mp hrun
  subst hs
  have hexact := logsExact_logsAfter hbefore
  refine ⟨?_, ?_, ?_, fun _ _ => redactChunk_spec, fun a f => ⟨hexact.bytes a f, hexact.quota a f⟩,
    fun buildId => ⟨fun i id hid => hexact.placed hid, ?_⟩⟩
  · intro id row hrow
    rw [logsAfter, final_append]
    exact @History.relation_of_along _ _ _ _
      (fun s s' : Store => s.logChunks.lookup id = some row → s'.logChunks.lookup id = some row)
      (fun _ hkept => hkept) (fun hfst hsnd hkept => hsnd (hfst hkept))
      (fun _ _ hpermitted => lookup_step hpermitted) _ _ hlater hrow
  · intro now chunk session next answer hok
    have hnext : (LogEvent.append now chunk session).step (logsAfter organizationId before) =
      next := by rw [LogEvent.step, hok, after]
    cases appendLog_cases hok with
    | refused =>
      exact ⟨fun _ => rfl, fun _ htrue => (by cases htrue),
        fun row _ => ⟨rfl, fun htrue => (by cases htrue)⟩, fun htrue => (by cases htrue)⟩
    | repeated hmay hredacted hrow hrepeats =>
      obtain ⟨content, rfl, -⟩ := redactChunk_spec hredacted
      refine ⟨fun hfalse => (by cases hfalse), fun hnone => (by cases hnone.symm.trans hrow),
        fun row hrow' => ?_, fun _ appends now' happends => ?_⟩
      · obtain rfl := mem_unique hrow hrow'
        exact ⟨rfl, fun _ => ⟨_, hredacted, hrepeats.stream,
          (hexact.digest hrow).symm.trans hrepeats.digest, hrepeats.stepOrdinal⟩⟩
      · exact appendLog_again hmay hredacted hrow hrepeats happends now'
    | inserted hmay hredacted hinserts =>
      obtain ⟨content, rfl, -⟩ := redactChunk_spec hredacted
      obtain ⟨buildId, build, hfresh, -, -, rfl⟩ := hinserts
      refine ⟨fun hfalse => (by cases hfalse),
        fun _ _ => ⟨_, _, hredacted, lookup_insert _, rfl, rfl, rfl⟩,
        fun row hrow => (by cases hfresh.symm.trans hrow), fun _ appends now' happends => ?_⟩
      have hkept := (redactChunk_append now chunk session).trans hredacted
      rw [hnext] at hkept
      exact appendLog_again (hnext ▸ hmay.of_append now chunk session) hkept (lookup_insert _)
        ⟨rfl, rfl, rfl⟩ happends now'
  · intro now chunk redacted session row hmay hredacted hrow hcontent hstream hstep
    obtain ⟨content, rfl, -⟩ := redactChunk_spec hredacted
    exact appendLog_repeated hmay hredacted hrow ⟨hstream, hcontent ▸ hexact.digest hrow, hstep⟩
  · rintro id row hrow rfl
    exact hexact.listed hrow

namespace Sample

/-- A platform whose digests tell the length. -/
@[reducible]
def measuring : Platform := { platform with sha256 := fun bytes => .replicate bytes.length.toUInt8 }

/-- Attempt 102 executes, and a secret is granted to it. -/
def granted (secret : List UInt8) : Store :=
  { stateAfter prepared with credentialGrants := AList.singleton 60 ⟨102, 1, secret⟩ }

/-- A chunk of attempt 102. -/
def output (content : List UInt8) : NewLogChunk :=
  ⟨authority 102, 0, 0, "stdout", content⟩

/-- Three bytes are appended, of which the middle one is the secret. -/
def logged : List LogEvent :=
  [.elsewhere (granted [9]), .append 11 (output [7, 9, 8]) none]

omit [Platform] in
theorem permitted_logged :
    @History.Along _ _ (@LogEvent.step measuring) LogEvent.Permitted (initial 9) logged := by
  have hpositions : (stateAfter prepared).builds.any (fun _ b => b.committedLogPosition ≠ 0) =
      false := by decide +kernel
  refine ⟨⟨AList.ext (isEmpty_iff.mp (by decide +kernel)),
    AList.ext (isEmpty_iff.mp (by decide +kernel)), funext fun id => ?_⟩, trivial, trivial⟩
  rcases hbuild : (stateAfter prepared).builds.lookup id with _ | build
  · rw [logPosition, granted, hbuild]
    rfl
  · rw [logPosition, granted, hbuild]
    exact of_not_not (of_decide_eq_false (any_eq_false.mp hpositions id build hbuild))

end Sample

omit [Platform] in
open Sample in
/-- Two of the three bytes are stored and counted, at position 1. -/
theorem redacted_chunk_is_counted : (@logsAfter measuring 9 logged).accountedBytes 102 1 = 2 ∧
      ∃ row, (@logsAfter measuring 9 logged).logChunks.lookup ⟨102, 1, 0⟩ = some row ∧
        row.buildId = 100 ∧ row.buildPosition = 1 := by
  obtain ⟨-, -, -, -, hbytes, hplaced⟩ :=
    @log_chunks_are_exact measuring _ 9 logged [] permitted_logged rfl
  exact ⟨(hbytes 102 1).1.trans (by decide +kernel), (hplaced 100).1 0 ⟨102, 1, 0⟩
    (by decide +kernel)⟩

omit [Platform] in
open Sample in
/-- What is stored is not what was appended.  The two bytes around the secret are accepted in place
of the three, and the three are refused as soon as another secret is granted. -/
theorem repetition_depends_on_grants :
    let s := @logsAfter measuring 9 logged
    let regranted := { s with credentialGrants := s.credentialGrants.insert 61 ⟨102, 1, [8]⟩ }
    (s.logChunks.lookup ⟨102, 1, 0⟩).map LogChunkRow.content = some [7, 8] ∧
      (@appendLog measuring s 12 (output [7, 9, 8]) none).map Prod.snd = .ok true ∧
      (@appendLog measuring s 12 (output [7, 8]) none).map Prod.snd = .ok true ∧
      s.KeepsLogs regranted ∧
      (@appendLog measuring regranted 12 (output [7, 9, 8]) none).map Prod.snd = .ok false := by
  refine ⟨?_, ?_, ?_, ⟨rfl, rfl, rfl⟩, ?_⟩ <;> decide +kernel

end McLoving.Store
