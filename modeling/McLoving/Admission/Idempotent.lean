import McLoving.Admission.Transactions

/-!
# Admissions are idempotent

Beside every interleaving of other admissions, an admission that is answered with a build is
answered as if it had run alone at that moment.  A transaction that is past the search for its key
holds the lock of its pipeline, so a build that is committed under its key in the meantime belongs
to another pipeline; and the insertion of the build waits for other insertions of the key.
-/

namespace McLoving

namespace Store

open List Table

variable {s s' : Store} {now : Timestamp} {ids : ℕ → Uuid} {request : AdmissionRequest}

theorem buildByKey_eq_none {projectId : Uuid} {key : String}
    (hnone : ∀ {id b}, s.builds.lookup id = some b → b.projectId = projectId →
      b.idempotencyKey ≠ key) : s.buildByKey projectId key = none := by
  rw [buildByKey, head?_eq_none_iff, eq_nil_iff_forall_not_mem]
  rintro ⟨id, b⟩ hmem
  obtain ⟨hb, hmatch⟩ := mem_select.mp hmem
  simp only [Bool.and_eq_true, decide_eq_true_eq] at hmatch
  exact hnone hb hmatch.1 hmatch.2

theorem of_buildByKey {projectId buildId : Uuid} {key : String} {b : BuildRow}
    (hfound : s.buildByKey projectId key = some (buildId, b)) :
    s.builds.lookup buildId = some b ∧ b.projectId = projectId ∧ b.idempotencyKey = key := by
  obtain ⟨hb, hmatch⟩ := mem_select.mp (mem_of_mem_head? hfound)
  simp only [Bool.and_eq_true, decide_eq_true_eq] at hmatch
  exact ⟨hb, hmatch⟩

/-- What the statements after the insertion of the key store. -/
theorem Consistent.create_spec [Platform] (hs : s.Consistent)
    (hcheck : request.input.checkContract = .ok ())
    (hkey : s.buildByKey request.input.projectId request.input.idempotencyKey = none)
    {revisionDigest : Digest}
    (hbinding : s.lockEnabledPipelineBinding request.input.projectId request.input.pipelineId
      request.input.pipelineRevision request.input.pipelineOperationalGeneration =
        .ok revisionDigest)
    (hdigest : request.isSequential = true → revisionDigest = request.input.pipelineDigest)
    {admission : DagAdmission}
    (hok : s.create now ids request revisionDigest = .ok (s', admission)) :
    s.Creates s' now request.input request.contract admission ∧ s'.Consistent ∧
      s'.lockEnabledPipelineBinding = s.lockEnabledPipelineBinding := by
  have haccepted := NewDagBuild.accepted_of_checkContract hcheck
  obtain ⟨row, hrow, hgeneration⟩ := lockEnabledPipelineBinding_eq_ok hbinding
  obtain ⟨hkeys, hlayout⟩ := request.contractOf
  unfold create at hok
  split at hok
  · cases hok
  next inserted admission' hinserted =>
  unfold insertDag at hinserted
  split at hinserted
  · cases hinserted
  next hfresh =>
  split at hinserted
  swap
  · cases hinserted
  next nodeTable attemptTable hnodes hattempts =>
  cases hinserted
  have hnew := admits_dag (s := s) (b := newBuildRow now request.input.projectId
      request.input.pipelineId request.input.pipelineRevision
      request.input.pipelineOperationalGeneration revisionDigest request.input.idempotencyKey
      request.input.pipelineDigest request.input.priority (some request.contract)
      request.input.notifyTargets) (e := .dagAdmitted request.input.nodes.length
        (request.input.nodes.map fun node : NewDagNode => node.dependencies.length).sum)
    hfresh hnodes hattempts rfl rfl rfl ⟨_, row, rfl, hrow, by rw [hgeneration]; rfl⟩ hkey
    haccepted.pool haccepted.keys (fun hc => Option.some.inj hc ▸ hkeys)
    (fun hc hsome => by
      obtain rfl := Option.some.inj hc
      exact congrArg some (hdigest (hlayout hsome))) rfl
  split at hok
  · split at hok
    · cases hok
    next initialized hinitialized =>
    cases hok
    obtain ⟨build', hnew', hproject, hpipeline, hgeneration', hsame⟩ :=
      hnew.initialized hinitialized
    simp only [BuildRow.binding, Prod.mk.injEq] at hsame
    obtain ⟨hkey', hrevision, -, hdigest', hcontract⟩ := hsame
    refine ⟨hnew'.creates hs.coherent haccepted hproject hkey'
      ⟨hpipeline, hrevision, hgeneration', hdigest', hcontract⟩,
      (Change.enter hnew' : Change True s _).consistent hs, ?_⟩
    unfold initializeWorkspace at hinitialized
    split at hinitialized
    · cases hinitialized
    · cases hinitialized
      rfl
  · cases hok
    exact ⟨hnew.creates hs.coherent haccepted rfl rfl ⟨rfl, rfl, rfl, rfl, rfl⟩,
      (Change.enter hnew : Change True s _).consistent hs, rfl⟩

end Store

namespace Admission

variable {s s' : Store} {tx : Tx}

/-! ## Answers -/

/-- The build is the one that the transaction asks for by its key. -/
def Tx.Names (tx : Tx) (b : BuildRow) : Prop :=
  b.projectId = tx.request.input.projectId ∧ b.idempotencyKey = tx.request.input.idempotencyKey

/-- An answer is right: a key that exists is answered with the identifiers of its build exactly if
the contract is valid and the build has the pipeline binding, the digest and the contract of the
admission, and then as otherwise nothing is stored; a new key is answered with what was created. -/
structure Answer.Idempotent [Platform] (a : Answer) : Prop where
  replay : ∀ {buildId b}, a.before.builds.lookup buildId = some b → a.tx.Names b →
    a.after = a.before ∧
    ((∃ admission, a.result = .ok admission) ↔ a.tx.request.input.checkContract = .ok () ∧
      b.Matches a.tx.request.input a.tx.request.contract) ∧
    ∀ admission, a.result = .ok admission → admission.buildId = buildId ∧
      admission.created = false ∧
      ∀ {key entry}, (key, entry) ∈ admission.nodes ↔ a.before.Identifies buildId key entry
  create : (∀ {buildId b}, a.before.builds.lookup buildId = some b → ¬ a.tx.Names b) →
    ∀ admission, a.result = .ok admission →
      a.before.Creates a.after a.tx.now a.tx.request.input a.tx.request.contract admission
  refused : ∀ error, a.result = .error error → a.after = a.before

section Answers

variable [Platform]

/-- An error is right if no build of the key answers the admission. -/
theorem idempotent_error {error : StoreError}
    (hnone : ∀ {buildId b}, s.builds.lookup buildId = some b → tx.Names b →
      ¬ (tx.request.input.checkContract = .ok () ∧
        b.Matches tx.request.input tx.request.contract)) :
    (Answer.of tx s (.error error)).Idempotent where
  replay hb hnames := by
    refine ⟨rfl, ⟨?_, fun hboth => absurd hboth (hnone hb hnames)⟩, fun _ hok => by cases hok⟩
    rintro ⟨_, hok⟩
    cases hok
  create _ _ hok := by cases hok
  refused _ _ := rfl

/-- The answer of an admission that finds its key is right. -/
theorem idempotent_replay (hs : s.Consistent) (hcheck : tx.request.input.checkContract = .ok ())
    {buildId : Uuid} {build : BuildRow}
    (hfound : s.buildByKey tx.request.input.projectId tx.request.input.idempotencyKey =
      some (buildId, build)) : (Answer.of tx s (s.replay tx.request buildId build)).Idempotent ∧
      (Answer.of tx s (s.replay tx.request buildId build)).after = s := by
  obtain ⟨hbuild, hproject, hkey⟩ := Store.of_buildByKey hfound
  have hiff := hs.existingDagAdmission_ok_iff hbuild tx.request.contractOf
  have hsame {id : Uuid} {b : BuildRow} (hb : s.builds.lookup id = some b)
      (hnames : tx.Names b) : id = buildId ∧ b = build := by
    obtain rfl := hs.keyed.unique hb hbuild (hnames.1.trans hproject.symm)
      (hnames.2.trans hkey.symm)
    exact ⟨rfl, Option.mem_unique hb hbuild⟩
  unfold Store.replay
  rcases hexisting : s.existingDagAdmission tx.request.input tx.request.contract buildId build with
    error | admission
  · refine ⟨idempotent_error fun hb hnames hboth => ?_, rfl⟩
    obtain ⟨rfl, rfl⟩ := hsame hb hnames
    obtain ⟨admission, hok⟩ := hiff.mpr hboth.2
    cases hexisting.symm.trans hok
  · refine ⟨⟨fun hb hnames => ?_, fun hnone => absurd ⟨hproject, hkey⟩ (hnone hbuild), ?_⟩, rfl⟩
    · obtain ⟨rfl, rfl⟩ := hsame hb hnames
      refine ⟨rfl, ⟨fun _ => ⟨hcheck, hiff.mp ⟨_, hexisting⟩⟩, fun _ => ⟨_, rfl⟩⟩, ?_⟩
      intro admission' hok
      cases hok
      exact Store.existingDagAdmission_spec hexisting
    · intro error herror
      cases herror

end Answers

/-! ## Open transactions -/

/-- What an open transaction has established about the committed store. -/
structure Tx.Fits [Platform] (tx : Tx) (s : Store) : Prop where
  checked : tx.point ≠ .waiting → tx.request.input.checkContract = .ok ()
  /-- A build that got the key after the transaction looked for it has another pipeline. -/
  foreign : tx.point ≠ .waiting → tx.point ≠ .locked → ∀ {id b}, s.builds.lookup id = some b →
    tx.Names b → b.pipelineId ≠ some tx.request.input.pipelineId
  bound : ∀ {revisionDigest}, tx.point = .bound revisionDigest ∨
      tx.point = .inserted revisionDigest →
    s.lockEnabledPipelineBinding tx.request.input.projectId tx.request.input.pipelineId
      tx.request.input.pipelineRevision tx.request.input.pipelineOperationalGeneration =
        .ok revisionDigest ∧
      (tx.request.isSequential = true → revisionDigest = tx.request.input.pipelineDigest)
  reserved : ∀ {revisionDigest}, tx.point = .inserted revisionDigest →
    ∀ {id b}, s.builds.lookup id = some b → ¬ tx.Names b

/-- Two transactions do not hold one lock and have not inserted one key. -/
structure Exclusive (tx tx' : Tx) : Prop where
  lock : ∀ {p}, tx.holds p = true → tx'.holds p = true → False
  key : ∀ {p k}, tx.reserves p k = true → tx'.reserves p k = true → False

theorem Exclusive.symm {tx tx' : Tx} (hex : Exclusive tx tx') : Exclusive tx' tx :=
  ⟨fun hfst hsnd => hex.lock hsnd hfst, fun hfst hsnd => hex.key hsnd hfst⟩

section Next

variable [Platform] {others : List Tx}

/-- The ways in which a transaction goes on. -/
inductive Moves (tx : Tx) (s : Store) (others : List Tx) : Point → Prop where
  | lock (hpoint : tx.point = .waiting) (hcheck : tx.request.input.checkContract = .ok ())
      (hfree : ∀ other ∈ others, ¬ other.holds tx.request.input.pipelineId = true) :
      Moves tx s others .locked
  | search (hpoint : tx.point = .locked)
      (hnone : s.buildByKey tx.request.input.projectId tx.request.input.idempotencyKey = none) :
      Moves tx s others .absent
  | bind {revisionDigest : Digest} (hpoint : tx.point = .absent)
      (hbinding : s.lockEnabledPipelineBinding tx.request.input.projectId
        tx.request.input.pipelineId tx.request.input.pipelineRevision
        tx.request.input.pipelineOperationalGeneration = .ok revisionDigest)
      (hdigest : tx.request.isSequential = true →
        revisionDigest = tx.request.input.pipelineDigest) : Moves tx s others (.bound revisionDigest)
  | insert {revisionDigest : Digest} (hpoint : tx.point = .bound revisionDigest)
      (hfree : ∀ other ∈ others, ¬ other.reserves tx.request.input.projectId
        tx.request.input.idempotencyKey = true)
      (hnone : s.buildByKey tx.request.input.projectId tx.request.input.idempotencyKey = none) :
      Moves tx s others (.inserted revisionDigest)

theorem Tx.moves_of_next {point : Point} (hnext : tx.next s others = .moves point) :
    Moves tx s others point := by
  unfold Tx.next at hnext
  simp only at hnext
  split at hnext
  next hpoint =>
    split at hnext
    · cases hnext
    next hcheck =>
    split at hnext
    · cases hnext
    next hfree =>
    cases hnext
    exact .lock hpoint hcheck (by simpa using hfree)
  next hpoint =>
    split at hnext
    · cases hnext
    next hnone =>
    cases hnext
    exact .search hpoint hnone
  next hpoint =>
    split at hnext
    · cases hnext
    next revisionDigest hbinding =>
    split at hnext
    · cases hnext
    next hsame =>
    cases hnext
    refine .bind hpoint hbinding fun hsequential => ?_
    by_contra hne
    exact hsame ⟨hsequential, hne⟩
  next revisionDigest hpoint =>
    split at hnext
    · cases hnext
    next hfree =>
    split at hnext
    · cases hnext
    next hnone =>
    cases hnext
    exact .insert hpoint (by simpa using hfree) hnone
  next hpoint => cases hnext

/-- Going on keeps what the transaction has established. -/
theorem Tx.Fits.moves (hfits : tx.Fits s) {point : Point} (hmoves : Moves tx s others point) :
    Tx.Fits { tx with point := point } s := by
  have hunused (hnone : s.buildByKey tx.request.input.projectId tx.request.input.idempotencyKey =
      none) {id : Uuid} {b : BuildRow} (hb : s.builds.lookup id = some b) : ¬ tx.Names b :=
    fun hnames => Store.key_ne_of_buildByKey hnone hb hnames.1 hnames.2
  cases hmoves with
  | lock _ hcheck =>
    exact ⟨fun _ => hcheck, fun _ hlocked => absurd rfl hlocked, fun h => by simp at h,
      fun h => by cases h⟩
  | search hpoint hnone =>
    exact ⟨fun _ => hfits.checked (by simp [hpoint]),
      fun _ _ _ _ hb hnames => absurd hnames (hunused hnone hb), fun h => by simp at h,
      fun h => by cases h⟩
  | bind hpoint hbinding hdigest =>
    refine ⟨fun _ => hfits.checked (by simp [hpoint]),
      fun _ _ => hfits.foreign (by simp [hpoint]) (by simp [hpoint]), fun h => ?_,
      fun h => by cases h⟩
    obtain rfl := Point.bound.inj (h.resolve_right (by simp))
    exact ⟨hbinding, hdigest⟩
  | insert hpoint _ hnone =>
    refine ⟨fun _ => hfits.checked (by simp [hpoint]),
      fun _ _ => hfits.foreign (by simp [hpoint]) (by simp [hpoint]), fun h => ?_,
      fun _ _ _ hb => hunused hnone hb⟩
    obtain rfl := Point.inserted.inj (h.resolve_left (by simp))
    exact hfits.bound (.inl hpoint)

/-- Going on takes no lock and no key of another transaction. -/
theorem Exclusive.moves {other : Tx} (hmem : other ∈ others) (hex : Exclusive tx other)
    {point : Point} (hmoves : Moves tx s others point) :
    Exclusive { tx with point := point } other := by
  cases hmoves with
  | lock _ _ hfree =>
    refine ⟨fun hholds hother => ?_, fun hreserves => by simp [Tx.reserves] at hreserves⟩
    simp only [Tx.holds, Bool.and_eq_true, decide_eq_true_eq] at hholds
    exact hfree other hmem (hholds.2 ▸ hother)
  | search hpoint =>
    exact ⟨fun hholds => hex.lock (by simpa [Tx.holds, hpoint] using hholds),
      fun hreserves => by simp [Tx.reserves] at hreserves⟩
  | bind hpoint =>
    exact ⟨fun hholds => hex.lock (by simpa [Tx.holds, hpoint] using hholds),
      fun hreserves => by simp [Tx.reserves] at hreserves⟩
  | insert hpoint hfree =>
    refine ⟨fun hholds => hex.lock (by simpa [Tx.holds, hpoint] using hholds),
      fun hreserves hother => hfree other hmem ?_⟩
    simp only [Tx.reserves, Bool.and_eq_true, decide_eq_true_eq] at hreserves
    rw [hreserves.1, hreserves.2]
    exact hother

/-- A statement that ends the transaction gives a right answer, and stores something only if the
transaction has inserted its key. -/
theorem Tx.Fits.ends (hfits : tx.Fits s) (hs : s.Consistent)
    {answer : Except StoreError (Store × DagAdmission)} (hnext : tx.next s others = .ends answer) :
    (Answer.of tx s answer).Idempotent ∧ ((Answer.of tx s answer).after = s ∨
      ∃ s' admission revisionDigest, (Answer.of tx s answer).after = s' ∧
        tx.point = .inserted revisionDigest ∧ s'.Consistent ∧
        s'.lockEnabledPipelineBinding = s.lockEnabledPipelineBinding ∧
        s.Creates s' tx.now tx.request.input tx.request.contract admission) := by
  unfold Tx.next at hnext
  simp only at hnext
  split at hnext
  next hpoint =>
    split at hnext
    next error hcheck =>
      cases hnext
      refine ⟨idempotent_error fun _ _ hboth => ?_, .inl rfl⟩
      cases hcheck.symm.trans hboth.1
    · split at hnext <;> cases hnext
  next hpoint =>
    split at hnext
    · next buildId build hfound =>
      cases hnext
      obtain ⟨hright, hafter⟩ := idempotent_replay hs (hfits.checked (by simp [hpoint])) hfound
      exact ⟨hright, .inl hafter⟩
    · cases hnext
  next hpoint =>
    -- A build that has the key by now belongs to another pipeline.
    have hforeign : ∀ {buildId b}, s.builds.lookup buildId = some b → tx.Names b →
        ¬ (tx.request.input.checkContract = .ok () ∧
          b.Matches tx.request.input tx.request.contract) := fun hb hnames hboth =>
      hfits.foreign (by simp [hpoint]) (by simp [hpoint]) hb hnames hboth.2.pipeline
    split at hnext
    · cases hnext
      exact ⟨idempotent_error hforeign, .inl rfl⟩
    · split at hnext
      · cases hnext
        exact ⟨idempotent_error hforeign, .inl rfl⟩
      · cases hnext
  next revisionDigest hpoint =>
    split at hnext
    · cases hnext
    split at hnext
    · next buildId build hfound =>
      cases hnext
      obtain ⟨hright, hafter⟩ := idempotent_replay hs (hfits.checked (by simp [hpoint])) hfound
      exact ⟨hright, .inl hafter⟩
    · cases hnext
  next revisionDigest hpoint =>
    obtain rfl := Progress.ends.inj hnext
    obtain ⟨hbinding, hdigest⟩ := hfits.bound (.inr hpoint)
    have hunused : ∀ {id b}, s.builds.lookup id = some b → ¬ tx.Names b := hfits.reserved hpoint
    have hkey : s.buildByKey tx.request.input.projectId tx.request.input.idempotencyKey = none :=
      Store.buildByKey_eq_none fun hb hproject hkey => hunused hb ⟨hproject, hkey⟩
    rcases hcreate : s.create tx.now tx.ids tx.request revisionDigest with
      error | ⟨s', admission⟩
    · exact ⟨idempotent_error fun hb hnames => absurd hnames (hunused hb), .inl rfl⟩
    · obtain ⟨hcreates, hs', hpipelines⟩ := hs.create_spec (hfits.checked (by simp [hpoint])) hkey
        hbinding hdigest hcreate
      refine ⟨⟨fun hb hnames => absurd hnames (hunused hb), fun _ admission' hok => ?_, ?_⟩,
        .inr ⟨s', admission, revisionDigest, rfl, hpoint, hs', hpipelines, hcreates⟩⟩
      · cases hok
        exact hcreates
      · intro error herror
        cases herror

/-- A commit keeps what the other transactions have established. -/
theorem Tx.Fits.commit {other : Tx} (hother : other.Fits s) (hex : Exclusive tx other)
    {revisionDigest : Digest} (hpoint : tx.point = .inserted revisionDigest)
    {admission : DagAdmission} (hpipelines : s'.lockEnabledPipelineBinding =
      s.lockEnabledPipelineBinding)
    (hcreates : s.Creates s' tx.now tx.request.input tx.request.contract admission) :
    other.Fits s' := by
  obtain ⟨b, hbuilds, hproject, hkey, hmatch⟩ := hcreates.build
  refine ⟨hother.checked, fun hwaiting hlocked id b' hb' hnames hpipeline => ?_,
    fun hbound => hpipelines ▸ hother.bound hbound, fun hinserted id b' hb' hnames => ?_⟩
  · rcases (hbuilds _ _).mp hb' with hb' | ⟨-, rfl⟩
    · exact hother.foreign hwaiting hlocked hb' hnames hpipeline
    · refine hex.lock (p := tx.request.input.pipelineId) (by simp [Tx.holds, hpoint]) ?_
      simpa [Tx.holds, hwaiting] using Option.mem_unique hpipeline hmatch.pipeline
  · rcases (hbuilds _ _).mp hb' with hb' | ⟨-, rfl⟩
    · exact hother.reserved hinserted hb' hnames
    · refine hex.key (p := tx.request.input.projectId)
        (k := tx.request.input.idempotencyKey) (by simp [Tx.reserves, hpoint]) ?_
      simp [Tx.reserves, hinserted, ← hnames.1, ← hnames.2, hproject, hkey]

end Next

/-! ## Runs -/

/-- The invariant of interleaved admissions. -/
structure Database.Sound [Platform] (d : Database) : Prop where
  store : d.store.Consistent
  fits : ∀ {id tx}, d.transactions.lookup id = some tx → tx.Fits d.store
  exclusive : ∀ {id tx id' tx'}, d.transactions.lookup id = some tx →
    d.transactions.lookup id' = some tx' → id ≠ id' → Exclusive tx tx'
  answers : ∀ a ∈ d.answers, a.Idempotent

/-- The answers, latest first, lead from one committed store to another. -/
def Linked (s : Store) : List Answer → Store → Prop
  | [], s' => s' = s
  | a :: rest, s' => a.after = s' ∧ Linked s rest a.before

namespace Database

variable {d : Database}

theorem mem_others {id id' : ℕ} {tx' : Tx} (hlook : d.transactions.lookup id' = some tx')
    (hne : id' ≠ id) : tx' ∈ d.others id :=
  List.mem_map.mpr ⟨(id', tx'), Table.mem_select.mpr ⟨hlook, by simpa using hne⟩, rfl⟩

variable [Platform]

/-- A transaction that is put in place of another one, or beside the others. -/
theorem Sound.insert (hd : d.Sound) {id : ℕ} {tx : Tx} (hfits : tx.Fits d.store)
    (hex : ∀ {id' tx'}, d.transactions.lookup id' = some tx' → id' ≠ id → Exclusive tx tx') :
    Sound { d with transactions := d.transactions.insert id tx } := by
  refine ⟨hd.store, fun hlook => ?_, fun hlook hlook' hne => ?_, hd.answers⟩
  · rcases Table.lookup_insert_cases hlook with ⟨rfl, rfl⟩ | ⟨-, hlook⟩
    · exact hfits
    · exact hd.fits hlook
  · rcases Table.lookup_insert_cases hlook with ⟨hid, rfl⟩ | ⟨hid, hold⟩ <;>
      rcases Table.lookup_insert_cases hlook' with ⟨hid', rfl⟩ | ⟨hid', hold'⟩
    · exact absurd (hid.trans hid'.symm) hne
    · exact hex hold' hid'
    · exact (hex hold hid).symm
    · exact hd.exclusive hold hold' hne

theorem Sound.finish (hd : d.Sound) {id : ℕ} (hlook : d.transactions.lookup id = some tx)
    {answer : Except StoreError (Store × DagAdmission)}
    (hnext : tx.next d.store (d.others id) = .ends answer) :
    (d.finish id (.of tx d.store answer)).Sound := by
  obtain ⟨hright, hafter⟩ := (hd.fits hlook).ends hd.store hnext
  have hanswers : ∀ a ∈ Answer.of tx d.store answer :: d.answers, a.Idempotent := by
    rintro a (_ | ⟨_, hmem⟩)
    · exact hright
    · exact hd.answers a hmem
  refine ⟨?_, fun hother => ?_, fun hfst hsnd hne => ?_, hanswers⟩
  · change (Answer.of tx d.store answer).after.Consistent
    rcases hafter with hsame | ⟨s', _, _, heq, -, hs', -⟩
    · rw [hsame]
      exact hd.store
    · rw [heq]
      exact hs'
  · obtain ⟨hne, hother⟩ := Table.lookup_erase_cases hother
    change Tx.Fits _ (Answer.of tx d.store answer).after
    rcases hafter with hsame | ⟨s', _, _, heq, hpoint, -, hpipelines, hcreates⟩
    · rw [hsame]
      exact hd.fits hother
    · rw [heq]
      exact (hd.fits hother).commit (hd.exclusive hlook hother hne.symm) hpoint hpipelines hcreates
  · exact hd.exclusive (Table.lookup_erase_cases hfst).2 (Table.lookup_erase_cases hsnd).2 hne

theorem Sound.step (hd : d.Sound) (event : Event) : (d.step event).Sound := by
  cases event with
  | begin =>
    rw [Database.step]
    split
    · exact hd
    · refine hd.insert ⟨fun h => absurd rfl h, fun h => absurd rfl h, fun h => by simp at h,
        fun h => by cases h⟩ fun _ _ => ⟨fun hholds => ?_, fun hreserves => ?_⟩
      · simp [Tx.holds] at hholds
      · simp [Tx.reserves] at hreserves
  | advance =>
    rw [Database.step]
    split
    · exact hd
    next tx hlook =>
    split
    · exact hd
    next point hnext =>
      have hmoves := Tx.moves_of_next hnext
      exact hd.insert ((hd.fits hlook).moves hmoves) fun hlook' hne =>
        (hd.exclusive hlook hlook' hne.symm).moves (mem_others hlook' hne) hmoves
    next answer hnext => exact hd.finish hlook hnext
  | abandon =>
    exact ⟨hd.store, fun hlook => hd.fits (Table.lookup_erase_cases hlook).2,
      fun hfst hsnd => hd.exclusive (Table.lookup_erase_cases hfst).2
        (Table.lookup_erase_cases hsnd).2, hd.answers⟩

theorem Sound.run (hd : d.Sound) (events : List Event) : (d.run events).Sound := by
  unfold Database.run
  induction events generalizing d with
  | nil => exact hd
  | cons event _ ih => exact ih (hd.step event)

theorem sound_start {s : Store} (hs : s.Consistent) : (start s).Sound :=
  ⟨hs, fun hlook => absurd hlook (by simp [start]), fun hlook => absurd hlook (by simp [start]),
    fun _ hmem => absurd hmem (by simp [start])⟩

/-- The committed store changes with an answer only. -/
theorem linked_step {s : Store} (hlinked : Linked s d.answers d.store) (event : Event) :
    Linked s (d.step event).answers (d.step event).store := by
  have hbefore (tx : Tx) (answer : Except StoreError (Store × DagAdmission)) :
      (Answer.of tx d.store answer).before = d.store := by
    rcases answer with error | ⟨s', admission⟩ <;> rfl
  cases event with
  | begin =>
    rw [Database.step]
    split <;> exact hlinked
  | advance =>
    rw [Database.step]
    split
    · exact hlinked
    next tx hlook =>
    split
    · exact hlinked
    · exact hlinked
    next answer hnext =>
      refine ⟨rfl, ?_⟩
      rw [hbefore]
      exact hlinked
  | abandon => exact hlinked

theorem linked_run {s : Store} (hlinked : Linked s d.answers d.store) (events : List Event) :
    Linked s (d.run events).answers (d.run events).store := by
  unfold Database.run
  induction events generalizing d with
  | nil => exact hlinked
  | cons event _ ih => exact ih (linked_step hlinked event)

end Database

/-- **DAG admission is idempotent per key.**  After every interleaving of admissions a project has
at most one build under an idempotency key; the committed store has changed with answers only; and
every answer is right.  An admission whose key exists gets the identifiers of that build exactly if
its contract is valid and its normalized contract, pipeline binding and digest are the stored ones,
and it never changes the store; a created build has one node, one first attempt and one dependency
row for each node and edge of the contract, and the queued nodes are those without dependencies. -/
theorem dag_admission_idempotent [Platform] {s : Store} (hreach : s.Reachable)
    (events : List Database.Event) :
    (∀ id b id' b', ((Database.start s).run events).store.builds.lookup id = some b →
      ((Database.start s).run events).store.builds.lookup id' = some b' →
      b.projectId = b'.projectId → b.idempotencyKey = b'.idempotencyKey → id = id') ∧
    Linked s ((Database.start s).run events).answers ((Database.start s).run events).store ∧
    ∀ a ∈ ((Database.start s).run events).answers, a.Idempotent := by
  have hsound := (Database.sound_start hreach.consistent).run events
  refine ⟨fun id b id' b' hb hb' => hsound.store.keyed.unique hb hb', ?_, hsound.answers⟩
  exact Database.linked_run (d := Database.start s) rfl events

namespace Sample

/-- A build of one node with the given capabilities. -/
def job (capabilities : List String) : NewDagBuild :=
  ⟨1, 2, 1, 1, "k", Store.Sample.digest, 0,
    [{ nodeKey := "a", kind := .work, dependencies := [], requiredCapabilities := capabilities,
       requiredPlatform := "linux", requiredTrustPool := "pool", priority := 0,
       executionSpec := .null, failFast := false, maxAttempts := 1 }], .arr []⟩

/-- A saved pipeline. -/
def saved : List Op :=
  [.putPipeline 0 Store.Sample.pipeline none "owner"]

/-- Two admissions of one key at the same time. -/
def race : List Database.Event :=
  [.begin 0 0 (fun i => 100 + i) (.dag (job ["a"])),
    .begin 1 0 (fun i => 200 + i) (.dag (job ["a"])), .advance 0, .advance 1, .advance 0,
    .advance 0, .advance 0, .advance 0, .advance 1, .advance 1]

/-- An admission of a key that exists, by a contract that repeats a capability. -/
def repeated : List Database.Event :=
  [.begin 0 0 (fun i => 200 + i) (.dag (job ["a", "a"])), .advance 0]

end Sample

open Sample Store.Sample in
/-- Of two admissions of one key at the same time, one creates the build and the other is answered
with it. -/
theorem dag_admission_idempotent_race :
    ((@Database.run platform (.start (stateAfter saved)) race).answers.map fun a =>
      a.result.toOption.map fun admission => (admission.buildId, admission.created)) =
        [some (100, false), some (100, true)] ∧
    ∀ a ∈ (@Database.run platform (.start (stateAfter saved)) race).answers,
      @Answer.Idempotent platform a := by
  refine ⟨by decide +kernel, ?_⟩
  exact (@dag_admission_idempotent platform _ (@Store.reachable_runOps platform 9 saved) race).2.2

open Sample Store.Sample in
/-- A contract that repeats a capability is refused although its normalized contract, its pipeline
binding and its digest are those of the build that has the key. -/
theorem repeated_capability_refused_on_replay :
    ∃ a ∈ (@Database.run platform (.start (stateAfter (saved ++
        [.admitDag 0 (fun i => 100 + i) (job ["a"])]))) repeated).answers,
      (∃ b, a.before.builds.lookup 100 = some b ∧ a.tx.Names b ∧
        b.Matches a.tx.request.input a.tx.request.contract) ∧ a.result.isOk = false := by
  have hanswer : ((@Database.run platform (.start (stateAfter (saved ++
      [.admitDag 0 (fun i => 100 + i) (job ["a"])]))) repeated).answers.any fun a =>
        (a.before.builds.lookup 100).any (fun b =>
          b.projectId = a.tx.request.input.projectId &&
          b.idempotencyKey = a.tx.request.input.idempotencyKey &&
          b.pipelineId = some a.tx.request.input.pipelineId &&
          b.pipelineRevision = some a.tx.request.input.pipelineRevision &&
          b.pipelineOperationalGeneration = some a.tx.request.input.pipelineOperationalGeneration &&
          b.pipelineDigest = a.tx.request.input.pipelineDigest &&
          b.dagContract = some a.tx.request.contract) && !a.result.isOk) = true := by
    decide +kernel
  obtain ⟨a, hmem, hchecked⟩ := List.any_eq_true.mp hanswer
  rw [Bool.and_eq_true, Option.any_eq_true] at hchecked
  obtain ⟨⟨b, hb, hrow⟩, hrefused⟩ := hchecked
  simp only [Bool.and_eq_true, decide_eq_true_eq] at hrow
  obtain ⟨⟨⟨⟨⟨⟨hproject, hkey⟩, hpipeline⟩, hrevision⟩, hgeneration⟩, hdigest⟩, hcontract⟩ := hrow
  exact ⟨a, hmem, ⟨b, hb, ⟨hproject, hkey⟩, hpipeline, hrevision, hgeneration, hdigest, hcontract⟩,
    by simpa using hrefused⟩

/-! ## Serial execution -/

section Serial

variable [Platform]

/-- An answer with a build is that of the whole admission in the store before it, and a refusal
leaves the store. -/
def Answer.Serial (a : Answer) : Prop :=
  match a.result with
  | .ok admission => a.before.admitWhole a.tx.now a.tx.ids a.tx.request = .ok (a.after, admission)
  | .error _ => a.after = a.before

/-- The whole admissions of the answers with a build, one after another. -/
def serially (s : Store) : List Answer → Store
  | [] => s
  | a :: rest =>
    match a.result with
    | .ok _ =>
      (serially s rest).after ((serially s rest).admitWhole a.tx.now a.tx.ids a.tx.request)
    | .error _ => serially s rest

theorem serially_eq {answers : List Answer} (hserial : ∀ a ∈ answers, a.Serial)
    (hlinked : Linked s answers s') : serially s answers = s' := by
  induction answers generalizing s' with
  | nil => exact hlinked.symm
  | cons a rest ih =>
    obtain ⟨rfl, hrest⟩ := hlinked
    have hbefore := ih (fun a' ha' => hserial a' (.tail _ ha')) hrest
    have ha := hserial a (.head _)
    unfold Answer.Serial at ha
    rw [serially, hbefore]
    split at ha
    · rw [ha]
      rfl
    · exact ha.symm

/-- The statement that ends a transaction answers as the whole admission would. -/
theorem Tx.Fits.serial {others : List Tx} (hfits : tx.Fits s)
    {answer : Except StoreError (Store × DagAdmission)} (hnext : tx.next s others = .ends answer) :
    (Answer.of tx s answer).Serial := by
  suffices hwhole : ∀ s' admission, answer = .ok (s', admission) →
      s.admitWhole tx.now tx.ids tx.request = .ok (s', admission) by
    rcases answer with error | ⟨s', admission⟩
    · rfl
    · exact hwhole s' admission rfl
  intro s' admission hok
  subst hok
  unfold Tx.next at hnext
  simp only at hnext
  split at hnext
  · split at hnext
    · cases hnext
    · split at hnext <;> cases hnext
  next hpoint =>
    split at hnext
    · next hfound =>
      exact (Store.admit_eq_replay (hfits.checked (by simp [hpoint])) hfound).trans
        (Progress.ends.inj hnext)
    · cases hnext
  · split at hnext
    · cases hnext
    · split at hnext <;> cases hnext
  next hpoint =>
    split at hnext
    · cases hnext
    split at hnext
    · next hfound =>
      exact (Store.admit_eq_replay (hfits.checked (by simp [hpoint])) hfound).trans
        (Progress.ends.inj hnext)
    · cases hnext
  next hpoint =>
    obtain ⟨hbinding, hdigest⟩ := hfits.bound (.inr hpoint)
    have hkey := Store.buildByKey_eq_none fun hb hproject hkey =>
      hfits.reserved hpoint hb ⟨hproject, hkey⟩
    exact (Store.admit_eq_create (hfits.checked (by simp [hpoint])) hkey hbinding hdigest).trans
      (Progress.ends.inj hnext)

theorem Database.serial_step {d : Database} (hd : d.Sound) (hold : ∀ a ∈ d.answers, a.Serial)
    (event : Event) : ∀ a ∈ (d.step event).answers, a.Serial := by
  cases event with
  | begin =>
    rw [Database.step]
    split <;> exact hold
  | advance =>
    rw [Database.step]
    split
    · exact hold
    next tx hlook =>
    split
    · exact hold
    · exact hold
    next answer hnext =>
      rintro a (_ | ⟨_, hmem⟩)
      · exact (hd.fits hlook).serial hnext
      · exact hold a hmem
  | abandon => exact hold

theorem Database.serial_run {d : Database} (hd : d.Sound) (hold : ∀ a ∈ d.answers, a.Serial)
    (events : List Event) : ∀ a ∈ (d.run events).answers, a.Serial := by
  unfold Database.run
  induction events generalizing d with
  | nil => exact hold
  | cons event _ ih => exact ih (hd.step event) (serial_step hd hold event)

/-- **Admissions are serializable.**  Whatever the interleaving of the statements of admissions, the
committed store is what the whole admissions that were answered with a build make of it one after
another, in the order of their commits, each with the answer it gave. -/
theorem admissions_serializable (organizationId : Uuid) (ops : List Op)
    (events : List Database.Event) :
    let d := (Database.start ((Store.initial organizationId).runOps ops)).run events
    serially ((Store.initial organizationId).runOps ops) d.answers = d.store ∧
      ∀ a ∈ d.answers, a.Serial := by
  have hsound := Database.sound_start
    (Store.reachable_runOps organizationId ops).consistent
  have hserial := Database.serial_run hsound (fun _ ha => by cases ha) events
  exact ⟨serially_eq hserial (Database.linked_run (d := Database.start _) rfl events), hserial⟩

end Serial

end Admission

end McLoving
