import TxnEngine.Proofs.Engine.Aborts
import TxnEngine.Proofs.Pipeline.Upkeep

/-!
# Pipelines that wait

Between the batches of a transaction its pipeline waits in a table. Each pipeline that waits reports
to a file of its own, and what the engine does on behalf of one transaction touches neither the
pipelines of the others nor their files.

Results:
* `Tidy`, `Minds`: the pipelines that wait, and what is done on behalf of one transaction.
* `minds_submit`, `minds_retire`, `minds_retirePipeline`: a pipeline carries a batch, or is let go.
* `readies_batchPipeline`: the pipeline that a batch gets.
* `leaves_endBatch`: what becomes of it.
* `submits_submitWriteBatch`: a whole batch.
-/

namespace TxnEngine

namespace Engine

open Program Directory

variable {σ : Type}

/-! ## Pipelines and their files -/

/-- The pipelines that wait have a file each, under a name that is reserved for it, and no call of
the directory fails. -/
structure Tidy (e : Engine σ) : Prop where
  faultless : e.writes.directory.faults = .none
  confined : ∀ id p, e.pipelines.find? id = some p → p.Confined
  reserved : ∀ id p name, e.pipelines.find? id = some p → p.fileName? = some name →
    name ∈ e.writes.directory.reserved
  apart : ∀ id id' p p' name, e.pipelines.find? id = some p → e.pipelines.find? id' = some p' →
    p.fileName? = some name → p'.fileName? = some name → id = id'

/-- What is done on behalf of a transaction: the pipelines of the others wait as they did, and their
files are not touched. -/
structure Minds (id : TxnId) (e e' : Engine σ) : Prop where
  tidy : e'.Tidy
  isOpen : e'.isOpen = e.isOpen
  others : ∀ other, other ≠ id → e'.pipelines.find? other = e.pipelines.find? other
  spares : ∀ other p name, other ≠ id → e.pipelines.find? other = some p →
    p.fileName? = some name → Spares name e.writes.directory e'.writes.directory

variable {id : TxnId} {e e' e'' : Engine σ}

theorem Minds.refl (id : TxnId) (he : e.Tidy) : Minds id e e :=
  ⟨he, rfl, fun _ _ => rfl, fun _ _ name _ _ _ => .refl name _⟩

theorem Minds.trans (h : Minds id e e') (h' : Minds id e' e'') : Minds id e e'' := by
  refine ⟨h'.tidy, h'.isOpen.trans h.isOpen, fun other hother => ?_,
    fun other p name hother hp hname => ?_⟩
  · rw [h'.others other hother, h.others other hother]
  · have hp' : e'.pipelines.find? other = some p := by rw [h.others other hother, hp]
    exact (h.spares other p name hother hp hname).trans (h'.spares other p name hother hp' hname)

/-- The pipelines stay tidy if the one at hand has a name to itself. -/
theorem Minds.of_own (he : e.Tidy) (hopen : e'.isOpen = e.isOpen)
    (hothers : ∀ other, other ≠ id → e'.pipelines.find? other = e.pipelines.find? other)
    (hfaultless : e'.writes.directory.faults = .none)
    (hspares : ∀ other p name, other ≠ id → e.pipelines.find? other = some p →
      p.fileName? = some name → Spares name e.writes.directory e'.writes.directory)
    (hown : ∀ p, e'.pipelines.find? id = some p → p.Confined ∧ ∀ name, p.fileName? = some name →
      name ∈ e'.writes.directory.reserved ∧
        ∀ other q, other ≠ id → e.pipelines.find? other = some q → q.fileName? ≠ some name) :
    Minds id e e' := by
  refine ⟨⟨hfaultless, fun other p hp => ?_, fun other p name hp hname => ?_,
    fun id₁ id₂ p₁ p₂ name h₁ h₂ hname₁ hname₂ => ?_⟩, hopen, hothers, hspares⟩
  · by_cases hother : other = id
    · exact (hown p (hother ▸ hp)).1
    · exact he.confined other p (hothers other hother ▸ hp)
  · by_cases hother : other = id
    · exact ((hown p (hother ▸ hp)).2 name hname).1
    · rw [hothers other hother] at hp
      exact (hspares other p name hother hp hname).reserved (he.reserved other p name hp hname)
  · by_cases hid₁ : id₁ = id <;> by_cases hid₂ : id₂ = id
    · rw [hid₁, hid₂]
    · rw [hothers id₂ hid₂] at h₂
      exact absurd hname₂ (((hown p₁ (hid₁ ▸ h₁)).2 name hname₁).2 id₂ p₂ hid₂ h₂)
    · rw [hothers id₁ hid₁] at h₁
      exact absurd hname₁ (((hown p₂ (hid₂ ▸ h₂)).2 name hname₂).2 id₁ p₁ hid₁ h₁)
    · rw [hothers id₁ hid₁] at h₁
      rw [hothers id₂ hid₂] at h₂
      exact he.apart id₁ id₂ p₁ p₂ name h₁ h₂ hname₁ hname₂

/-- A pipeline that waits has its file to itself. -/
theorem Tidy.own (he : e.Tidy) {p : Pipeline} (hp : e.pipelines.find? id = some p) :
    p.Confined ∧ ∀ name, p.fileName? = some name → name ∈ e.writes.directory.reserved ∧
      ∀ other q, other ≠ id → e.pipelines.find? other = some q → q.fileName? ≠ some name :=
  ⟨he.confined id p hp, fun name hname => ⟨he.reserved id p name hp hname,
    fun other q hother hq hname' => hother (he.apart other id q p name hq hp hname' hname)⟩⟩

/-- What leaves the pipelines and the files alone. -/
theorem Minds.of_same (id : TxnId) (he : e.Tidy) (hopen : e'.isOpen = e.isOpen)
    (hpipelines : e'.pipelines = e.pipelines) (hwrites : e'.writes = e.writes) : Minds id e e' := by
  refine .of_own he hopen (fun other _ => by rw [hpipelines]) (hwrites ▸ he.faultless)
    (fun _ _ name _ _ _ => hwrites ▸ .refl name _) fun p hp => ?_
  rw [hpipelines] at hp
  rw [hwrites]
  exact he.own hp

/-! ## A pipeline in hand -/

/-- The engine with a pipeline at its place among those that wait. -/
def holding (e : Engine σ) (id : TxnId) (p : Pipeline) : Engine σ :=
  { e with pipelines := e.pipelines.insert id p }

theorem find?_holding_self (e : Engine σ) (id : TxnId) (p : Pipeline) :
    (e.holding id p).pipelines.find? id = some p :=
  Table.find?_insert_self _ _ _

theorem find?_holding_of_ne (e : Engine σ) (p : Pipeline) {other : TxnId} (hother : other ≠ id) :
    (e.holding id p).pipelines.find? other = e.pipelines.find? other :=
  Table.find?_insert_of_ne _ _ (Ne.symm hother)

/-- A pipeline in hand carries a batch. -/
theorem minds_submit [Substrate σ] {p p' : Pipeline} (he : (e.holding id p).Tidy)
    {t : Transaction} {rows : List Mutation} {answer : Except Error BatchResult}
    {w : WriteSide σ} (hrun : (p.submit t rows).run e.writes = ((answer, p'), w)) :
    Minds id (e.holding id p) (({ e with writes := w } : Engine σ).holding id p') := by
  have hp := find?_holding_self e id p
  have hminds : Pipeline.Minds p.fileName? e.writes.directory p'.recorder w.directory := by
    have hyields := (Pipeline.upkept_minds p.fileName? e.writes.directory).submit p t rows
      (.refl (he.own hp).1 _)
    unfold Yields at hyields
    rw [hrun] at hyields
    exact hyields
  have hapart (other : TxnId) (q : Pipeline) (name : String) (hother : other ≠ id)
      (hq : (e.holding id p).pipelines.find? other = some q) (hname : q.fileName? = some name) :
      p.fileName? ≠ some name :=
    fun hname' => ((he.own hp).2 name hname').2 other q hother hq hname
  refine .of_own he rfl (fun other hother => ?_) ?_ (fun other q name hother hq hname => ?_)
    fun q hq => ?_
  · rw [find?_holding_of_ne _ _ hother, find?_holding_of_ne _ _ hother]
  · exact faultless_of_spares hminds.spares he.faultless
  · exact hminds.spares name (hapart other q name hother hq hname)
  · rw [find?_holding_self] at hq
    obtain rfl := Option.some.inj hq
    refine ⟨hminds.confined, fun name hname => ?_⟩
    have hname' : p.fileName? = some name := hminds.named.symm.trans hname
    refine ⟨?_, fun other q hother hq hname => hapart other q name hother hq hname hname'⟩
    rw [show (({ e with writes := w } : Engine σ).holding id p').writes.directory.reserved =
      e.writes.directory.reserved from hminds.reserved]
    exact he.reserved id p name hp hname'

/-- A pipeline in hand is let go. -/
theorem minds_leave {p : Pipeline} (he : (e.holding id p).Tidy)
    (hnone : e.pipelines.find? id = none) {d : Directory}
    (hspares : ∀ other, p.fileName? ≠ some other → Spares other e.writes.directory d) :
    Minds id (e.holding id p) { e with writes.directory := d } := by
  have hp := find?_holding_self e id p
  refine .of_own he rfl (fun other hother => (find?_holding_of_ne _ _ hother).symm)
    (faultless_of_spares hspares he.faultless) (fun other q name hother hq hname => ?_)
    fun q hq => ?_
  · exact hspares name fun hname' => ((he.own hp).2 name hname').2 other q hother hq hname
  · rw [show e.pipelines.find? id = some q from hq] at hnone
    cases hnone

theorem minds_retire {p : Pipeline} (he : (e.holding id p).Tidy)
    (hnone : e.pipelines.find? id = none) :
    Minds id (e.holding id p) ((onWrites p.retire).run e).2 := by
  obtain ⟨d, hrun, hspares⟩ :=
    Pipeline.run_retire_spares (he.confined id p (find?_holding_self e id p)) e.writes
  rw [run_onWrites, hrun]
  exact minds_leave he hnone hspares

theorem minds_discard {p : Pipeline} (he : (e.holding id p).Tidy)
    (hnone : e.pipelines.find? id = none) :
    Minds id (e.holding id p) ((onWrites p.discard).run e).2 := by
  obtain ⟨d, hrun, hspares⟩ :=
    Pipeline.run_discard (he.confined id p (find?_holding_self e id p)) e.writes
  rw [run_onWrites, hrun]
  exact minds_leave he hnone hspares

/-- The engine without the pipeline of a transaction. -/
def without (e : Engine σ) (id : TxnId) : Engine σ :=
  { e with pipelines := e.pipelines.erase id }

theorem find?_without (e : Engine σ) (id : TxnId) : (e.without id).pipelines.find? id = none :=
  Table.find?_erase_self _ _

/-- A pipeline that waits is taken in hand. -/
theorem minds_take {p : Pipeline} (he : e.Tidy) (hp : e.pipelines.find? id = some p) :
    Minds id e ((e.without id).holding id p) := by
  refine .of_own he rfl (fun other hother => ?_) he.faultless (fun _ _ name _ _ _ => .refl name _)
    fun q hq => ?_
  · rw [find?_holding_of_ne _ _ hother]
    exact Table.find?_erase_of_ne _ (Ne.symm hother)
  · rw [find?_holding_self] at hq
    obtain rfl := Option.some.inj hq
    exact he.own hp

theorem minds_erase (id : TxnId) (he : e.Tidy) :
    Minds id e (e.without id) := by
  refine .of_own he rfl (fun other hother => Table.find?_erase_of_ne _ (Ne.symm hother))
    he.faultless (fun _ _ name _ _ _ => .refl name _) fun q hq => ?_
  rw [find?_without] at hq
  cases hq

theorem run_takePipeline (id : TxnId) (e : Engine σ) :
    (takePipeline id).run e = (e.pipelines.find? id, e.without id) := rfl

/-- The pipeline of a transaction that is to end is retired. -/
theorem minds_retirePipeline (id : TxnId) (he : e.Tidy) :
    Minds id e ((retirePipeline id).run e).2 ∧
      ((retirePipeline id).run e).2.pipelines.find? id = none := by
  unfold retirePipeline
  rw [run_bind, run_takePipeline]
  cases hp : e.pipelines.find? id with
  | none => exact ⟨minds_erase id he, find?_without e id⟩
  | some p =>
    have htake := minds_take he hp
    have hretire := minds_retire (e := e.without id) htake.tidy (find?_without e id)
    refine ⟨htake.trans hretire, ?_⟩
    simp only [run_onWrites]
    exact find?_without e id

/-! ## The pipeline of a batch -/

/-- An error that neither stops out of range nor says that the tolerance is exceeded. -/
def Harmless (cause : Error) : Prop :=
  cause ≠ .outOfRange ∧ cause.isBreach = false

/-- What a batch of the given kind gets for its transaction: no pipeline, the one that waits, or a
new one. -/
inductive Readies (id : TxnId) (options : WriteOptions) (e : Engine σ) :
    Except Error Pipeline → Engine σ → Prop
  | refused {cause : Error} {e' : Engine σ} (hminds : Minds id e e')
    (hnone : e'.pipelines.find? id = none) (hsubstrate : e'.writes.substrate = e.writes.substrate)
    (hharmless : Harmless cause)
    (hidle : ∀ p, e.pipelines.find? id = some p →
      accepts p options.isPermissive options.tolerance = false) :
    Readies id options e (.error cause) e'
  | resumed {p : Pipeline} {e' : Engine σ} (hminds : Minds id e (e'.holding id p))
    (hnone : e'.pipelines.find? id = none) (hwrites : e'.writes = e.writes)
    (hwaits : e.pipelines.find? id = some p)
    (haccepts : accepts p options.isPermissive options.tolerance = true) :
    Readies id options e (.ok p) e'
  | began {p : Pipeline} {e' : Engine σ} (hminds : Minds id e (e'.holding id p))
    (hnone : e'.pipelines.find? id = none) (hsubstrate : e'.writes.substrate = e.writes.substrate)
    (hlocator : e'.writes.locator = e.writes.locator)
    (hidle : ∀ p, e.pipelines.find? id = some p →
      accepts p options.isPermissive options.tolerance = false)
    (hoptions : p.options = options) (hstats : p.stats = .zero)
    (hfresh : options.isPermissive = true → ∃ r m, p.recorder = some r ∧
      r.tolerance = options.tolerance ∧ r.Fresh e'.writes.directory ∧
      m < Recorder.candidateLimit ∧ r.physicalName = Recorder.logicalCandidate
        (Recorder.sourceStem (options.sourceName.getD defaultSource)) m) :
    Readies id options e (.ok p) e'

/-- A new pipeline is taken in hand. Its file, if it has one, has a name that was not reserved. -/
theorem minds_began {p : Pipeline} (he : e.Tidy) {d : Directory} (hconfined : p.Confined)
    (hfaultless : d.faults = .none)
    (hspares : ∀ name ∈ e.writes.directory.reserved, Spares name e.writes.directory d)
    (hown : ∀ name, p.fileName? = some name →
      name ∉ e.writes.directory.reserved ∧ name ∈ d.reserved) :
    Minds id e (({ e with writes.directory := d } : Engine σ).holding id p) := by
  refine .of_own he rfl (fun other hother => find?_holding_of_ne _ _ hother) hfaultless
    (fun other q name _ hq hname => hspares name (he.reserved other q name hq hname))
    fun q hq => ?_
  rw [find?_holding_self] at hq
  obtain rfl := Option.some.inj hq
  refine ⟨hconfined, fun name hname => ⟨(hown name hname).2, fun other q _ hq hname' => ?_⟩⟩
  exact (hown name hname).1 (he.reserved other q name hq hname')

/-- The same write side with a name reserved that was not. -/
theorem spares_reserving {d : Directory} (name other : String) :
    Spares other d { d with reserved := name :: d.reserved } :=
  ⟨rfl, id, rfl, List.mem_cons_of_mem name⟩

theorem run_newRecorder (source : String) (tolerance : Int) (e : Engine σ) :
    (newRecorder source tolerance).run e =
      (((Recorder.new source tolerance).run e.writes.directory).1, { e with
        writes.directory := ((Recorder.new source tolerance).run e.writes.directory).2 }) := by
  rw [newRecorder, run_onWrites, Pipeline.run_onDirectory]

/-- A pipeline is made for a recorder that has just reserved its name. -/
theorem readies_newPipeline (he : e.Tidy) (hnone : e.pipelines.find? id = none)
    {options : WriteOptions} (hidle : ∀ p, e.pipelines.find? id = some p →
      accepts p options.isPermissive options.tolerance = false) {r : Recorder}
    (htolerance : r.tolerance = options.tolerance) (hconfined : r.Confined) {m : Nat}
    (hm : m < Recorder.candidateLimit)
    (hname : r.physicalName = Recorder.logicalCandidate
      (Recorder.sourceStem (options.sourceName.getD defaultSource)) m)
    (hfree : r.physicalName ∉ e.writes.directory.reserved)
    (hfresh : r.Fresh { e.writes.directory with
      reserved := r.physicalName :: e.writes.directory.reserved }) (retry : RetryConfig) :
    let made := (newPipeline retry options (some r)).run
      { e with writes.directory.reserved := r.physicalName :: e.writes.directory.reserved }
    Readies id options e made.1 made.2 := by
  unfold newPipeline Pipeline.new
  simp only [Option.isNone_some, Bool.and_false, Bool.false_eq_true, if_false]
  cases retry.validate with
  | error fault =>
    -- the name is given back, and none of those that were reserved before is touched
    obtain ⟨d, hdiscard, hspares⟩ : ∃ d, (discardRecorder (some r)).run
        ({ e with
          writes.directory.reserved := r.physicalName :: e.writes.directory.reserved }) =
          ((), { e with writes.directory := d }) ∧
        ∀ other, some r.physicalName ≠ some other → Spares other e.writes.directory d := by
      refine ⟨_, by rw [discardRecorder, run_onWrites, Pipeline.run_onDirectory],
        fun other hother => (spares_reserving r.physicalName other).trans ?_⟩
      exact Recorder.yields_discard hconfined _ other fun heq => hother (by rw [heq])
    simp only [run_bind, run_pure, hdiscard]
    refine .refused ?_ hnone rfl ⟨by simp, rfl⟩ hidle
    refine .of_own he rfl (fun _ _ => rfl) (faultless_of_spares hspares he.faultless)
      (fun other q name _ hq hname' => hspares name fun heq => ?_) fun q hq => ?_
    · exact hfree (Option.some.inj heq ▸ he.reserved other q name hq hname')
    · rw [hnone] at hq
      cases hq
  | ok valid =>
    refine .began (minds_began he ?_ he.faultless (fun other _ => spares_reserving _ other) ?_)
      hnone rfl rfl hidle rfl rfl fun _ => ⟨r, m, rfl, htolerance, hfresh, hm, hname⟩
    · rintro _ ⟨⟩
      exact hconfined
    · rintro _ ⟨⟩
      exact ⟨hfree, List.mem_cons_self⟩

/-- A pipeline is made for a batch, if none waits. -/
theorem readies_writePipeline (he : e.Tidy) (hopen : e.isOpen = true)
    (hnone : e.pipelines.find? id = none) (options : WriteOptions) :
    Readies id options e ((writePipeline options).run e).1 ((writePipeline options).run e).2 := by
  have hidle (p : Pipeline) (hp : e.pipelines.find? id = some p) :
      accepts p options.isPermissive options.tolerance = false := by
    rw [hnone] at hp
    cases hp
  cases hpermissive : options.isPermissive with
  | false =>
    have hrun : (writePipeline options).run e =
        (newPipeline e.config.retry options none : Program (Engine σ) _).run e := by
      simp [writePipeline, whenOpen, hopen, hpermissive]
    rw [hrun]
    unfold newPipeline Pipeline.new
    rw [hpermissive]
    cases e.config.retry.validate with
    | error fault => exact .refused (.refl id he) hnone rfl ⟨by simp, rfl⟩ hidle
    | ok valid =>
      refine .began (minds_began he (by simp [Pipeline.Confined]) he.faultless
        (fun name _ => .refl name _) (by simp [Pipeline.fileName?])) hnone rfl rfl hidle rfl rfl ?_
      simp [hpermissive]
  | true =>
    have hrecorder := run_newRecorder (options.sourceName.getD defaultSource) options.tolerance e
    obtain ⟨cause, hnew, hkind⟩ | ⟨m, name, hm, hname, hfree, hnew⟩ := Recorder.run_new_cases
      he.faultless (options.sourceName.getD defaultSource) options.tolerance
    · rw [hnew] at hrecorder
      have hrefused :
          (newRecorder (options.sourceName.getD defaultSource) options.tolerance).run e =
            (.error cause, e) := hrecorder
      have hrun : (writePipeline options).run e = (.error cause, e) := by
        simp [writePipeline, whenOpen, hopen, hpermissive, hrefused]
      rw [hrun]
      refine .refused (.refl id he) hnone rfl ?_ hidle
      rcases hkind with rfl | ⟨cause, rfl⟩ <;> exact ⟨by simp, rfl⟩
    · rw [hnew] at hrecorder
      have hrun : (writePipeline options).run e = (newPipeline e.config.retry options
          (some ⟨name, name, options.tolerance, 0, none, false⟩) : Program (Engine σ) _).run
            { e with writes.directory.reserved := name :: e.writes.directory.reserved } := by
        simp [writePipeline, whenOpen, hopen, hpermissive, hrecorder]
      rw [hrun]
      exact readies_newPipeline he hnone hidle rfl (by simp [Recorder.Confined]) hm hname hfree
        (.ofLoad he.faultless hnew) e.config.retry

/-- What a batch gets behind a step that has left its transaction without a pipeline. -/
theorem Readies.behind {options : WriteOptions} {e₁ : Engine σ} {answer : Except Error Pipeline}
    (hminds : Minds id e e₁) (hnone : e₁.pipelines.find? id = none)
    (hsubstrate : e₁.writes.substrate = e.writes.substrate)
    (hlocator : e₁.writes.locator = e.writes.locator)
    (hidle : ∀ p, e.pipelines.find? id = some p →
      accepts p options.isPermissive options.tolerance = false)
    (h : Readies id options e₁ answer e') : Readies id options e answer e' := by
  cases h with
  | refused hminds' hnone' hsubstrate' hharmless _ =>
    exact .refused (hminds.trans hminds') hnone' (hsubstrate'.trans hsubstrate) hharmless hidle
  | resumed _ _ _ hwaits _ =>
    rw [hnone] at hwaits
    cases hwaits
  | began hminds' hnone' hsubstrate' hlocator' _ hoptions hstats hfresh =>
    exact .began (hminds.trans hminds') hnone' (hsubstrate'.trans hsubstrate)
      (hlocator'.trans hlocator) hidle hoptions hstats hfresh

/-- The options of a pipeline for batches of a transaction. -/
def batchOptions (id : TxnId) (permissive : Bool) (tolerance : Int) : WriteOptions :=
  ⟨permissive, tolerance, some ("txn-" ++ toString id.val.toNat)⟩

/-- What a batch gets for its transaction. -/
theorem readies_batchPipeline (he : e.Tidy) (hopen : e.isOpen = true) (id : TxnId)
    (permissive : Bool) (tolerance : Int) :
    Readies id (batchOptions id permissive tolerance) e
      ((batchPipeline id permissive tolerance).run e).1
      ((batchPipeline id permissive tolerance).run e).2 := by
  unfold batchPipeline
  rw [run_bind, run_takePipeline]
  cases hp : e.pipelines.find? id with
  | none =>
    have hidle (p : Pipeline) (hwaits : e.pipelines.find? id = some p) :
        accepts p permissive tolerance = false := by
      rw [hp] at hwaits
      cases hwaits
    have herase := minds_erase id he
    exact .behind herase (find?_without e id) rfl rfl hidle
      (readies_writePipeline herase.tidy hopen (find?_without e id) _)
  | some p =>
    have htake := minds_take he hp
    simp only
    split_ifs with haccepts
    · exact .resumed htake (find?_without e id) rfl hp haccepts
    · have hidle (q : Pipeline) (hq : e.pipelines.find? id = some q) :
          accepts q permissive tolerance = false := by
        rw [hp] at hq
        cases hq
        simpa using haccepts
      have hretire := minds_retire (e := e.without id) htake.tidy (find?_without e id)
      obtain ⟨d, hrun, -⟩ := Pipeline.run_retire_spares (he.confined id p hp) e.writes
      have hretired : (onWrites p.retire).run (e.without id) =
          ((), { e.without id with writes.directory := d }) := by
        rw [run_onWrites]
        exact congrArg (fun x => (x.1, { e.without id with writes := x.2 })) hrun
      rw [run_bind, hretired]
      rw [hretired] at hretire
      exact .behind (htake.trans hretire) (find?_without e id) rfl rfl hidle
        (readies_writePipeline hretire.tidy hopen (find?_without e id) _)

/-! ## The end of a batch -/

/-- Whether the pipeline of a batch waits for further ones. -/
def keeps (permissive : Bool) (answer : Except Error BatchResult) (t : Transaction) : Bool :=
  permissive && decide (answer ≠ .error .outOfRange) && t.isActive

/-- What becomes of the pipeline in hand when a batch of the transaction `t` is over. -/
structure Leaves (t : Transaction) (permissive : Bool) (answer : Except Error BatchResult)
    (p : Pipeline) (e : Engine σ) (t' : Transaction) (e' : Engine σ) : Prop where
  minds : Minds t.id (e.holding t.id p) e'
  kept : keeps permissive answer t' = true →
    e'.pipelines.find? t.id = some p ∧ e'.writes = e.writes
  left : keeps permissive answer t' = false → e'.pipelines.find? t.id = none ∧
    (answer ≠ .error .outOfRange → e'.writes = (p.retire.run e.writes).2)

/-- A pipeline in hand waits for further batches, or is retired. -/
theorem leaves_leavePipeline {t t' : Transaction} {p : Pipeline} (he : (e.holding t.id p).Tidy)
    (hnone : e.pipelines.find? t.id = none) (hid : t'.id = t.id) (permissive : Bool)
    (answer : Except Error BatchResult) (hreturns : answer ≠ .error .outOfRange) :
    let left := (do
      if permissive && t'.isActive then keepPipeline t'.id p else onWrites p.retire
      return t' : Program (Engine σ) Transaction).run e
    Leaves t permissive answer p e left.1 left.2 := by
  have hkeeps : keeps permissive answer t' = (permissive && t'.isActive) := by
    simp [keeps, hreturns]
  intro left
  cases hwaits : permissive && t'.isActive with
  | true =>
    have hleft : left = (t', e.holding t.id p) := by
      simp only [left, hwaits, if_true, hid]
      rfl
    rw [hleft]
    refine ⟨.refl t.id he, fun _ => ⟨find?_holding_self e t.id p, rfl⟩, fun hnot => ?_⟩
    rw [hkeeps, hwaits] at hnot
    cases hnot
  | false =>
    have hleft : left = (t', ((onWrites p.retire).run e).2) := by
      simp only [left, hwaits, Bool.false_eq_true, if_false]
      rw [run_bind, run_pure]
    rw [hleft]
    refine ⟨minds_retire he hnone, fun hwaits' => ?_, fun _ => ?_⟩
    · rw [hkeeps, hwaits] at hwaits'
      cases hwaits'
    · rw [run_onWrites]
      exact ⟨hnone, fun _ => rfl⟩

/-- The end of a batch. -/
theorem leaves_endBatch {t : Transaction} {p : Pipeline} (he : (e.holding t.id p).Tidy)
    (hnone : e.pipelines.find? t.id = none) (permissive : Bool)
    (answer : Except Error BatchResult) :
    let ended := (endBatch t permissive answer p).run e
    Leaves t permissive answer p e ended.1 ended.2 := by
  unfold endBatch
  split
  · have hkeeps (t' : Transaction) : keeps permissive (.error .outOfRange) t' = false := by
      simp [keeps]
    rw [run_bind, run_pure]
    refine ⟨minds_discard he hnone, fun hwaits => ?_, fun _ => ⟨?_, fun hne => absurd rfl hne⟩⟩
    · rw [hkeeps] at hwaits
      cases hwaits
    · rw [run_onWrites]
      exact hnone
  · split
    · next row outcome _ =>
      -- the mark of the failed transaction touches no pipeline
      obtain ⟨e₁, he₁⟩ : ∃ e₁ : Engine σ,
        e₁ = { e with manager := ((Manager.fail t).run e.manager).2 } := ⟨_, rfl⟩
      have hmark : Minds t.id (e.holding t.id p) (e₁.holding t.id p) := by
        subst he₁
        exact .of_same t.id he rfl rfl rfl
      have hid : ((Manager.fail t).run e.manager).1.2.id = t.id := by
        rcases Manager.yields_fail e.manager t with hsame | ⟨-, habort⟩
        · rw [hsame]
        · rw [habort]
          rfl
      have hleaves := leaves_leavePipeline hmark.tidy (by rw [he₁]; exact hnone) hid permissive
        (.error (.writeAborted row outcome)) (by simp)
      subst he₁
      simp only [run_bind, run_onManager, run_pure]
      exact ⟨hmark.trans hleaves.minds, hleaves.kept, hleaves.left⟩
    · exact leaves_leavePipeline he hnone rfl permissive _ (by assumption)

/-! ## A whole batch -/

section Batches

variable [Substrate σ]

/-- What a batch does: it gets no pipeline, or its pipeline carries it and then waits or is let
go. -/
inductive Submits (t : Transaction) (rows : List Mutation) (permissive : Bool) (tolerance : Int)
    (e : Engine σ) : Except Error BatchResult × Transaction → Engine σ → Prop
  | refused {cause : Error} {e' : Engine σ}
    (hreadies : Readies t.id (batchOptions t.id permissive tolerance) e (.error cause) e') :
    Submits t rows permissive tolerance e (.error cause, t) e'
  | carried {p p' : Pipeline} {e₁ e' : Engine σ} {answer : Except Error BatchResult}
    {w : WriteSide σ} {t' : Transaction}
    (hreadies : Readies t.id (batchOptions t.id permissive tolerance) e (.ok p) e₁)
    (hrun : (p.submit t rows).run e₁.writes = ((answer, p'), w))
    (hleaves : Leaves t permissive answer p' { e₁ with writes := w } t' e') :
    Submits t rows permissive tolerance e (answer, t') e'

omit [Substrate σ] in
theorem Readies.holds {options : WriteOptions} {p : Pipeline}
    (h : Readies id options e (.ok p) e') :
    Minds id e (e'.holding id p) ∧ e'.pipelines.find? id = none := by
  cases h with
  | resumed hminds hnone => exact ⟨hminds, hnone⟩
  | began hminds hnone => exact ⟨hminds, hnone⟩

theorem submits_submitWriteBatch (he : e.Tidy) (hopen : e.isOpen = true) (t : Transaction)
    (rows : List Mutation) (permissive : Bool) (tolerance : Int) :
    Submits t rows permissive tolerance e ((submitWriteBatch t rows permissive tolerance).run e).1
      ((submitWriteBatch t rows permissive tolerance).run e).2 := by
  have hreadies := readies_batchPipeline he hopen t.id permissive tolerance
  generalize hfound : (batchPipeline t.id permissive tolerance).run e = found at hreadies
  obtain ⟨found, e₁⟩ := found
  cases found with
  | error cause =>
    have hrun : (submitWriteBatch t rows permissive tolerance).run e = ((.error cause, t), e₁) := by
      simp [submitWriteBatch, whenOpenFor, hopen, hfound]
    rw [hrun]
    exact .refused hreadies
  | ok p =>
    obtain ⟨hminds, hnone⟩ := hreadies.holds
    obtain ⟨answer, p', w, hsubmit⟩ : ∃ answer p' w,
        (p.submit t rows).run e₁.writes = ((answer, p'), w) := ⟨_, _, _, rfl⟩
    have hrun : (submitWriteBatch t rows permissive tolerance).run e =
        let ended := (endBatch t permissive answer p').run { e₁ with writes := w }
        ((answer, ended.1), ended.2) := by
      simp [submitWriteBatch, whenOpenFor, hopen, hfound, run_map, run_onWrites, hsubmit]
    rw [hrun]
    have hcarried := minds_submit hminds.tidy hsubmit
    exact .carried hreadies hsubmit
      (leaves_endBatch (e := { e₁ with writes := w }) hcarried.tidy hnone permissive answer)

/-- A batch touches neither the pipelines of other transactions nor their files. -/
theorem Submits.minds {t : Transaction} {rows : List Mutation} {permissive : Bool}
    {tolerance : Int} {out : Except Error BatchResult × Transaction}
    (h : Submits t rows permissive tolerance e out e') : Minds t.id e e' := by
  cases h with
  | refused hreadies =>
    cases hreadies with
    | refused hminds => exact hminds
  | carried hreadies hrun hleaves =>
    obtain ⟨hminds, -⟩ := hreadies.holds
    exact (hminds.trans (minds_submit hminds.tidy hrun)).trans hleaves.minds

end Batches

end Engine

end TxnEngine
