import TxnEngine.Proofs.BadRecords.Names
import TxnEngine.Proofs.Engine.BatchPipelines

/-!
# One tolerance for a series of batches

Batches of one transaction that are permissive with the same tolerance are counted together: the one
in which the number of refused rows goes beyond the tolerance ends with an error that says so, and
all rows that were refused are reported in one file. Other transactions can do what they like in
between. The series ends with a batch of another kind, with the transaction, and with the attempt to
end it: a commit or rollback that fails and leaves the transaction active lets its pipeline go all
the same, and the count begins anew.

Results:
* `accepted_batchName`: every place takes the name of the file of a transaction.
* `Counts`, `adds_of_submits`, `counts_of_submits_other`: what the pipeline of a series has counted,
  what a batch adds, and which batches end the series.
* `Session.series`, `Session.tracks_run`: the calls of the series that is under way, which the
  engine has counted.
* `Session.breaches_iff_of_series`: which batch exceeds the tolerance, and the file of a series.
* `Session.not_forall_series_across`: an attempt to commit that fails ends a series.
-/

namespace TxnEngine

namespace Engine

open Program Directory

/-- Every place takes the names of the files of a transaction. -/
theorem accepted_batchName (p : Place) (id : TxnId) {m : Nat} (hm : m < Recorder.candidateLimit)
    {permissive : Bool} {tolerance : Int} :
    p.refusal? (Recorder.logicalCandidate (Recorder.sourceStem
      ((batchOptions id permissive tolerance).sourceName.getD defaultSource)) m) = none := by
  have hlength : ("txn-" ++ toString id.val.toNat).length ≤ 24 := by
    have hdigits : (toString id.val.toNat).length ≤ 20 :=
      Recorder.length_toString_le (by decide) (Nat.lt_trans id.val.toNat_lt (by decide))
    rw [String.length_append]
    have hfront : "txn-".length = 4 := rfl
    omega
  refine Recorder.accepted_logicalCandidate p ?_ ?_ (Nat.le_trans hlength (by decide)) hm
  · simp
  · exact Recorder.isPlain_of_mem_numbered (by simp [Recorder.IsPlain])

/-! ## What the pipeline of a series has counted -/

section Series

variable {σ : Type} {id : TxnId} {tolerance : Int} {calls : List Exchange}
  {e e' : Engine (Observed σ)}

theorem accepts_iff {p : Pipeline} {permissive : Bool} :
    accepts p permissive tolerance = true ↔
      permissive = true ∧ p.options.isPermissive = true ∧ p.options.tolerance = tolerance := by
  simp [accepts, and_assoc]

/-- How the pipelines stand when the series of batches of a transaction with a tolerance has made
these calls: the pipeline that waits for more of them has counted and reported the rows that were
refused. If none waits, the series has not begun. -/
def Counts (id : TxnId) (tolerance : Int) (calls : List Exchange) (e : Engine (Observed σ)) :
    Prop :=
  (∃ p name, e.pipelines.find? id = some p ∧ accepts p true tolerance = true ∧
    Pipeline.InStep tolerance name p (e.writes.behind calls)) ∨
  (∀ p, e.pipelines.find? id = some p → accepts p true tolerance = false) ∧ calls = []

theorem Counts.of_none (h : e.pipelines.find? id = none) (tolerance : Int) :
    Counts id tolerance [] e := by
  refine .inr ⟨fun p hp => ?_, rfl⟩
  rw [h] at hp
  cases hp

/-- What is done on behalf of another transaction leaves the series as it is. -/
theorem Counts.other (h : Counts id tolerance calls e) {other : TxnId} (hother : id ≠ other)
    (hminds : Minds other e e') : Counts id tolerance calls e' := by
  have hsame := hminds.others id hother
  rcases h with
    ⟨p, name, hp, haccepts, ⟨r, hr, htolerance, hname, hreports⟩, hignored⟩ | ⟨hidle, hcalls⟩
  · have hfile : p.fileName? = some r.physicalName := by rw [Pipeline.fileName?, hr]; rfl
    exact .inl ⟨p, name, hsame.trans hp, haccepts, ⟨r, hr, htolerance, hname,
      hreports.spared (hminds.spares id p _ hother hp hfile)⟩, hignored⟩
  · exact .inr ⟨by rw [hsame]; exact hidle, hcalls⟩

/-- The pipeline of a batch is of the kind of the batch. -/
theorem Readies.kind {permissive : Bool} {p : Pipeline}
    (h : Readies id (batchOptions id permissive tolerance) e (.ok p) e') :
    p.options.isPermissive = permissive ∧ p.options.tolerance = tolerance := by
  cases h with
  | resumed _ _ _ _ haccepts =>
    obtain ⟨hpermissive, hsame, htolerance⟩ := accepts_iff.mp haccepts
    exact ⟨hsame.trans hpermissive.symm, htolerance⟩
  | began _ _ _ _ _ hoptions =>
    rw [hoptions]
    exact ⟨rfl, rfl⟩

/-- The file of a pipeline that has counted a series. -/
theorem contents_of_inStep {p : Pipeline} {name : String} {w : WriteSide (Observed σ)}
    (h : Pipeline.InStep tolerance name p (w.behind calls)) :
    w.directory.contents? name = BadRecord.file? tolerance (rejectsOf tolerance calls) := by
  obtain ⟨⟨r, -, rfl, rfl, hreports⟩, -⟩ := h
  exact hreports.holds.contents

/-- The pipeline of a batch goes on with the series. -/
theorem Counts.readied (h : Counts id tolerance calls e) {p : Pipeline}
    (hreadies : Readies id (batchOptions id true tolerance) e (.ok p) e') :
    e'.writes.substrate = e.writes.substrate ∧ e'.writes.locator = e.writes.locator ∧
    ∃ name, Pipeline.InStep tolerance name p (e'.writes.behind calls) ∧
      (rejectsOf tolerance calls ≠ [] → e.writes.directory.contents? name =
        BadRecord.file? tolerance (rejectsOf tolerance calls)) := by
  cases hreadies with
  | resumed hminds hnone hwrites hwaits haccepts =>
    obtain ⟨p', name, hp, -, hinStep⟩ | ⟨hidle, -⟩ := h
    · rw [hwaits] at hp
      cases hp
      rw [hwrites]
      exact ⟨rfl, rfl, name, hinStep, fun _ => contents_of_inStep hinStep⟩
    · exact absurd haccepts (Bool.eq_false_iff.mp (hidle p hwaits))
  | began hminds hnone hsubstrate hlocator hidle hoptions hstats hfresh =>
    obtain ⟨p', name, hp, haccepts, -⟩ | ⟨-, rfl⟩ := h
    · exact absurd haccepts (Bool.eq_false_iff.mp (hidle p' hp))
    · obtain ⟨r, m, hr, htolerance, hmade, hm, hname⟩ := hfresh rfl
      have haccepted : e'.writes.directory.place.refusal? r.physicalName = none := by
        rw [hname]
        exact accepted_batchName _ id hm
      refine ⟨hsubstrate, hlocator, r.physicalName, ⟨⟨r, hr, htolerance, rfl, ?_⟩, ?_⟩, ?_⟩
      · exact hmade.reports haccepted
      · rw [hstats]
        rfl
      · exact fun hsome => absurd rfl hsome

variable [Substrate σ] {t t' : Transaction} {rows : List Mutation}
  {answer : Except Error BatchResult}

/-- A batch of another kind, or one whose pipeline is let go, ends the series. -/
theorem counts_of_submits_other {permissive : Bool} {tolerance' : Int}
    (h : Submits t rows permissive tolerance' e (answer, t') e')
    (hother : keeps permissive answer t' = true → tolerance' ≠ tolerance) :
    Counts t.id tolerance [] e' := by
  cases h with
  | refused hreadies =>
    cases hreadies with
    | refused _ hnone => exact .of_none hnone tolerance
  | @carried p p' e₁ _ _ w _ hreadies hrun hleaves =>
    cases hkeeps : keeps permissive answer t' with
    | false => exact .of_none (hleaves.left hkeeps).1 tolerance
    | true =>
      refine .inr ⟨fun q hq => ?_, rfl⟩
      rw [(hleaves.kept hkeeps).1] at hq
      cases hq
      rw [Bool.eq_false_iff, ne_eq, accepts_iff, Pipeline.submit_options hrun, hreadies.kind.2]
      exact fun haccepts => hother hkeeps haccepts.2.2

/-- What a batch adds to its series. -/
structure Adds (t : Transaction) (tolerance : Int) (calls made : List Exchange)
    (answer : Except Error BatchResult) (t' : Transaction) (e e' : Engine (Observed σ)) : Prop where
  exchanges : e'.writes.substrate.exchanges = e.writes.substrate.exchanges ++ made
  counts : Counts t.id tolerance (if keeps true answer t' then calls ++ made else []) e'
  tells : Pipeline.Tells tolerance (rejectsOf tolerance calls).length
    (rejectsOf tolerance (calls ++ made)).length answer
    (Pipeline.Honest (e.writes.behind calls) (e'.writes.behind (calls ++ made)))
  file : rejectsOf tolerance (calls ++ made) ≠ [] → ∃ name,
    (rejectsOf tolerance calls ≠ [] → e.writes.directory.contents? name =
      BadRecord.file? tolerance (rejectsOf tolerance calls)) ∧
    e'.writes.directory.contents? name =
      BadRecord.file? tolerance (rejectsOf tolerance (calls ++ made))

/-- A batch of the same kind goes on with the series. -/
theorem adds_of_submits (h : Counts t.id tolerance calls e)
    (hs : Submits t rows true tolerance e (answer, t') e')
    (hreturns : answer ≠ .error .outOfRange) :
    ∃ made, Adds t tolerance calls made answer t' e e' := by
  cases hs with
  | refused hreadies =>
    cases hreadies with
    | refused _ hnone hsubstrate hharmless hidle =>
      obtain ⟨p, name, hp, haccepts, -⟩ | ⟨-, rfl⟩ := h
      · exact absurd haccepts (Bool.eq_false_iff.mp (hidle p hp))
      · refine ⟨[], by rw [hsubstrate, List.append_nil], ?_, Pipeline.Tells.same ?_, ?_⟩
        · rw [List.append_nil, ite_self]
          exact .of_none hnone tolerance
        · rintro _ ⟨⟩ hbreach
          rw [hharmless.2] at hbreach
          cases hbreach
        · exact fun hsome => absurd rfl hsome
  | @carried p p' e₁ _ _ w _ hreadies hrun hleaves =>
    obtain ⟨hsubstrate, hlocator, name, hinStep, hbefore⟩ := h.readied hreadies
    obtain ⟨made, hmade, hinStep', htells⟩ :=
      Pipeline.reports_submit_behind hreadies.kind.1 hinStep t rows hrun hreturns
    have hcontents := contents_of_inStep hinStep'
    -- the pipeline waits with its file open, or the file is closed
    obtain ⟨hsame, hfile, hcounts⟩ : e'.writes.substrate = w.substrate ∧
        e'.writes.directory.contents? name = w.directory.contents? name ∧
        Counts t.id tolerance (if keeps true answer t' then calls ++ made else []) e' := by
      cases hkeeps : keeps true answer t' with
      | true =>
        obtain ⟨hp', hwrites⟩ := hleaves.kept hkeeps
        have haccepts : accepts p' true tolerance = true := by
          rw [accepts_iff, Pipeline.submit_options hrun]
          exact ⟨rfl, hreadies.kind⟩
        rw [hwrites]
        exact ⟨rfl, rfl, .inl ⟨p', name, hp', haccepts, by rw [hwrites]; exact hinStep'⟩⟩
      | false =>
        obtain ⟨hnone, hwrites⟩ := hleaves.left hkeeps
        obtain ⟨⟨r, hr, -, rfl, hreports⟩, -⟩ := hinStep'
        rw [hwrites hreturns]
        refine ⟨by rw [p'.run_retire hr], ?_, .of_none hnone tolerance⟩
        exact (Pipeline.contents_retire (w := w) hr hreports.holds).trans
          hreports.holds.contents.symm
    refine ⟨made, ?_, hcounts, htells.mono fun hhonest => ⟨?_, hhonest.2⟩, fun _ => ?_⟩
    · rw [hsame, hmade, hsubstrate]
    · rw [show (e₁.writes.behind calls).locator = e₁.writes.locator from rfl, hlocator]
      exact hhonest.1
    · exact ⟨name, hbefore, hfile.trans hcontents⟩

end Series

/-! ## What has no part in writing -/

section Beside

variable {σ α : Type} {id : TxnId} {tolerance : Int} {calls : List Exchange}

/-- Neither the pipelines nor the write side is touched. -/
def besideness : Discipline (Engine σ) where
  holds := fun _ => True
  leads := fun e e' => e'.pipelines = e.pipelines ∧ e'.writes = e.writes ∧ e'.isOpen = e.isOpen
  refl := fun _ => ⟨rfl, rfl, rfl⟩
  trans := fun hst htu =>
    ⟨htu.1.trans hst.1, htu.2.1.trans hst.2.1, htu.2.2.trans hst.2.2⟩

theorem beside_atomically {action : Engine σ → α × Engine σ}
    (h : ∀ e, besideness.leads e (action e).2) : (atomically action).Alone besideness :=
  .atomically fun e _ => ⟨trivial, h e⟩

theorem beside_onManager (p : Program Manager α) :
    (onManager p : Program (Engine σ) α).Alone besideness := by
  unfold onManager
  refine .focus (fun _ _ _ => ?_) p
  exact ⟨trivial, rfl, rfl, rfl⟩

theorem beside_whenOpen {p : Program (Engine σ) (Except Error α)} (hp : p.Alone besideness) :
    (whenOpen p).Alone besideness := by
  unfold whenOpen
  refine .bind (beside_atomically fun _ => ⟨rfl, rfl, rfl⟩) fun isOpen => ?_
  split_ifs
  · exact hp
  · exact .pure _

theorem beside_whenOpenFor {t : Transaction} {p : Program (Engine σ) (Except Error α × Transaction)}
    (hp : p.Alone besideness) : (whenOpenFor t p).Alone besideness := by
  unfold whenOpenFor
  refine .bind (beside_atomically fun _ => ⟨rfl, rfl, rfl⟩) fun isOpen => ?_
  split_ifs
  · exact hp
  · exact .pure _

theorem beside_submitVersion (job : ResolveJob) :
    (submitVersion job : Program (Engine σ) Bool).Alone besideness := by
  unfold submitVersion
  refine .bind (beside_atomically fun _ => ⟨rfl, rfl, rfl⟩) fun submission => ?_
  cases submission with
  | accepted | dropped => exact .bind (beside_onManager _) fun _ => .pure _
  | closed => exact .pure _

theorem beside_resolveNext : (resolveNext : Program (Engine σ) _).Alone besideness := by
  unfold resolveNext resolveJob Resolver.resolve
  refine .bind (beside_atomically fun _ => ⟨rfl, rfl, rfl⟩) fun next => ?_
  cases next with
  | none => exact .pure _
  | some job =>
    refine .bind (.bind (.bind (beside_onManager _) fun settled => ?_) fun resolution => ?_)
      fun _ => .pure _
    · rcases settled with cause | _ | status
      · exact .pure _
      · exact .pure _
      · refine .bind (beside_atomically fun _ => ⟨rfl, rfl, rfl⟩) fun stamped => ?_
        cases stamped <;> exact .pure _
    · cases resolution with
      | left => exact .pure _
      | resolved | failed cause => exact .bind (beside_onManager _) fun _ => .pure _

theorem beside_isVisibleVersion (reader : Transaction) (loc : CellLocation) (stamp : CellStamp) :
    (isVisibleVersion reader loc stamp : Program (Engine σ) _).Alone besideness := by
  unfold isVisibleVersion versionVisible
  refine beside_whenOpen ?_
  simp only [if_true]
  split_ifs
  · exact .pure _
  cases stamp.status with
  | some status => exact .pure _
  | none =>
    refine .bind (beside_onManager _) fun answer => ?_
    cases answer with
    | error e => exact .pure _
    | ok status =>
      simp only
      cases status.final? with
      | none => exact .pure _
      | some final => exact .bind (beside_submitVersion _) fun _ => .pure _

end Beside

/-! ## What requests do to a series -/

section Tracking

variable {σ α : Type} {id : TxnId} {tolerance : Int} {calls : List Exchange}
  {e : Engine (Observed σ)}

/-- The engine has counted the calls of a series, or was shut down and has none under way. -/
def Tracks (id : TxnId) (tolerance : Int) (calls : List Exchange) (e : Engine (Observed σ)) :
    Prop :=
  e.isOpen = true ∧ e.Tidy ∧ Counts id tolerance calls e ∨ e.isOpen = false ∧ calls = []

theorem tracks_beside (h : Tracks id tolerance calls e) {p : Program (Engine (Observed σ)) α}
    (hp : p.Alone besideness) : Tracks id tolerance calls (p.run e).2 := by
  obtain ⟨-, hpipelines, hwrites, hopen⟩ := hp e trivial
  rcases h with ⟨hopened, htidy, hcounts⟩ | ⟨hclosed, hcalls⟩
  · refine .inl ⟨hopen.trans hopened, (Minds.of_same id htidy hopen hpipelines hwrites).tidy, ?_⟩
    rw [Counts, hpipelines, hwrites]
    exact hcounts
  · exact .inr ⟨hopen.trans hclosed, hcalls⟩

/-- An attempt to end a transaction lets its pipeline go. -/
theorem tracks_ending (h : Tracks id tolerance calls e) (t : Transaction)
    (p : Program Manager (Except Error α × Transaction)) :
    Tracks id tolerance (if t.id = id then [] else calls)
      ((whenOpenFor t (retirePipeline t.id >>= fun _ => onManager p)).run e).2 := by
  rcases h with ⟨hopened, htidy, hcounts⟩ | ⟨hclosed, rfl⟩
  · obtain ⟨hminds, hnone⟩ := minds_retirePipeline t.id htidy
    have hrun : ((whenOpenFor t (retirePipeline t.id >>= fun _ => onManager p)).run e).2 =
        ((onManager p).run ((retirePipeline t.id).run e).2).2 := by
      simp [whenOpenFor, hopened]
    rw [hrun]
    refine tracks_beside (.inl ⟨hminds.isOpen.trans hopened, hminds.tidy, ?_⟩) (beside_onManager p)
    split_ifs with hid
    · exact .of_none (hid ▸ hnone) tolerance
    · exact hcounts.other (Ne.symm hid) hminds
  · have hrun : ((whenOpenFor t (retirePipeline t.id >>= fun _ => onManager p)).run e).2 = e := by
      simp [whenOpenFor, hclosed]
    rw [hrun, ite_self]
    exact .inr ⟨hclosed, rfl⟩

theorem isOpen_shutdown (e : Engine σ) : (shutdown.run e).2.isOpen = false := by
  cases hopen : e.isOpen <;> simp [shutdown, hopen]

/-- The calls that the substrate has seen since it had seen those of `e`. -/
def callsSince (e e' : Engine (Observed σ)) : List Exchange :=
  e'.writes.substrate.exchanges.drop e.writes.substrate.exchanges.length

variable [Substrate σ]

/-- A batch of the same kind goes on with a series, and one of another kind ends it. -/
theorem tracks_submitWriteBatch (h : Tracks id tolerance calls e) (t : Transaction)
    (rows : List Mutation) (permissive : Bool) (tolerance' : Int) :
    let out := (submitWriteBatch t rows permissive tolerance').run e
    Tracks id tolerance
      (if t.id = id then
        if tolerance' = tolerance ∧ keeps permissive out.1.1 out.1.2 = true then
          calls ++ callsSince e out.2
        else []
      else calls) out.2 := by
  intro out
  rcases h with ⟨hopened, htidy, hcounts⟩ | ⟨hclosed, rfl⟩
  · have hsubmits : Submits t rows permissive tolerance' e (out.1.1, out.1.2) out.2 :=
      submits_submitWriteBatch htidy hopened t rows permissive tolerance'
    have hminds := hsubmits.minds
    refine .inl ⟨hminds.isOpen.trans hopened, hminds.tidy, ?_⟩
    split_ifs with hid hsame
    · subst hid
      obtain ⟨rfl, hkeeps⟩ := hsame
      have hkind : permissive = true ∧ out.1.1 ≠ .error .outOfRange := by
        simp only [keeps, Bool.and_eq_true, decide_eq_true_eq] at hkeeps
        exact hkeeps.1
      obtain ⟨rfl, hreturns⟩ := hkind
      obtain ⟨made, hadds⟩ := adds_of_submits hcounts hsubmits hreturns
      have hmade : callsSince e out.2 = made := by
        rw [callsSince, hadds.exchanges, List.drop_left]
      have := hadds.counts
      rwa [if_pos hkeeps, ← hmade] at this
    · subst hid
      exact counts_of_submits_other hsubmits fun hkeeps heq => hsame ⟨heq, hkeeps⟩
    · exact hcounts.other (Ne.symm hid) hminds
  · have hout : out = ((.error .shutdown, t), e) := by
      simp [out, submitWriteBatch, whenOpenFor, hclosed]
    have hnone : callsSince e e = [] := by rw [callsSince, List.drop_length]
    rw [hout, hnone, List.append_nil, ite_self, ite_self]
    exact .inr ⟨hclosed, rfl⟩

end Tracking

/-! ## Along a session -/

namespace Session

variable {σ : Type} [Substrate σ] {id : TxnId} {tolerance : Int} {calls : List Exchange}

/-- Whether the owner's transaction is active. -/
def goesOn (s : Session σ) (k : Nat) : Bool :=
  s.held[k]?.any Transaction.isActive

/-- The calls of a series behind one more request. A batch of its kind goes on with it, unless it
stops out of range or leaves the transaction ended, and a batch of another kind ends it. An attempt
to end the transaction ends the series too, also one that leaves the transaction active, unless the
series goes on `across` it. -/
def series (across : Bool) (id : TxnId) (tolerance : Int) (s : Session (Observed σ))
    (calls : List Exchange) (request : Request) : List Exchange :=
  match request with
  | .write k rows permissive tolerance' =>
    match s.held[k]? with
    | none => calls
    | some t =>
      let out := (submitWriteBatch t rows permissive tolerance').run s.engine
      if t.id = id then
        if tolerance' = tolerance ∧ keeps permissive out.1.1 out.1.2 = true then
          calls ++ callsSince s.engine out.2
        else []
      else calls
  | .commit k | .rollback k =>
    match s.held[k]? with
    | none => calls
    | some t =>
      if t.id = id then if across && (s.step request).goesOn k then calls else [] else calls
  | .shutdown => []
  | _ => calls

/-- The calls of the series that is under way behind requests. -/
def seriesAfter (across : Bool) (id : TxnId) (tolerance : Int) (s : Session (Observed σ))
    (calls : List Exchange) : List Request → List Exchange
  | [] => calls
  | request :: rest =>
    seriesAfter across id tolerance (s.step request)
      (s.series across id tolerance calls request) rest

variable {s : Session (Observed σ)}

/-- A request that no transaction has to be handed in for. -/
theorem tracks_of_beside {α : Type} (h : Tracks id tolerance calls s.engine) (request : Request)
    {P : Program (Engine (Observed σ)) α} {f : α → Option Transaction}
    (hprogram : request.program s.held = some (f <$> P)) (hP : P.Alone besideness) :
    Tracks id tolerance calls (s.step request).engine := by
  rw [step_of_program hprogram]
  exact tracks_beside h hP

/-- A request on a transaction, if it is there. -/
theorem tracks_of_owned {α : Type} (request : Request) {k : Nat}
    {P : Transaction → Program (Engine (Observed σ)) α} {f : α → Option Transaction}
    (hprogram : request.program s.held = s.held[k]?.map fun t => f <$> P t)
    (hnone : s.held[k]? = none → Tracks id tolerance calls s.engine)
    (hsome : ∀ t, s.held[k]? = some t → Tracks id tolerance calls ((P t).run s.engine).2) :
    Tracks id tolerance calls (s.step request).engine := by
  obtain ⟨ht, hstep⟩ | ⟨t, ht, hfound⟩ := held_cases s request hprogram
  · rw [hstep]
    exact hnone ht
  · rw [step_of_program hfound]
    exact hsome t ht

/-- The engine counts the calls of a series. -/
theorem tracks_step (h : Tracks id tolerance calls s.engine) (request : Request) :
    Tracks id tolerance (s.series false id tolerance calls request) (s.step request).engine := by
  cases request with
  | manage inner =>
    change Tracks id tolerance calls _
    cases hinner : inner.program s.held with
    | none => simpa [step, Request.program, hinner] using h
    | some p =>
      have hprogram : (Request.manage inner).program s.held =
          some (Manager.Reply.transaction? <$>
            (onManager p : Program (Engine (Observed σ)) _)) := by
        simp [Request.program, hinner]
      exact tracks_of_beside h _ hprogram (beside_onManager p)
  | begin => exact tracks_of_beside h .begin rfl (beside_whenOpen (beside_onManager _))
  | beginReadOnly =>
    exact tracks_of_beside h .beginReadOnly rfl (beside_whenOpen (beside_onManager _))
  | elevate k =>
    refine tracks_of_owned (.elevate k) rfl (fun _ => h) fun t _ => ?_
    exact tracks_beside h (beside_whenOpenFor (beside_onManager _))
  | commit k =>
    refine tracks_of_owned (.commit k) rfl (fun ht => ?_) fun t ht => ?_
    · simpa [series, ht] using h
    · have hending : Tracks id tolerance _ ((Engine.commit t).run s.engine).2 :=
        tracks_ending h t (Manager.commit t)
      simpa [series, ht] using hending
  | rollback k =>
    refine tracks_of_owned (.rollback k) rfl (fun ht => ?_) fun t ht => ?_
    · simpa [series, ht] using h
    · have hending : Tracks id tolerance _ ((Engine.rollback t).run s.engine).2 :=
        tracks_ending h t (Manager.rollback t)
      simpa [series, ht] using hending
  | write k rows permissive tolerance' =>
    refine tracks_of_owned (.write k rows permissive tolerance') rfl (fun ht => ?_) fun t ht => ?_
    · simpa [series, ht] using h
    · simpa only [series, ht] using tracks_submitWriteBatch h t rows permissive tolerance'
  | read k loc stamp =>
    refine tracks_of_owned (.read k loc stamp) rfl (fun _ => h) fun t _ => ?_
    exact tracks_beside h (beside_isVisibleVersion t loc stamp)
  | submit job =>
    exact tracks_of_beside h (.submit job) rfl (beside_submitVersion job)
  | resolve => exact tracks_of_beside h .resolve rfl beside_resolveNext
  | drop =>
    exact tracks_of_beside h .drop rfl (beside_atomically fun _ => ⟨rfl, rfl, rfl⟩)
  | shutdown =>
    have hprogram : Request.shutdown.program s.held =
        some ((fun _ => none) <$> (shutdown : Program (Engine (Observed σ)) Unit)) := rfl
    rw [step_of_program hprogram]
    exact .inr ⟨isOpen_shutdown s.engine, rfl⟩

theorem tracks_run (h : Tracks id tolerance calls s.engine) (requests : List Request) :
    Tracks id tolerance (s.seriesAfter false id tolerance calls requests)
      (s.run requests).engine := by
  induction requests generalizing s calls with
  | nil => exact h
  | cons request rest ih => exact ih (tracks_step h request)

omit [Substrate σ] in
/-- The pipelines of an engine that was just opened. -/
theorem tracks_openedOver (h : Handle) (log : Bytes) (f : Faults) (config : Config)
    (c : Collaborators (Observed σ)) (hfaultless : c.writes.directory.faults = .none) :
    Tracks id tolerance [] (openedOver h log f config c).engine := by
  have hnone (id : TxnId) : (openedOver h log f config c).engine.pipelines.find? id = none := rfl
  refine .inl ⟨rfl, ⟨hfaultless, ?_, ?_, ?_⟩, .of_none (hnone id) tolerance⟩ <;> intro id
  · intro p hp
    rw [hnone] at hp
    cases hp
  · intro p name hp
    rw [hnone] at hp
    cases hp
  · intro id' p p' name hp
    rw [hnone] at hp
    cases hp

/-- Which batch exceeds the tolerance. Whatever was asked for before, and whatever the log's storage
did, the rows refused in the batches of a transaction that are permissive with the same tolerance
are counted together, as long as neither a batch of another kind nor an attempt to end the
transaction came in between. A batch ends with an error about the tolerance if it refuses a row that
leaves the count above the tolerance, and only then, provided that the substrate and the locator keep
to errors of their own. The rows that were refused so far are all reported in one file, up to the
first that exceeds the tolerance. -/
theorem breaches_iff_of_series (h : Handle) (log : Bytes) (f : Faults) (config : Config)
    (c : Collaborators (Observed σ)) (hfaultless : c.writes.directory.faults = .none)
    (before : List Request) {k : Nat} {t : Transaction}
    (ht : ((openedOver h log f config c).run before).held[k]? = some t) (rows : List Mutation)
    (tolerance : Int) :
    let s := (openedOver h log f config c).run before
    let s' := s.step (.write k rows true tolerance)
    let answer := ((submitWriteBatch t rows true tolerance).run s.engine).1.1
    let calls := (openedOver h log f config c).seriesAfter false t.id tolerance [] before
    let calls' := calls ++ callsSince s.engine s'.engine
    let rejects := rejectsOf tolerance calls
    let rejects' := rejectsOf tolerance calls'
    answer ≠ .error .outOfRange →
      (Breaches tolerance rejects.length rejects'.length →
        ∃ e, answer = .error e ∧ e.isBreach = true) ∧
      ((∃ e, answer = .error e ∧ e.isBreach = true) →
        Pipeline.Honest (s.engine.writes.behind calls) (s'.engine.writes.behind calls') →
        Breaches tolerance rejects.length rejects'.length) ∧
      (rejects' ≠ [] → ∃ name,
        (rejects ≠ [] → s.engine.writes.directory.contents? name =
          BadRecord.file? tolerance rejects) ∧
        s'.engine.writes.directory.contents? name = BadRecord.file? tolerance rejects') := by
  intro s s' answer calls calls' rejects rejects' hreturns
  have htracks : Tracks t.id tolerance calls s.engine :=
    tracks_run (tracks_openedOver h log f config c hfaultless) before
  have hstep : s'.engine = ((submitWriteBatch t rows true tolerance).run s.engine).2 :=
    congrArg Session.engine (step_write ht rows true tolerance)
  rcases htracks with ⟨hopened, htidy, hcounts⟩ | ⟨hclosed, hcalls⟩
  · obtain ⟨made, hadds⟩ := adds_of_submits hcounts
      (submits_submitWriteBatch htidy hopened t rows true tolerance) hreturns
    rw [← hstep] at hadds
    have hcalls' : calls' = calls ++ made := by
      simp only [calls', callsSince, hadds.exchanges, List.drop_left]
    simp only [rejects, rejects', hcalls']
    refine ⟨hadds.tells.told, ?_, hadds.file⟩
    rintro ⟨e, he, hbreach⟩
    exact hadds.tells.only e he hbreach
  · have hout : (submitWriteBatch t rows true tolerance).run s.engine =
        ((.error .shutdown, t), s.engine) := by
      simp [submitWriteBatch, whenOpenFor, hclosed]
    have hcalls' : calls' = [] := by
      simp only [calls', hcalls, hstep, hout, callsSince, List.drop_length, List.append_nil]
    simp only [rejects, rejects', hcalls', hcalls, answer, hout]
    refine ⟨fun hbreach => absurd hbreach not_breaches_self, ?_, fun hsome => absurd rfl hsome⟩
    rintro ⟨_, ⟨⟩, ⟨⟩⟩

/-! A substrate that refuses every row, and two writers of one row at a time. -/

def refusedRow (key : UInt8) : List Mutation := [.insert [key] [key]]

def refusingCollaborators : Collaborators (Observed ScriptedSubstrate) where
  oracle := .startingAt Oracle.firstTimestamp
  clock := ⟨1000⟩
  stopwatch := ⟨0⟩
  writes := ⟨⟨{ ScriptedSubstrate.empty with overalls := List.replicate 3 (.indexNotSetup none) },
    []⟩, .localDefault, .memory Directory.defaultLabel, fun _ => 0⟩
  stamps := .empty

def refusedWriter : Transaction := .new ⟨1⟩ false

/-- With a tolerance of one, the second row of a writer that is refused exceeds it, whatever another
writer did in between. Both are reported in one file. -/
theorem breaches_iff_of_series_secondRow :
    let s := (openedOver .shared [] .none .default refusingCollaborators).run
      [.begin, .begin, .write 0 (refusedRow 97) true 1, .write 1 (refusedRow 98) true 1]
    let s' := s.step (.write 0 (refusedRow 99) true 1)
    s.held[0]? = some refusedWriter ∧
      (∃ e, ((submitWriteBatch refusedWriter (refusedRow 99) true 1).run s.engine).1.1 = .error e ∧
        e.isBreach = true) ∧
      ∃ name, s'.engine.writes.directory.contents? name = BadRecord.file? 1
        [⟨.insert [97] [97], .indexNotSetup none⟩, ⟨.insert [99] [99], .indexNotSetup none⟩] := by
  intro s s'
  have hheld : s.held[0]? = some refusedWriter := by
    simp only [s, openedOver, Log.openedFaulty_nil]
    decide +kernel
  have hreturns : ((submitWriteBatch refusedWriter (refusedRow 99) true 1).run s.engine).1.1 ≠
      .error .outOfRange := by
    simp only [s, openedOver, Log.openedFaulty_nil]
    decide +kernel
  obtain ⟨htold, -, hfile⟩ := breaches_iff_of_series .shared [] .none .default
    refusingCollaborators rfl
    [.begin, .begin, .write 0 (refusedRow 97) true 1, .write 1 (refusedRow 98) true 1] hheld
    (refusedRow 99) 1 hreturns
  have hrejects : rejectsOf 1
      ((openedOver .shared [] .none .default refusingCollaborators).seriesAfter false ⟨1⟩ 1 []
        [.begin, .begin, .write 0 (refusedRow 97) true 1, .write 1 (refusedRow 98) true 1]) =
      [⟨.insert [97] [97], .indexNotSetup none⟩] := by
    simp only [openedOver, Log.openedFaulty_nil]
    decide +kernel
  have hrejects' : rejectsOf 1
      ((openedOver .shared [] .none .default refusingCollaborators).seriesAfter false ⟨1⟩ 1 []
        [.begin, .begin, .write 0 (refusedRow 97) true 1, .write 1 (refusedRow 98) true 1] ++
          callsSince s.engine s'.engine) =
      [⟨.insert [97] [97], .indexNotSetup none⟩, ⟨.insert [99] [99], .indexNotSetup none⟩] := by
    simp only [s, s', openedOver, Log.openedFaulty_nil]
    decide +kernel
  have hid : refusedWriter.id = ⟨1⟩ := rfl
  rw [hid, hrejects, hrejects'] at htold hfile
  obtain ⟨name, -, hcontents⟩ := hfile (by simp)
  exact ⟨hheld, htold ⟨2, by decide⟩, name, hcontents⟩

/-- Not every batch in which a transaction's count of refused rows exceeds the tolerance says so: an
attempt to commit that fails and leaves the transaction active lets the count begin anew. -/
theorem not_forall_series_across :
    ¬ ∀ (h : Handle) (log : Bytes) (f : Faults) (config : Config)
        (c : Collaborators (Observed ScriptedSubstrate)) (before : List Request) (k : Nat)
        (t : Transaction) (rows : List Mutation) (tolerance : Int),
      c.writes.directory.faults = .none →
      ((openedOver h log f config c).run before).held[k]? = some t →
      let s := (openedOver h log f config c).run before
      let s' := s.step (.write k rows true tolerance)
      let answer := ((submitWriteBatch t rows true tolerance).run s.engine).1.1
      let calls := (openedOver h log f config c).seriesAfter true t.id tolerance [] before
      let calls' := calls ++ callsSince s.engine s'.engine
      answer ≠ .error .outOfRange →
        Breaches tolerance (rejectsOf tolerance calls).length
          (rejectsOf tolerance calls').length →
        ∃ e, answer = .error e ∧ e.isBreach = true := by
  intro hall
  have hbreach := hall .shared [] refusingFaults .default refusingCollaborators
    [.begin, .write 0 (refusedRow 97) true 1, .commit 0] 0 refusedWriter (refusedRow 99) 1 rfl
    (by rw [openedOver, Log.openedFaulty_nil]; decide +kernel)
  simp only [openedOver, Log.openedFaulty_nil] at hbreach
  obtain ⟨e, he, -⟩ := hbreach (by decide +kernel) ⟨2, by decide +kernel⟩
  have hok : ((submitWriteBatch refusedWriter (refusedRow 99) true 1).run
      ((openedOver .shared [] refusingFaults .default refusingCollaborators).run
        [.begin, .write 0 (refusedRow 97) true 1, .commit 0]).engine).1.1.isOk = true := by
    simp only [openedOver, Log.openedFaulty_nil]
    decide +kernel
  simp only [openedOver, Log.openedFaulty_nil] at hok
  rw [he] at hok
  cases hok

end Session

end Engine

end TxnEngine
