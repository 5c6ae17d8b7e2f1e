import TxnEngine.Proofs.Engine.Truthfulness
import TxnEngine.Proofs.Manager.Alone

/-!
# Operations of an engine that run alone

Most of what an engine does is no matter of transaction management, or gives no transaction a record
or a commit timestamp. What begins, elevates and ends transactions it passes on as it is, unless it
was shut down.

Results:
* `aside_retirePipeline`, `aside_batchPipeline` and others: what leaves transaction management and
  the stamps alone.
* `calm_submitWriteBatch`, `calm_resolveNext`, `calm_shutdown` and others: what commits nothing, and
  keeps the stamps true.
* `passesOn_whenOpen`, `passesOn_whenOpenFor`: what is passed on.
-/

namespace TxnEngine

namespace Engine

open Program

variable {σ α β : Type}

/-! ## Programs that leave transaction management and the stamps alone -/

/-- Transaction management and the stamps are left alone. -/
def asideness : Discipline (Engine σ) where
  holds := fun _ => True
  leads := fun e e' => e'.manager = e.manager ∧ e'.stamps = e.stamps
  refl := fun _ => ⟨rfl, rfl⟩
  trans := fun hst htu => ⟨htu.1.trans hst.1, htu.2.trans hst.2⟩

theorem aside_atomically {action : Engine σ → α × Engine σ}
    (h : ∀ e, asideness.leads e (action e).2) : (atomically action).Alone asideness :=
  .atomically fun e _ => ⟨trivial, h e⟩

theorem aside_onWrites (p : Program (WriteSide σ) α) : (onWrites p).Alone asideness := by
  unfold onWrites
  refine .focus (fun _ _ _ => ?_) p
  exact ⟨trivial, rfl, rfl⟩

theorem aside_retirePipeline (id : TxnId) :
    (retirePipeline id : Program (Engine σ) Unit).Alone asideness := by
  unfold retirePipeline takePipeline
  refine .bind (aside_atomically fun _ => ⟨rfl, rfl⟩) fun waiting => ?_
  cases waiting with
  | none => exact .pure _
  | some p => exact aside_onWrites _

theorem aside_retireAll (pipelines : List Pipeline) :
    (retireAll pipelines : Program (Engine σ) Unit).Alone asideness := by
  induction pipelines with
  | nil => exact .pure _
  | cons p rest ih => exact .bind (aside_onWrites _) fun _ => ih

theorem aside_newPipeline (retry : RetryConfig) (options : WriteOptions)
    (recorder : Option Recorder) :
    (newPipeline retry options recorder : Program (Engine σ) _).Alone asideness := by
  unfold newPipeline
  cases Pipeline.new retry options recorder with
  | ok p => exact .pure _
  | error fault =>
    refine .bind ?_ fun _ => .pure _
    cases recorder with
    | none => exact .pure _
    | some recorder => exact aside_onWrites _

theorem aside_writePipeline (options : WriteOptions) :
    (writePipeline options : Program (Engine σ) _).Alone asideness := by
  unfold writePipeline whenOpen
  refine .bind (aside_atomically fun _ => ⟨rfl, rfl⟩) fun isOpen => ?_
  cases isOpen with
  | false => exact .pure _
  | true =>
    refine .bind (aside_atomically fun _ => ⟨rfl, rfl⟩) fun retry => ?_
    split_ifs
    · refine .bind (aside_onWrites _) fun answer => ?_
      cases answer with
      | error e => exact .pure _
      | ok recorder => exact aside_newPipeline _ _ _
    · exact aside_newPipeline _ _ _

theorem aside_batchPipeline (id : TxnId) (permissive : Bool) (tolerance : Int) :
    (batchPipeline id permissive tolerance : Program (Engine σ) _).Alone asideness := by
  unfold batchPipeline takePipeline
  refine .bind (aside_atomically fun _ => ⟨rfl, rfl⟩) fun waiting => ?_
  cases waiting with
  | none => exact aside_writePipeline _
  | some p =>
    simp only
    split_ifs
    · exact .pure _
    · exact .bind (aside_onWrites _) fun _ => aside_writePipeline _

/-! ## Programs that commit nothing -/

/-- What leaves the log readable and gives no transaction a record or a commit timestamp. -/
def stillness : Discipline (Engine σ) where
  holds := fun e => Manager.stillness.holds e.manager
  leads := fun e e' => Manager.stillness.leads e.manager e'.manager
  refl := fun e => Manager.stillness.refl e.manager
  trans := fun hst htu => Manager.stillness.trans hst htu

/-- What keeps the stamps true, and gives no transaction a record or a commit timestamp. -/
def calmness : Discipline (Engine σ) where
  holds := Truthful
  leads := fun e e' => Continues e e' ∧ stillness.leads e e'
  refl := fun e => ⟨truthfulness.refl e, stillness.refl e⟩
  trans := fun hst htu => ⟨truthfulness.trans hst.1 htu.1, stillness.trans hst.2 htu.2⟩

theorem run_onManager (p : Program Manager α) (e : Engine σ) :
    (onManager p).run e = ((p.run e.manager).1, { e with manager := (p.run e.manager).2 }) := by
  unfold onManager
  refine run_focus (fun _ _ => ?_) (fun _ => ?_) (fun _ _ _ => ?_) p e <;> rfl

theorem still_onManager {p : Program Manager α} (hp : p.Alone Manager.stillness) :
    (onManager p : Program (Engine σ) α).Alone stillness := by
  intro e he
  rw [run_onManager]
  exact hp e.manager he

theorem calm_of_aside {p : Program (Engine σ) α} (hp : p.Alone asideness) : p.Alone calmness := by
  intro e he
  obtain ⟨hmanager, hstamps⟩ := (hp e trivial).2
  have hstep := step_aside he hmanager hstamps
  refine ⟨hstep.holds, hstep.leads, ?_⟩
  simp only [stillness, hmanager]
  exact Manager.stillness.refl _

/-- A program that keeps the stamps true and commits nothing. -/
theorem calm_of_still {p : Program (Engine σ) α} (hp : p.Alone stillness)
    {post : Engine σ → α → Engine σ → Prop}
    (h : ∀ e, e.Truthful → p.Ensures truthfulness anything (post e) e) : p.Alone calmness := by
  intro e he
  obtain ⟨hholds, hleads⟩ := (h e he).alone he
  exact ⟨hholds, hleads, (hp e he.coherent.valid).2⟩

theorem calm_onManager {p : Program Manager α} (hp : p.Alone Manager.stillness)
    {post : Manager → α → Manager → Prop}
    (h : ∀ m, m.Coherent →
      p.Ensures Manager.discipline (Manager.May Manager.nothing) (post m) m) :
    (onManager p : Program (Engine σ) α).Alone calmness :=
  calm_of_still (still_onManager hp) fun e he => ensures_onManager (h e.manager he.coherent)

theorem calm_count (event : Metrics.Event) :
    (onManager (Manager.count event) : Program (Engine σ) Unit).Alone calmness :=
  calm_onManager (Manager.still_of_silent (Manager.silent_count event)) fun _ _ =>
    Manager.ensures_count _ event

theorem calm_submitVersion (job : ResolveJob) :
    (submitVersion job : Program (Engine σ) Bool).Alone calmness := by
  unfold submitVersion
  refine .bind (calm_of_aside (aside_atomically fun _ => ⟨rfl, rfl⟩)) fun submission => ?_
  cases submission with
  | accepted | dropped => exact .bind (calm_count _) fun _ => .pure _
  | closed => exact .pure _

theorem still_resolveJob (job : ResolveJob) :
    (resolveJob job : Program (Engine σ) Resolution).Alone stillness := by
  have hcount (event : Metrics.Event) :
      (onManager (Manager.count event) : Program (Engine σ) Unit).Alone stillness :=
    still_onManager (Manager.still_of_silent (Manager.silent_count event))
  unfold resolveJob Resolver.resolve
  have hsettle : (onManager (Manager.settle job.txnId) : Program (Engine σ) _).Alone stillness :=
    still_onManager (Manager.still_settle job.txnId)
  refine .bind (.bind hsettle fun answer => ?_) fun resolution => ?_
  · rcases answer with cause | _ | status
    · exact .pure _
    · exact .pure _
    · refine .bind (.atomically fun e he => ⟨he, stillness.refl e⟩) fun answer => ?_
      cases answer <;> exact .pure _
  · cases resolution with
    | left => exact .pure _
    | resolved | failed cause => exact .bind (hcount _) fun _ => .pure _

theorem calm_resolveNext :
    (resolveNext : Program (Engine σ) _).Alone calmness := by
  unfold resolveNext
  refine .bind (calm_of_aside (aside_atomically fun _ => ⟨rfl, rfl⟩)) fun next => ?_
  cases next with
  | none => exact .pure _
  | some job =>
    refine .bind (calm_of_still (still_resolveJob job) fun e he => ensures_resolveJob he job)
      fun _ => .pure _

theorem calm_resolveAll : (resolveAll : Program (Engine σ) Unit).Alone calmness := by
  unfold resolveAll
  refine .bind (calm_of_aside (aside_atomically fun _ => ⟨rfl, rfl⟩)) fun waiting => ?_
  induction waiting with
  | zero => exact .pure _
  | succ n ih => exact .bind calm_resolveNext fun _ => ih

/-- A reader's question about a version. -/
theorem calm_isVisibleVersion (reader : Transaction) (loc : CellLocation) (stamp : CellStamp) :
    (isVisibleVersion reader loc stamp : Program (Engine σ) _).Alone calmness := by
  unfold isVisibleVersion whenOpen versionVisible
  refine .bind (calm_of_aside (aside_atomically fun _ => ⟨rfl, rfl⟩)) fun isOpen => ?_
  cases isOpen with
  | false => exact .pure _
  | true =>
    simp only [if_true]
    split_ifs
    · exact .pure _
    cases stamp.status with
    | some status => exact .pure _
    | none =>
      refine .bind (calm_onManager (Manager.still_of_silent (Manager.silent_status _)) fun m hm =>
        Manager.ensures_status _ hm _) fun answer => ?_
      cases answer with
      | error e => exact .pure _
      | ok status =>
        simp only
        cases status.final? with
        | none => exact .pure _
        | some final => exact .bind (calm_submitVersion _) fun _ => .pure _

theorem calm_shutdown : (shutdown : Program (Engine σ) Unit).Alone calmness := by
  unfold shutdown
  refine .bind (calm_of_aside (aside_atomically fun _ => ⟨rfl, rfl⟩)) fun isOpen => ?_
  split_ifs
  · refine .bind (calm_of_aside (aside_atomically fun _ => ⟨rfl, rfl⟩)) fun pipelines => ?_
    refine .bind (calm_of_aside (aside_retireAll _)) fun _ => ?_
    refine .bind (.atomically fun e he => ?_) fun _ => ?_
    · -- keeping alive is no matter of the log or of the cache
      exact ⟨⟨⟨he.coherent.valid, he.coherent.cached⟩, he.stamps⟩,
        ⟨Manager.discipline.refl e.manager, fun _ _ _ => id⟩, stillness.refl e⟩
    · exact .bind calm_resolveAll fun _ => calm_of_aside (aside_atomically fun _ => ⟨rfl, rfl⟩)
  · exact .pure _

/-! ## Writing -/

/-- How a transaction comes back from an operation that can end it. -/
def Survives (t t' : Transaction) : Prop :=
  t' = t ∨ t.isActive = true ∧ t' = t.abort

theorem calm_fail (t : Transaction) :
    (onManager (Manager.fail t) : Program (Engine σ) _).Alone calmness :=
  calm_onManager (Manager.aborting_still.fail t) fun _ hm => Manager.ensures_fail _ hm t

/-- What is done with the pipeline of a batch that is over. -/
theorem aside_leavePipeline (t : Transaction) (permissive : Bool) (p : Pipeline) :
    (do
      if permissive && t.isActive then keepPipeline t.id p else onWrites p.retire
      return t : Program (Engine σ) Transaction).Alone asideness := by
  unfold keepPipeline
  split_ifs
  · exact .bind (aside_atomically fun _ => ⟨rfl, rfl⟩) fun _ => .pure _
  · exact .bind (aside_onWrites _) fun _ => .pure _

theorem yields_leavePipeline (t : Transaction) (permissive : Bool) (p : Pipeline) (e : Engine σ) :
    (do
      if permissive && t.isActive then keepPipeline t.id p else onWrites p.retire
      return t : Program (Engine σ) Transaction).Yields (fun t' _ => t' = t) e := by
  split_ifs <;> exact .behind fun _ _ => .pure rfl

theorem calm_endBatch (t : Transaction) (permissive : Bool) (answer : Except Error BatchResult)
    (p : Pipeline) : (endBatch t permissive answer p : Program (Engine σ) _).Alone calmness := by
  unfold endBatch
  split
  · exact .bind (calm_of_aside (aside_onWrites _)) fun _ => .pure _
  · split
    · exact .bind (calm_fail t) fun ended =>
        calm_of_aside (aside_leavePipeline ended.2 permissive p)
    · exact calm_of_aside (aside_leavePipeline t permissive p)

theorem survives_endBatch (t : Transaction) (permissive : Bool) (answer : Except Error BatchResult)
    (p : Pipeline) (e : Engine σ) :
    (endBatch t permissive answer p).Yields (fun t' _ => Survives t t') e := by
  unfold endBatch
  split
  · exact .behind fun _ _ => .pure (.inl rfl)
  · split
    · have hfail : (onManager (Manager.fail t)).Yields (fun ended _ => Survives t ended.2) e := by
        unfold Yields
        rw [run_onManager]
        exact Manager.yields_fail e.manager t
      refine .seq hfail fun ended e' hended => ?_
      have hleft := yields_leavePipeline ended.2 permissive p e'
      unfold Yields at hleft ⊢
      rw [← hleft] at hended
      exact hended
    · have hleft := yields_leavePipeline t permissive p e
      exact .inl hleft

section Writing

variable [Substrate σ]

theorem calm_submitWriteBatch (t : Transaction) (rows : List Mutation) (permissive : Bool)
    (tolerance : Int) :
    (submitWriteBatch t rows permissive tolerance : Program (Engine σ) _).Alone calmness := by
  unfold submitWriteBatch whenOpenFor
  refine .bind (calm_of_aside (aside_atomically fun _ => ⟨rfl, rfl⟩)) fun isOpen => ?_
  split_ifs
  · refine .bind (calm_of_aside (aside_batchPipeline _ _ _)) fun found => ?_
    cases found with
    | error e => exact .pure _
    | ok p =>
      refine .bind (calm_of_aside (aside_onWrites _)) fun submitted => ?_
      exact .bind (calm_endBatch _ _ _ _) fun _ => .pure _
  · exact .pure _

theorem survives_submitWriteBatch (t : Transaction) (rows : List Mutation) (permissive : Bool)
    (tolerance : Int) (e : Engine σ) :
    (submitWriteBatch t rows permissive tolerance).Yields (fun answer _ => Survives t answer.2)
      e := by
  unfold submitWriteBatch whenOpenFor
  refine .behind fun isOpen e => ?_
  split_ifs
  · refine .behind fun found e => ?_
    cases found with
    | error e => exact .pure (.inl rfl)
    | ok p =>
      refine .behind fun submitted e => ?_
      exact .seq (survives_endBatch t permissive submitted.1 submitted.2 e) fun _ _ h => .pure h
  · exact .pure (.inl rfl)

end Writing

/-! ## Programs that are passed on -/

/-- What a program does that is run in the state `e`: to transaction management what `p` does, and
nothing to the stamps. -/
structure Follows (result : α × Engine σ) (p : Program Manager α) (e : Engine σ) : Prop where
  answer : result.1 = (p.run e.manager).1
  manager : result.2.manager = (p.run e.manager).2
  stamps : result.2.stamps = e.stamps

/-- A program that does what `p` does, or is refused and does nothing. -/
def PassesOn (P : Program (Engine σ) α) (p : Program Manager α) (refusal : α) : Prop :=
  ∀ e, P.run e = (refusal, e) ∨ Follows (P.run e) p e

theorem follows_onManager (p : Program Manager α) (e : Engine σ) :
    Follows ((onManager p).run e) p e := by
  rw [run_onManager]
  exact ⟨rfl, rfl, rfl⟩

theorem passesOn_whenOpen (p : Program Manager (Except Error α)) :
    PassesOn (whenOpen (onManager p) : Program (Engine σ) _) p (.error .shutdown) := by
  intro e
  change (ite (e.isOpen = true) (onManager p) (pure (.error .shutdown))).run e = _ ∨
    Follows ((ite (e.isOpen = true) (onManager p) (pure (.error .shutdown))).run e) p e
  split_ifs
  · exact .inr (follows_onManager p e)
  · exact .inl rfl

/-- An engine that was not shut down passes on the program of a transaction, behind one that leaves
transaction management alone. -/
theorem follows_whenOpenFor {e : Engine σ} (hopen : e.isOpen = true) (t : Transaction)
    {front : Program (Engine σ) β} (hfront : front.Alone asideness)
    (p : Program Manager (Except Error α × Transaction)) :
    Follows ((whenOpenFor t (front >>= fun _ => onManager p)).run e) p e := by
  have hrun : (whenOpenFor t (front >>= fun _ => onManager p)).run e =
      (onManager p).run (front.run e).2 := by
    simp [whenOpenFor, hopen]
  obtain ⟨-, hmanager, hstamps⟩ := hfront e trivial
  have hfollows := follows_onManager p (front.run e).2
  rw [hrun]
  exact ⟨by rw [hfollows.answer, hmanager], by rw [hfollows.manager, hmanager],
    by rw [hfollows.stamps, hstamps]⟩

/-- The program of a transaction, behind one that leaves transaction management alone. -/
theorem passesOn_whenOpenFor (t : Transaction) {front : Program (Engine σ) β}
    (hfront : front.Alone asideness) (p : Program Manager (Except Error α × Transaction)) :
    PassesOn (whenOpenFor t (front >>= fun _ => onManager p)) p (.error .shutdown, t) := by
  intro e
  cases hopen : e.isOpen with
  | false => exact .inl (by simp [whenOpenFor, hopen])
  | true => exact .inr (follows_whenOpenFor hopen t hfront p)

end Engine

end TxnEngine
