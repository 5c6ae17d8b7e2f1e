import TxnEngine.Proofs.Engine.Sessions
import TxnEngine.Proofs.Manager.Ownership
import TxnEngine.Proofs.Pipeline.Fates
import TxnEngine.Workload.Fixture

/-!
# What an aborted batch means for its transaction

A batch that is aborted marks its transaction as failed: in the log, and then in the hands of its
owner. If the log takes the mark, the transaction can never commit any more. If the storage refuses
it, the owner is told of the abort all the same, but the transaction is as it was, and commits when
it is asked to.

Results:
* `Log.transition_fail_cases`: what the log does with the mark.
* `run_submitWriteBatch_of_aborted`: an aborted batch does to transaction management what the mark
  does.
* `writeAborted_final`: the transaction never commits if the log takes the mark, and goes on if it
  does not.
* `not_forall_writeAborted_final`: a transaction that commits behind an aborted batch.
-/

namespace TxnEngine

namespace Log

/-- The log takes the mark that a transaction has failed: its record is finished already, or the
storage keeps the image with the mark. -/
def TakesFailure (l : Log) (id : TxnId) : Prop :=
  ∀ r, l.get? id = some r → r.isFinished = true ∨ (l.persist { r with state := .error }).1 = .ok ()

variable {l : Log} (hv : Valid l.records) {id : TxnId} {r : Record} (hr : l.get? id = some r)

include hv hr

/-- A request that the record grants takes effect if the storage keeps the new image. -/
theorem transition_of_applied {next : Record} {t : Transition} (ha : r.apply t = .applied next) :
    (∃ e, (l.persist next).1 = .error e ∧ (l.transition id t).1 = .error e ∧
        (l.transition id t).2.records = l.records) ∨
      (l.persist next).1 = .ok () ∧ (l.transition id t).1 = .ok (.applied next) ∧
        (l.transition id t).2.get? id = some next := by
  obtain ⟨hid, hc⟩ := hv id r hr
  have himage : r.image? t = some next := Record.image?_of_applied ha
  have hnext : next.id = id := (Record.image?_keeps himage hc).1.trans hid
  rw [transition_eq hr, himage, ha]
  rcases records_persist l next with ⟨e, herror, hsame⟩ | ⟨hok, hput⟩
  · exact .inl ⟨e, herror, by simp only [herror, Except.map], hsame⟩
  · refine .inr ⟨hok, by simp only [hok, Except.map], ?_⟩
    rw [get?, hput, ← hnext, Table.find?_insert_self]

/-- A mark that is taken leaves the record finished, and it is not committed by it. One that is
refused leaves the record live. -/
theorem transition_fail_cases :
    l.TakesFailure id ∧ (∃ outcome, (l.transition id .fail).1 = .ok outcome) ∧
        (∃ r', (l.transition id .fail).2.get? id = some r' ∧ r'.isFinished = true ∧
          r'.commitTs = r.commitTs) ∨
      ¬ l.TakesFailure id ∧ (∃ e, (l.transition id .fail).1 = .error e) ∧ r.state = .active ∧
        (l.transition id .fail).2.records = l.records := by
  have htakes : l.TakesFailure id ↔
      r.isFinished = true ∨ (l.persist { r with state := .error }).1 = .ok () :=
    ⟨fun h => h r hr, fun h r' hr' => Option.some.inj (hr.symm.trans hr') ▸ h⟩
  by_cases hf : r.isFinished = true
  · have hidle := transition_eq hr .fail
    rw [Record.image?_finished hf] at hidle
    exact .inl ⟨htakes.mpr (.inl hf), ⟨_, by rw [hidle]⟩, r, by rw [hidle]; exact hr, hf, rfl⟩
  have hs : r.state = .active := Record.isFinished_eq_false_iff.mp (by simpa using hf)
  have happly : r.apply .fail = .applied { r with state := .error } := by simp [Record.apply, hs]
  rcases transition_of_applied hv hr happly with ⟨e, hrefused, herror, hsame⟩ | ⟨hkept, hok, hget⟩
  · refine .inr ⟨?_, ⟨e, herror⟩, hs, hsame⟩
    rw [htakes, hrefused]
    rintro (hfinished | hkept)
    · exact hf hfinished
    · cases hkept
  · exact .inl ⟨htakes.mpr (.inr hkept), ⟨_, hok⟩, _, hget, rfl, rfl⟩

end Log

namespace Manager

open Program

/-- The mark that a transaction has failed. If the log does not answer, the transaction is left as it
is. -/
theorem yields_fail_of_active {m : Manager} {t : Transaction} (hactive : t.isActive = true)
    (hpersisted : t.isPersisted = true) : (fail t).Yields (fun answer m' =>
      m'.log = (m.log.transition t.id .fail).2 ∧
        answer.2 = match (m.log.transition t.id .fail).1 with
          | .error _ => t
          | .ok _ => t.abort) m := by
  unfold fail transition
  simp only [hactive, hpersisted, Bool.not_true, Bool.false_eq_true, if_false]
  refine .atomically_bind ?_
  simp only
  cases (m.log.transition t.id .fail).1 with
  | error e => exact .pure ⟨rfl, rfl⟩
  | ok outcome =>
    refine .bind (silent_untrack _) trivial fun _ u _ hu =>
      .bind (silent_remember _) trivial fun _ v _ hv => ?_
    have hlogv := hv.1.trans hu.1
    cases outcome with
    | applied r =>
      exact .bind (silent_count _) trivial fun _ w _ hw => .pure ⟨hw.1.trans hlogv, rfl⟩
    | unchanged r | rejected r => exact .pure ⟨hlogv, rfl⟩

/-- A transaction whose record is live and has not expired is committed, if the storage keeps the
image. -/
theorem yields_commit_of_live {m : Manager} {t : Transaction} (hactive : t.isActive = true)
    (hpersisted : t.isPersisted = true) {ts : Timestamp} (hdraw : m.oracle.draw.1 = .ok ts)
    {r : Record} (hv : Log.Valid m.log.records) (hr : m.log.get? t.id = some r)
    (hs : r.state = .active) (hlive : r.isExpired m.clock.now m.timeout = false)
    (hstored : (m.log.persist { r with state := .committed, commitTs := some ts }).1 = .ok ()) :
    (commit t).Yields (fun answer m' => answer.1 = .ok ts ∧
      m'.log.get? t.id = some { r with state := .committed, commitTs := some ts }) m := by
  have happly : r.apply (.commit ts m.clock.now m.timeout) =
      .applied { r with state := .committed, commitTs := some ts } := by
    simp [Record.apply, hs, hlive]
  rcases Log.transition_of_applied hv hr happly with ⟨e, hrefused, -⟩ | ⟨-, hgranted, hget⟩
  · rw [hstored] at hrefused
    cases hrefused
  unfold commit drawTimestamp transition
  simp only [hactive, hpersisted, Bool.not_true, Bool.false_eq_true, if_false]
  refine .atomically_bind ?_
  simp only [hdraw]
  refine .atomically_bind (.atomically_bind (.atomically_bind ?_))
  simp only [hgranted]
  refine .bind (silent_untrack _) trivial fun _ u _ hu =>
    .bind (silent_remember _) trivial fun _ v _ hv =>
      .bind (silent_count _) trivial fun _ w _ hw => .pure ⟨rfl, ?_⟩
  rw [hw.1, hv.1, hu.1]
  exact hget

end Manager

namespace Engine

open Program

variable {σ : Type}

/-! ## Commits -/

/-- A transaction that has ended is not committed. -/
theorem run_commit_of_ended {t : Transaction} (h : t.isActive = false) (e : Engine σ) :
    ∃ cause, ((Engine.commit t).run e).1.1 = .error cause := by
  rcases passesOn_whenOpenFor t (aside_retirePipeline t.id) (Manager.commit t) e with
    hrefused | hfollows
  · exact ⟨.shutdown, congrArg (fun x => x.1.1) hrefused⟩
  · have hended : (Manager.commit t).run e.manager =
        ((.error (.invalidOperation .notActive), t), e.manager) := by
      simp [Manager.commit, h]
    refine ⟨.invalidOperation .notActive, ?_⟩
    exact congrArg Prod.fst (hfollows.answer.trans (congrArg Prod.fst hended))

/-- An engine that was not shut down passes a commit on. -/
theorem follows_commit {e : Engine σ} (hopen : e.isOpen = true) (t : Transaction) :
    Follows ((Engine.commit t).run e) (Manager.commit t) e :=
  follows_whenOpenFor hopen t (aside_retirePipeline t.id) (Manager.commit t)

/-! ## Batches that are aborted -/

theorem run_onWrites {α : Type} (p : Program (WriteSide σ) α) (e : Engine σ) :
    (onWrites p).run e = ((p.run e.writes).1, { e with writes := (p.run e.writes).2 }) := by
  unfold onWrites
  refine run_focus (fun _ _ => ?_) (fun _ => ?_) (fun _ _ _ => ?_) p e <;> rfl

/-- The answer is not the error of an aborted batch. -/
def Unaborted {α : Type} (answer : Except Error α) : Prop :=
  ∀ i o, answer ≠ .error (.writeAborted i o)

theorem yields_reserveFrom (candidate : Nat → String) (fuel n : Nat) (d : Directory) :
    (Recorder.reserveFrom candidate fuel n).Yields (fun answer _ => Unaborted answer) d := by
  induction fuel generalizing n d with
  | zero => exact .pure (by simp [Unaborted])
  | succ fuel ih =>
    unfold Recorder.reserveFrom
    refine .behind fun reserved d => ?_
    rcases reserved with cause | _ | _
    · exact .pure (by simp [Unaborted])
    · exact ih (n + 1) d
    · exact .pure (by simp [Unaborted])

theorem yields_newPipeline (retry : RetryConfig) (options : WriteOptions)
    (recorder : Option Recorder) (e : Engine σ) :
    (newPipeline retry options recorder).Yields (fun answer _ => Unaborted answer) e := by
  unfold newPipeline
  cases Pipeline.new retry options recorder with
  | ok p => exact .pure nofun
  | error fault => exact .behind fun _ _ => .pure nofun

/-- The error of another part of the same program. -/
theorem Unaborted.error {α β : Type} {cause : Error}
    (h : Unaborted (.error cause : Except Error α)) : Unaborted (.error cause : Except Error β) :=
  fun i o heq => h i o (by cases heq; rfl)

theorem yields_newRecorder (source : String) (tolerance : Int) (e : Engine σ) :
    (newRecorder source tolerance).Yields (fun answer _ => Unaborted answer) e := by
  have hnew : (Recorder.new source tolerance).Yields (fun answer _ => Unaborted answer)
      e.writes.directory := by
    unfold Recorder.new
    refine .seq (yields_reserveFrom _ _ _ _) fun reserved d hreserved => ?_
    cases reserved with
    | error cause => exact .pure hreserved.error
    | ok name => exact .pure nofun
  unfold Yields newRecorder
  rw [run_onWrites, Pipeline.run_onDirectory]
  exact hnew

theorem yields_writePipeline (options : WriteOptions) (e : Engine σ) :
    (writePipeline options).Yields (fun answer _ => Unaborted answer) e := by
  unfold writePipeline whenOpen
  refine .behind fun isOpen e => ?_
  cases isOpen with
  | false => exact .pure nofun
  | true =>
    refine .behind fun retry e => ?_
    split_ifs
    · refine .seq (yields_newRecorder _ _ e) fun answer e hanswer => ?_
      cases answer with
      | error cause => exact .pure hanswer.error
      | ok recorder => exact yields_newPipeline _ _ _ e
    · exact yields_newPipeline _ _ _ e

/-- Whatever keeps a batch from its pipeline does not abort it. -/
theorem yields_batchPipeline (id : TxnId) (permissive : Bool) (tolerance : Int) (e : Engine σ) :
    (batchPipeline id permissive tolerance).Yields (fun answer _ => Unaborted answer) e := by
  unfold batchPipeline
  refine .behind fun waiting e => ?_
  cases waiting with
  | none => exact yields_writePipeline _ e
  | some p =>
    simp only
    split_ifs
    · exact .pure nofun
    · exact .behind fun _ e => yields_writePipeline _ e

/-- The end of an aborted batch: the transaction is marked as failed. -/
theorem run_endBatch_of_aborted (t : Transaction) (permissive : Bool) (i : Nat) (o : Outcome)
    (p : Pipeline) (e : Engine σ) :
    ((endBatch t permissive (.error (.writeAborted i o)) p).run e).1 =
        ((Manager.fail t).run e.manager).1.2 ∧
      ((endBatch t permissive (.error (.writeAborted i o)) p).run e).2.manager =
        ((Manager.fail t).run e.manager).2 := by
  have hrun : (endBatch t permissive (.error (.writeAborted i o)) p).run e =
      (do
        if permissive && ((Manager.fail t).run e.manager).1.2.isActive then
          keepPipeline ((Manager.fail t).run e.manager).1.2.id p
        else onWrites p.retire
        return ((Manager.fail t).run e.manager).1.2 : Program (Engine σ) Transaction).run
          { e with manager := ((Manager.fail t).run e.manager).2 } := by
    unfold endBatch
    simp only [run_bind, run_onManager, run_pure]
    rfl
  have hsame := yields_leavePipeline ((Manager.fail t).run e.manager).1.2 permissive p
    { e with manager := ((Manager.fail t).run e.manager).2 }
  obtain ⟨-, hmanager, -⟩ := aside_leavePipeline ((Manager.fail t).run e.manager).1.2 permissive p
    { e with manager := ((Manager.fail t).run e.manager).2 } trivial
  rw [hrun]
  exact ⟨hsame, hmanager⟩

variable [Substrate σ]

/-- A pipeline aborts only batches of transactions that are active and may write. -/
theorem writes_of_submit {p : Pipeline} {t : Transaction} {rows : List Mutation} {w : WriteSide σ}
    {i : Nat} {o : Outcome} (h : ((p.submit t rows).run w).1.1 = .error (.writeAborted i o)) :
    t.isActive = true ∧ t.readOnly = false := by
  unfold Pipeline.submit at h
  split_ifs at h with hactive hwrites
  · cases h
  · cases h
  · exact ⟨by simpa using hactive, by simpa using hwrites⟩

/-- An aborted batch does to transaction management what the mark of a failed transaction does, and
to the transaction as well. -/
theorem run_submitWriteBatch_of_aborted {t : Transaction} {rows : List Mutation}
    {permissive : Bool} {tolerance : Int} {e : Engine σ} {i : Nat} {o : Outcome}
    (h : ((submitWriteBatch t rows permissive tolerance).run e).1.1 =
      .error (.writeAborted i o)) :
    t.isActive = true ∧ t.readOnly = false ∧
      ((submitWriteBatch t rows permissive tolerance).run e).1.2 =
        ((Manager.fail t).run e.manager).1.2 ∧
      ((submitWriteBatch t rows permissive tolerance).run e).2.manager =
        ((Manager.fail t).run e.manager).2 := by
  cases hopen : e.isOpen with
  | false =>
    have hrun : (submitWriteBatch t rows permissive tolerance).run e =
        ((.error .shutdown, t), e) := by
      simp [submitWriteBatch, whenOpenFor, hopen]
    rw [hrun] at h
    cases h
  | true =>
    obtain ⟨-, hmanager, -⟩ := aside_batchPipeline t.id permissive tolerance e trivial
    have hunaborted := yields_batchPipeline t.id permissive tolerance e
    unfold Yields at hunaborted
    generalize hfound : (batchPipeline t.id permissive tolerance).run e = found
      at hmanager hunaborted
    obtain ⟨found, e₁⟩ := found
    cases found with
    | error cause =>
      have hrun : (submitWriteBatch t rows permissive tolerance).run e =
          ((.error cause, t), e₁) := by
        simp [submitWriteBatch, whenOpenFor, hopen, hfound]
      rw [hrun] at h
      exact absurd h (hunaborted.error i o)
    | ok p =>
      have hrun : (submitWriteBatch t rows permissive tolerance).run e =
          let submitted := (onWrites (p.submit t rows)).run e₁
          let ended := (endBatch t permissive submitted.1.1 submitted.1.2).run submitted.2
          ((submitted.1.1, ended.1), ended.2) := by
        simp [submitWriteBatch, whenOpenFor, hopen, hfound, run_map]
      obtain ⟨-, hmanager', -⟩ := aside_onWrites (p.submit t rows) e₁ trivial
      rw [hrun] at h ⊢
      simp only at h hmanager ⊢
      have hwrites : t.isActive = true ∧ t.readOnly = false := by
        rw [run_onWrites] at h
        exact writes_of_submit h
      obtain ⟨hgiven, hmarked⟩ := run_endBatch_of_aborted t permissive i o
        ((onWrites (p.submit t rows)).run e₁).1.2 ((onWrites (p.submit t rows)).run e₁).2
      rw [hmanager', hmanager] at hgiven hmarked
      rw [h]
      exact ⟨hwrites.1, hwrites.2, hgiven, hmarked⟩

/-! ## Along a session -/

namespace Session

/-- What holds in a session, whatever ids the oracle hands out: the stamps are true, and every record
that was created in it is that of one transaction. -/
structure Orderly (s : Session σ) : Prop where
  truthful : s.engine.Truthful
  rightful : s.management.Rightful

variable {s : Session σ}

theorem orderly_step (hs : s.Orderly) (request : Request) : (s.step request).Orderly := by
  obtain ⟨⟨inner, reply, hstep⟩, htruthful, hpreserves⟩ := serves_step hs.truthful request
  exact ⟨htruthful, Manager.Session.rightful_of_step hs.rightful hstep hpreserves⟩

theorem orderly_run (hs : s.Orderly) (requests : List Request) : (s.run requests).Orderly := by
  induction requests generalizing s with
  | nil => exact hs
  | cons request requests ih => exact ih (orderly_step hs request)

/-- A transaction that has ended stays as it is, and so does a finished record. -/
theorem stays_ended (hs : s.Orderly) {k : Nat} {t : Transaction} (ht : s.held[k]? = some t)
    (hended : t.isActive = false) {id : TxnId} {r : Record}
    (hr : s.engine.manager.log.get? id = some r) (hf : r.isFinished = true)
    (later : List Request) :
    (s.run later).held[k]? = some t ∧ (s.run later).engine.manager.log.get? id = some r := by
  induction later generalizing s with
  | nil => exact ⟨ht, hr⟩
  | cons request later ih =>
    obtain ⟨⟨inner, reply, hstep⟩, -, hpreserves⟩ := serves_step hs.truthful request
    obtain ⟨t', ht', hsucceeds⟩ := hstep.held_stays ht
    obtain rfl := hsucceeds.eq_of_ended hended
    obtain ⟨r', hr', hsame⟩ := hpreserves id r hr
    obtain rfl := hsame hf
    exact ih (orderly_step hs request) ht' hr'

/-- A session of an engine that was opened over a log, on storage that is going to fail, with no
stamps. -/
def openedOver {σ : Type} (h : Handle) (log : Bytes) (f : Faults) (config : Config)
    (c : Collaborators σ) : Session σ :=
  ⟨.new (Log.openedFaulty h log f) config { c with stamps := .empty }, []⟩

omit [Substrate σ] in
theorem orderly_openedOver (h : Handle) (log : Bytes) (f : Faults) (config : Config)
    (c : Collaborators σ) : (openedOver h log f config c).Orderly :=
  ⟨truthful_new (Log.valid_openedFaulty h log f) config c, Manager.Session.rightful_of_nil rfl⟩

/-- What an aborted batch means for its transaction. Whatever an engine was asked for before, and
whatever its log held and its storage did: if the log takes the mark that the transaction has failed,
the transaction is ended, and whatever is asked for later, no commit of it succeeds and its record is
not committed. If the log refuses the mark, the transaction goes on: its owner still holds it, its
record is live, and a commit that comes next succeeds and commits the record, if the record has not
expired by then and the storage keeps the image. -/
theorem writeAborted_final (h : Handle) (log : Bytes) (f : Faults) (config : Config)
    (c : Collaborators σ) (before : List Request) {k : Nat} {t : Transaction}
    (ht : ((openedOver h log f config c).run before).held[k]? = some t) (rows : List Mutation)
    (permissive : Bool) (tolerance : Int) {i : Nat} {o : Outcome}
    (haborted : ((submitWriteBatch t rows permissive tolerance).run
      ((openedOver h log f config c).run before).engine).1.1 = .error (.writeAborted i o)) :
    let s := (openedOver h log f config c).run before
    let s' := s.step (.write k rows permissive tolerance)
    (s.engine.manager.log.TakesFailure t.id → ∀ later,
      (s'.run later).held[k]? = some t.abort ∧
        (∃ cause, ((Engine.commit t.abort).run (s'.run later).engine).1.1 = .error cause) ∧
        ∀ r, (s'.run later).engine.manager.log.get? t.id = some r → r.state ≠ .committed) ∧
    (¬ s.engine.manager.log.TakesFailure t.id →
      s'.held[k]? = some t ∧ ∃ r, r.state = .active ∧
        s'.engine.manager.log.get? t.id = some r ∧
        ∀ ts, s'.engine.isOpen = true → s'.engine.manager.oracle.draw.1 = .ok ts →
          r.isExpired s'.engine.manager.clock.now s'.engine.manager.timeout = false →
          (s'.engine.manager.log.persist
            { r with state := .committed, commitTs := some ts }).1 = .ok () →
          ((Engine.commit t).run s'.engine).1.1 = .ok ts ∧
            ((Engine.commit t).run s'.engine).2.manager.log.get? t.id =
              some { r with state := .committed, commitTs := some ts }) := by
  intro s s'
  have hs : s.Orderly := orderly_run (orderly_openedOver h log f config c) before
  have hs' : s'.Orderly := orderly_step hs _
  have hmem : t ∈ s.held := List.mem_of_getElem? ht
  obtain ⟨hactive, hwrites, hgiven, hmanager⟩ := run_submitWriteBatch_of_aborted haborted
  have hpersisted : t.isPersisted = true := hs.rightful.writes t hmem hwrites
  obtain ⟨r, (hr : s.engine.manager.log.get? t.id = some r)⟩ :=
    Option.ne_none_iff_exists'.mp (hs.rightful.recorded t hmem hpersisted)
  have hrunning : t.phase ≠ .committed := by
    have hphase : t.phase = .active := by simpa [Transaction.isActive] using hactive
    rw [hphase]
    decide
  have huncommitted : r.commitTs = none := by
    have hnone : s.engine.manager.log.commitTs? t.id = none :=
      hs.rightful.uncommitted t hmem hpersisted hrunning
    simpa [Log.commitTs?, hr] using hnone
  -- the batch does to the log and to the transaction what the mark does
  obtain ⟨hlog, hanswer⟩ := Manager.yields_fail_of_active (m := s.engine.manager) hactive hpersisted
  have hstep : s' = _ := step_write ht rows permissive tolerance
  have hheld : s'.held[k]? = some ((Manager.fail t).run s.engine.manager).1.2 := by
    rw [hstep, hgiven]
    exact List.getElem?_set_self (List.getElem?_eq_some_iff.mp ht).1
  have hlog' : s'.engine.manager.log = (s.engine.manager.log.transition t.id .fail).2 := by
    rw [hstep, hmanager, hlog]
  rcases Log.transition_fail_cases hs.truthful.coherent.valid hr with
    ⟨htakes, ⟨outcome, hok⟩, r', hr', hf, hsame⟩ | ⟨hrefuses, ⟨e, herror⟩, hlive, hrecords⟩
  · refine ⟨fun _ later => ?_, fun hnot => absurd htakes hnot⟩
    rw [hok] at hanswer
    rw [hanswer] at hheld
    rw [← hlog'] at hr'
    obtain ⟨hheld', hstays⟩ := stays_ended hs' hheld rfl hr' hf later
    refine ⟨hheld', run_commit_of_ended rfl _, fun r'' hr'' hcommitted => ?_⟩
    obtain rfl := Option.some.inj (hstays.symm.trans hr'')
    have hc : r'.Consistent := ((orderly_run hs' later).truthful.coherent.valid t.id r' hr'').2
    rw [Record.Consistent, hsame, huncommitted] at hc
    exact absurd (hc.mpr hcommitted) (by decide)
  · refine ⟨fun htakes => absurd htakes hrefuses, fun _ => ?_⟩
    rw [herror] at hanswer
    rw [hanswer] at hheld
    have hr' : s'.engine.manager.log.get? t.id = some r := by
      rw [hlog', Log.get?, hrecords, ← Log.get?, hr]
    refine ⟨hheld, r, hlive, hr', fun ts hopen hdraw hfresh hstored => ?_⟩
    obtain ⟨hdone, hget⟩ := Manager.yields_commit_of_live hactive hpersisted hdraw
      hs'.truthful.coherent.valid hr' hlive hfresh hstored
    have hfollows := follows_commit hopen t
    rw [hfollows.answer, hfollows.manager]
    exact ⟨hdone, hget⟩

/-! A writer whose only row is interrupted. -/

def interruptedRow : List Mutation := [.insert [97] [120]]

def interruptingCollaborators : Collaborators ScriptedSubstrate :=
  { Workload.ownCollaborators 1000 Directory.defaultLabel with
    writes.substrate := ScriptedSubstrate.empty.script [97] [.interrupted none] }

def interruptedWriter : Transaction := .new ⟨1⟩ false

/-- On storage that does not fail the writer never commits, whatever is asked for later. -/
theorem writeAborted_final_interruptedRow :
    let s := (openedOver .shared [] .none .default interruptingCollaborators).run [.begin]
    let s' := s.step (.write 0 interruptedRow false 0)
    s.held[0]? = some interruptedWriter ∧
      ((submitWriteBatch interruptedWriter interruptedRow false 0).run s.engine).1.1 =
        .error (.writeAborted 0 (.interrupted none)) ∧
      ∀ later, (s'.run later).held[0]? = some interruptedWriter.abort ∧
        (∃ cause, ((Engine.commit interruptedWriter.abort).run (s'.run later).engine).1.1 =
          .error cause) ∧
        ∀ r, (s'.run later).engine.manager.log.get? ⟨1⟩ = some r → r.state ≠ .committed := by
  intro s s'
  have hheld : s.held[0]? = some interruptedWriter := by
    simp only [s, openedOver, Log.openedFaulty_nil]
    decide +kernel
  have haborted : ((submitWriteBatch interruptedWriter interruptedRow false 0).run s.engine).1.1 =
      .error (.writeAborted 0 (.interrupted none)) := by
    simp only [s, openedOver, Log.openedFaulty_nil]
    decide +kernel
  have htakes : s.engine.manager.log.TakesFailure interruptedWriter.id := by
    intro r hr
    have hlive : s.engine.manager.log.get? interruptedWriter.id = some (.start ⟨1⟩ 1000 false) := by
      simp only [s, openedOver, Log.openedFaulty_nil]
      decide +kernel
    obtain rfl := Option.some.inj (hlive.symm.trans hr)
    simp only [s, openedOver, Log.openedFaulty_nil]
    decide +kernel
  exact ⟨hheld, haborted, (writeAborted_final .shared [] .none .default interruptingCollaborators
    [.begin] hheld interruptedRow false 0 haborted).1 htakes⟩

/-- The storage fails with the second append, which is that of the mark. -/
def refusingFaults : Faults :=
  ⟨fun p => if p = .append then [⟨false, 1⟩, ⟨true, 1⟩] else []⟩

/-- Not every transaction whose batch was aborted stays uncommitted. -/
theorem not_forall_writeAborted_final :
    ¬ ∀ (h : Handle) (log : Bytes) (f : Faults) (config : Config)
        (c : Collaborators ScriptedSubstrate) (before later : List Request) (k : Nat)
        (t t' : Transaction) (rows : List Mutation) (permissive : Bool) (tolerance : Int) (i : Nat)
        (o : Outcome),
      ((openedOver h log f config c).run before).held[k]? = some t →
      ((submitWriteBatch t rows permissive tolerance).run
        ((openedOver h log f config c).run before).engine).1.1 = .error (.writeAborted i o) →
      let s := (openedOver h log f config c).run
        (before ++ .write k rows permissive tolerance :: later)
      s.held[k]? = some t' →
        (∃ cause, ((Engine.commit t').run s.engine).1.1 = .error cause) ∧
          ∀ r, ((Engine.commit t').run s.engine).2.manager.log.get? t.id = some r →
            r.state ≠ .committed := by
  intro hall
  obtain ⟨⟨cause, hcause⟩, -⟩ := hall .shared [] refusingFaults .default interruptingCollaborators
    [.begin] [] 0 interruptedWriter interruptedWriter interruptedRow false 0 0 (.interrupted none)
    (by rw [openedOver, Log.openedFaulty_nil]; decide +kernel)
    (by rw [openedOver, Log.openedFaulty_nil]; decide +kernel)
    (by rw [openedOver, Log.openedFaulty_nil]; decide +kernel)
  have hok : ((Engine.commit interruptedWriter).run
      ((openedOver .shared [] refusingFaults .default interruptingCollaborators).run
        [.begin, .write 0 interruptedRow false 0]).engine).1.1 = .ok ⟨2⟩ := by
    rw [openedOver, Log.openedFaulty_nil]
    decide +kernel
  rw [List.singleton_append, hok] at hcause
  cases hcause

end Session

end Engine

end TxnEngine
