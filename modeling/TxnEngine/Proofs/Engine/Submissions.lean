import TxnEngine.Proofs.Concurrency.Ledger
import TxnEngine.Proofs.Engine.Truthfulness

/-!
# Stamps among clients that interleave

Readers submit versions for stamping, and workers take them out of the queue, settle their writers
and stamp them, while owners end their transactions, records are kept alive and expire, and the
clock is moved. What a worker decides with can be stale when it stamps; the stamp is true all the
same.

Results:
* `contract_program`: what every operation keeps to, and what it answers.
* `queue_resolver`, `isRunning_resolver`: what the first action of an operation does to the queue.
* `accepted_eq`: what was accepted was received by a worker, in that order, or waits.
* `handled_subperm`, `handled_perm`: what was received is handled once.
-/

namespace TxnEngine

namespace Engine

open Program

variable {σ : Type}

/-! ## The operations that interleave -/

/-- What the parties of an engine do. -/
inductive Op where
  /-- An operation of transaction management. -/
  | manage (op : Manager.Op)
  /-- A transaction is kept alive. -/
  | renew (id : TxnId)
  /-- A version is submitted for stamping. -/
  | submit (job : ResolveJob)
  /-- A worker of the resolver takes a turn. -/
  | resolve
  /-- The resolver is shut down. -/
  | close

/-- The answers of the operations. -/
inductive Reply where
  | managed (reply : Manager.Reply)
  | submitted (accepted : Bool)
  | worked (outcome : Option (ResolveJob × Resolution))
  | done

/-- The program of each operation. -/
def Op.program : Op → Program (Engine σ) Reply
  | .manage op => Reply.managed <$> onManager op.program
  | .renew id => (fun _ => Reply.done) <$> onManager (Manager.renew id)
  | .submit job => Reply.submitted <$> submitVersion job
  | .resolve => Reply.worked <$> resolveNext
  | .close => (fun _ => Reply.done) <$> Program.modify fun e : Engine σ =>
      { e with resolver := e.resolver.close }

/-- The job that an operation brings into the queue that begins in the state `e`. -/
def Op.accepts : Op → Engine σ → Option ResolveJob
  | .submit job, e => if (e.resolver.submit job).1 = .accepted then some job else none
  | _, _ => none

/-- The job that an operation takes out of the queue that begins in the state `e`. -/
def Op.receives : Op → Engine σ → Option ResolveJob
  | .resolve, e => e.resolver.receive.1
  | _, _ => none

/-- The job that a reply tells about, and what became of it. -/
def Reply.handled? : Reply → Option (ResolveJob × Resolution)
  | .worked outcome => outcome
  | _ => none

/-- What an operation answers that begins in the state `e` and ends in `e'`. -/
structure Op.Answers (op : Op) (e : Engine σ) (reply : Reply) (e' : Engine σ) : Prop where
  managed : ∀ inner, op = .manage inner → ∃ answer, reply = .managed answer ∧
    inner.answers e.manager answer e'.manager
  /-- A worker tells about the job that it has received. -/
  received : reply.handled?.map Prod.fst = op.receives e
  handled : ∀ job resolution, reply.handled? = some (job, resolution) →
    Handles job e resolution e'

variable {e : Engine σ}

/-- An operation that is not about jobs. -/
theorem Op.Answers.of_quiet {op : Op} {reply : Reply} {e' : Engine σ}
    (hmanaged : ∀ inner, op ≠ .manage inner) (hreceives : op.receives e = none)
    (hreply : reply.handled? = none) : op.Answers e reply e' := by
  refine ⟨fun inner h => absurd h (hmanaged inner), by rw [hreply, hreceives]; rfl, ?_⟩
  rw [hreply]
  intro job resolution h
  cases h

theorem promises_submit (he : e.Truthful) (job : ResolveJob) :
    (submitVersion job).Promises truthfulness anything (fun _ _ => True) e := by
  have hstep : truthfulness.Step anything e { e with resolver := (e.resolver.submit job).2 } :=
    step_aside he rfl rfl
  refine .atomically_bind hstep ?_
  change Ensures truthfulness anything _ _ { e with resolver := (e.resolver.submit job).2 }
  cases (e.resolver.submit job).1 with
  | accepted | dropped =>
    exact .bind hstep.holds (ensures_count _) fun _ _ _ _ _ => .pure fun _ _ _ => trivial
  | closed => exact .pure fun _ _ _ => trivial

theorem promises_resolveNext (he : e.Truthful) :
    resolveNext.Promises truthfulness anything
      (fun outcome => Op.resolve.Answers e (.worked outcome)) e := by
  have hstep : truthfulness.Step anything e { e with resolver := e.resolver.receive.2 } :=
    step_aside he rfl rfl
  refine .atomically_bind hstep ?_
  change Ensures truthfulness anything _ _ { e with resolver := e.resolver.receive.2 }
  have hreceives : Op.resolve.receives e = e.resolver.receive.1 := rfl
  cases hnext : e.resolver.receive.1 with
  | none =>
    refine .pure fun t _ _ => ⟨fun _ h => ?_, by rw [hreceives, hnext]; rfl, fun _ _ h => ?_⟩ <;>
      cases h
  | some job =>
    have hjob := ensures_resolveJob hstep.holds job
    refine .bind hstep.holds hjob fun resolution t _ _ hhandles => ?_
    refine .pure fun u _ htu => ⟨fun _ h => ?_, by rw [hreceives, hnext]; rfl, fun _ _ h => ?_⟩
    · cases h
    · cases h
      exact (hhandles.later htu).earlier hstep.leads

/-- Every operation keeps the stamps true, and answers as it should. -/
theorem contract_program :
    Clients.Contract Op.program truthfulness (fun _ (_ : Engine σ) => anything) Op.Answers := by
  refine ⟨fun _ _ _ => trivial, fun op e he => ?_⟩
  cases op with
  | manage inner =>
    have hinner := Manager.contract_program.promises inner e.manager he.coherent
    refine Promises.map ((promises_onManager he hinner).mono fun answer t hanswers => ?_)
    refine ⟨fun inner' h => ?_, rfl, fun _ _ h => ?_⟩
    · cases h
      exact ⟨answer, rfl, hanswers⟩
    · cases h
  | renew id =>
    have hrenew := ensures_onManager (Manager.ensures_renew Manager.nothing he.coherent id)
    refine Promises.map ((hrenew.mono fun _ _ _ => ?_).promises (fun _ => trivial) he)
    exact .of_quiet (fun _ h => by cases h) rfl rfl
  | submit job =>
    have hsubmit := promises_submit he job
    exact Promises.map (hsubmit.mono fun _ _ _ => .of_quiet (fun _ h => by cases h) rfl rfl)
  | resolve => exact Promises.map (promises_resolveNext he)
  | close =>
    refine Promises.map (Ensures.promises (fun _ => trivial) (.atomically fun t ht _ => ?_) he)
    exact ⟨step_aside ht rfl rfl, fun _ _ _ => .of_quiet (fun _ h => by cases h) rfl rfl⟩

/-! ## The queue -/

/-- The resolver is left as it is. -/
def SameResolver (e e' : Engine σ) : Prop :=
  e'.resolver = e.resolver

theorem sameResolver_onManager {α : Type} (p : Program Manager α) :
    (onManager p : Program (Engine σ) α).Always SameResolver := by
  unfold onManager
  refine .focus (fun _ _ => ?_) p
  rfl

theorem sameResolver_resolveJob (job : ResolveJob) :
    (resolveJob job : Program (Engine σ) Resolution).Always SameResolver := by
  unfold resolveJob Resolver.resolve
  refine .bind (.bind (sameResolver_onManager _) fun answer => ?_) fun resolution => ?_
  · rcases answer with cause | _ | status
    · exact .pure _
    · exact .pure _
    · refine .bind (.atomically fun _ => rfl) fun answer => ?_
      cases answer <;> exact .pure _
  · cases resolution with
    | left => exact .pure _
    | resolved | failed cause => exact .bind (sameResolver_onManager _) fun _ => .pure _

/-- Only the first action of an operation is about the queue. -/
theorem sameResolver_later (op : Op) :
    (op.program : Program (Engine σ) Reply).AlwaysLater SameResolver := by
  cases op with
  | manage inner => exact ((sameResolver_onManager _).map _).later
  | renew id => exact ((sameResolver_onManager _).map _).later
  | submit job =>
    refine .map _ (.atomically_bind fun submission => ?_)
    cases submission with
    | accepted | dropped => exact .bind (sameResolver_onManager _) fun _ => .pure _
    | closed => exact .pure _
  | resolve =>
    refine .map _ (.atomically_bind fun next => ?_)
    cases next with
    | none => exact .pure _
    | some job => exact .bind (sameResolver_resolveJob job) fun _ => .pure _
  | close => exact fun _ => .pure _

/-- The resolver behind the first action of an operation. -/
def Op.resolver (op : Op) (r : Resolver) : Resolver :=
  match op with
  | .submit job => (r.submit job).2
  | .resolve => r.receive.2
  | .close => r.close
  | _ => r

theorem resolver_advance (op : Op) (e : Engine σ) :
    (op.program.advance e).2.resolver = op.resolver e.resolver := by
  cases op with
  | manage inner =>
    exact ((sameResolver_onManager inner.program).map Reply.managed).shared_advance (fun _ => rfl) e
  | renew id =>
    exact ((sameResolver_onManager (Manager.renew id)).map _).shared_advance (fun _ => rfl) e
  | submit job | resolve | close => rfl

/-- What comes into the queue goes to its end, and what is received is taken from its front. -/
theorem queue_resolver (op : Op) (e : Engine σ) :
    e.resolver.queue ++ (op.accepts e).toList =
      (op.receives e).toList ++ (op.resolver e.resolver).queue := by
  cases op with
  | submit job =>
    simp only [Op.accepts, Op.receives, Op.resolver, Resolver.submit]
    split_ifs <;> simp_all
  | resolve =>
    simp only [Op.accepts, Op.receives, Op.resolver, Resolver.receive]
    cases h : e.resolver.queue <;> simp [h]
  | manage inner | renew id | close => simp [Op.accepts, Op.receives, Op.resolver, Resolver.close]

/-- A resolver that is shut down stays so, and accepts nothing. -/
theorem isRunning_resolver (op : Op) {e : Engine σ} (h : e.resolver.isRunning = false) :
    (op.resolver e.resolver).isRunning = false ∧ op.accepts e = none := by
  cases op with
  | submit job => simp [Op.resolver, Op.accepts, Resolver.submit, h]
  | resolve =>
    refine ⟨?_, rfl⟩
    simp only [Op.resolver, Resolver.receive]
    split <;> exact h
  | close => exact ⟨rfl, rfl⟩
  | manage inner | renew id => exact ⟨h, rfl⟩

/-! ## The books of the resolver -/

section Books

open Clients

variable (e : Engine σ) (moves : List (Move Op))

/-- The submissions that were accepted in the first `n` moves. -/
def accepted (n : Nat) : List ResolveJob :=
  noted Op.program e moves Op.accepts n

/-- The jobs that workers received in the first `n` moves. -/
def received (n : Nat) : List ResolveJob :=
  noted Op.program e moves Op.receives n

/-- The jobs that workers are done with after the first `n` moves, and what became of them. -/
def handled (n : Nat) : List (ResolveJob × Resolution) :=
  (after Op.program e moves n).finished.filterMap fun f => f.reply.handled?

/-- No worker is busy after the first `n` moves. -/
def AtRest (n : Nat) : Prop :=
  ∀ client r, (after Op.program e moves n).running client = some r → r.op ≠ .resolve

variable {e moves}

/-- What was accepted was received, in that order, or waits in the queue. -/
theorem accepted_eq (hqueue : e.resolver.queue = []) {n : Nat} (hn : n ≤ moves.length) :
    accepted e moves n =
      received e moves n ++ (stateAfter Op.program e moves n).resolver.queue := by
  induction n with
  | zero => exact hqueue.symm
  | succ n ih =>
    have hbefore := ih (Nat.le_of_succ_le hn)
    unfold accepted received at hbefore ⊢
    rw [noted_succ _ hn, noted_succ _ hn, hbefore]
    rcases next_cases sameResolver_later (fun _ => rfl) hn with ⟨op, hbegins, hstate⟩ |
      ⟨hbegins, hsame⟩
    · rw [hbegins, hstate, resolver_advance, Option.bind_some, Option.bind_some, List.append_assoc,
        queue_resolver, List.append_assoc]
    · rw [hbegins, hsame]
      simp

/-- Nothing is accepted behind a shutdown. -/
theorem accepted_of_closed {i n : Nat} (hin : i ≤ n) (hn : n ≤ moves.length)
    (hclosed : (stateAfter Op.program e moves i).resolver.isRunning = false) :
    accepted e moves n = accepted e moves i ∧
      (stateAfter Op.program e moves n).resolver.isRunning = false := by
  induction n, hin using Nat.le_induction with
  | base => exact ⟨rfl, hclosed⟩
  | succ n hin ih =>
    obtain ⟨hsame, hstill⟩ := ih (Nat.le_of_succ_le hn)
    rw [← hsame, accepted, noted_succ _ hn, ← accepted]
    rcases next_cases sameResolver_later (fun _ => rfl) hn with ⟨op, hbegins, hstate⟩ |
      ⟨hbegins, hstate⟩
    · obtain ⟨hclosed', hnone⟩ := isRunning_resolver op hstill
      rw [hbegins, hstate, resolver_advance, Option.bind_some, hnone]
      exact ⟨List.append_nil _, hclosed'⟩
    · rw [hbegins, hstate]
      exact ⟨List.append_nil _, hstill⟩

/-- Each worker tells about the job that it has received. -/
theorem map_fst_handled (he : e.Truthful) {n : Nat} (hn : n ≤ moves.length) :
    (handled e moves n).map Prod.fst = (after Op.program e moves n).finished.filterMap fun f =>
      f.op.receives (stateAfter Op.program e moves f.begun) := by
  rw [handled, List.map_filterMap]
  refine List.filterMap_congr fun f hf => ?_
  exact ((sound_after contract_program he hn).finished f hf).2.2.2.received

/-- Workers are done with jobs that were received, once with each. -/
theorem handled_subperm (he : e.Truthful) {n : Nat} (hn : n ≤ moves.length) :
    ((handled e moves n).map Prod.fst).Subperm (received e moves n) := by
  rw [map_fst_handled he hn]
  exact filterMap_finished_subperm hn Op.receives

/-- They are done with all of them when none is busy. -/
theorem handled_perm (he : e.Truthful) {n : Nat} (hn : n ≤ moves.length)
    (hrest : AtRest e moves n) : ((handled e moves n).map Prod.fst).Perm (received e moves n) := by
  rw [map_fst_handled he hn]
  refine filterMap_finished_perm hn fun client r hr t => ?_
  have hop := hrest client r hr
  cases h : r.op with
  | resolve => exact absurd h hop
  | manage inner | renew id | submit job | close => rfl

end Books

end Engine

end TxnEngine
