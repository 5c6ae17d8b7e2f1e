import TxnEngine.Proofs.Manager.Alone

/-!
# Sessions

A session is a run of operations one after the other. Its owners hold the transactions that they
have begun and name them by their number in the order of beginning; an operation on a transaction
takes it out of its owner's hands and gives it back as it is then.

Results:
* `step_spec`: all that a request can do to the records, to the commit timestamps and to the
  transactions that are held.
* `coherent_step`, `stays_coherent`: the cache goes on agreeing with the log.
-/

namespace TxnEngine

theorem Program.run_map {σ α β : Type} (f : α → β) (p : Program σ α) (s : σ) :
    (f <$> p).run s = (f (p.run s).1, (p.run s).2) := by
  induction p generalizing s with
  | done a => rfl
  | call action next ih => exact ih _ _

namespace Manager

open Program

/-! ## Requests -/

/-- What is asked of transaction management by the owners of transactions, and by the parties that
work in the background. -/
inductive Request where
  | begin
  | beginReadOnly
  | elevate (k : Nat)
  | commit (k : Nat)
  | rollback (k : Nat)
  | fail (k : Nat)
  | isVisible (k : Nat) (candidate : TxnId)
  | status (id : TxnId)
  | settle (id : TxnId)
  | renew (id : TxnId)
  /-- The dispatcher takes a registration. -/
  | receive
  /-- The dispatcher sends what is due to the workers. -/
  | dispatch
  /-- A worker's turn. -/
  | work
  | setClock (now : Millis)
  | wait (d : Duration)
deriving DecidableEq

namespace Request

/-- The number of the transaction that is handed in and given back. -/
def owned? : Request → Option Nat
  | elevate k | commit k | rollback k | fail k => some k
  | _ => none

/-- The program of a request, if its transaction is there. -/
def program (held : List Transaction) : Request → Option (Program Manager Reply)
  | begin => some Op.begin.program
  | beginReadOnly => some Op.beginReadOnly.program
  | elevate k => held[k]?.map fun t => (Op.elevate t).program
  | commit k => held[k]?.map fun t => (Op.commit t).program
  | rollback k => held[k]?.map fun t => (Op.rollback t).program
  | fail k => held[k]?.map fun t => (Op.fail t).program
  | isVisible k candidate => held[k]?.map fun t => (Op.isVisible t candidate).program
  | status id => some (Op.status id).program
  | settle id => some (Op.settle id).program
  | renew id => some ((fun _ => Reply.done) <$> Manager.renew id)
  | receive => some Op.receive.program
  | dispatch => some Op.dispatch.program
  | work => some Op.work.program
  | setClock now => some (Op.setClock now).program
  | wait d => some (Op.wait d).program

/-- What holds of the program on every transaction holds of the program of a request on one. -/
@[elab_as_elim]
theorem of_held {α : Type*} {motive : α → Prop} {held : List Transaction} {k : Nat}
    {f : Transaction → α} {p : α} (hp : held[k]?.map f = some p) (h : ∀ t, motive (f t)) :
    motive p := by
  obtain ⟨t, -, rfl⟩ := Option.map_eq_some_iff.mp hp
  exact h t

theorem program_cases {request : Request} {held : List Transaction} {p : Program Manager Reply}
    (h : request.program held = some p) :
    (∃ op : Op, p = op.program) ∨ ∃ id, p = (fun _ => Reply.done) <$> Manager.renew id := by
  cases request with
  | elevate k | commit k | rollback k | fail k | isVisible k candidate =>
    exact of_held h fun t => .inl ⟨_, rfl⟩
  | renew id => exact .inr ⟨id, (Option.some.inj h).symm⟩
  | _ => exact .inl ⟨_, (Option.some.inj h).symm⟩

end Request

/-- The transaction that an operation gives to its owner. -/
def Reply.transaction? : Reply → Option Transaction
  | .began (.ok t) | .ended (_, t) | .committed (_, t) => some t
  | _ => none

/-- Transaction management, and the transactions in the hands of their owners. -/
structure Session where
  manager : Manager
  held : List Transaction

namespace Session

/-- The transactions that are held after a request. -/
def keep (held : List Transaction) (request : Request) (reply : Reply) : List Transaction :=
  match request.owned?, reply.transaction? with
  | some k, some t => held.set k t
  | none, some t => held ++ [t]
  | _, none => held

/-- A request is served without interruption. One whose transaction is not there is not served. -/
def step (s : Session) (request : Request) : Option Reply × Session :=
  match request.program s.held with
  | none => (none, s)
  | some p =>
    (some (p.run s.manager).1, ⟨(p.run s.manager).2, keep s.held request (p.run s.manager).1⟩)

/-- The session after requests one behind the other. -/
def run (s : Session) (requests : List Request) : Session :=
  requests.foldl (fun s request => (s.step request).2) s

/-! ## What a request does -/

/-- How a transaction can come back to its owner. -/
def Succeeds (t t' : Transaction) : Prop :=
  t' = t ∨ t.isActive = true ∧ t'.id = t.id ∧ (t.isPersisted = true → t'.isPersisted = true) ∧
    (t'.readOnly = t.readOnly ∨ t'.isPersisted = true)

/-- All that a request can do. -/
inductive Step (s : Session) (request : Request) : Option Reply → Session → Prop where
  /-- No transaction begins or changes hands. -/
  | idle (reply : Option Reply) (m : Manager) (still : s.manager.log.Still m.log)
      (began : ∀ t, reply ≠ some (.began (.ok t)))
      (committed : ∀ answer, reply ≠ some (.committed answer)) :
      Step s request reply ⟨m, s.held⟩
  /-- A transaction begins. -/
  | began (t : Transaction) (m : Manager) (opens : request = .begin ∨ request = .beginReadOnly)
      (id : t.id = .ofBegin s.manager.oracle.next)
      (next : m.oracle.next = s.manager.oracle.next.next)
      (adds : s.manager.log.Adds t.id m.log)
      (bare : t.isPersisted = false → s.manager.log.Still m.log)
      (creates : t.isPersisted = true → s.manager.log.Creates t.id m.log)
      (writes : t.readOnly = false → t.isPersisted = true) :
      Step s request (some (.began (.ok t))) ⟨m, s.held ++ [t]⟩
  /-- A transaction comes back to its owner, uncommitted. -/
  | returned (k : Nat) (t t' : Transaction) (reply : Reply) (m : Manager)
      (held : s.held[k]? = some t) (succeeds : Succeeds t t')
      (adds : s.manager.log.Adds t.id m.log)
      (bare : t'.isPersisted = false → s.manager.log.Still m.log)
      (creates : t.isPersisted = false → t'.isPersisted = true → s.manager.log.Creates t.id m.log)
      (began : ∀ t, reply ≠ .began (.ok t)) (committed : ∀ ts t, reply ≠ .committed (.ok ts, t)) :
      Step s request (some reply) ⟨m, s.held.set k t'⟩
  /-- A transaction without a record comes back, committed. -/
  | closed (k : Nat) (t : Transaction) (m : Manager) (commits : request = .commit k)
      (held : s.held[k]? = some t) (active : t.isActive = true) (bare : t.isPersisted = false)
      (still : s.manager.log.Still m.log) :
      Step s request (some (.committed (.ok t.snapshot, t.committedAt t.snapshot)))
        ⟨m, s.held.set k (t.committedAt t.snapshot)⟩
  /-- A transaction with a record is committed at the timestamp that comes next. -/
  | committed (k : Nat) (t : Transaction) (m : Manager) (commits : request = .commit k)
      (held : s.held[k]? = some t) (active : t.isActive = true) (persisted : t.isPersisted = true)
      (next : m.oracle.next = s.manager.oracle.next.next)
      (log : s.manager.log.Commits t.id s.manager.oracle.next m.log) :
      Step s request
        (some (.committed (.ok s.manager.oracle.next, t.committedAt s.manager.oracle.next)))
        ⟨m, s.held.set k (t.committedAt s.manager.oracle.next)⟩

/-- A transaction that is ended or left as it is comes back to its owner. -/
theorem Step.survived {s : Session} {request : Request} {k : Nat} {t t' : Transaction}
    {reply : Reply} {m : Manager} (held : s.held[k]? = some t)
    (survives : t' = t ∨ t.isActive = true ∧ t' = t.abort) (still : s.manager.log.Still m.log)
    (began : ∀ t, reply ≠ .began (.ok t)) (committed : ∀ ts t, reply ≠ .committed (.ok ts, t)) :
    Step s request (some reply) ⟨m, s.held.set k t'⟩ := by
  refine .returned k t t' _ m held ?_ (still.adds _) (fun _ => still) (fun hbare hpersisted => ?_)
    began committed
  · refine survives.imp_right fun ⟨hactive, habort⟩ => ?_
    rw [habort]
    exact ⟨hactive, rfl, id, .inl rfl⟩
  · rcases survives with rfl | ⟨-, rfl⟩ <;> exact absurd (hpersisted.symm.trans hbare) nofun

/-- A request on a transaction finds it with its owner, or it is not served. -/
theorem held_cases (s : Session) (request : Request) {k : Nat} {op : Transaction → Op}
    (hprogram : request.program s.held = s.held[k]?.map fun t => (op t).program) :
    s.step request = (none, s) ∨
      ∃ t, s.held[k]? = some t ∧ request.program s.held = some (op t).program := by
  cases ht : s.held[k]? with
  | none => exact .inl (by simp only [step, hprogram, ht, Option.map_none])
  | some t => exact .inr ⟨t, rfl, by rw [hprogram, ht, Option.map_some]⟩

/-- A request that leaves its transactions alone, and commits nothing. -/
theorem step_of_alone {s : Session} (hv : Log.Valid s.manager.log.records) {request : Request}
    {α : Type} {p : Program Manager α} {f : α → Reply}
    (hprogram : request.program s.held = some (f <$> p)) (hp : p.Alone stillness)
    (htransaction : ∀ a, (f a).transaction? = none) :
    Step s request (s.step request).1 (s.step request).2 := by
  have hstep : s.step request =
      (some (f (p.run s.manager).1), ⟨(p.run s.manager).2, s.held⟩) := by
    simp only [step, hprogram, run_map, keep, htransaction]
  rw [hstep]
  have hnone := htransaction (p.run s.manager).1
  refine .idle _ _ (hp s.manager hv).2 (fun t h => ?_) fun answer h => ?_
  · rw [Option.some.inj h] at hnone
    cases hnone
  · rw [Option.some.inj h] at hnone
    cases hnone

theorem step_of_unserved {s : Session} {request : Request} (h : s.step request = (none, s)) :
    Step s request (s.step request).1 (s.step request).2 := by
  rw [h]
  exact .idle none _ (.refl _) (by simp) (by simp)

theorem step_begin (s : Session) :
    Step s .begin (s.step .begin).1 (s.step .begin).2 := by
  simp only [step, Request.program, Op.program, run_map, keep, Request.owned?]
  rcases yields_begin s.manager with ⟨e, he, hstill⟩ | ⟨hok, hcreates, hnext⟩
  · rw [he]
    exact .idle _ _ hstill (by simp) (by simp)
  · rw [hok]
    refine .began _ _ (.inl rfl) rfl hnext hcreates.toAdds ?_ (fun _ => hcreates) fun _ => rfl
    rintro ⟨⟩

theorem step_beginReadOnly (s : Session) :
    Step s .beginReadOnly (s.step .beginReadOnly).1 (s.step .beginReadOnly).2 := by
  simp only [step, Request.program, Op.program, run_map, keep, Request.owned?]
  obtain ⟨hlog, ⟨e, he⟩ | ⟨hok, hnext⟩⟩ := yields_beginReadOnly s.manager
  · rw [he]
    exact .idle _ _ (by rw [hlog]; exact .refl _) (by simp) (by simp)
  · have hstill : s.manager.log.Still (beginReadOnly.run s.manager).2.log := by
      rw [hlog]
      exact .refl _
    rw [hok]
    refine .began _ _ (.inr rfl) rfl hnext (hstill.adds _) (fun _ => hstill) ?_ ?_ <;> rintro ⟨⟩

section Owners

variable {s : Session} (hv : Log.Valid s.manager.log.records) (k : Nat) {t : Transaction}
  (ht : s.held[k]? = some t)

include ht

theorem step_elevate : Step s (.elevate k) (s.step (.elevate k)).1 (s.step (.elevate k)).2 := by
  simp only [step, Request.program, ht, Option.map_some, Op.program, run_map, keep,
    Request.owned?, Reply.transaction?]
  rcases yields_elevate s.manager t with ⟨hsame, hstill⟩ | ⟨hactive, helevated, hcreates⟩
  · refine .returned k t _ _ _ ht (.inl hsame) (hstill.adds _) (fun _ => hstill)
      (fun hbare hpersisted => ?_) (by simp) (by simp)
    rw [hsame, hbare] at hpersisted
    cases hpersisted
  · refine .returned k t _ _ _ ht (.inr ?_) hcreates.toAdds (fun hbare => ?_) (fun _ _ => hcreates)
      (by simp) (by simp)
    · rw [helevated]
      exact ⟨hactive, rfl, fun _ => rfl, .inr rfl⟩
    · rw [helevated] at hbare
      cases hbare

include hv

/-- An operation that ends a transaction or leaves it as it is. -/
theorem step_ending {request : Request} {p : Program Manager (Except Error Unit × Transaction)}
    (hprogram : request.program s.held = some (Reply.ended <$> p))
    (howned : request.owned? = some k) (hp : p.Alone stillness)
    (hanswer : p.Yields (fun answer _ => answer.2 = t ∨ t.isActive = true ∧ answer.2 = t.abort)
      s.manager) :
    Step s request (s.step request).1 (s.step request).2 := by
  simp only [step, hprogram, run_map, keep, howned, Reply.transaction?]
  exact .survived ht hanswer (hp s.manager hv).2 (by simp) (by simp)

theorem step_commit : Step s (.commit k) (s.step (.commit k)).1 (s.step (.commit k)).2 := by
  have heffect := yields_commit hv t
  simp only [step, Request.program, ht, Option.map_some, Op.program, run_map, keep,
    Request.owned?, Reply.transaction?]
  unfold Yields at heffect
  generalize (commit t).run s.manager = made at heffect
  obtain ⟨answer, m⟩ := made
  cases heffect with
  | failed e t' still owner => exact .survived ht owner still (by simp) (by simp)
  | closed active bare still => exact .closed k t m rfl ht active bare still
  | committed active persisted commits next =>
    exact .committed k t m rfl ht active persisted next commits

end Owners

/-- Every request does what it can do. -/
theorem step_spec {s : Session} (hv : Log.Valid s.manager.log.records) (request : Request) :
    Step s request (s.step request).1 (s.step request).2 := by
  cases request with
  | begin => exact step_begin s
  | beginReadOnly => exact step_beginReadOnly s
  | elevate k =>
    obtain hnone | ⟨t, ht, -⟩ := held_cases s (.elevate k) rfl
    · exact step_of_unserved hnone
    · exact step_elevate k ht
  | commit k =>
    obtain hnone | ⟨t, ht, -⟩ := held_cases s (.commit k) rfl
    · exact step_of_unserved hnone
    · exact step_commit hv k ht
  | rollback k =>
    obtain hnone | ⟨t, ht, hprogram⟩ := held_cases s (.rollback k) rfl
    · exact step_of_unserved hnone
    · exact step_ending hv k ht hprogram rfl (aborting_still.rollback t) (yields_rollback _ t)
  | fail k =>
    obtain hnone | ⟨t, ht, hprogram⟩ := held_cases s (.fail k) rfl
    · exact step_of_unserved hnone
    · exact step_ending hv k ht hprogram rfl (aborting_still.fail t) (yields_fail _ t)
  | isVisible k candidate =>
    obtain hnone | ⟨t, -, hprogram⟩ := held_cases s (.isVisible k candidate) rfl
    · exact step_of_unserved hnone
    · exact step_of_alone hv hprogram (still_of_silent (silent_isVisibleAt _ _ _)) fun _ => rfl
  | status id => exact step_of_alone hv rfl (still_of_silent (silent_status id)) fun _ => rfl
  | settle id => exact step_of_alone hv rfl (still_settle id) fun _ => rfl
  | renew id => exact step_of_alone hv rfl (aborting_still.renew id) fun _ => rfl
  | work => exact step_of_alone hv rfl aborting_still.work fun _ => rfl
  | setClock now =>
    refine step_of_alone hv rfl (.atomically fun m hm => ?_) fun _ => rfl
    exact ⟨hm, .refl _⟩
  | receive | dispatch | wait d =>
    refine step_of_alone hv rfl (still_of_silent ?_) fun _ => rfl
    exact silent_atomically fun _ => ⟨rfl, rfl, rfl, rfl⟩

/-- The cache goes on agreeing with the log, and records stay. -/
theorem coherent_step {s : Session} (hs : s.manager.Coherent) (request : Request) :
    (s.step request).2.manager.Coherent ∧ Preserves s.manager (s.step request).2.manager := by
  unfold step
  cases hp : request.program s.held with
  | none => exact ⟨hs, discipline.refl _⟩
  | some p =>
    rcases request.program_cases hp with ⟨op, rfl⟩ | ⟨id, rfl⟩
    · exact (contract_program.promises op s.manager hs).alone hs
    · have hrenew : ((fun _ => Reply.done) <$> renew id).Ensures discipline (May nothing)
          (fun _ _ => True) s.manager := (ensures_renew nothing hs id).map
      exact hrenew.alone hs

theorem stays_coherent {s : Session} (hs : s.manager.Coherent) (requests : List Request) :
    (s.run requests).manager.Coherent := by
  induction requests generalizing s with
  | nil => exact hs
  | cons request requests ih => exact ih (coherent_step hs request).1

/-- Records stay along a run, and finished ones stay as they are. -/
theorem stays_preserved {s : Session} (hs : s.manager.Coherent) (requests : List Request) :
    Preserves s.manager (s.run requests).manager := by
  induction requests generalizing s with
  | nil => exact discipline.refl _
  | cons request requests ih =>
    obtain ⟨hcoherent, hpreserves⟩ := coherent_step hs request
    exact discipline.trans hpreserves (ih hcoherent)

end Session

end Manager

end TxnEngine
