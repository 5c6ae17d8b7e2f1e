import TxnEngine.Proofs.Engine.Alone
import TxnEngine.Proofs.Manager.SnapshotIsolation

/-!
# Sessions of an engine

Requests to an engine, one after the other: the owners of transactions begin, write and end them,
readers submit versions for stamping, workers take their turns, submissions are lost, the clock is
moved, and the engine is shut down.

Results:
* `serves_step`: a request does to transaction management what a request to transaction management
  could do, and keeps the stamps true.
-/

namespace TxnEngine

namespace Engine

open Program

variable {σ α : Type}

/-! ## Requests -/

/-- What is asked of an engine by the owners of transactions, by readers, and by the parties that
work in the background. -/
inductive Request where
  /-- A request to transaction management, past the engine. -/
  | manage (request : Manager.Request)
  | begin
  | beginReadOnly
  | elevate (k : Nat)
  | commit (k : Nat)
  | rollback (k : Nat)
  /-- A batch is written on behalf of a transaction. -/
  | write (k : Nat) (rows : List Mutation) (permissive : Bool) (tolerance : Int)
  /-- A reader asks about a version that it has found with a stamp. -/
  | read (k : Nat) (loc : CellLocation) (stamp : CellStamp)
  | submit (job : ResolveJob)
  /-- A worker of the resolver takes a turn. -/
  | resolve
  /-- The submission that has waited longest is lost. -/
  | drop
  | shutdown

namespace Request

/-- The number of the transaction that is handed in and given back. -/
def owned? : Request → Option Nat
  | manage request => request.owned?
  | elevate k | commit k | rollback k | write k _ _ _ => some k
  | _ => none

/-- The program of a request, if its transaction is there. It answers with the transaction that is
given to the owner. -/
def program [Substrate σ] (held : List Transaction) :
    Request → Option (Program (Engine σ) (Option Transaction))
  | manage request => (request.program held).map fun p => Manager.Reply.transaction? <$> onManager p
  | begin => some (Except.toOption <$> beginTransaction)
  | beginReadOnly => some (Except.toOption <$> Engine.beginReadOnly)
  | elevate k => held[k]?.map fun t => (fun answer => some answer.2) <$> Engine.elevate t
  | commit k => held[k]?.map fun t => (fun answer => some answer.2) <$> Engine.commit t
  | rollback k => held[k]?.map fun t => (fun answer => some answer.2) <$> Engine.rollback t
  | write k rows permissive tolerance => held[k]?.map fun t =>
      (fun answer => some answer.2) <$> submitWriteBatch t rows permissive tolerance
  | read k loc stamp => held[k]?.map fun t => (fun _ => none) <$> isVisibleVersion t loc stamp
  | submit job => some ((fun _ => none) <$> submitVersion job)
  | resolve => some ((fun _ => none) <$> resolveNext)
  | drop => some ((fun _ => none) <$> Program.modify fun e =>
      { e with resolver := e.resolver.receive.2 })
  | shutdown => some ((fun _ => none) <$> Engine.shutdown)

end Request

/-- An engine, and the transactions in the hands of their owners. -/
structure Session (σ : Type) where
  engine : Engine σ
  held : List Transaction

namespace Session

/-- Transaction management, and the transactions in the hands of their owners. -/
def management (s : Session σ) : Manager.Session :=
  ⟨s.engine.manager, s.held⟩

/-- The transactions that are held after a request that gives one to its owner. -/
def keep (held : List Transaction) (owned? : Option Nat) (given? : Option Transaction) :
    List Transaction :=
  match owned?, given? with
  | some k, some t => held.set k t
  | none, some t => held ++ [t]
  | _, none => held

variable [Substrate σ]

/-- A request is served without interruption. One whose transaction is not there is not served. -/
def step (s : Session σ) (request : Request) : Session σ :=
  match request.program s.held with
  | none => s
  | some p => ⟨(p.run s.engine).2, keep s.held request.owned? (p.run s.engine).1⟩

/-- The session after requests one behind the other. -/
def run (s : Session σ) (requests : List Request) : Session σ :=
  requests.foldl step s

end Session

/-! ## What a request does -/

namespace Session

open Manager.Session (Step Succeeds)

/-- What a request does: to transaction management what a request to transaction management could
do, and it keeps the stamps true and the records. -/
structure Serves (s s' : Session σ) : Prop where
  manages : ∃ inner reply, Step s.management inner reply s'.management
  truthful : s'.engine.Truthful
  preserves : Manager.Preserves s.engine.manager s'.engine.manager

variable {s s' : Session σ}

section Serves

variable (hs : s.engine.Truthful)

include hs

theorem serves_refl : Serves s s := by
  have hstill : s.management.manager.log.Still s.management.manager.log := .refl _
  refine ⟨⟨.begin, none, ?_⟩, hs, Manager.discipline.refl s.engine.manager⟩
  exact .idle none s.management.manager hstill (by simp) (by simp)

/-- A request to transaction management. -/
theorem serves_of_inner (inner : Manager.Request)
    (hmanagement : s'.management = (s.management.step inner).2)
    (hstamps : s'.engine.stamps = s.engine.stamps) : Serves s s' := by
  have hcoherent : s.management.manager.Coherent := hs.coherent
  obtain ⟨hcoherent', hpreserves⟩ := Manager.Session.coherent_step hcoherent inner
  have hmanager : s'.engine.manager = (s.management.step inner).2.manager :=
    congrArg Manager.Session.manager hmanagement
  refine ⟨⟨inner, _, hmanagement ▸ Manager.Session.step_spec hcoherent.valid inner⟩, ⟨?_, ?_⟩, ?_⟩
  · rw [hmanager]
    exact hcoherent'
  · intro loc id status hstamped
    rw [Stamped, hstamps] at hstamped
    rw [hmanager]
    exact (hs.stamps loc id status hstamped).later hpreserves
  · rw [hmanager]
    exact hpreserves

/-- A request that commits nothing, and leaves the transactions with their owners as they are. -/
theorem serves_of_calm {p : Program (Engine σ) α} (hp : p.Alone calmness)
    (hengine : s'.engine = (p.run s.engine).2) (hheld : s'.held = s.held) : Serves s s' := by
  obtain ⟨htruthful, hcontinues, hstill⟩ := hp s.engine hs
  rw [← hengine] at htruthful hcontinues hstill
  refine ⟨⟨.begin, none, ?_⟩, htruthful, hcontinues.records⟩
  rw [management, management, hheld]
  exact .idle _ _ hstill (by simp) (by simp)

/-- A request that commits nothing, and can end a transaction. -/
theorem serves_of_survives {p : Program (Engine σ) α} (hp : p.Alone calmness)
    (hengine : s'.engine = (p.run s.engine).2) {k : Nat} {t t' : Transaction}
    (ht : s.held[k]? = some t) (hsurvives : Survives t t') (hheld : s'.held = s.held.set k t') :
    Serves s s' := by
  obtain ⟨htruthful, hcontinues, hstill⟩ := hp s.engine hs
  rw [← hengine] at htruthful hcontinues hstill
  refine ⟨⟨.fail k, some (.ended (.ok (), t')), ?_⟩, htruthful, hcontinues.records⟩
  rw [management, management, hheld]
  exact .survived ht hsurvives hstill (by simp) (by simp)

end Serves

theorem keep_eq (held : List Transaction) (inner : Manager.Request) (reply : Manager.Reply) :
    Manager.Session.keep held inner reply = keep held inner.owned? reply.transaction? := by
  unfold Manager.Session.keep keep
  cases inner.owned? <;> cases reply.transaction? <;> rfl

/-- A transaction that comes back as it was. -/
theorem keep_same {held : List Transaction} {k : Nat} {t : Transaction} (ht : held[k]? = some t) :
    keep held (some k) (some t) = held := by
  obtain ⟨hk, rfl⟩ := List.getElem?_eq_some_iff.mp ht
  exact List.set_getElem_self hk

section Serving

variable [Substrate σ] (hs : s.engine.Truthful)

omit hs in
theorem step_of_program {request : Request} {P : Program (Engine σ) α}
    {f : α → Option Transaction} (hprogram : request.program s.held = some (f <$> P)) :
    s.step request =
      ⟨(P.run s.engine).2, keep s.held request.owned? (f (P.run s.engine).1)⟩ := by
  simp only [step, hprogram, run_map]

omit hs in
/-- A request on a transaction finds it with its owner, or it is not served. -/
theorem held_cases (s : Session σ) (request : Request) {k : Nat}
    {P : Transaction → Program (Engine σ) (Option Transaction)}
    (hprogram : request.program s.held = s.held[k]?.map P) :
    s.held[k]? = none ∧ s.step request = s ∨
      ∃ t, s.held[k]? = some t ∧ request.program s.held = some (P t) := by
  cases ht : s.held[k]? with
  | none => exact .inl ⟨rfl, by simp only [step, hprogram, ht, Option.map_none]⟩
  | some t => exact .inr ⟨t, rfl, by rw [hprogram, ht, Option.map_some]⟩

omit hs in
theorem step_write {k : Nat} {t : Transaction} (ht : s.held[k]? = some t) (rows : List Mutation)
    (permissive : Bool) (tolerance : Int) :
    s.step (.write k rows permissive tolerance) =
      ⟨((submitWriteBatch t rows permissive tolerance).run s.engine).2,
        s.held.set k ((submitWriteBatch t rows permissive tolerance).run s.engine).1.2⟩ := by
  have hprogram : (Request.write k rows permissive tolerance).program s.held =
      some ((fun answer => some answer.2) <$>
        (submitWriteBatch t rows permissive tolerance : Program (Engine σ) _)) := by
    simp [Request.program, ht]
  rw [step_of_program hprogram]
  rfl

include hs

section PassedOn

variable {request : Request} {inner : Manager.Request} {P : Program (Engine σ) α}
  {p : Program Manager α} {f : α → Option Transaction} {g : α → Manager.Reply}
  (hprogram : request.program s.held = some (f <$> P))
  (hinner : inner.program s.held = some (g <$> p)) (howned : request.owned? = inner.owned?)
  (hgiven : ∀ a, f a = (g a).transaction?)

include hprogram hinner howned hgiven

theorem serves_of_follows (hfollows : Follows (P.run s.engine) p s.engine) :
    Serves s (s.step request) := by
  have hstep : s.management.step inner = (some (g (p.run s.engine.manager).1),
      ⟨(p.run s.engine.manager).2, keep s.held inner.owned? (f (p.run s.engine.manager).1)⟩) := by
    simp only [Manager.Session.step, management, hinner, run_map, keep_eq, hgiven]
  rw [step_of_program hprogram]
  refine serves_of_inner hs inner ?_ hfollows.stamps
  rw [hstep, management, hfollows.manager, hfollows.answer, howned]

/-- A request that the engine passes on, unless it was shut down. -/
theorem serves_of_passesOn {refusal : α} (hpasses : PassesOn P p refusal)
    (hrefusal : keep s.held request.owned? (f refusal) = s.held) : Serves s (s.step request) := by
  rcases hpasses s.engine with hrefused | hfollows
  · rw [step_of_program hprogram, hrefused, hrefusal]
    exact serves_refl hs
  · exact serves_of_follows hs hprogram hinner howned hgiven hfollows

end PassedOn

/-- A request that is not served. -/
theorem serves_of_none {request : Request} (h : s.step request = s) :
    Serves s (s.step request) := by
  rw [h]
  exact serves_refl hs

/-- A request that commits nothing, and gives nothing to an owner. -/
theorem serves_of_background {request : Request} {P : Program (Engine σ) α}
    (hprogram : request.program s.held = some ((fun _ => none) <$> P))
    (howned : request.owned? = none) (hP : P.Alone calmness) : Serves s (s.step request) := by
  rw [step_of_program hprogram, howned]
  exact serves_of_calm hs hP rfl rfl

/-- A request on a transaction that the engine passes on, unless it was shut down. -/
theorem serves_of_owned {request : Request} {inner : Manager.Request} {k : Nat}
    {P : Transaction → Program (Engine σ) (Except Error α × Transaction)}
    {p : Transaction → Program Manager (Except Error α × Transaction)}
    {g : Except Error α × Transaction → Manager.Reply}
    (hprogram : request.program s.held =
      s.held[k]?.map fun t => (fun answer => some answer.2) <$> P t)
    (hinner : inner.program s.held = s.held[k]?.map fun t => g <$> p t)
    (howned : request.owned? = some k ∧ inner.owned? = some k)
    (hgiven : ∀ answer, some answer.2 = (g answer).transaction?)
    (hpasses : ∀ t, PassesOn (P t) (p t) (.error .shutdown, t)) : Serves s (s.step request) := by
  obtain ⟨-, hnone⟩ | ⟨t, ht, hfound⟩ := held_cases s request hprogram
  · exact serves_of_none hs hnone
  rw [ht, Option.map_some] at hinner
  have hsame : request.owned? = inner.owned? := howned.1.trans howned.2.symm
  refine serves_of_passesOn hs hfound hinner hsame hgiven (hpasses t) ?_
  rw [howned.1]
  exact keep_same ht

/-- Every request does what it can do. -/
theorem serves_step (request : Request) : Serves s (s.step request) := by
  cases request with
  | manage inner =>
    cases hinner : inner.program s.held with
    | none => exact serves_of_none hs (by simp [step, Request.program, hinner])
    | some p =>
      have hprogram : (Request.manage inner).program s.held =
          some (Manager.Reply.transaction? <$> (onManager p : Program (Engine σ) _)) := by
        simp [Request.program, hinner]
      have hid : inner.program s.held = some (id <$> p) := by rw [hinner, id_map]
      exact serves_of_follows hs hprogram hid rfl (fun _ => rfl) (follows_onManager p s.engine)
  | begin =>
    have hprogram : Request.begin.program s.held =
        some (Except.toOption <$> (beginTransaction : Program (Engine σ) _)) := rfl
    have hinner : Manager.Request.begin.program s.held =
        some (Manager.Reply.began <$> Manager.begin) := rfl
    refine serves_of_passesOn hs hprogram hinner rfl (fun answer => ?_)
      (passesOn_whenOpen Manager.begin) rfl
    cases answer <;> rfl
  | beginReadOnly =>
    have hprogram : Request.beginReadOnly.program s.held =
        some (Except.toOption <$> (Engine.beginReadOnly : Program (Engine σ) _)) := rfl
    have hinner : Manager.Request.beginReadOnly.program s.held =
        some (Manager.Reply.began <$> Manager.beginReadOnly) := rfl
    refine serves_of_passesOn hs hprogram hinner rfl (fun answer => ?_)
      (passesOn_whenOpen Manager.beginReadOnly) rfl
    cases answer <;> rfl
  | elevate k =>
    have hinner : (Manager.Request.elevate k).program s.held =
        s.held[k]?.map fun t => Manager.Reply.ended <$> Manager.elevate t := rfl
    exact serves_of_owned hs rfl hinner ⟨rfl, rfl⟩ (fun _ => rfl) fun t =>
      passesOn_whenOpenFor t (.pure ()) (Manager.elevate t)
  | commit k =>
    have hinner : (Manager.Request.commit k).program s.held =
        s.held[k]?.map fun t => Manager.Reply.committed <$> Manager.commit t := rfl
    exact serves_of_owned hs rfl hinner ⟨rfl, rfl⟩ (fun _ => rfl) fun t =>
      passesOn_whenOpenFor t (aside_retirePipeline t.id) (Manager.commit t)
  | rollback k =>
    have hinner : (Manager.Request.rollback k).program s.held =
        s.held[k]?.map fun t => Manager.Reply.ended <$> Manager.rollback t := rfl
    exact serves_of_owned hs rfl hinner ⟨rfl, rfl⟩ (fun _ => rfl) fun t =>
      passesOn_whenOpenFor t (aside_retirePipeline t.id) (Manager.rollback t)
  | write k rows permissive tolerance =>
    obtain ⟨-, hnone⟩ | ⟨t, ht, -⟩ := held_cases s (.write k rows permissive tolerance) rfl
    · exact serves_of_none hs hnone
    rw [step_write ht]
    exact serves_of_survives hs (calm_submitWriteBatch t rows permissive tolerance) rfl ht
      (survives_submitWriteBatch t rows permissive tolerance s.engine) rfl
  | read k loc stamp =>
    obtain ⟨-, hnone⟩ | ⟨t, -, hprogram⟩ := held_cases s (.read k loc stamp) rfl
    · exact serves_of_none hs hnone
    · exact serves_of_background hs hprogram rfl (calm_isVisibleVersion t loc stamp)
  | submit job => exact serves_of_background hs rfl rfl (calm_submitVersion job)
  | resolve => exact serves_of_background hs rfl rfl calm_resolveNext
  | drop =>
    exact serves_of_background hs rfl rfl (calm_of_aside (aside_atomically fun _ => ⟨rfl, rfl⟩))
  | shutdown => exact serves_of_background hs rfl rfl calm_shutdown

end Serving

end Session

end Engine

end TxnEngine
