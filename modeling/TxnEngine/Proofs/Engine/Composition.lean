import TxnEngine.Proofs.Engine.Sessions
import TxnEngine.Proofs.Manager.Composition

/-!
# What the operations of an engine are made of

Whatever an engine does is a sequence of the shared actions of transaction management, and of
actions that leave transaction management alone and the engine open. What holds of these, and of a
sequence if it holds of its parts, holds of every request that begins and elevates no transaction
and does not shut the engine down.

Results:
* `Composed.submitWriteBatch`, `Composed.resolveNext` and others: the operations.
* `Composed.program`: the requests.
* `composed_managing`: what transaction management keeps to, the engine keeps to.
* `composed_openness`: only a shutdown shuts an engine down.
-/

namespace TxnEngine

/-- The requests to transaction management that begin and elevate no transaction. -/
def Manager.Request.isComposed : Manager.Request → Bool
  | begin | beginReadOnly | elevate _ => false
  | _ => true

namespace Engine

open Program

variable {σ : Type}

/-- The requests that begin and elevate no transaction, and do not shut the engine down. -/
def Request.isComposed : Request → Bool
  | begin | beginReadOnly | elevate _ | shutdown => false
  | manage request => request.isComposed
  | _ => true

/-- A property `P` of an engine's programs that sequences inherit. The actions have it that leave
transaction management alone and the engine open, and those programs of transaction management that
have the property `Q`, as everything has by which transactions are ended, observed and renewed, and
by which time passes. -/
structure Composed (Q : ∀ α : Type, Program Manager α → Prop)
    (P : ∀ α : Type, Program (Engine σ) α → Prop) : Prop where
  managed : Manager.Composed Q
  tick : ∀ {f : Manager → Manager}, (∀ m, (f m).log = m.log ∧ (f m).active = m.active ∧
    (f m).keepAlive.registered = m.keepAlive.registered) → Q Unit (Program.modify f)
  pure : ∀ {α : Type} (a : α), P α (Pure.pure a)
  bind : ∀ {α β : Type} {p : Program (Engine σ) α} {q : α → Program (Engine σ) β},
    P α p → (∀ a, P β (q a)) → P β (p >>= q)
  onManager : ∀ {α : Type} {p : Program Manager α}, Q α p → P α (onManager p)
  aside : ∀ {α : Type} {action : Engine σ → α × Engine σ},
    (∀ e, (action e).2.manager = e.manager ∧ (action e).2.isOpen = e.isOpen) →
      P α (atomically action)

namespace Composed

variable {Q : ∀ α : Type, Program Manager α → Prop}
  {P : ∀ α : Type, Program (Engine σ) α → Prop} (h : Composed Q P)
include h

theorem map {α β : Type} (f : α → β) {p : Program (Engine σ) α} (hp : P α p) : P β (f <$> p) := by
  rw [map_eq_pure_bind]
  exact h.bind hp fun a => h.pure (f a)

theorem read {α : Type} (f : Engine σ → α) : P α (Program.read f) :=
  h.aside fun _ => ⟨rfl, rfl⟩

theorem onWrites {α : Type} (p : Program (WriteSide σ) α) : P α (onWrites p) := by
  induction p with
  | done a => exact h.pure a
  | call action next ih =>
    have hfirst : P _ (atomically fun e : Engine σ =>
        ((action e.writes).1, { e with writes := (action e.writes).2 })) :=
      h.aside fun _ => ⟨rfl, rfl⟩
    exact h.bind hfirst ih

theorem count (event : Metrics.Event) : P _ (Engine.onManager (Manager.count event)) :=
  h.onManager (h.managed.count event)

/-! ## Operations -/

theorem whenOpen {α : Type} {p : Program (Engine σ) (Except Error α)} (hp : P _ p) :
    P _ (whenOpen p) := by
  refine h.bind (h.read _) fun isOpen => ?_
  split_ifs
  · exact hp
  · exact h.pure _

theorem whenOpenFor {α : Type} (t : Transaction)
    {p : Program (Engine σ) (Except Error α × Transaction)} (hp : P _ p) :
    P _ (whenOpenFor t p) := by
  refine h.bind (h.read _) fun isOpen => ?_
  split_ifs
  · exact hp
  · exact h.pure _

theorem takePipeline (id : TxnId) : P _ (takePipeline id) :=
  h.aside fun _ => ⟨rfl, rfl⟩

theorem retirePipeline (id : TxnId) : P _ (retirePipeline id) := by
  refine h.bind (h.takePipeline id) fun waiting => ?_
  cases waiting with
  | none => exact h.pure _
  | some p => exact h.onWrites _

theorem retireAll (pipelines : List Pipeline) : P _ (retireAll pipelines) := by
  induction pipelines with
  | nil => exact h.pure _
  | cons p rest ih => exact h.bind (h.onWrites _) fun _ => ih

theorem newPipeline (retry : RetryConfig) (options : WriteOptions) (recorder : Option Recorder) :
    P _ (newPipeline retry options recorder) := by
  unfold Engine.newPipeline
  cases Pipeline.new retry options recorder with
  | ok p => exact h.pure _
  | error fault =>
    refine h.bind ?_ fun _ => h.pure _
    cases recorder with
    | none => exact h.pure _
    | some recorder => exact h.onWrites _

theorem writePipeline (options : WriteOptions) : P _ (writePipeline options) := by
  refine h.whenOpen (h.bind (h.read _) fun retry => ?_)
  split_ifs
  · refine h.bind (h.onWrites _) fun answer => ?_
    cases answer with
    | error e => exact h.pure _
    | ok recorder => exact h.newPipeline _ _ _
  · exact h.newPipeline _ _ _

theorem batchPipeline (id : TxnId) (permissive : Bool) (tolerance : Int) :
    P _ (batchPipeline id permissive tolerance) := by
  refine h.bind (h.takePipeline id) fun waiting => ?_
  cases waiting with
  | none => exact h.writePipeline _
  | some p =>
    simp only
    split_ifs
    · exact h.pure _
    · exact h.bind (h.onWrites _) fun _ => h.writePipeline _

theorem leavePipeline (t : Transaction) (permissive : Bool) (p : Pipeline) :
    P _ (do
      if permissive && t.isActive then keepPipeline t.id p else Engine.onWrites p.retire
      return t) := by
  split_ifs
  · exact h.bind (h.aside fun _ => ⟨rfl, rfl⟩) fun _ => h.pure _
  · exact h.bind (h.onWrites _) fun _ => h.pure _

theorem endBatch (t : Transaction) (permissive : Bool) (answer : Except Error BatchResult)
    (p : Pipeline) : P _ (endBatch t permissive answer p) := by
  unfold Engine.endBatch
  split
  · exact h.bind (h.onWrites _) fun _ => h.pure _
  · split
    · exact h.bind (h.onManager (h.managed.fail t)) fun ended =>
        h.leavePipeline ended.2 permissive p
    · exact h.leavePipeline t permissive p

theorem submitWriteBatch [Substrate σ] (t : Transaction) (rows : List Mutation) (permissive : Bool)
    (tolerance : Int) : P _ (submitWriteBatch t rows permissive tolerance) := by
  refine h.whenOpenFor t (h.bind (h.batchPipeline _ _ _) fun found => ?_)
  cases found with
  | error e => exact h.pure _
  | ok p => exact h.bind (h.onWrites _) fun _ => h.bind (h.endBatch _ _ _ _) fun _ => h.pure _

theorem commit (t : Transaction) : P _ (commit t) :=
  h.whenOpenFor t (h.bind (h.retirePipeline _) fun _ => h.onManager (h.managed.commit t))

theorem rollback (t : Transaction) : P _ (rollback t) :=
  h.whenOpenFor t (h.bind (h.retirePipeline _) fun _ => h.onManager (h.managed.rollback t))

theorem submitVersion (job : ResolveJob) : P _ (submitVersion job) := by
  refine h.bind (h.aside fun _ => ⟨rfl, rfl⟩) fun submission => ?_
  cases submission with
  | accepted | dropped => exact h.bind (h.count _) fun _ => h.pure _
  | closed => exact h.pure _

theorem versionVisible (submits : Bool) (reader : Transaction) (loc : CellLocation)
    (stamp : CellStamp) : P _ (versionVisible submits reader loc stamp) := by
  unfold Engine.versionVisible
  by_cases hown : stamp.txnId = reader.id
  · rw [if_pos hown]
    exact h.pure _
  rw [if_neg hown]
  cases stamp.status with
  | some status => exact h.pure _
  | none =>
    refine h.bind (h.onManager (h.managed.status _)) fun answer => ?_
    cases answer with
    | error e => exact h.pure _
    | ok status =>
      simp only
      cases status.final? with
      | none => exact h.pure _
      | some final =>
        cases submits with
        | false => exact h.pure _
        | true => exact h.bind (h.submitVersion _) fun _ => h.pure _

theorem resolveJob (job : ResolveJob) : P _ (resolveJob job) := by
  unfold Engine.resolveJob Resolver.resolve
  refine h.bind (h.bind (h.onManager (h.managed.settle _)) fun answer => ?_) fun resolution => ?_
  · rcases answer with cause | _ | status
    · exact h.pure _
    · exact h.pure _
    · refine h.bind (h.aside fun _ => ⟨rfl, rfl⟩) fun answer => ?_
      cases answer <;> exact h.pure _
  · cases resolution with
    | left => exact h.pure _
    | resolved | failed cause => exact h.bind (h.count _) fun _ => h.pure _

theorem resolveNext : P _ (resolveNext : Program (Engine σ) _) := by
  refine h.bind (h.aside fun _ => ⟨rfl, rfl⟩) fun next => ?_
  cases next with
  | none => exact h.pure _
  | some job => exact h.bind (h.resolveJob job) fun _ => h.pure _

theorem resolveAll : P _ (resolveAll : Program (Engine σ) Unit) := by
  refine h.bind (h.read _) fun waiting => ?_
  induction waiting with
  | zero => exact h.pure _
  | succ n ih => exact h.bind h.resolveNext fun _ => ih

/-! ## Requests -/

/-- A request to transaction management, if it begins and elevates no transaction. -/
theorem manage {held : List Transaction} {request : Manager.Request}
    {p : Program Manager Manager.Reply} (hp : request.program held = some p)
    (hrequest : request.isComposed = true) : P _ (Engine.onManager p) := by
  have hmanaged := h.managed
  refine h.onManager ?_
  cases request with
  | begin | beginReadOnly | elevate k => cases hrequest
  | commit k => exact Manager.Request.of_held hp fun t => hmanaged.map _ (hmanaged.commit t)
  | rollback k => exact Manager.Request.of_held hp fun t => hmanaged.map _ (hmanaged.rollback t)
  | fail k => exact Manager.Request.of_held hp fun t => hmanaged.map _ (hmanaged.fail t)
  | isVisible k candidate =>
    exact Manager.Request.of_held hp fun t => hmanaged.map _ (hmanaged.isVisibleAt _ _ _)
  | status id => cases hp; exact hmanaged.map _ (hmanaged.status id)
  | settle id => cases hp; exact hmanaged.map _ (hmanaged.settle id)
  | renew id => cases hp; exact hmanaged.map _ (hmanaged.renew id)
  | work => cases hp; exact hmanaged.map _ hmanaged.work
  | receive =>
    cases hp
    refine hmanaged.map _ (h.tick fun m => ⟨rfl, rfl, ?_⟩)
    unfold KeepAlive.receive
    split <;> rfl
  | dispatch | setClock now | wait d =>
    cases hp
    exact hmanaged.map _ (h.tick fun m => ⟨rfl, rfl, rfl⟩)

/-- A request that begins and elevates no transaction, and does not shut the engine down. -/
theorem program [Substrate σ] {held : List Transaction} {request : Request}
    {p : Program (Engine σ) (Option Transaction)} (hp : request.program held = some p)
    (hrequest : request.isComposed = true) : P _ p := by
  cases request with
  | begin | beginReadOnly | elevate k | shutdown => cases hrequest
  | manage request =>
    obtain ⟨q, hq, rfl⟩ := Option.map_eq_some_iff.mp hp
    exact h.map _ (h.manage hq hrequest)
  | commit k => exact Manager.Request.of_held hp fun t => h.map _ (h.commit t)
  | rollback k => exact Manager.Request.of_held hp fun t => h.map _ (h.rollback t)
  | write k rows permissive tolerance =>
    exact Manager.Request.of_held hp fun t => h.map _ (h.submitWriteBatch t rows permissive tolerance)
  | read k loc stamp =>
    exact Manager.Request.of_held hp fun t => h.map _ (h.whenOpen (h.versionVisible true t loc stamp))
  | submit job => cases hp; exact h.map _ (h.submitVersion job)
  | resolve => cases hp; exact h.map _ h.resolveNext
  | drop => cases hp; exact h.map _ (h.aside fun _ => ⟨rfl, rfl⟩)

end Composed

/-! ## Disciplines -/

/-- Transaction management keeps to a discipline. -/
def managing (D : Discipline Manager) : Discipline (Engine σ) where
  holds := fun e => D.holds e.manager
  leads := fun e e' => D.leads e.manager e'.manager
  refl := fun e => D.refl e.manager
  trans := D.trans

theorem managing_onManager {α : Type} {D : Discipline Manager} {p : Program Manager α}
    (hp : p.Alone D) : (onManager p : Program (Engine σ) α).Alone (managing D) := by
  intro e he
  rw [run_onManager]
  exact hp e.manager he

theorem managing_aside {α : Type} {D : Discipline Manager} {action : Engine σ → α × Engine σ}
    (h : ∀ e, (action e).2.manager = e.manager) : (atomically action).Alone (managing D) := by
  refine .atomically fun e he => ?_
  simp only [managing, h]
  exact ⟨he, D.refl e.manager⟩

/-- What transaction management keeps to, the engine keeps to. -/
theorem composed_managing {D : Discipline Manager} (hD : Manager.Composed fun _ p => p.Alone D)
    (htick : ∀ {f : Manager → Manager}, (∀ m, (f m).log = m.log ∧ (f m).active = m.active ∧
      (f m).keepAlive.registered = m.keepAlive.registered) → (Program.modify f).Alone D) :
    Composed (σ := σ) (fun _ p => p.Alone D) fun _ p => p.Alone (managing D) where
  managed := hD
  tick := htick
  pure := .pure
  bind := .bind
  onManager := managing_onManager
  aside := fun h => managing_aside fun e => (h e).1

/-- The engine stays open, or stays shut down. -/
def openness : Discipline (Engine σ) where
  holds := fun _ => True
  leads := fun e e' => e'.isOpen = e.isOpen
  refl := fun _ => rfl
  trans := fun hst htu => htu.trans hst

theorem openness_onManager {α : Type} (p : Program Manager α) :
    (onManager p : Program (Engine σ) α).Alone openness := by
  intro e _
  rw [run_onManager]
  exact ⟨trivial, rfl⟩

/-- Only a shutdown shuts an engine down. -/
theorem composed_openness : Composed (σ := σ) (fun _ _ => True) fun _ p => p.Alone openness where
  managed := by constructor <;> intros <;> trivial
  tick := fun _ => trivial
  pure := .pure
  bind := .bind
  onManager := fun _ => openness_onManager _
  aside := fun h => .atomically fun e _ => ⟨trivial, (h e).2⟩

end Engine

end TxnEngine
