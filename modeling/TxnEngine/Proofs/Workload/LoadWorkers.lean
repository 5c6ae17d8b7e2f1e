import TxnEngine.Proofs.Manager.Custody
import TxnEngine.Proofs.Pipeline.Portions
import TxnEngine.Proofs.Workload.LoadPreparation

/-!
# Workers side by side

The workers of a load share an engine. Each has a transaction of its own there, the scripts of its
rows and its bad-record file, and touches nothing of the others'. So what a worker does is decided
before it begins, whatever the others do in between: whether its batch is answered, breaches the
tolerance or is aborted, and what it has counted by then.

Results:
* `Staffed`: an engine that a team works on, and what each member has of it.
* `Engine.abides_commit`, `Engine.abides_rollback`: a member can end its transaction as it likes.
* `Workload.exists_run`: what a worker does, whatever the others do.
-/

namespace TxnEngine

open Program

/-- An engine that the first `members` of a team work on, whose ids begin with `first`, at the time
`now`: nobody shuts it down, and no batch waits for further ones. -/
structure Staffed (members first : Nat) (now : Millis) (config : Config) (D : Division)
    (place : Place) (K : Nat → Custody × Portion) (e : Engine ScriptedSubstrate) : Prop where
  isOpen : e.isOpen = true
  configured : e.config = config
  idle : ∀ id : TxnId, first ≤ id.val.toNat → e.pipelines.find? id = none
  manager : Guarded members first now (fun j => (K j).1) e.manager
  writes : Apportioned D config.retry place (fun j => (K j).2) e.writes

namespace Engine

variable {members first : Nat} {now : Millis} {config : Config} {D : Division} {place : Place}
  {i : Nat} {α : Type} {k : Custody × Portion}

/-! ## The two parts of an engine -/

theorem abides_onManager {p : Program Manager α} {post : α → Custody → Prop}
    (h : p.Abides (Guarded members first now) i post k.1) :
    (onManager p).Abides (Staffed members first now config D place) i
      (fun a l => post a l.1 ∧ l.2 = k.2) k := by
  refine (Abides.focus Prod.fst (fun c k => (c, k.2)) (fun _ _ => rfl)
    (fun _ => rfl) (fun _ _ _ => rfl) (fun N e he => he.manager) ?_ h).mono ?_
  · intro N e m c he hm
    have hfst : (fun j => (Function.update N i (c, (N i).2) j).1) =
        Function.update (fun j => (N j).1) i c := Function.comp_update Prod.fst N i _
    have hsnd : (fun j => (Function.update N i (c, (N i).2) j).2) = fun j => (N j).2 :=
      (Function.comp_update Prod.snd N i _).trans (Function.update_eq_self i _)
    exact ⟨he.isOpen, he.configured, he.idle, hfst ▸ hm, hsnd ▸ he.writes⟩
  · rintro a l ⟨hl, hpost⟩
    exact ⟨hpost, by rw [hl]⟩

theorem abides_onWrites {p : Program (WriteSide ScriptedSubstrate) α} {post : α → Portion → Prop}
    (h : p.Abides (Apportioned D config.retry place) i post k.2) :
    (onWrites p).Abides (Staffed members first now config D place) i
      (fun a l => post a l.2 ∧ l.1 = k.1) k := by
  refine (Abides.focus Prod.snd (fun w k => (k.1, w)) (fun _ _ => rfl)
    (fun _ => rfl) (fun _ _ _ => rfl) (fun N e he => he.writes) ?_ h).mono ?_
  · intro N e m w he hw
    have hfst : (fun j => (Function.update N i ((N i).1, w) j).1) = fun j => (N j).1 :=
      (Function.comp_update Prod.fst N i _).trans (Function.update_eq_self i _)
    have hsnd : (fun j => (Function.update N i ((N i).1, w) j).2) =
        Function.update (fun j => (N j).2) i w := Function.comp_update Prod.snd N i _
    exact ⟨he.isOpen, he.configured, he.idle, hfst ▸ he.manager, hsnd ▸ hw⟩
  · rintro a l ⟨hl, hpost⟩
    exact ⟨hpost, by rw [hl]⟩

/-! ## Transactions -/

theorem abides_whenOpen {p : Program (Engine ScriptedSubstrate) (Except Error α)}
    {post : Except Error α → Custody × Portion → Prop}
    (h : p.Abides (Staffed members first now config D place) i post k) :
    (whenOpen p).Abides (Staffed members first now config D place) i post k := by
  unfold whenOpen
  refine .bind_of_known (.read fun _ _ he _ => ⟨he.isOpen, rfl⟩) ?_
  rwa [if_pos rfl]

theorem abides_whenOpenFor {t : Transaction}
    {p : Program (Engine ScriptedSubstrate) (Except Error α × Transaction)}
    {post : Except Error α × Transaction → Custody × Portion → Prop}
    (h : p.Abides (Staffed members first now config D place) i post k) :
    (whenOpenFor t p).Abides (Staffed members first now config D place) i post k := by
  unfold whenOpenFor
  refine .bind_of_known (.read fun _ _ he _ => ⟨he.isOpen, rfl⟩) ?_
  rwa [if_pos rfl]

/-- No batch of a member waits for further ones. -/
theorem abides_retirePipeline {id : TxnId} (hk : k.1 = .live id) :
    (retirePipeline id).Abides (Staffed members first now config D place) i (fun _ l => l = k) k := by
  unfold retirePipeline
  refine .bind_of_known (a := none) (.atomically fun K e he hK => ?_) (.pure rfl)
  · have hid : (K i).1.id? = some id := by
      rw [hK, hk]
      rfl
    have hnone := he.idle id (he.manager.held i id hid).1
    refine ⟨k, ?_, hnone, rfl⟩
    rw [← hK, Function.update_eq_self]
    refine ⟨he.isOpen, he.configured, fun other hother => ?_, he.manager, he.writes⟩
    by_cases heq : id = other
    · rw [heq]
      exact Table.find?_erase_self _ _
    · rw [Table.find?_erase_of_ne _ heq]
      exact he.idle other hother

variable (hi : i < members)

include hi

/-- A member can begin a transaction. -/
theorem abides_beginTransaction (hk : k.1 = .waiting) :
    beginTransaction.Abides (Staffed members first now config D place) i
      (fun answer l => ∃ id, answer = .ok (.new id false) ∧ l.1 = .live id ∧ l.2 = k.2) k := by
  refine abides_whenOpen ((abides_onManager (hk ▸ Manager.abides_begin hi)).mono ?_)
  rintro answer l ⟨⟨id, hanswer, hlive⟩, hsame⟩
  exact ⟨id, hanswer, hlive, hsame⟩

/-- A member can commit its transaction. -/
theorem abides_commit {id : TxnId} (hk : k.1 = .live id) :
    (commit (.new id false)).Abides (Staffed members first now config D place) i
      (fun answer l => (∃ ts, answer.1 = .ok ts) ∧ l.2 = k.2) k := by
  refine abides_whenOpenFor (.bind_of_same (abides_retirePipeline hk) fun _ => ?_)
  exact abides_onManager (hk ▸ Manager.abides_commit hi id)

/-- A member can roll its transaction back. -/
theorem abides_rollback {id : TxnId} (hk : k.1 = .live id) :
    (rollback (.new id false)).Abides (Staffed members first now config D place) i
      (fun answer l => answer.1 = .ok () ∧ l.2 = k.2) k := by
  refine abides_whenOpenFor (.bind_of_same (abides_retirePipeline hk) fun _ => ?_)
  exact abides_onManager (hk ▸ Manager.abides_rollback hi id)

end Engine

namespace Workload

open Engine

/-! ## One worker -/

/-- What stopped a worker whose batch was answered so. -/
def stoppedBy : Except Error BatchResult → Option Error
  | .ok _ => none
  | .error cause => some cause

variable {members first : Nat} {now : Millis} {config : Config} {D : Division} {place : Place}
  {i : Nat} {k : Custody × Portion}

/-- A worker ends its transaction, whatever came of its batch. -/
theorem abides_endTransaction (hi : i < members) {id : TxnId} (hk : k.1 = .live id)
    (answer : Except Error BatchResult) :
    (endTransaction (.new id false) answer).Abides (Staffed members first now config D place) i
      (fun stopped l => stopped = .ok (stoppedBy answer) ∧ l.2 = k.2) k := by
  cases answer with
  | ok result =>
    refine .bind (abides_commit hi hk) ?_
    rintro ⟨_, t⟩ l ⟨⟨ts, rfl⟩, hl⟩
    exact .pure ⟨rfl, hl⟩
  | error cause =>
    refine .bind (abides_rollback hi hk) ?_
    rintro ⟨_, t⟩ l ⟨rfl, hl⟩
    exact .pure ⟨rfl, hl⟩

theorem length_loadRows (plan : LoadPlan) (worker : Nat) :
    (loadRows plan worker).length = plan.rowsPerWorker := by
  simp [loadRows]

theorem nodup_loadRows (plan : LoadPlan) (worker : Nat) :
    ((loadRows plan worker).map Mutation.rowKey).Nodup := by
  rw [loadRows, List.map_map]
  exact List.Nodup.map (fun _ _ h => (rowKey_loadRow_inj h).2) List.nodup_range

/-- What a worker does is decided before it begins, whatever the others do. Its recorder has counted
the rows that it ignored. -/
theorem exists_run (plan : LoadPlan) (hi : i < members)
    (hvalid : config.retry.validate = .ok ())
    (hrows : plan.rowsPerWorker < UInt64.size)
    (hkeys : (loadRows plan i).map Mutation.rowKey ⊆ D.keys i) {r : Recorder}
    (hr : r.OwnedBy (D.file i) 0) (hk : k.1 = .waiting) :
    ∃ run : WorkerRun, (∃ r', run.recorder = some r' ∧ r'.OwnedBy (D.file i) run.stats.ignored) ∧
      (loadWorker plan i r).Abides (Staffed members first now config D place) i
        (fun answer _ => answer = .ok run) k := by
  let p : Pipeline :=
    ⟨config.retry, .permissive plan.source plan.tolerance, some r, .zero, .succeeded⟩
  have hnew : Pipeline.new config.retry (.permissive plan.source plan.tolerance) (some r) =
      .ok p := by
    simp [Pipeline.new, WriteOptions.permissive, hvalid, p]
  obtain ⟨⟨answer, p'⟩, w, ⟨r₁, hr₁, howned₁⟩, hsubmit⟩ : Foretold (Apportioned D config.retry place) i
      (fun answer _ => ∃ r', answer.2.recorder = some r' ∧
        r'.OwnedBy (D.file i) answer.2.stats.ignored)
      (fun id : TxnId => p.submit (.new id false) (loadRows plan i)) k.2 :=
    Pipeline.foretold_submit (p := p) rfl rfl ⟨r, rfl, hr⟩ rfl (nodup_loadRows plan i) hkeys
      (by rwa [length_loadRows]) (fun _ => ⟨rfl, rfl⟩) k.2
  obtain ⟨_, w', ⟨r₂, rfl, howned₂⟩, hfinish⟩ : Foretold (Apportioned D config.retry place) i
      (fun answer _ => ∃ r', answer = .ok (p'.stats, some r') ∧
        r'.OwnedBy (D.file i) p'.stats.ignored)
      (fun _ : Unit => p'.finish) w :=
    Pipeline.foretold_finish hr₁ howned₁ w
  refine ⟨⟨p'.stats, some r₂, stoppedBy answer⟩, ⟨r₂, rfl, howned₂⟩, ?_⟩
  unfold loadWorker
  refine .bind (abides_beginTransaction hi hk) ?_
  rintro _ k₁ ⟨id, rfl, hlive, hsame⟩
  refine .bind_of_known (a := config.retry) (.read fun _ e he _ => ⟨by rw [he.configured], rfl⟩) ?_
  refine .bind_of_known (a := .ok p) (l := k₁) ?_ ?_
  · rw [newPipeline, hnew]
    exact .pure ⟨rfl, rfl⟩
  refine .bind (abides_onWrites (hsame ▸ hsubmit id)) ?_
  rintro _ k₂ ⟨⟨rfl, hw⟩, hcustody⟩
  refine .bind (abides_endTransaction hi (hcustody.trans hlive) answer) ?_
  rintro _ k₃ ⟨rfl, hsame₃⟩
  refine .bind (abides_onWrites (k := k₃) (by rw [hsame₃, hw]; exact hfinish ())) ?_
  rintro _ _ ⟨⟨rfl, -⟩, -⟩
  exact .pure rfl

end Workload

end TxnEngine
