import TxnEngine.Engine
import TxnEngine.Proofs.Manager.Snapshots

/-!
# True stamps

A stamp outlives the decision behind it, and every later reader believes it. So whoever stamps a
version must know how its writer has ended, by a record that cannot change any more. That is what
all clients of an engine keep to: each stamp is the final status of its writer, and stays.

Results:
* `ensures_onManager`, `promises_onManager`: what is ensured of transaction management is ensured of
  the engine.
* `ensures_stamp`: a version is stamped without a conflict, whoever has stamped it before.
* `ensures_resolveJob`: what becomes of a job.
-/

namespace TxnEngine

namespace Engine

open Program

variable {σ α : Type}

/-! ## The discipline -/

/-- The version that a transaction wrote at a place carries a stamp. -/
def Stamped (loc : CellLocation) (id : TxnId) (status : FinalStatus) (e : Engine σ) : Prop :=
  (e.stamps.cell loc id).status = some status

/-- The cache agrees with the log, and every stamp is the final status of its writer. -/
structure Truthful (e : Engine σ) : Prop where
  coherent : e.manager.Coherent
  stamps : ∀ loc id status, Stamped loc id status e → Manager.Ends id status e.manager

/-- Records stay, finished ones as they are, and stamps stay as they are. -/
structure Continues (e e' : Engine σ) : Prop where
  records : Manager.Preserves e.manager e'.manager
  stamps : ∀ loc id status, Stamped loc id status e → Stamped loc id status e'

/-- What all clients of an engine keep to. -/
def truthfulness : Discipline (Engine σ) where
  holds := Truthful
  leads := Continues
  refl := fun e => ⟨Manager.discipline.refl e.manager, fun _ _ _ => id⟩
  trans := fun hst htu => ⟨Manager.discipline.trans hst.records htu.records,
    fun loc id status h => htu.stamps loc id status (hst.stamps loc id status h)⟩

/-- No action is kept from anything else. -/
def anything (_ _ : Engine σ) : Prop := True

variable {e e' : Engine σ}

/-- An action that leaves transaction management and the stamps alone. -/
theorem step_aside (he : e.Truthful) (hmanager : e'.manager = e.manager)
    (hstamps : e'.stamps = e.stamps) : truthfulness.Step anything e e' := by
  have hsame (loc : CellLocation) (id : TxnId) (status : FinalStatus) :
      Stamped loc id status e' ↔ Stamped loc id status e := by rw [Stamped, hstamps, Stamped]
  refine ⟨⟨?_, fun loc id status h => ?_⟩, ⟨?_, fun loc id status h => ?_⟩, trivial⟩
  · rw [hmanager]
    exact he.coherent
  · rw [hmanager]
    exact he.stamps loc id status ((hsame loc id status).mp h)
  · rw [hmanager]
    exact Manager.discipline.refl _
  · exact (hsame loc id status).mpr h

/-- An action of transaction management. -/
theorem step_manager {may : Manager → Manager → Prop} (he : e.Truthful) {m : Manager}
    (hm : Manager.discipline.Step may e.manager m) :
    truthfulness.Step anything e { e with manager := m } :=
  ⟨⟨hm.holds, fun loc id status h => (he.stamps loc id status h).later hm.leads⟩,
    ⟨hm.leads, fun _ _ _ => id⟩, trivial⟩

/-- An engine over a readable log begins without stamps. -/
theorem truthful_new {log : Log} (hv : Log.Valid log.records) (config : Config)
    (c : Collaborators σ) : (new log config { c with stamps := .empty }).Truthful :=
  ⟨Manager.coherent_newManager hv config _, fun _ _ _ h => by cases h⟩

/-! ## Programs of transaction management -/

section OnManager

variable {may : Manager → Manager → Prop} {post : α → Manager → Prop} {p : Program Manager α}

theorem ensures_onManager (h : p.Ensures Manager.discipline may post e.manager) :
    (onManager p).Ensures truthfulness anything (fun a e => post a e.manager) e :=
  Ensures.lift (fun _ _ => rfl) (fun _ => Truthful.coherent) (fun _ _ => Continues.records)
    (fun _ _ he hm => step_manager he hm) h

theorem promises_onManager (he : e.Truthful)
    (h : p.Promises Manager.discipline may post e.manager) :
    (onManager p).Promises truthfulness anything (fun a e => post a e.manager) e :=
  Promises.lift (fun _ _ => rfl) (fun _ => Truthful.coherent) (fun _ _ => Continues.records)
    (fun _ _ he hm => step_manager he hm) (fun _ => trivial) he h

end OnManager

theorem ensures_count (event : Metrics.Event) :
    (onManager (Manager.count event)).Ensures truthfulness anything (fun _ _ => True) e :=
  ensures_onManager (Manager.ensures_count Manager.nothing event)

/-! ## Stamping -/

/-- Every version is stamped as before, but for the one that is being stamped. -/
theorem status_cell_stamp (s : Stamps) (loc : CellLocation) (id : TxnId) (status : FinalStatus)
    (loc' : CellLocation) (id' : TxnId) :
    ((s.stamp loc id status).2.cell loc' id').status =
      if loc' = loc ∧ id' = id then some ((s.cell loc id).status.getD status)
      else (s.cell loc' id').status := by
  simp only [Stamps.stamp, Stamps.cell]
  by_cases hcell : loc' = loc ∧ id' = id
  · obtain ⟨rfl, rfl⟩ := hcell
    cases h : s.table.find? (loc', id') with
    | none => simp [Table.find?_insert_self]
    | some existing => by_cases hsame : existing = status <;> simp [hsame, h]
  · have hne : (loc, id) ≠ (loc', id') := by
      rintro heq
      cases heq
      exact hcell ⟨rfl, rfl⟩
    rw [if_neg hcell]
    cases h : s.table.find? (loc, id) with
    | none => exact Table.find?_insert_of_ne _ _ hne
    | some existing => by_cases hsame : existing = status <;> simp [hsame]

/-- There is no conflict if there is no other stamp. -/
theorem stamp_eq_ok {s : Stamps} {loc : CellLocation} {id : TxnId} {status : FinalStatus}
    (h : ∀ existing, (s.cell loc id).status = some existing → existing = status) :
    (s.stamp loc id status).1 = .ok () := by
  simp only [Stamps.stamp]
  simp only [Stamps.cell] at h
  cases hfind : s.table.find? (loc, id) with
  | none => rfl
  | some existing => simp [h existing hfind]

/-- A version is stamped without a conflict by whoever knows how its writer has ended. -/
theorem ensures_stamp {loc : CellLocation} {id : TxnId} {status : FinalStatus}
    (hends : Manager.Ends id status e.manager) :
    (stamp loc id status).Ensures truthfulness anything
      (fun answer e => answer = .ok () ∧ Stamped loc id status e) e := by
  refine .atomically fun t ht het => ?_
  have hends' : Manager.Ends id status t.manager := hends.later het.records
  have hagrees (existing : FinalStatus) (h : (t.stamps.cell loc id).status = some existing) :
      existing = status := (ht.stamps loc id existing h).unique hends'
  let t' : Engine σ := { t with stamps := (t.stamps.stamp loc id status).2 }
  have hstamped (loc' : CellLocation) (id' : TxnId) (status' : FinalStatus) :
      Stamped loc' id' status' t' ↔
        loc' = loc ∧ id' = id ∧ status' = status ∨ Stamped loc' id' status' t := by
    simp only [Stamped, t', status_cell_stamp]
    split_ifs with hcell
    · obtain ⟨rfl, rfl⟩ := hcell
      cases hfind : (t.stamps.cell loc' id').status with
      | none => simp [eq_comm]
      | some existing => simp [hagrees existing hfind, eq_comm]
    · simp [← and_assoc, hcell]
  refine ⟨⟨⟨ht.coherent, fun loc' id' status' h => ?_⟩, ⟨?_, fun loc' id' status' h => ?_⟩,
    trivial⟩, fun u _ htu => ⟨stamp_eq_ok hagrees, htu.stamps _ _ _ ?_⟩⟩
  · rcases (hstamped loc' id' status').mp h with ⟨rfl, rfl, rfl⟩ | h
    · exact hends'
    · exact ht.stamps loc' id' status' h
  · exact Manager.discipline.refl _
  · exact (hstamped loc' id' status').mpr (.inr h)
  · exact (hstamped loc id status).mpr (.inl ⟨rfl, rfl, rfl⟩)

/-! ## A worker's job -/

/-- What becomes of a job that is begun in the state `e`. -/
structure Handles (job : ResolveJob) (e : Engine σ) (resolution : Resolution) (e' : Engine σ) :
    Prop where
  /-- The version carries the final status of its writer. -/
  resolved : resolution = .resolved → ∃ status,
    Manager.Ends job.txnId status e'.manager ∧ Stamped job.location job.txnId status e'
  /-- The writer was live. -/
  left : resolution = .left → Manager.Recorded job.txnId e'.manager ∧
    ∀ r, e.manager.log.get? job.txnId = some r → r.isFinished = false
  /-- There was no writer, or the storage failed. -/
  failed : ∀ cause, resolution = .failed cause →
    cause = .transactionNotFound job.txnId ∧ ¬Manager.Recorded job.txnId e.manager ∨
      ∃ fault, cause = .storage fault

theorem Handles.later {job : ResolveJob} {resolution : Resolution} {e'' : Engine σ}
    (h : Handles job e resolution e') (hlead : Continues e' e'') :
    Handles job e resolution e'' := by
  refine ⟨fun hr => ?_, fun hl => ⟨(h.left hl).1.later hlead.records, (h.left hl).2⟩, h.failed⟩
  obtain ⟨status, hends, hstamped⟩ := h.resolved hr
  exact ⟨status, hends.later hlead.records, hlead.stamps _ _ _ hstamped⟩

/-- A job that was not begun before ends as one that is begun now. -/
theorem Handles.earlier {job : ResolveJob} {resolution : Resolution} {e'' : Engine σ}
    (h : Handles job e' resolution e'') (hlead : Continues e e') :
    Handles job e resolution e'' := by
  refine ⟨h.resolved, fun hl => ⟨(h.left hl).1, fun r hr => ?_⟩, fun cause hf => ?_⟩
  · obtain ⟨r', hr', hfixed⟩ := hlead.records _ r hr
    by_contra hfinished
    obtain rfl := hfixed (by simpa using hfinished)
    exact hfinished ((h.left hl).2 r' hr')
  · refine (h.failed cause hf).imp_left fun ⟨hcause, hnone⟩ => ⟨hcause, fun hrecorded => ?_⟩
    exact hnone (hrecorded.later hlead.records)

/-- The writer is settled, and the version is stamped if the writer has ended. -/
theorem ensures_resolve (he : e.Truthful) (job : ResolveJob) :
    (Resolver.resolve (fun id => onManager (Manager.settle id)) stamp job).Ensures truthfulness
      anything (Handles job e) e := by
  unfold Resolver.resolve
  have hsettle := ensures_onManager (Manager.ensures_settle Manager.nothing he.coherent job.txnId)
  refine .bind he hsettle fun answer t ht _ hsettles => ?_
  rcases answer with cause | _ | status
  · refine .pure fun _ _ _ => ⟨fun h => ?_, fun h => ?_, fun _ h => ?_⟩ <;> cases h
    exact hsettles.refused cause rfl
  · refine .pure fun u _ htu => ⟨fun h => ?_, fun _ => ?_, fun _ h => ?_⟩
    · cases h
    · obtain ⟨hrecorded, hlive⟩ := hsettles.live rfl
      exact ⟨hrecorded.later htu.records, hlive⟩
    · cases h
  · have hends := hsettles.final status rfl
    refine .bind ht (ensures_stamp hends) fun answer u _ htu hstamped => ?_
    rw [hstamped.1]
    refine .pure fun v _ huv => ⟨fun _ => ⟨status, ?_, ?_⟩, fun h => ?_, fun _ h => ?_⟩
    · exact (hends.later htu.records).later huv.records
    · exact huv.stamps _ _ _ hstamped.2
    · cases h
    · cases h

/-- A job is done, given up because its writer is live, or fails because there is no writer or the
storage fails. -/
theorem ensures_resolveJob (he : e.Truthful) (job : ResolveJob) :
    (resolveJob job).Ensures truthfulness anything (Handles job e) e := by
  unfold resolveJob
  refine .bind he (ensures_resolve he job) fun resolution t ht _ hhandles => ?_
  have hcounted (event : Metrics.Event) :
      (do
        onManager (Manager.count event)
        return resolution : Program (Engine σ) Resolution).Ensures truthfulness anything
          (Handles job e) t :=
    .bind ht (ensures_count event) fun _ _ _ htu _ =>
      .pure fun _ _ huv => (hhandles.later htu).later huv
  cases resolution with
  | resolved => exact hcounted .resolve
  | left => exact .pure fun _ _ htu => hhandles.later htu
  | failed cause => exact hcounted .resolveFailure

end Engine

end TxnEngine
