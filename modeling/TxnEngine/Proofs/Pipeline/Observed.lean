import TxnEngine.Proofs.Pipeline.Independence

/-!
# Observed calls

To say which calls a pipeline has made, its substrate is replaced by one that notes every call and
its answer. A pipeline cannot tell the two apart: over either it gives the same answers and has the
same effects.

The same holds of every substrate behind which another one does the work: a pipeline over the outer
one does what it does over the inner one.

Results:
* `Mirrors.bind`: programs that mirror each other part by part.
* `submit_mirrors`: a batch over the outer substrate is the batch over the inner one.
* `submitAll_mirrors`: a load whose calls are observed is the load itself.
-/

namespace TxnEngine

/-- A call of a substrate, and its answer. -/
structure Exchange where
  rows : List Mutation
  answer : Except Error BatchResponse

/-- A substrate whose calls are observed, in order. -/
structure Observed (σ : Type) where
  inner : σ
  exchanges : List Exchange

instance {σ : Type} [Substrate σ] : Substrate (Observed σ) where
  write address txn rows s :=
    let (answer, inner) := Substrate.write address txn rows s.inner
    (answer, ⟨inner, s.exchanges ++ [⟨rows, answer⟩]⟩)

/-- What is written to when only the substrate behind `w` is seen. -/
def WriteSide.seen {τ σ : Type} (see : τ → σ) (w : WriteSide τ) : WriteSide σ :=
  { w with substrate := see w.substrate }

/-- The substrate that is seen does what the outer one does. -/
def Substrate.Fronts {τ σ : Type} [Substrate τ] [Substrate σ] (see : τ → σ) : Prop :=
  ∀ address txn rows s, Substrate.write address txn rows (see s) =
    ((Substrate.write address txn rows s).1, see (Substrate.write address txn rows s).2)

theorem Observed.fronts {σ : Type} [Substrate σ] :
    Substrate.Fronts (Observed.inner : Observed σ → σ) :=
  fun _ _ _ _ => rfl

namespace Pipeline

open Program

variable {τ σ α β : Type} {see : τ → σ}

/-- A program over the outer substrate does what another one does over the substrate behind it. -/
def Mirrors (see : τ → σ) (p : Program (WriteSide τ) α) (q : Program (WriteSide σ) α) : Prop :=
  ∀ w, q.run (w.seen see) = ((p.run w).1, (p.run w).2.seen see)

theorem Mirrors.pure (a : α) :
    Mirrors see (Pure.pure a : Program (WriteSide τ) α) (Pure.pure a) :=
  fun _ => rfl

theorem Mirrors.bind {p : Program (WriteSide τ) α} {q : Program (WriteSide σ) α}
    {f : α → Program (WriteSide τ) β} {g : α → Program (WriteSide σ) β}
    (h : Mirrors see p q) (hnext : ∀ a, Mirrors see (f a) (g a)) :
    Mirrors see (p >>= f) (q >>= g) := by
  intro w
  rw [run_bind, run_bind, h w]
  exact hnext _ _

/-! ## Actions -/

theorem locate_mirrors : Mirrors see locate locate :=
  fun _ => rfl

theorem invalidate_mirrors : Mirrors see invalidate invalidate :=
  fun _ => rfl

theorem pause_mirrors (retry : RetryConfig) (made : Nat) :
    Mirrors see (pause retry made) (pause retry made) :=
  fun _ => rfl

theorem place_mirrors : Mirrors see place place :=
  fun _ => rfl

theorem write_mirrors [Substrate τ] [Substrate σ] (hsee : Substrate.Fronts see)
    (address : PartitionAddress) (txn : TxnId) (rows : List Mutation) :
    Mirrors see (write address txn rows) (write address txn rows) := by
  intro w
  simp only [write, run_atomically, WriteSide.seen, hsee address txn rows w.substrate]

theorem onDirectory_mirrors (p : Program Directory α) :
    Mirrors see (onDirectory p) (onDirectory p) := by
  intro w
  rw [run_onDirectory, run_onDirectory]
  rfl

/-! ## A batch -/

theorem rejectRow_mirrors (permissive mixed : Bool) (row : BatchRow) (o : Outcome) (b : BatchRun) :
    Mirrors see (rejectRow permissive mixed row o b) (rejectRow permissive mixed row o b) := by
  unfold rejectRow
  split
  · exact .pure _
  · refine .bind (onDirectory_mirrors _) fun ⟨exceeded, recorder⟩ => ?_
    match exceeded with
    | .error e => exact .pure _
    | .ok true => exact .bind place_mirrors fun _ => .pure _
    | .ok false => exact .pure _

theorem sortRows_mirrors (permissive mixed : Bool) (outcomes : List (BatchRow × Outcome))
    (b : BatchRun) :
    Mirrors see (sortRows permissive mixed outcomes b)
      (sortRows permissive mixed outcomes b) := by
  induction outcomes generalizing b with
  | nil => exact .pure _
  | cons x rest ih =>
    obtain ⟨row, o⟩ := x
    simp only [sortRows]
    split_ifs
    · exact ih _
    · refine .bind (ih _) fun done => ?_
      obtain ⟨answer, b⟩ := done
      cases answer <;> exact .pure _
    · refine .bind (rejectRow_mirrors permissive mixed row o b) fun done => ?_
      obtain ⟨answer, b⟩ := done
      cases answer with
      | error e => exact .pure _
      | ok _ => exact ih _

variable [Substrate τ] [Substrate σ] (hsee : Substrate.Fronts see)

include hsee

theorem attempt_mirrors (permissive : Bool) (txn : TxnId) (pending : List BatchRow)
    (b : BatchRun) :
    Mirrors see (attempt permissive txn pending b) (attempt permissive txn pending b) := by
  unfold attempt
  refine .bind locate_mirrors fun route => ?_
  cases route with
  | error e => exact .pure _
  | ok address =>
    refine .bind (write_mirrors hsee _ _ _) fun answer => ?_
    cases answer with
    | error e =>
      simp only
      split_ifs <;> exact .pure _
    | ok response =>
      simp only
      split
      · exact .pure _
      · refine .bind (sortRows_mirrors _ _ _ _) fun ⟨answer, b⟩ => ?_
        cases answer with
        | error e => exact .pure _
        | ok pending =>
          simp only
          split_ifs
          · exact .bind invalidate_mirrors fun _ => .pure _
          · exact .pure _

theorem attempts_mirrors (retry : RetryConfig) (permissive : Bool) (txn : TxnId)
    (left made : Nat) (pending : List BatchRow) (b : BatchRun) :
    Mirrors see (attempts retry permissive txn left made pending b)
      (attempts retry permissive txn left made pending b) := by
  induction left generalizing made pending b with
  | zero => exact .pure _
  | succ left ih =>
    simp only [attempts]
    split_ifs
    · exact .pure _
    · refine .bind (pause_mirrors retry made) fun delay? => ?_
      cases delay? with
      | none => exact .pure _
      | some delay =>
        refine .bind (attempt_mirrors hsee _ _ _ _) fun done => ?_
        obtain ⟨answer, b⟩ := done
        cases answer with
        | error e => exact .pure _
        | ok pending => exact ih _ _ _

theorem run_mirrors (p : Pipeline) (txn : TxnId) (rows : List Mutation) :
    Mirrors see (p.run txn rows) (p.run txn rows) := by
  refine .bind (attempts_mirrors hsee _ _ _ _ _ _ _) fun ⟨answer, b⟩ => ?_
  cases answer with
  | error e => exact .pure _
  | ok _ => exact .bind place_mirrors fun _ => .pure _

theorem submit_mirrors (p : Pipeline) (t : Transaction) (rows : List Mutation) :
    Mirrors see (p.submit t rows) (p.submit t rows) := by
  unfold submit
  split_ifs
  · exact .pure _
  · exact .pure _
  · exact .bind (run_mirrors hsee p t.id rows) fun _ => .pure _

/-- A load over the outer substrate answers as the load over the one behind it, and leaves the same
pipeline, files, route and substrate. -/
theorem submitAll_mirrors (p : Pipeline) (parts : List (Transaction × List Mutation)) :
    Mirrors see (p.submitAll parts) (p.submitAll parts) := by
  induction parts generalizing p with
  | nil => exact .pure _
  | cons part rest ih =>
    refine .bind (submit_mirrors hsee p part.1 part.2) fun ⟨answer, p⟩ => ?_
    exact .bind (ih p) fun _ => .pure _

end Pipeline

end TxnEngine
