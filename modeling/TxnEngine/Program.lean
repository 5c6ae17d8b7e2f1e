/-!
# Programs of atomic actions

An operation of the engine is a *program*: a finite sequence of atomic actions on a state that
several clients share, where each action may depend on the answers of the earlier ones. One
definition of an operation therefore has two readings:

* `Program.run`: the operation on its own, from its first action to its last;
* action by action, with the actions of other clients in between.

Main statements:

* `bind_done`, `bind_bind`: programs form a lawful monad;
* `run_pure`, `run_bind`, `run_atomically`: what a program does when it runs alone;
* `run_focus`: a program over a part of the state leaves the rest alone.
-/

namespace TxnEngine

/-- A client's remaining code over the shared state `σ`, with an answer in `α` at its end. -/
inductive Program (σ : Type) (α : Type) : Type 1 where
  /-- Nothing is left to do. -/
  | done (answer : α)
  /-- One atomic action, whose answer decides how the program goes on. -/
  | call {β : Type} (action : σ → β × σ) (next : β → Program σ α)

namespace Program

variable {σ τ α β γ : Type}

/-- The program that runs `p` and goes on with `f` at `p`'s answer. -/
def bind : Program σ α → (α → Program σ β) → Program σ β
  | done a, f => f a
  | call action next, f => call action fun b => (next b).bind f

instance : Monad (Program σ) where
  pure := done
  bind := bind

theorem bind_done (p : Program σ α) : p.bind done = p := by
  induction p with
  | done a => rfl
  | call action next ih => simp [bind, ih]

theorem bind_bind (p : Program σ α) (f : α → Program σ β) (g : β → Program σ γ) :
    (p.bind f).bind g = p.bind fun a => (f a).bind g := by
  induction p with
  | done a => rfl
  | call action next ih => simp [bind, ih]

instance : LawfulMonad (Program σ) :=
  LawfulMonad.mk' _ bind_done (fun _ _ => rfl) bind_bind

/-- The program of a single atomic action. -/
def atomically (action : σ → β × σ) : Program σ β :=
  call action done

/-- An atomic action that only reads. -/
def read (f : σ → β) : Program σ β :=
  atomically fun s => (f s, s)

/-- An atomic action that only changes the state. -/
def modify (f : σ → σ) : Program σ Unit :=
  atomically fun s => ((), f s)

/-- The program run alone: its answer and the state it leaves. -/
def run : Program σ α → σ → α × σ
  | done a, s => (a, s)
  | call action next, s =>
    let r := action s
    (next r.1).run r.2

/-- The program over a larger state that acts on the part seen by `get` and written by `put`. -/
def focus (get : τ → σ) (put : σ → τ → τ) : Program σ α → Program τ α
  | done a => done a
  | call action next =>
    call (fun t => let r := action (get t); (r.1, put r.2 t)) fun b => (next b).focus get put

/-! ## Running alone -/

@[simp]
theorem run_pure (a : α) (s : σ) : (pure a : Program σ α).run s = (a, s) := rfl

@[simp]
theorem run_atomically (action : σ → β × σ) (s : σ) : (atomically action).run s = action s := rfl

@[simp]
theorem run_read (f : σ → β) (s : σ) : (read f).run s = (f s, s) := rfl

@[simp]
theorem run_modify (f : σ → σ) (s : σ) : (modify f).run s = ((), f s) := rfl

@[simp]
theorem run_bind (p : Program σ α) (f : α → Program σ β) (s : σ) :
    (p >>= f).run s = (f (p.run s).1).run (p.run s).2 := by
  change (p.bind f).run s = _
  induction p generalizing s with
  | done a => rfl
  | call action next ih => exact ih _ _

/-- A focused program acts on its part only, and `put` carries the result back. -/
theorem run_focus {get : τ → σ} {put : σ → τ → τ} (hget : ∀ s t, get (put s t) = s)
    (hput : ∀ t, put (get t) t = t) (hputput : ∀ s s' t, put s (put s' t) = put s t)
    (p : Program σ α) (t : τ) :
    (p.focus get put).run t = ((p.run (get t)).1, put (p.run (get t)).2 t) := by
  induction p generalizing t with
  | done a => simp [focus, run, hput]
  | call action next ih =>
    simp only [focus, run]
    rw [ih, hget, hputput]

end Program

end TxnEngine
