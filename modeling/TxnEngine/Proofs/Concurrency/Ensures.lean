import Mathlib.Tactic.Common
import TxnEngine.Program

/-!
# What a program ensures in company

Between any two actions of a program other clients can act. What a client can count on is that all
of them keep to a `Discipline`: an invariant of the shared state, and a preorder along which every
action changes it. In return every action of its own has to keep to it too.

Results:
* `Ensures.promises`: what the next action of a program does, wherever the others have led.
* `Ensures.run`: what is ensured in company is ensured alone.
* `Ensures.bind`, `Ensures.atomically`, `Ensures.focus`: what is ensured is shown action by action.
* `Acts.ensures`: what every single action of a program does is ensured in any company.
* `Acts.run_eq`: what no action of a program changes, the program does not change.
* `Ensures.lift`, `Promises.lift`: what is ensured of a part of the state is ensured of the whole.
-/

namespace TxnEngine

/-- What all clients of a shared state keep to. -/
structure Discipline (σ : Type) where
  /-- The invariant of the state. -/
  holds : σ → Prop
  /-- Which states can follow on which. -/
  leads : σ → σ → Prop
  refl : ∀ s, leads s s
  trans : ∀ {s t u}, leads s t → leads t u → leads s u

/-- An action from `s` to `t` that keeps to the discipline, and to what its operation may do. -/
structure Discipline.Step {σ : Type} (D : Discipline σ) (may : σ → σ → Prop) (s t : σ) : Prop where
  holds : D.holds t
  leads : D.leads s t
  may : may s t

namespace Program

variable {σ τ α β γ : Type}

/-- What one action leaves of the program, and of the state. -/
def advance : Program σ α → σ → Program σ α × σ
  | done a, s => (done a, s)
  | call action next, s => (next (action s).1, (action s).2)

/-- The answer of a program that is over. -/
def answer? : Program σ α → Option α
  | done a => some a
  | call _ _ => none

theorem eq_done_of_answer? {p : Program σ α} {a : α} (h : p.answer? = some a) : p = done a := by
  cases p with
  | done b => exact congrArg done (Option.some.inj h)
  | call action next => cases h

/-- From `s` on every action of the program keeps to the discipline and to what it may do, in
whatever state the others have left, and from its end on its answer has the property `post`. -/
def Ensures (D : Discipline σ) (may : σ → σ → Prop) (post : α → σ → Prop) : Program σ α → σ → Prop
  | done a, s => ∀ t, D.holds t → D.leads s t → post a t
  | call action next, s => ∀ t, D.holds t → D.leads s t →
      D.Step may t (action t).2 ∧ Ensures D may post (next (action t).1) (action t).2

/-- What a program ensures whose first action is taken in the state `s` itself. -/
def Promises (D : Discipline σ) (may : σ → σ → Prop) (post : α → σ → Prop) (p : Program σ α)
    (s : σ) : Prop :=
  D.Step may s (p.advance s).2 ∧ (p.advance s).1.Ensures D may post (p.advance s).2

namespace Ensures

variable {D : Discipline σ} {may : σ → σ → Prop} {post : α → σ → Prop} {p : Program σ α} {s t : σ}

/-- What is ensured from a state on is ensured from every later one on. -/
theorem later (h : p.Ensures D may post s) (hlead : D.leads s t) : p.Ensures D may post t := by
  cases p with
  | done a => exact fun u hu htu => h u hu (D.trans hlead htu)
  | call action next => exact fun u hu htu => h u hu (D.trans hlead htu)

/-- The next action keeps to the discipline, and the rest of the program ensures the same. -/
theorem promises (hrefl : ∀ s, may s s) (h : p.Ensures D may post s) (hs : D.holds s) :
    p.Promises D may post s := by
  cases p with
  | done a => exact ⟨⟨hs, D.refl s, hrefl s⟩, h⟩
  | call action next => exact h s hs (D.refl s)

theorem of_done {a : α} (h : (done a : Program σ α).Ensures D may post s) (hs : D.holds s) :
    post a s :=
  h s hs (D.refl s)

theorem pure {a : α} (h : ∀ t, D.holds t → D.leads s t → post a t) :
    (Pure.pure a : Program σ α).Ensures D may post s :=
  h

theorem bind {q : α → Program σ β} {mid : α → σ → Prop} {post : β → σ → Prop} (hs : D.holds s)
    (hp : p.Ensures D may mid s)
    (hq : ∀ a t, D.holds t → D.leads s t → mid a t → (q a).Ensures D may post t) :
    (p >>= q).Ensures D may post s := by
  change (p.bind q).Ensures D may post s
  induction p generalizing s with
  | done a => exact hq a s hs (D.refl s) (hp.of_done hs)
  | call action next ih =>
    intro t ht hst
    obtain ⟨hstep, hnext⟩ := hp t ht hst
    refine ⟨hstep, ih _ hstep.holds hnext fun a u hu htu hmid => ?_⟩
    exact hq a u hu (D.trans hst (D.trans hstep.leads htu)) hmid

theorem atomically {action : σ → α × σ}
    (h : ∀ t, D.holds t → D.leads s t → D.Step may t (action t).2 ∧
      ∀ u, D.holds u → D.leads (action t).2 u → post (action t).1 u) :
    (Program.atomically action).Ensures D may post s := by
  intro t ht hst
  exact h t ht hst

/-- A program on a part of the state that the discipline says nothing about. -/
theorem focus {get : τ → σ} {put : σ → τ → τ} {D : Discipline τ} {may : τ → τ → Prop} {s : τ}
    (hput : ∀ part t, D.holds t → D.Step may t (put part t)) (p : Program σ α) :
    (p.focus get put).Ensures D may (fun _ _ => True) s := by
  induction p generalizing s with
  | done a => exact fun _ _ _ => trivial
  | call action next ih => exact fun t ht _ => ⟨hput _ t ht, ih _⟩

theorem mono {post' : α → σ → Prop} (hpost : ∀ a t, post a t → post' a t)
    (h : p.Ensures D may post s) : p.Ensures D may post' s := by
  induction p generalizing s with
  | done a => exact fun t ht hst => hpost a t (h t ht hst)
  | call action next ih =>
    intro t ht hst
    obtain ⟨hstep, hnext⟩ := h t ht hst
    exact ⟨hstep, ih _ hnext⟩

theorem map {f : α → β} {post : β → σ → Prop}
    (h : p.Ensures D may (fun a => post (f a)) s) : (f <$> p).Ensures D may post s := by
  induction p generalizing s with
  | done a => exact h
  | call action next ih =>
    intro t ht hst
    obtain ⟨hstep, hnext⟩ := h t ht hst
    exact ⟨hstep, ih _ hnext⟩

section Lift

variable {D' : Discipline τ} {may' : τ → τ → Prop} {get : τ → σ} {put : σ → τ → τ}
  (hget : ∀ s t, get (put s t) = s) (hholds : ∀ t, D'.holds t → D.holds (get t))
  (hleads : ∀ t u, D'.leads t u → D.leads (get t) (get u))
  (hstep : ∀ t s, D'.holds t → D.Step may (get t) s → D'.Step may' t (put s t))

include hget hholds hleads hstep

/-- A program on a part of the state, whose clients keep to a discipline of the whole. -/
theorem lift {t : τ} (h : p.Ensures D may post (get t)) :
    (p.focus get put).Ensures D' may' (fun a u => post a (get u)) t := by
  induction p generalizing t with
  | done a => exact fun u hu htu => h (get u) (hholds u hu) (hleads t u htu)
  | call action next ih =>
    intro u hu htu
    obtain ⟨hpart, hnext⟩ := h (get u) (hholds u hu) (hleads t u htu)
    exact ⟨hstep u _ hu hpart, ih _ (by rwa [hget])⟩

end Lift

/-- A program that runs alone answers as it would among others, and keeps what each of its actions
keeps. -/
theorem run {keeps : σ → Prop} (h : p.Ensures D may post s) (hs : D.holds s)
    (hmay : ∀ t u, may t u → keeps t → keeps u) (hkeeps : keeps s) :
    post (p.run s).1 (p.run s).2 ∧ keeps (p.run s).2 := by
  induction p generalizing s with
  | done a => exact ⟨h.of_done hs, hkeeps⟩
  | call action next ih =>
    obtain ⟨hstep, hnext⟩ := h s hs (D.refl s)
    exact ih _ hnext hstep.holds (hmay _ _ hstep.may hkeeps)

end Ensures

namespace Promises

variable {D : Discipline σ} {may : σ → σ → Prop} {p : Program σ α} {s : σ}

theorem atomically_bind {action : σ → α × σ} {q : α → Program σ β} {post : β → σ → Prop}
    (hstep : D.Step may s (action s).2)
    (hq : (q (action s).1).Ensures D may post (action s).2) :
    (Program.atomically action >>= q).Promises D may post s :=
  ⟨hstep, hq⟩

/-- A program on a part of the state, whose clients keep to a discipline of the whole. -/
theorem lift {D' : Discipline τ} {may' : τ → τ → Prop} {post : α → σ → Prop} {get : τ → σ}
    {put : σ → τ → τ} (hget : ∀ s t, get (put s t) = s)
    (hholds : ∀ t, D'.holds t → D.holds (get t))
    (hleads : ∀ t u, D'.leads t u → D.leads (get t) (get u))
    (hstep : ∀ t s, D'.holds t → D.Step may (get t) s → D'.Step may' t (put s t))
    (hrefl : ∀ t, may' t t) {t : τ} (ht : D'.holds t) (h : p.Promises D may post (get t)) :
    (p.focus get put).Promises D' may' (fun a u => post a (get u)) t := by
  cases p with
  | done a =>
    exact ⟨⟨ht, D'.refl t, hrefl t⟩, fun u hu htu => h.2 (get u) (hholds u hu) (hleads t u htu)⟩
  | call action next =>
    have hnext := h.2
    refine ⟨hstep t _ ht h.1, ?_⟩
    change ((next (action (get t)).1).focus get put).Ensures D' may' _ (put (action (get t)).2 t)
    refine Ensures.lift hget hholds hleads hstep ?_
    rw [hget]
    exact hnext

theorem mono {post post' : α → σ → Prop} (hpost : ∀ a t, post a t → post' a t)
    (h : p.Promises D may post s) : p.Promises D may post' s :=
  ⟨h.1, h.2.mono hpost⟩

theorem map {f : α → β} {post : β → σ → Prop}
    (h : p.Promises D may (fun a => post (f a)) s) : (f <$> p).Promises D may post s := by
  cases p with
  | done a => exact h
  | call action next => exact ⟨h.1, h.2.map⟩

end Promises

/-! ## What every single action does -/

/-- Every action of the program changes the state along `may`, in whatever state it is taken and
whatever the actions before it have answered. -/
def Acts (may : σ → σ → Prop) : Program σ α → Prop
  | done _ => True
  | call action next => (∀ s, may s (action s).2) ∧ ∀ b, Acts may (next b)

namespace Acts

variable {may may' : σ → σ → Prop} {p : Program σ α}

theorem pure (a : α) : (Pure.pure a : Program σ α).Acts may :=
  trivial

theorem bind {q : α → Program σ β} (hp : p.Acts may) (hq : ∀ a, (q a).Acts may) :
    (p >>= q).Acts may := by
  change (p.bind q).Acts may
  induction p with
  | done a => exact hq a
  | call action next ih => exact ⟨hp.1, fun b => ih b (hp.2 b)⟩

theorem map (f : α → β) (hp : p.Acts may) : (f <$> p).Acts may := by
  rw [← bind_pure_comp]
  exact hp.bind fun a => pure (f a)

theorem atomically {action : σ → α × σ} (h : ∀ s, may s (action s).2) :
    (Program.atomically action).Acts may :=
  ⟨h, fun _ => trivial⟩

/-- A program on a part of the state. -/
theorem focus {may : τ → τ → Prop} {get : τ → σ} {put : σ → τ → τ}
    (hput : ∀ part t, may t (put part t)) (p : Program σ α) : (p.focus get put).Acts may := by
  induction p with
  | done a => trivial
  | call action next ih => exact ⟨fun t => hput _ t, ih⟩

theorem mono (hmay : ∀ s t, may s t → may' s t) (hp : p.Acts may) : p.Acts may' := by
  induction p with
  | done a => trivial
  | call action next ih => exact ⟨fun s => hmay _ _ (hp.1 s), fun b => ih b (hp.2 b)⟩

theorem ensures {D : Discipline σ} (hmay : ∀ s t, D.holds s → may s t → D.Step may' s t)
    (hp : p.Acts may) (s : σ) : p.Ensures D may' (fun _ _ => True) s := by
  induction p generalizing s with
  | done a => exact fun _ _ _ => trivial
  | call action next ih => exact fun t ht _ => ⟨hmay t _ ht (hp.1 t), ih _ (hp.2 _) _⟩

/-- What no action changes is not changed by the program run alone. -/
theorem run_eq {f : σ → γ} (hp : p.Acts fun s t => f t = f s) (s : σ) : f (p.run s).2 = f s := by
  induction p generalizing s with
  | done a => rfl
  | call action next ih => exact (ih _ (hp.2 _) _).trans (hp.1 s)

end Acts

end Program

end TxnEngine
