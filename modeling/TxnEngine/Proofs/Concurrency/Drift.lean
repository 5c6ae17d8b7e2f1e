import TxnEngine.Proofs.Concurrency.Ensures

/-!
# Programs over a state that drifts

A state can have a part that goes its own way, such as the time that passes: in front of every action
of a program it may drift. What a program answers and leaves is then no longer a function of the
state in which it begins, but a relation, `Passes`. Two passes of one program can be compared by what
can be seen of the states, if the drift cannot be seen.

Results:
* `passes_bind`, `passes_map`: how a program passes, by its parts.
* `Passes.of_run`: the program run alone passes without any drift.
* `Ensures.passes`, `Promises.passes`: what is ensured in company is ensured while the state drifts.
* `Agrees.bind`, `Agrees.atomically`: two passes agree if their parts do.
-/

namespace TxnEngine

namespace Program

variable {σ α β : Type} {drift : σ → σ → Prop}

/-- From `s` the program can answer `a` and leave `t`, if the state drifts in front of each of its
actions. -/
def Passes (drift : σ → σ → Prop) : Program σ α → σ → α → σ → Prop
  | done b, s, a, t => a = b ∧ t = s
  | call action next, s, a, t =>
    ∃ s', drift s s' ∧ (next (action s').1).Passes drift (action s').2 a t

theorem passes_bind {p : Program σ α} {q : α → Program σ β} {s : σ} {b : β} {u : σ} :
    (p >>= q).Passes drift s b u ↔
      ∃ a t, p.Passes drift s a t ∧ (q a).Passes drift t b u := by
  change (p.bind q).Passes drift s b u ↔ _
  induction p generalizing s with
  | done a => simp [Program.bind, Passes]
  | call action next ih =>
    simp only [Program.bind, Passes, ih]
    constructor
    · rintro ⟨s', hdrift, a, t, hp, hq⟩
      exact ⟨a, t, ⟨s', hdrift, hp⟩, hq⟩
    · rintro ⟨a, t, ⟨s', hdrift, hp⟩, hq⟩
      exact ⟨s', hdrift, a, t, hp, hq⟩

theorem passes_map {f : α → β} {p : Program σ α} {s : σ} {b : β} {t : σ} :
    (f <$> p).Passes drift s b t ↔ ∃ a, p.Passes drift s a t ∧ b = f a := by
  rw [map_eq_pure_bind, passes_bind]
  constructor
  · rintro ⟨a, t', hp, hb, ht⟩
    exact ⟨a, ht ▸ hp, hb⟩
  · rintro ⟨a, hp, hb⟩
    exact ⟨a, t, hp, hb, rfl⟩

/-- A program that runs alone passes without any drift. -/
theorem Passes.of_run (hrefl : ∀ s, drift s s) (p : Program σ α) (s : σ) :
    p.Passes drift s (p.run s).1 (p.run s).2 := by
  induction p generalizing s with
  | done a => exact ⟨rfl, rfl⟩
  | call action next ih => exact ⟨s, hrefl s, ih _ _⟩

/-- What is ensured in company is ensured while the state drifts along the discipline. -/
theorem Ensures.passes {D : Discipline σ} {may : σ → σ → Prop} {post : α → σ → Prop}
    {p : Program σ α} {s : σ} (h : p.Ensures D may post s) (hs : D.holds s)
    (hdrift : ∀ s t, drift s t → D.holds s → D.holds t ∧ D.leads s t) {a : α} {t : σ}
    (hp : p.Passes drift s a t) : D.holds t ∧ D.leads s t ∧ post a t := by
  induction p generalizing s with
  | done b =>
    obtain ⟨rfl, rfl⟩ := hp
    exact ⟨hs, D.refl _, h.of_done hs⟩
  | call action next ih =>
    obtain ⟨s', hss', hp⟩ := hp
    obtain ⟨hs', hlead⟩ := hdrift s s' hss' hs
    obtain ⟨hstep, hnext⟩ := h s' hs' hlead
    obtain ⟨ht, hlead', hpost⟩ := ih _ hnext hstep.holds hp
    exact ⟨ht, D.trans hlead (D.trans hstep.leads hlead'), hpost⟩

/-- What is promised by a program in every state is promised while the state drifts. -/
theorem Promises.passes {D : Discipline σ} {may : σ → σ → σ → Prop} {post : σ → α → σ → Prop}
    {p : Program σ α} (h : ∀ s, D.holds s → p.Promises D (may s) (post s) s) {s : σ}
    (hs : D.holds s) (hdrift : ∀ s t, drift s t → D.holds s → D.holds t ∧ D.leads s t) {a : α}
    {t : σ} (hp : p.Passes drift s a t) : D.holds t ∧ D.leads s t := by
  cases p with
  | done b =>
    obtain ⟨-, rfl⟩ := hp
    exact ⟨hs, D.refl _⟩
  | call action next =>
    obtain ⟨s', hss', hp⟩ := hp
    obtain ⟨hs', hlead⟩ := hdrift s s' hss' hs
    obtain ⟨hstep, hnext⟩ := h s' hs'
    obtain ⟨ht, hlead', -⟩ := hnext.passes hstep.holds hdrift hp
    exact ⟨ht, D.trans hlead (D.trans hstep.leads hlead')⟩

/-! ## Two passes of one program -/

/-- However the state drifts, the program answers the same from `s` and from `t`, and leaves states
that look the same. -/
def Agrees {ν : Type} (drift : σ → σ → Prop) (view : σ → ν) (p : Program σ α) (s t : σ) : Prop :=
  ∀ a s' b t', p.Passes drift s a s' → p.Passes drift t b t' → a = b ∧ view s' = view t'

namespace Agrees

variable {ν : Type} {view : σ → ν} {s t : σ}

theorem pure (hview : view s = view t) (a : α) :
    (Pure.pure a : Program σ α).Agrees drift view s t := by
  rintro _ _ _ _ ⟨rfl, rfl⟩ ⟨rfl, rfl⟩
  exact ⟨rfl, hview⟩

theorem bind {p : Program σ α} {q : α → Program σ β} (hp : p.Agrees drift view s t)
    (hq : ∀ a s' t', view s' = view t' → (q a).Agrees drift view s' t') :
    (p >>= q).Agrees drift view s t := by
  intro b s'' b' t'' hs ht
  obtain ⟨a, s', hps, hqs⟩ := passes_bind.mp hs
  obtain ⟨a', t', hpt, hqt⟩ := passes_bind.mp ht
  obtain ⟨rfl, hview⟩ := hp a s' a' t' hps hpt
  exact hq a s' t' hview b s'' b' t'' hqs hqt

theorem map {p : Program σ α} (f : α → β) (hp : p.Agrees drift view s t) :
    (f <$> p).Agrees drift view s t := by
  intro b s' b' t' hs ht
  obtain ⟨a, hps, rfl⟩ := passes_map.mp hs
  obtain ⟨a', hpt, rfl⟩ := passes_map.mp ht
  obtain ⟨rfl, hview⟩ := hp a s' a' t' hps hpt
  exact ⟨rfl, hview⟩

/-- An action whose answer and effect can be seen to be the same. -/
theorem atomically (hdrift : ∀ s s', drift s s' → view s' = view s) {action : σ → α × σ}
    (h : ∀ s t, view s = view t →
      (action s).1 = (action t).1 ∧ view (action s).2 = view (action t).2)
    (hview : view s = view t) : (Program.atomically action).Agrees drift view s t := by
  rintro _ _ _ _ ⟨s', hs, rfl, rfl⟩ ⟨t', ht, rfl, rfl⟩
  refine h s' t' ?_
  rw [hdrift s s' hs, hdrift t t' ht, hview]

/-- A program that begins with reading the state. -/
theorem read_bind {f : σ → β} {q : β → Program σ α}
    (h : ∀ s' t', drift s s' → drift t t' → f s' = f t' ∧ (q (f s')).Agrees drift view s' t') :
    (Program.read f >>= q).Agrees drift view s t := by
  intro a s'' a' t'' hs ht
  obtain ⟨_, s', ⟨_, hs', rfl, rfl⟩, hqs⟩ := passes_bind.mp hs
  obtain ⟨_, t', ⟨_, ht', rfl, rfl⟩, hqt⟩ := passes_bind.mp ht
  obtain ⟨hsame, hagrees⟩ := h s' t' hs' ht'
  exact hagrees a s'' a' t'' hqs (hsame ▸ hqt)

end Agrees

end Program

end TxnEngine
