import TxnEngine.Proofs.Concurrency.Ledger

/-!
# How a call is woven into a history

A call that is over has taken its actions one after the other between its beginning and its end,
each in the state to which all the clients had brought things by then. So what a call answers is
decided by the states of a few instants in ascending order, whatever the others did in between.

Results:
* `weaves_bind`, `weaves_map`: the instants of a program, by its parts.
* `weaves_of_mem_history`: every call of a history is woven into it.
-/

namespace TxnEngine

namespace Program

variable {σ α β : Type} {state : Nat → σ}

/-- Between the instants `i` and `j` the program can answer `b`: its actions are taken at ascending
instants, each as a step of the course `state`. -/
def Weaves (state : Nat → σ) : Program σ α → Nat → α → Nat → Prop
  | done a, i, b, j => b = a ∧ i ≤ j
  | call action next, i, b, j =>
    ∃ n, i ≤ n ∧ n < j ∧ state (n + 1) = (action (state n)).2 ∧
      (next (action (state n)).1).Weaves state (n + 1) b j

namespace Weaves

variable {p : Program σ α} {i i' j : Nat} {a : α}

theorem le (h : p.Weaves state i a j) : i ≤ j := by
  cases p with
  | done b => exact h.2
  | call action next =>
    obtain ⟨n, hin, hnj, -⟩ := h
    exact Nat.le_trans hin (Nat.le_of_lt hnj)

/-- A program that is woven in behind an instant is woven in behind every earlier one. -/
theorem earlier (h : p.Weaves state i a j) (hle : i' ≤ i) : p.Weaves state i' a j := by
  cases p with
  | done b => exact ⟨h.1, Nat.le_trans hle h.2⟩
  | call action next =>
    obtain ⟨n, hin, hrest⟩ := h
    exact ⟨n, Nat.le_trans hle hin, hrest⟩

/-- A program that is over by an instant is over by every later one. -/
theorem later {j' : Nat} (h : p.Weaves state i a j) (hle : j ≤ j') : p.Weaves state i a j' := by
  induction p generalizing i with
  | done b => exact ⟨h.1, Nat.le_trans h.2 hle⟩
  | call action next ih =>
    obtain ⟨n, hin, hnj, hstep, hrest⟩ := h
    exact ⟨n, hin, Nat.lt_of_lt_of_le hnj hle, hstep, ih _ hrest⟩

/-- The next action of a program, in front of the rest. -/
theorem of_advance (hstep : state (i + 1) = (p.advance (state i)).2)
    (h : (p.advance (state i)).1.Weaves state (i + 1) a j) : p.Weaves state i a j := by
  cases p with
  | done b => exact h.earlier (Nat.le_succ i)
  | call action next => exact ⟨i, Nat.le_refl i, h.le, hstep, h⟩

end Weaves

theorem weaves_bind {p : Program σ α} {q : α → Program σ β} {i j : Nat} {b : β} :
    (p >>= q).Weaves state i b j ↔
      ∃ a k, p.Weaves state i a k ∧ (q a).Weaves state k b j := by
  change (p.bind q).Weaves state i b j ↔ _
  induction p generalizing i with
  | done a =>
    constructor
    · intro h
      exact ⟨a, i, ⟨rfl, Nat.le_refl i⟩, h⟩
    · rintro ⟨_, k, ⟨rfl, hik⟩, h⟩
      exact h.earlier hik
  | call action next ih =>
    constructor
    · rintro ⟨n, hin, hnj, hstep, hrest⟩
      obtain ⟨a, k, hp, hq⟩ := ih _ |>.mp hrest
      exact ⟨a, k, ⟨n, hin, hp.le, hstep, hp⟩, hq⟩
    · rintro ⟨a, k, ⟨n, hin, hnk, hstep, hp⟩, hq⟩
      exact ⟨n, hin, Nat.lt_of_lt_of_le hnk hq.le, hstep, ih _ |>.mpr ⟨a, k, hp, hq⟩⟩

theorem weaves_map {f : α → β} {p : Program σ α} {i j : Nat} {b : β} :
    (f <$> p).Weaves state i b j ↔ ∃ a, p.Weaves state i a j ∧ b = f a := by
  rw [map_eq_pure_bind, weaves_bind]
  constructor
  · rintro ⟨a, k, hp, hb, hkj⟩
    exact ⟨a, hp.later hkj, hb⟩
  · rintro ⟨a, hp, hb⟩
    exact ⟨a, j, hp, hb, Nat.le_refl j⟩

end Program

namespace Clients

variable {σ ω ρ : Type} {program : ω → Program σ ρ} {s : σ} {moves : List (Move ω)}

/-- The calls after the first `n` moves, as parts of the whole course: one that is over is woven in,
and one that is under way will be as soon as its rest is. -/
structure Woven (program : ω → Program σ ρ) (s : σ) (moves : List (Move ω)) (n : Nat) : Prop where
  running : ∀ client r, (after program s moves n).running client = some r → ∀ reply j,
    r.rest.Weaves (stateAfter program s moves) n reply j →
      (program r.op).Weaves (stateAfter program s moves) r.begun reply j
  finished : ∀ f ∈ (after program s moves n).finished, f.ended ≤ n ∧
    (program f.op).Weaves (stateAfter program s moves) f.begun f.reply f.ended

/-- The operation that a move acts for is woven in if what the move leaves of it is. -/
theorem weaves_of_acting {n : Nat} (hn : n < moves.length) (h : Woven program s moves n)
    {client : Nat} {r : Running σ ω ρ}
    (hact : (after program s moves n).acting program moves[n] = some (client, r)) {reply : ρ}
    {j : Nat} (hrest : (r.rest.advance (stateAfter program s moves n)).1.Weaves
      (stateAfter program s moves) (n + 1) reply j) :
    (program r.op).Weaves (stateAfter program s moves) r.begun reply j := by
  have hstep : stateAfter program s moves (n + 1) =
      (r.rest.advance (stateAfter program s moves n)).2 := by
    rw [stateAfter, after_succ hn, step, hact]
    rfl
  have hwoven := Program.Weaves.of_advance hstep hrest
  rcases acting_cases hact with ⟨-, hr, -⟩ | ⟨-, hr⟩
  · rw [hr, time_after (Nat.le_of_lt hn)] at hwoven
    rw [hr, time_after (Nat.le_of_lt hn)]
    exact hwoven
  · exact h.running client r hr reply j hwoven

theorem woven_after {n : Nat} (hn : n ≤ moves.length) : Woven program s moves n := by
  induction n with
  | zero =>
    refine ⟨fun client r hr => ?_, fun f hf => ?_⟩
    · cases hr
    · cases hf
  | succ n ih =>
    have hwoven := ih (Nat.le_of_succ_le hn)
    have hbefore {client : Nat} {r : Running σ ω ρ}
        (hr : (after program s moves n).running client = some r) (reply : ρ) (j : Nat)
        (hrest : r.rest.Weaves (stateAfter program s moves) (n + 1) reply j) :=
      hwoven.running client r hr reply j (hrest.earlier (Nat.le_succ n))
    cases hact : (after program s moves n).acting program moves[n] with
    | none =>
      refine ⟨fun client r hr => ?_, fun f hf => ?_⟩
      · rw [after_succ hn, step, hact] at hr
        exact hbefore hr
      · rw [after_succ hn, step, hact] at hf
        obtain ⟨hended, hweaves⟩ := hwoven.finished f hf
        exact ⟨Nat.le_succ_of_le hended, hweaves⟩
    | some found =>
      obtain ⟨client, r⟩ := found
      refine ⟨fun k r' hr' reply j hrest => ?_, fun f hf => ?_⟩
      · rw [after_succ hn, step, hact] at hr'
        rcases running_act hr' with hr' | ⟨rfl, rfl⟩
        · exact hbefore hr' reply j hrest
        · exact weaves_of_acting hn hwoven hact hrest
      · rw [after_succ hn, step, hact] at hf
        rcases finished_act hf with hf | ⟨hdone, heq⟩
        · obtain ⟨hended, hweaves⟩ := hwoven.finished f hf
          exact ⟨Nat.le_succ_of_le hended, hweaves⟩
        · rw [heq, time_after (Nat.le_of_succ_le hn)]
          refine ⟨Nat.le_refl _, weaves_of_acting hn hwoven hact ?_⟩
          rw [stateAfter, hdone]
          exact ⟨rfl, Nat.le_refl _⟩

/-- Every call of a history is woven into it, between its beginning and its end. -/
theorem weaves_of_mem_history {f : Finished ω ρ} (hf : f ∈ history program s moves) :
    f.ended ≤ moves.length ∧
      (program f.op).Weaves (stateAfter program s moves) f.begun f.reply f.ended :=
  (woven_after (Nat.le_refl _)).finished f hf

end Clients

end TxnEngine
