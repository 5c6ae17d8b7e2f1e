import TxnEngine.Proofs.Engine.Submissions

/-!
# Working off what waits

A shutdown of the resolver waits for its workers, and they take turns until the queue is empty. They
can always get there: whoever is busy comes to the end of its operation, and then one worker takes
out one job after the other.

Results:
* `drains_after`: everything can come to rest with nothing waiting.
* `exists_drained`: by then every accepted submission has been handled, each once.
-/

namespace TxnEngine

namespace Engine

open Clients

variable {σ : Type}

/-! ## Working off what waits -/

/-- Whoever is busy goes on, and workers take turns. -/
def WindsDown (m : Move Op) : Prop :=
  (∃ client, m = .turn client) ∨ ∃ client, m = .start client .resolve

/-- By going on and by workers' turns everything comes to rest, and nothing waits. -/
def Drains (c : Clients (Engine σ) Op Reply) : Prop :=
  ∃ more : List (Move Op), (∀ m ∈ more, WindsDown m) ∧
    (∀ client, (more.foldl (step Op.program) c).running client = none) ∧
    (more.foldl (step Op.program) c).shared.resolver.queue = []

variable {c : Clients (Engine σ) Op Reply}

theorem Drains.of_foldl {front : List (Move Op)} (hfront : ∀ m ∈ front, WindsDown m)
    (h : Drains (front.foldl (step Op.program) c)) : Drains c := by
  obtain ⟨more, hmore, hidle, hqueue⟩ := h
  refine ⟨front ++ more, fun m hm => ?_, ?_, ?_⟩
  · exact (List.mem_append.mp hm).elim (hfront m) (hmore m)
  · rwa [List.foldl_append]
  · rwa [List.foldl_append]

theorem sameResolver_refl (e : Engine σ) : SameResolver e e :=
  rfl

theorem sameResolver_trans {e e' e'' : Engine σ} (h : SameResolver e e')
    (h' : SameResolver e' e'') : SameResolver e e'' :=
  h'.trans h

/-- One worker takes out one job after the other. -/
theorem drains_of_idle (hidle : ∀ client, c.running client = none) : Drains c := by
  generalize hq : c.shared.resolver.queue = queue
  induction queue generalizing c with
  | nil => exact ⟨[], by simp, hidle, hq⟩
  | cons job rest ih =>
    let worker : Running (Engine σ) Op Reply := ⟨.resolve, c.time, Op.resolve.program⟩
    have hstep : c.step Op.program (.start 0 .resolve) = c.act 0 worker := by
      rw [step, acting, hidle 0]
    have hend : ComesToEnd Op.program SameResolver 0 (c.act 0 worker) := by
      refine comesToEnd sameResolver_refl sameResolver_trans fun r hr => ?_
      rcases running_act hr with hr | ⟨-, rfl⟩
      · rw [hidle 0] at hr
        cases hr
      · exact (sameResolver_later .resolve).advance _
    obtain ⟨turns, hturns, hover, hothers, hsame⟩ := hend
    have hturn : Drains (turns.foldl (step Op.program) (c.act 0 worker)) := by
      refine ih (fun client => ?_) ?_
      · by_cases hclient : client = 0
        · rw [hclient, hover]
        · rw [hothers client hclient, running_act_of_ne c worker hclient, hidle client]
      · have hresolver := resolver_advance .resolve c.shared
        rw [hsame, shared_act, hresolver, Op.resolver, Resolver.receive, hq]
    have hfront : ∀ m ∈ .start 0 .resolve :: turns, WindsDown m := by
      intro m hm
      rcases List.mem_cons.mp hm with rfl | hm
      · exact .inr ⟨0, rfl⟩
      · exact .inl ⟨0, hturns m hm⟩
    refine .of_foldl hfront ?_
    rw [List.foldl_cons, hstep]
    exact hturn

variable (e : Engine σ) (moves : List (Move Op))

/-- Whatever is under way, it can come to rest, and what waits can be worked off. -/
theorem drains_after : Drains (after Op.program e moves moves.length) := by
  have hbusy : ∃ clients : List Nat, ∀ client r,
      (after Op.program e moves moves.length).running client = some r → client ∈ clients := by
    have hnone : ∀ client r,
        (idle e : Clients (Engine σ) Op Reply).running client = some r → client ∈ ([] : List Nat) :=
      nofun
    rw [after, List.take_length]
    exact exists_busy moves hnone
  obtain ⟨clients, hclients⟩ := hbusy
  have hrest : ComesToRest Op.program SameResolver (after Op.program e moves moves.length) :=
    comesToRest sameResolver_refl sameResolver_trans clients fun client r hr =>
      ⟨hclients client r hr, always_of_running sameResolver_later (Nat.le_refl _) hr⟩
  obtain ⟨turns, hturns, hidle, -⟩ := hrest
  exact .of_foldl (fun m hm => .inl (hturns m hm)) (drains_of_idle hidle)

variable {e moves}

/-- Nothing is accepted meanwhile. -/
theorem accepted_append {more : List (Move Op)} (hmore : ∀ m ∈ more, WindsDown m) {n : Nat}
    (hn : moves.length ≤ n) (hle : n ≤ (moves ++ more).length) :
    accepted e (moves ++ more) n = accepted e moves moves.length := by
  induction n, hn using Nat.le_induction with
  | base => exact noted_append (Nat.le_refl _)
  | succ n hn ih =>
    rw [← ih (Nat.le_of_succ_le hle), accepted, noted_succ _ hle, ← accepted]
    have hmem : (moves ++ more)[n] ∈ more := by
      rw [List.getElem_append_right hn]
      exact List.getElem_mem _
    rcases hmore _ hmem with ⟨client, hm⟩ | ⟨client, hm⟩ <;> rw [hm, beginning]
    · simp
    · split <;> simp [Op.accepts]

/-- The workers can always be done with every accepted submission, each once. -/
theorem exists_drained (he : e.Truthful) (hqueue : e.resolver.queue = []) :
    ∃ more : List (Move Op), (∀ m ∈ more, WindsDown m) ∧
      (∀ client, (after Op.program e (moves ++ more) (moves ++ more).length).running client =
        none) ∧
      ((handled e (moves ++ more) (moves ++ more).length).map Prod.fst).Perm
        (accepted e moves moves.length) := by
  obtain ⟨more, hmore, hidle, hdrained⟩ := drains_after e moves
  rw [← after_append_length] at hidle hdrained
  refine ⟨more, hmore, hidle, ?_⟩
  have hlength : moves.length ≤ (moves ++ more).length := by simp
  have hperm := handled_perm he (Nat.le_refl (moves ++ more).length) fun client r hr => by
    rw [hidle client] at hr
    cases hr
  have hall := accepted_eq hqueue (Nat.le_refl (moves ++ more).length)
  rw [stateAfter, hdrained, List.append_nil, accepted_append hmore hlength (Nat.le_refl _)] at hall
  rwa [hall]

end Engine

end TxnEngine
