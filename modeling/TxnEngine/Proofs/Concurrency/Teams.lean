import Mathlib.Logic.Function.Basic
import TxnEngine.Proofs.Concurrency.Ensures

/-!
# Teams

A team is a fixed number of programs that share a state. A list of turns says who takes the next
action of its program. Who shares a state with others can still rely on what is its own: an invariant
`I` relates the shared state to the *standings* of all members, and every action of a member changes
nobody's standing but its own.

A program is foretold if its answer depends on nothing but the standing in which it begins. It may
well see what others do, a number drawn from a common source for example, as long as that does not
show in the end; so it is a family of programs, one for everything it may have seen, that is
foretold.

Results:
* `Program.Abides.bind`, `Program.Foretold.bind`: what is shown of a program action by action.
* `Program.Abides.run`: a member that runs alone answers as it does among others.
* `Team.kept_play`: what a team keeps to is kept through any turns.
* `Team.answers_of_kept`: what the answers of a team that is over are like.
* `Team.exists_complete`: every team can be brought to its end.
-/

namespace TxnEngine

namespace Program

variable {σ τ α β ι κ ν : Type}

/-- A member `i` with the standing `k` keeps to the invariant, whatever the others do: each of its
actions changes its own standing only, and in the end answer and standing satisfy `post`. -/
def Abides (I : (Nat → κ) → σ → Prop) (i : Nat) (post : α → κ → Prop) : Program σ α → κ → Prop
  | done a, k => post a k
  | call action next, k => ∀ K s, I K s → K i = k →
      ∃ k', I (Function.update K i k') (action s).2 ∧ Abides I i post (next (action s).1) k'

namespace Abides

variable {I : (Nat → κ) → σ → Prop} {i : Nat} {post : α → κ → Prop} {p : Program σ α} {k : κ}

theorem pure {a : α} (h : post a k) : (Pure.pure a : Program σ α).Abides I i post k :=
  h

theorem mono {post' : α → κ → Prop} (hpost : ∀ a l, post a l → post' a l)
    (h : p.Abides I i post k) : p.Abides I i post' k := by
  induction p generalizing k with
  | done a => exact hpost a k h
  | call action next ih =>
    intro K s hI hk
    obtain ⟨k', hI', hnext⟩ := h K s hI hk
    exact ⟨k', hI', ih _ hnext⟩

theorem bind {q : α → Program σ β} {mid : α → κ → Prop} {post : β → κ → Prop}
    (hp : p.Abides I i mid k) (hq : ∀ a l, mid a l → (q a).Abides I i post l) :
    (p >>= q).Abides I i post k := by
  change (p.bind q).Abides I i post k
  induction p generalizing k with
  | done a => exact hq a k hp
  | call action next ih =>
    intro K s hI hk
    obtain ⟨k', hI', hnext⟩ := hp K s hI hk
    exact ⟨k', hI', ih _ hnext⟩

/-- A program that goes on with what is known already. -/
theorem bind_of_known {q : α → Program σ β} {a : α} {l : κ} {post : β → κ → Prop}
    (hp : p.Abides I i (fun b m => b = a ∧ m = l) k) (hq : (q a).Abides I i post l) :
    (p >>= q).Abides I i post k := by
  refine hp.bind ?_
  rintro _ _ ⟨rfl, rfl⟩
  exact hq

/-- A program that goes on where it was. -/
theorem bind_of_same {q : α → Program σ β} {post : β → κ → Prop}
    (hp : p.Abides I i (fun _ l => l = k) k) (hq : ∀ a, (q a).Abides I i post k) :
    (p >>= q).Abides I i post k := by
  refine hp.bind ?_
  rintro a _ rfl
  exact hq a

theorem atomically {action : σ → α × σ}
    (h : ∀ K s, I K s → K i = k →
      ∃ k', I (Function.update K i k') (action s).2 ∧ post (action s).1 k') :
    (Program.atomically action).Abides I i post k :=
  h

/-- An action that only reads. -/
theorem read {f : σ → α} (h : ∀ K s, I K s → K i = k → post (f s) k) :
    (Program.read f).Abides I i post k := by
  intro K s hI hk
  refine ⟨k, ?_, h K s hI hk⟩
  rw [← hk, Function.update_eq_self]
  exact hI

/-- Actions that keep the invariant whatever the standings are. -/
theorem of_acts {may : σ → σ → Prop} (hmay : ∀ K s t, may s t → I K s → I K t) (hp : p.Acts may) :
    p.Abides I i (fun _ l => l = k) k := by
  induction p with
  | done a => rfl
  | call action next ih =>
    intro K s hI hk
    refine ⟨k, ?_, ih _ (hp.2 _)⟩
    rw [← hk, Function.update_eq_self]
    exact hmay K _ _ (hp.1 s) hI

/-- A program on a part of the state, which shows in a part of each member's standing. -/
theorem focus {J : (Nat → ν) → τ → Prop} {get : τ → σ} {put : σ → τ → τ} (part : ν → κ)
    (set : κ → ν → ν) (hpart : ∀ k n, part (set k n) = k) (hset : ∀ n, set (part n) n = n)
    (hsetset : ∀ k k' n, set k (set k' n) = set k n)
    (hget : ∀ N t, J N t → I (fun j => part (N j)) (get t))
    (hput : ∀ N t s k, J N t → I (Function.update (fun j => part (N j)) i k) s →
      J (Function.update N i (set k (N i))) (put s t)) {n : ν}
    (h : p.Abides I i post (part n)) :
    (p.focus get put).Abides J i (fun a m => m = set (part m) n ∧ post a (part m)) n := by
  induction p generalizing n with
  | done a => exact ⟨(hset n).symm, h⟩
  | call action next ih =>
    intro N t hJ hn
    obtain ⟨k', hI', hnext⟩ := h _ _ (hget N t hJ) (congrArg part hn)
    refine ⟨set k' n, hn ▸ hput N t _ k' hJ hI', ?_⟩
    refine (ih _ (n := set k' n) (by rwa [hpart])).mono fun a m hm => ⟨?_, hm.2⟩
    rw [hm.1, hsetset, hpart]

/-- A member that runs alone changes nobody's standing but its own either. -/
theorem run (h : p.Abides I i post k) {K : Nat → κ} {s : σ} (hI : I K s) (hk : K i = k) :
    ∃ k', I (Function.update K i k') (p.run s).2 ∧ post (p.run s).1 k' := by
  induction p generalizing K s k with
  | done a =>
    refine ⟨k, ?_, h⟩
    rw [← hk, Function.update_eq_self]
    exact hI
  | call action next ih =>
    obtain ⟨k', hI', hnext⟩ := h K s hI hk
    obtain ⟨k'', hI'', hpost⟩ := ih _ hnext hI' (Function.update_self i k' K)
    rw [Function.update_idem] at hI''
    exact ⟨k'', hI'', hpost⟩

end Abides

/-! ## Programs that are foretold -/

/-- All programs of the family, as those of a member `i` with the standing `k`, come to the same
answer and the same standing, whatever the others do. -/
def Foretold (I : (Nat → κ) → σ → Prop) (i : Nat) (post : α → κ → Prop) (p : ι → Program σ α)
    (k : κ) : Prop :=
  ∃ a k', post a k' ∧ ∀ x, (p x).Abides I i (fun b l => b = a ∧ l = k') k

namespace Foretold

variable {I : (Nat → κ) → σ → Prop} {i : Nat} {post : α → κ → Prop} {p : ι → Program σ α} {k : κ}

theorem pure {a : α} (h : post a k) :
    Foretold I i post (fun _ : ι => (Pure.pure a : Program σ α)) k :=
  ⟨a, k, h, fun _ => ⟨rfl, rfl⟩⟩

theorem mono {post' : α → κ → Prop} (hpost : ∀ a l, post a l → post' a l)
    (h : Foretold I i post p k) : Foretold I i post' p k := by
  obtain ⟨a, k', ha, hp⟩ := h
  exact ⟨a, k', hpost a k' ha, hp⟩

theorem bind {q : ι → α → Program σ β} {mid : α → κ → Prop} {post : β → κ → Prop}
    (hp : Foretold I i mid p k)
    (hq : ∀ a l, mid a l → Foretold I i post (fun x => q x a) l) :
    Foretold I i post (fun x => p x >>= q x) k := by
  obtain ⟨a, l, ha, hp⟩ := hp
  obtain ⟨b, m, hb, hq⟩ := hq a l ha
  refine ⟨b, m, hb, fun x => (hp x).bind ?_⟩
  rintro _ _ ⟨rfl, rfl⟩
  exact hq x

/-- A program that goes on with what others decide: that may be anything of a kind. -/
theorem bind_of_any {γ : Type} (see : γ → α) {q : ι → α → Program σ β} {post : β → κ → Prop}
    (hp : ∀ x, (p x).Abides I i (fun a l => (∃ c, a = see c) ∧ l = k) k)
    (hq : Foretold I i post (fun y : ι × γ => q y.1 (see y.2)) k) :
    Foretold I i post (fun x => p x >>= q x) k := by
  obtain ⟨b, m, hb, hq⟩ := hq
  refine ⟨b, m, hb, fun x => (hp x).bind ?_⟩
  rintro _ _ ⟨⟨c, rfl⟩, rfl⟩
  exact hq (x, c)

/-- An action whose answer and whose effect on the standing are decided by the standing. -/
theorem atomically {action : ι → σ → α × σ} (a : α) (k' : κ) (hpost : post a k')
    (h : ∀ x K s, I K s → K i = k →
      (action x s).1 = a ∧ I (Function.update K i k') (action x s).2) :
    Foretold I i post (fun x => Program.atomically (action x)) k := by
  refine ⟨a, k', hpost, fun x => Abides.atomically fun K s hI hk => ?_⟩
  obtain ⟨ha, hI'⟩ := h x K s hI hk
  exact ⟨k', hI', ha, rfl⟩

/-- An action that only reads what all members see alike. -/
theorem read {f : σ → α} (a : α) (hpost : post a k) (h : ∀ K s, I K s → f s = a) :
    Foretold I i post (fun _ : ι => Program.read f) k :=
  ⟨a, k, hpost, fun _ => Abides.read fun K s hI _ => ⟨h K s hI, rfl⟩⟩

/-- A program on a part of the state, which shows in a part of each member's standing. -/
theorem focus {J : (Nat → ν) → τ → Prop} {get : τ → σ} {put : σ → τ → τ} (part : ν → κ)
    (set : κ → ν → ν) (hpart : ∀ k n, part (set k n) = k) (hset : ∀ n, set (part n) n = n)
    (hsetset : ∀ k k' n, set k (set k' n) = set k n)
    (hget : ∀ N t, J N t → I (fun j => part (N j)) (get t))
    (hput : ∀ N t s k, J N t → I (Function.update (fun j => part (N j)) i k) s →
      J (Function.update N i (set k (N i))) (put s t)) {n : ν}
    (h : Foretold I i post p (part n)) :
    Foretold J i (fun a m => m = set (part m) n ∧ post a (part m))
      (fun x => (p x).focus get put) n := by
  obtain ⟨a, k', ha, hp⟩ := h
  refine ⟨a, set k' n, ⟨by rw [hpart], by rwa [hpart]⟩, fun x => ?_⟩
  refine ((hp x).focus part set hpart hset hsetset hget hput).mono ?_
  rintro b m ⟨hm, rfl, hk⟩
  exact ⟨rfl, hk ▸ hm⟩

end Foretold

end Program

/-! ## Taking turns -/

/-- What the members of a team have left to do, and what they share. -/
structure Team (σ α : Type) : Type 1 where
  members : List (Program σ α)
  shared : σ

namespace Team

variable {σ α κ : Type}

/-- A member takes its next action. A member that is over does nothing. -/
def turn (t : Team σ α) (i : Nat) : Team σ α :=
  match t.members[i]? with
  | none => t
  | some p => ⟨t.members.set i (p.advance t.shared).1, (p.advance t.shared).2⟩

/-- The team after the turns. -/
def play (t : Team σ α) (turns : List Nat) : Team σ α :=
  turns.foldl turn t

/-- The answers of the members, once all of them are over. -/
def answers? (t : Team σ α) : Option (List α) :=
  t.members.mapM Program.answer?

/-- The members abide by the invariant, with some standings. -/
def Kept (I : (Nat → κ) → σ → Prop) (post : Nat → α → κ → Prop) (t : Team σ α) : Prop :=
  ∃ K, I K t.shared ∧
    ∀ i (p : Program σ α), t.members[i]? = some p → p.Abides I i (post i) (K i)

variable {I : (Nat → κ) → σ → Prop} {post : Nat → α → κ → Prop} {t : Team σ α}

/-- What a member does next leaves the standings of the others alone. -/
theorem kept_turn (h : t.Kept I post) (i : Nat) : (t.turn i).Kept I post := by
  obtain ⟨K, hI, hmembers⟩ := h
  unfold turn
  split
  · exact ⟨K, hI, hmembers⟩
  · next p hp =>
    cases p with
    | done a =>
      -- it is over: nothing changes
      refine ⟨K, hI, fun j q hq => hmembers j q ?_⟩
      have hsame : t.members.set i (.done a) = t.members := by
        obtain ⟨hi, hget⟩ := List.getElem?_eq_some_iff.mp hp
        rw [← hget, List.set_getElem_self]
      exact hsame ▸ hq
    | call action next =>
      obtain ⟨k', hI', hnext⟩ := hmembers i _ hp K t.shared hI rfl
      refine ⟨Function.update K i k', hI', fun j q hq => ?_⟩
      by_cases hij : i = j
      · subst hij
        have hi : i < t.members.length := (List.getElem?_eq_some_iff.mp hp).1
        rw [List.getElem?_set_self hi] at hq
        cases hq
        rw [Function.update_self]
        exact hnext
      · rw [List.getElem?_set_ne hij] at hq
        rw [Function.update_of_ne (Ne.symm hij)]
        exact hmembers j q hq

/-- What a team keeps to is kept through any turns. -/
theorem kept_play (h : t.Kept I post) (turns : List Nat) : (t.play turns).Kept I post :=
  List.foldlRecOn turns turn h fun _ hkept i _ => kept_turn hkept i

theorem length_members_turn (t : Team σ α) (i : Nat) :
    (t.turn i).members.length = t.members.length := by
  unfold turn
  split
  · rfl
  · exact List.length_set

theorem length_members_play (t : Team σ α) (turns : List Nat) :
    (t.play turns).members.length = t.members.length :=
  List.foldlRecOn (motive := fun u : Team σ α => u.members.length = t.members.length) turns turn rfl
    fun u hu i _ => (length_members_turn u i).trans hu

/-! ## Answers -/

theorem members_of_answers? {answers : List α} (h : t.answers? = some answers) :
    t.members = answers.map Program.done := by
  rw [answers?] at h
  generalize t.members = members at h
  induction members generalizing answers with
  | nil =>
    cases h
    rfl
  | cons p rest ih =>
    rw [List.mapM_cons] at h
    obtain ⟨a, ha, h⟩ := Option.bind_eq_some_iff.mp h
    obtain ⟨answers', hrest, h⟩ := Option.bind_eq_some_iff.mp h
    cases h
    rw [List.map_cons, ← ih hrest, Program.eq_done_of_answer? ha]

theorem answers?_of_members {answers : List α} (h : t.members = answers.map Program.done) :
    t.answers? = some answers := by
  rw [answers?, h]
  induction answers generalizing t with
  | nil => rfl
  | cons a rest ih =>
    rw [List.map_cons, List.mapM_cons, ih (t := ⟨rest.map Program.done, t.shared⟩) rfl]
    rfl

/-- Every answer of a team that is over is as the member's program promised, and the invariant
holds. -/
theorem answers_of_kept (h : t.Kept I post) {answers : List α}
    (hanswers : t.answers? = some answers) :
    ∃ K, I K t.shared ∧ ∀ i a, answers[i]? = some a → post i a (K i) := by
  obtain ⟨K, hI, hmembers⟩ := h
  refine ⟨K, hI, fun i a ha => ?_⟩
  refine hmembers i (.done a) ?_
  rw [members_of_answers? hanswers, List.getElem?_map, ha]
  rfl

/-! ## The end -/

/-- A member can be brought to its end while the others wait. -/
theorem exists_turns (t : Team σ α) {i : Nat} (hi : i < t.members.length) :
    ∃ turns a, (t.play turns).members = t.members.set i (.done a) := by
  generalize hp : t.members[i] = p
  induction p generalizing t with
  | done a => exact ⟨[], a, by rw [← hp, List.set_getElem_self]; rfl⟩
  | call action next ih =>
    have hget : t.members[i]? = some (.call action next) := by
      rw [List.getElem?_eq_getElem hi, hp]
    have hmembers : (t.turn i).members = t.members.set i (next (action t.shared).1) := by
      rw [turn, hget]
      rfl
    obtain ⟨turns, a, hplay⟩ := ih (action t.shared).1 (t.turn i)
      (by rwa [length_members_turn]) (by simp [hmembers])
    refine ⟨i :: turns, a, ?_⟩
    change ((t.turn i).play turns).members = _
    rw [hplay, hmembers, List.set_set]

/-- Every team can be brought to its end. -/
theorem exists_complete (t : Team σ α) :
    ∃ turns answers, (t.play turns).answers? = some answers := by
  have hfront : ∀ n ≤ t.members.length, ∃ turns, ∃ answers : List α,
      (t.play turns).members = answers.map Program.done ++ t.members.drop n ∧
        answers.length = n := by
    intro n hn
    induction n with
    | zero => exact ⟨[], [], rfl, rfl⟩
    | succ n ih =>
      obtain ⟨turns, answers, hmembers, hlength⟩ := ih (Nat.le_of_succ_le hn)
      obtain ⟨more, a, hplay⟩ := (t.play turns).exists_turns (i := n)
        (by rwa [length_members_play])
      refine ⟨turns ++ more, answers ++ [a], ?_, by simp [hlength]⟩
      rw [play, List.foldl_append]
      change ((t.play turns).play more).members = _
      have hzero : n - (answers.map (Program.done (σ := σ))).length = 0 := by simp [hlength]
      rw [hplay, hmembers, List.set_append_right n _ (by simp [hlength]), hzero,
        List.drop_eq_getElem_cons (Nat.lt_of_succ_le hn), List.set_cons_zero, List.map_append,
        List.append_assoc]
      rfl
  obtain ⟨turns, answers, hmembers, -⟩ := hfront t.members.length (Nat.le_refl _)
  refine ⟨turns, answers, answers?_of_members ?_⟩
  rw [hmembers, List.drop_length, List.append_nil]

end Team

end TxnEngine
