import TxnEngine.Proofs.Concurrency.Ensures

/-!
# Clients that interleave

Any number of clients run operations on a shared state, each client one after the other, each
operation as its program. A list of moves says who acts next: a client that starts an operation
takes its first action at once, and takes one more action with every turn it gets.

Results:
* `sound_after`: if every operation ensures what its contract says, then so does every call, in any
  order of moves.
* `step_of_acting`: what each single move does.
* `leads_of_acts`: what every single action keeps is kept from each state to all later ones.
-/

namespace TxnEngine

/-- An operation under way. -/
structure Running (σ ω ρ : Type) : Type 1 where
  op : ω
  /-- The number of moves before its first action. -/
  begun : Nat
  rest : Program σ ρ

/-- An operation that is over. -/
structure Finished (ω ρ : Type) where
  client : Nat
  op : ω
  /-- The number of moves before its first action. -/
  begun : Nat
  /-- The number of moves up to its last action. -/
  ended : Nat
  reply : ρ

/-- The clients of a shared state. -/
structure Clients (σ ω ρ : Type) : Type 1 where
  shared : σ
  /-- The number of moves so far. -/
  time : Nat
  running : Nat → Option (Running σ ω ρ)
  finished : List (Finished ω ρ)

/-- Who acts next. -/
inductive Move (ω : Type) where
  | start (client : Nat) (op : ω)
  | turn (client : Nat)

namespace Clients

variable {σ ω ρ : Type} (program : ω → Program σ ρ)

/-- Before anything was started. -/
def idle (s : σ) : Clients σ ω ρ :=
  ⟨s, 0, fun _ => none, []⟩

/-- The client that acts in a move, with the operation that it acts for. A client that is busy
starts nothing else, and one that is idle has nothing to go on with. -/
def acting (c : Clients σ ω ρ) : Move ω → Option (Nat × Running σ ω ρ)
  | .start client op =>
    match c.running client with
    | none => some (client, ⟨op, c.time, program op⟩)
    | some _ => none
  | .turn client => (c.running client).map fun r => (client, r)

/-- A client takes the next action of its operation. -/
def act (c : Clients σ ω ρ) (client : Nat) (r : Running σ ω ρ) : Clients σ ω ρ :=
  let (rest, shared) := r.rest.advance c.shared
  { shared
    time := c.time + 1
    running := fun k =>
      if k = client then (if rest.answer?.isSome then none else some { r with rest })
      else c.running k
    finished :=
      match rest.answer? with
      | some reply => ⟨client, r.op, r.begun, c.time + 1, reply⟩ :: c.finished
      | none => c.finished }

def step (c : Clients σ ω ρ) (m : Move ω) : Clients σ ω ρ :=
  match c.acting program m with
  | none => { c with time := c.time + 1 }
  | some (client, r) => c.act client r

/-- The clients after the first `n` moves. -/
def after (s : σ) (moves : List (Move ω)) (n : Nat) : Clients σ ω ρ :=
  (moves.take n).foldl (step program) (idle s)

/-- The shared state after the first `n` moves. -/
def stateAfter (s : σ) (moves : List (Move ω)) (n : Nat) : σ :=
  (after program s moves n).shared

/-- Everything that is over after the moves. -/
def history (s : σ) (moves : List (Move ω)) : List (Finished ω ρ) :=
  (after program s moves moves.length).finished

variable {program} {s : σ} {moves : List (Move ω)}

theorem after_succ {n : Nat} (hn : n < moves.length) :
    after program s moves (n + 1) = (after program s moves n).step program moves[n] := by
  rw [after, List.take_succ_eq_append_getElem hn, List.foldl_append]
  rfl

/-- What holds before anything was started and is kept by every move holds after any moves. -/
theorem after_induction {P : Clients σ ω ρ → Prop} (hidle : P (idle s))
    (hstep : ∀ c m, P c → P (c.step program m)) (n : Nat) : P (after program s moves n) :=
  List.foldlRecOn (moves.take n) (step program) hidle fun c hc m _ => hstep c m hc

@[simp]
theorem shared_act (c : Clients σ ω ρ) (client : Nat) (r : Running σ ω ρ) :
    (c.act client r).shared = (r.rest.advance c.shared).2 := rfl

@[simp]
theorem time_act (c : Clients σ ω ρ) (client : Nat) (r : Running σ ω ρ) :
    (c.act client r).time = c.time + 1 := rfl

/-- What is under way after an action: what was before, and the operation itself if this was not its
last action. -/
theorem running_act {c : Clients σ ω ρ} {client k : Nat} {r r' : Running σ ω ρ}
    (h : (c.act client r).running k = some r') :
    c.running k = some r' ∨
      k = client ∧ r' = { r with rest := (r.rest.advance c.shared).1 } := by
  simp only [act] at h
  split_ifs at h with hk hdone
  · exact .inr ⟨hk, (Option.some.inj h).symm⟩
  · exact .inl h

/-- What is over after an action: what was before, and the operation itself if this was its last
action. -/
theorem finished_act {c : Clients σ ω ρ} {client : Nat} {r : Running σ ω ρ} {f : Finished ω ρ}
    (h : f ∈ (c.act client r).finished) :
    f ∈ c.finished ∨ (r.rest.advance c.shared).1 = .done f.reply ∧
      f = ⟨client, r.op, r.begun, c.time + 1, f.reply⟩ := by
  simp only [act] at h
  split at h
  · next reply hreply =>
    rcases List.mem_cons.mp h with rfl | h
    · exact .inr ⟨Program.eq_done_of_answer? hreply, rfl⟩
    · exact .inl h
  · exact .inl h

/-! ## Contracts -/

/-- What the operations of a shared state promise: the first action, taken in the state in which the
operation begins, and everything behind it keep to the discipline and to what the operation may do,
and the answer satisfies `post`. -/
structure Contract (program : ω → Program σ ρ) (D : Discipline σ) (may : ω → σ → σ → σ → Prop)
    (post : ω → σ → ρ → σ → Prop) : Prop where
  refl : ∀ op s t, may op s t t
  promises : ∀ op s, D.holds s → (program op).Promises D (may op s) (post op s) s

/-- A client starts an operation with the move behind the first `n`. -/
def Starts (program : ω → Program σ ρ) (s : σ) (moves : List (Move ω)) (client : Nat) (op : ω)
    (n : Nat) : Prop :=
  moves[n]? = some (.start client op) ∧
    stateAfter program s moves (n + 1) = ((program op).advance (stateAfter program s moves n)).2

/-- What is known after the first `n` moves. -/
structure Sound (program : ω → Program σ ρ) (D : Discipline σ) (may : ω → σ → σ → σ → Prop)
    (post : ω → σ → ρ → σ → Prop) (s : σ) (moves : List (Move ω)) (n : Nat) : Prop where
  time : (after program s moves n).time = n
  holds : D.holds (stateAfter program s moves n)
  leads : ∀ m ≤ n, D.leads (stateAfter program s moves m) (stateAfter program s moves n)
  running : ∀ client r, (after program s moves n).running client = some r →
    r.begun < n ∧ Starts program s moves client r.op r.begun ∧
      r.rest.Ensures D (may r.op (stateAfter program s moves r.begun))
        (post r.op (stateAfter program s moves r.begun)) (stateAfter program s moves n)
  finished : ∀ f ∈ (after program s moves n).finished,
    f.begun < f.ended ∧ f.ended ≤ n ∧ Starts program s moves f.client f.op f.begun ∧
      post f.op (stateAfter program s moves f.begun) f.reply (stateAfter program s moves f.ended)

section

variable {D : Discipline σ} {may : ω → σ → σ → σ → Prop} {post : ω → σ → ρ → σ → Prop}
  (hprogram : Contract program D may post)

include hprogram

/-- The action of a move, seen from the operation it is taken for. -/
theorem step_of_acting {n : Nat} (hn : n < moves.length)
    (hsound : Sound program D may post s moves n) {client : Nat} {r : Running σ ω ρ}
    (hact : (after program s moves n).acting program moves[n] = some (client, r)) :
    after program s moves (n + 1) = (after program s moves n).act client r ∧
      r.begun ≤ n ∧ Starts program s moves client r.op r.begun ∧
      D.Step (may r.op (stateAfter program s moves r.begun)) (stateAfter program s moves n)
        (stateAfter program s moves (n + 1)) ∧
      (r.rest.advance (stateAfter program s moves n)).1.Ensures D
        (may r.op (stateAfter program s moves r.begun))
        (post r.op (stateAfter program s moves r.begun)) (stateAfter program s moves (n + 1)) := by
  have hsucc : after program s moves (n + 1) = (after program s moves n).act client r := by
    rw [after_succ hn, step, hact]
  have hstate : stateAfter program s moves (n + 1) =
      (r.rest.advance (stateAfter program s moves n)).2 := by
    rw [stateAfter, hsucc, shared_act, stateAfter]
  refine ⟨hsucc, ?_⟩
  rw [hstate]
  cases hm : moves[n] with
  | start k op =>
    rw [hm, acting, hsound.time] at hact
    split at hact
    · cases hact
      have hstart : moves[n]? = some (.start client op) := by rw [List.getElem?_eq_getElem hn, hm]
      exact ⟨Nat.le_refl n, ⟨hstart, hstate⟩, hprogram.promises op _ hsound.holds⟩
    · cases hact
  | turn k =>
    rw [hm, acting] at hact
    obtain ⟨r', hr', heq⟩ := Option.map_eq_some_iff.mp hact
    cases heq
    obtain ⟨hbegun, hstarts, hensures⟩ := hsound.running client r hr'
    exact ⟨Nat.le_of_lt hbegun, hstarts, hensures.promises (hprogram.refl _ _) hsound.holds⟩

omit hprogram in
theorem leads_succ {n : Nat} (hsound : Sound program D may post s moves n)
    (hlead : D.leads (stateAfter program s moves n) (stateAfter program s moves (n + 1))) :
    ∀ m ≤ n + 1, D.leads (stateAfter program s moves m) (stateAfter program s moves (n + 1)) := by
  intro m hm
  rcases Nat.lt_or_eq_of_le hm with hlt | rfl
  · exact D.trans (hsound.leads m (Nat.le_of_lt_succ hlt)) hlead
  · exact D.refl _

theorem sound_succ {n : Nat} (hn : n < moves.length)
    (hsound : Sound program D may post s moves n) : Sound program D may post s moves (n + 1) := by
  cases hact : (after program s moves n).acting program moves[n] with
  | none =>
    -- nobody acts
    have hsucc : after program s moves (n + 1) =
        { after program s moves n with time := (after program s moves n).time + 1 } := by
      rw [after_succ hn, step, hact]
    have hstate : stateAfter program s moves (n + 1) = stateAfter program s moves n := by
      rw [stateAfter, hsucc, stateAfter]
    refine ⟨?time, ?holds, leads_succ hsound ?leads, ?running, ?finished⟩
    case time =>
      rw [hsucc]
      exact congrArg (· + 1) hsound.time
    case holds =>
      rw [hstate]
      exact hsound.holds
    case leads =>
      rw [hstate]
      exact D.refl _
    case running =>
      intro client r hr
      rw [hsucc] at hr
      obtain ⟨hbegun, hrest⟩ := hsound.running client r hr
      rw [hstate]
      exact ⟨Nat.lt_succ_of_lt hbegun, hrest⟩
    case finished =>
      intro f hf
      rw [hsucc] at hf
      obtain ⟨hbegun, hended, hrest⟩ := hsound.finished f hf
      exact ⟨hbegun, Nat.le_succ_of_le hended, hrest⟩
  | some found =>
    obtain ⟨client, r⟩ := found
    obtain ⟨hsucc, hbegun, hstarts, hstep, hensures⟩ := step_of_acting hprogram hn hsound hact
    refine ⟨?time, hstep.holds, leads_succ hsound hstep.leads, ?running, ?finished⟩
    case time =>
      rw [hsucc, time_act, hsound.time]
    case running =>
      intro k r' hr'
      rw [hsucc] at hr'
      rcases running_act hr' with hr' | ⟨rfl, rfl⟩
      · obtain ⟨hbegun', hstarts', hensures'⟩ := hsound.running k r' hr'
        exact ⟨Nat.lt_succ_of_lt hbegun', hstarts', hensures'.later hstep.leads⟩
      · exact ⟨Nat.lt_succ_of_le hbegun, hstarts, hensures⟩
    case finished =>
      intro f hf
      rw [hsucc] at hf
      rcases finished_act hf with hf | ⟨hdone, heq⟩
      · obtain ⟨hbegun', hended', hrest'⟩ := hsound.finished f hf
        exact ⟨hbegun', Nat.le_succ_of_le hended', hrest'⟩
      · rw [← stateAfter] at hdone
        rw [hdone] at hensures
        rw [heq, hsound.time]
        exact ⟨Nat.lt_succ_of_le hbegun, Nat.le_refl _, hstarts, hensures.of_done hstep.holds⟩

theorem sound_after (hs : D.holds s) {n : Nat} (hn : n ≤ moves.length) :
    Sound program D may post s moves n := by
  induction n with
  | zero =>
    refine ⟨rfl, hs, fun m hm => ?_, fun client r hr => ?_, fun f hf => ?_⟩
    · rw [Nat.le_zero.mp hm]
      exact D.refl _
    · cases hr
    · cases hf
  | succ n ih => exact sound_succ hprogram hn (ih (Nat.le_of_succ_le hn))

/-- What a move does to the shared state: nothing, or what the operation it acts for may do. -/
theorem stateAfter_succ_cases (hs : D.holds s) {n : Nat} (hn : n < moves.length) :
    stateAfter program s moves (n + 1) = stateAfter program s moves n ∨
      ∃ client r, (after program s moves n).acting program moves[n] = some (client, r) ∧
        Starts program s moves client r.op r.begun ∧
        D.Step (may r.op (stateAfter program s moves r.begun)) (stateAfter program s moves n)
          (stateAfter program s moves (n + 1)) := by
  have hsound := sound_after hprogram hs (Nat.le_of_lt hn)
  cases hact : (after program s moves n).acting program moves[n] with
  | none =>
    left
    rw [stateAfter, after_succ hn, step, hact, stateAfter]
  | some found =>
    obtain ⟨client, r⟩ := found
    obtain ⟨-, -, hstarts, hstep, -⟩ := step_of_acting hprogram hn hsound hact
    exact .inr ⟨client, r, rfl, hstarts, hstep⟩

theorem leads_stateAfter (hs : D.holds s) {i j : Nat} (hij : i ≤ j) (hj : j ≤ moves.length) :
    D.leads (stateAfter program s moves i) (stateAfter program s moves j) :=
  (sound_after hprogram hs hj).leads i hij

end

/-- A preorder along which every action changes the state leads from a state to all later ones. -/
theorem leads_of_acts {R : σ → σ → Prop} (hrefl : ∀ s, R s s)
    (htrans : ∀ {s t u}, R s t → R t u → R s u) (hacts : ∀ op, (program op).Acts R) {i j : Nat}
    (hij : i ≤ j) (hj : j ≤ moves.length) :
    R (stateAfter program s moves i) (stateAfter program s moves j) := by
  have hcontract : Contract program ⟨fun _ => True, R, hrefl, htrans⟩ (fun _ _ _ _ => True)
      fun _ _ _ _ => True := by
    refine ⟨fun _ _ _ => trivial, fun op t _ => ?_⟩
    exact ((hacts op).ensures (fun _ _ _ hR => ⟨trivial, hR, trivial⟩) t).promises
      (fun _ => trivial) trivial
  exact leads_stateAfter hcontract trivial hij hj

end Clients

end TxnEngine
