import Mathlib.Data.List.Nodup
import Mathlib.Data.List.Perm.Subperm
import TxnEngine.Proofs.Concurrency.Interleaving

/-!
# The books of interleaving clients

Every operation that clients begin is begun once: it is under way in the hands of one client until
it is over, and is over once. So what is over is part of what was begun, each thing once, and all of
it as soon as nobody is busy.

Results:
* `booked_after`: where the operations are that have been begun.
* `filterMap_finished_subperm`, `filterMap_finished_perm`: what is over, against what was begun.
* `next_cases`: a move begins an operation, or takes an action behind the first of one.
* `comesToRest`: the clients can come to rest by finishing what is under way.
-/

namespace TxnEngine

namespace Program

variable {σ τ α β : Type} {R : σ → σ → Prop}

/-- Every action of the program changes the state along `R`, in whatever state it is taken. -/
def Always (R : σ → σ → Prop) : Program σ α → Prop
  | done _ => True
  | call action next => (∀ s, R s (action s).2) ∧ ∀ b, (next b).Always R

/-- Every action behind the first changes the state along `R`. -/
def AlwaysLater (R : σ → σ → Prop) : Program σ α → Prop
  | done _ => True
  | call _ next => ∀ b, (next b).Always R

namespace Always

theorem pure (a : α) : (Pure.pure a : Program σ α).Always R :=
  trivial

theorem bind {p : Program σ α} {q : α → Program σ β} (hp : p.Always R)
    (hq : ∀ a, (q a).Always R) : (p >>= q).Always R := by
  change (p.bind q).Always R
  induction p with
  | done a => exact hq a
  | call action next ih => exact ⟨hp.1, fun b => ih b (hp.2 b)⟩

theorem atomically {action : σ → α × σ} (h : ∀ s, R s (action s).2) :
    (Program.atomically action).Always R :=
  ⟨h, fun _ => trivial⟩

theorem map {p : Program σ α} (f : α → β) (hp : p.Always R) : (f <$> p).Always R := by
  rw [map_eq_pure_bind]
  exact bind hp fun _ => trivial

/-- A program on a part of the state, whatever becomes of that part. -/
theorem focus {R : τ → τ → Prop} {get : τ → σ} {put : σ → τ → τ} (h : ∀ s t, R t (put s t))
    (p : Program σ α) : (p.focus get put).Always R := by
  induction p with
  | done a => trivial
  | call action next ih => exact ⟨fun t => h _ t, ih⟩

theorem later {p : Program σ α} (hp : p.Always R) : p.AlwaysLater R := by
  cases p with
  | done a => trivial
  | call action next => exact hp.2

end Always

/-- What the next action leaves of the program. -/
theorem AlwaysLater.advance {p : Program σ α} (hp : p.AlwaysLater R) (s : σ) :
    (p.advance s).1.Always R := by
  cases p with
  | done a => trivial
  | call action next => exact hp _

theorem Always.shared_advance {p : Program σ α} (hp : p.Always R) (hrefl : ∀ s, R s s) (s : σ) :
    R s (p.advance s).2 := by
  cases p with
  | done a => exact hrefl s
  | call action next => exact hp.1 s

theorem AlwaysLater.atomically_bind {action : σ → α × σ} {q : α → Program σ β}
    (hq : ∀ a, (q a).Always R) : (Program.atomically action >>= q).AlwaysLater R :=
  hq

theorem AlwaysLater.map {p : Program σ α} (f : α → β) (hp : p.AlwaysLater R) :
    (f <$> p).AlwaysLater R := by
  cases p with
  | done a => trivial
  | call action next => exact fun b => Always.map f (hp b)

end Program

namespace Clients

variable {σ ω ρ : Type} (program : ω → Program σ ρ) (s : σ) (moves : List (Move ω))

/-! ## What was begun -/

/-- The operation that begins with a move. -/
def beginning (c : Clients σ ω ρ) : Move ω → Option ω
  | .start client op =>
    match c.running client with
    | none => some op
    | some _ => none
  | .turn _ => none

/-- The operations that begin with the first `n` moves, each with the number of moves before its
first action. -/
def begins : (n : Nat) → List (Nat × ω)
  | 0 => []
  | n + 1 =>
    begins n ++
      ((moves[n]?.bind (after program s moves n).beginning).map fun op => (n, op)).toList

/-- What an operation notes in the state in which it begins. -/
def noteOf {κ : Type} (note : ω → σ → Option κ) (entry : Nat × ω) : Option κ :=
  note entry.2 (stateAfter program s moves entry.1)

/-- What the operations note that begin with the first `n` moves. -/
def noted {κ : Type} (note : ω → σ → Option κ) (n : Nat) : List κ :=
  (begins program s moves n).filterMap (noteOf program s moves note)

variable {program s moves}

theorem fst_lt_of_mem_begins {n i : Nat} {op : ω} (h : (i, op) ∈ begins program s moves n) :
    i < n := by
  induction n with
  | zero => cases h
  | succ n ih =>
    rcases List.mem_append.mp h with h | h
    · exact Nat.lt_succ_of_lt (ih h)
    · obtain ⟨op', -, heq⟩ := Option.map_eq_some_iff.mp (Option.mem_toList.mp h)
      cases heq
      exact Nat.lt_succ_self _

theorem nodup_begins (n : Nat) : (begins program s moves n).Nodup := by
  induction n with
  | zero => exact List.nodup_nil
  | succ n ih =>
    rw [begins, List.nodup_append]
    refine ⟨ih, ?_, fun a ha b hb => ?_⟩
    · cases Option.map _ _ <;> simp
    · obtain ⟨op, -, rfl⟩ := Option.map_eq_some_iff.mp (Option.mem_toList.mp hb)
      rintro rfl
      exact Nat.lt_irrefl _ (fst_lt_of_mem_begins ha)

/-- A move acts for the operation that begins with it, or for one that is under way. -/
theorem acting_cases {c : Clients σ ω ρ} {m : Move ω} {client : Nat} {r : Running σ ω ρ}
    (h : c.acting program m = some (client, r)) :
    (c.beginning m = some r.op ∧ r = ⟨r.op, c.time, program r.op⟩ ∧ c.running client = none) ∨
      c.beginning m = none ∧ c.running client = some r := by
  cases m with
  | start k op =>
    rw [acting] at h
    split at h
    · next hidle =>
      cases h
      exact .inl ⟨by simp [beginning, hidle], rfl, hidle⟩
    · cases h
  | turn k =>
    obtain ⟨r', hr', heq⟩ := Option.map_eq_some_iff.mp h
    cases heq
    exact .inr ⟨rfl, hr'⟩

theorem beginning_eq_none {c : Clients σ ω ρ} {m : Move ω} (h : c.acting program m = none) :
    c.beginning m = none := by
  cases m with
  | start k op =>
    cases hrunning : c.running k with
    | none => simp [acting, hrunning] at h
    | some r => simp [beginning, hrunning]
  | turn k => rfl

theorem begins_succ {n : Nat} (hn : n < moves.length) :
    begins program s moves (n + 1) = begins program s moves n ++
      (((after program s moves n).beginning moves[n]).map fun op => (n, op)).toList := by
  rw [begins, List.getElem?_eq_getElem hn, Option.bind_some]

theorem noted_succ {κ : Type} (note : ω → σ → Option κ) {n : Nat} (hn : n < moves.length) :
    noted program s moves note (n + 1) = noted program s moves note n ++
      (((after program s moves n).beginning moves[n]).bind fun op =>
        note op (stateAfter program s moves n)).toList := by
  rw [noted, begins_succ hn, List.filterMap_append, noted]
  cases (after program s moves n).beginning moves[n] with
  | none => rfl
  | some op => cases h : note op (stateAfter program s moves n) <;> simp [noteOf, h]

/-! ## Where it is -/

/-- What becomes of an operation with its next action: it goes on, or it is over. -/
theorem act_cases (c : Clients σ ω ρ) (client : Nat) (r : Running σ ω ρ) :
    (∃ r', (c.act client r).running client = some r' ∧ r'.op = r.op ∧ r'.begun = r.begun ∧
        (c.act client r).finished = c.finished) ∨
      ∃ f, (c.act client r).running client = none ∧ f.op = r.op ∧ f.begun = r.begun ∧
        (c.act client r).finished = f :: c.finished := by
  simp only [act, if_true]
  cases h : (r.rest.advance c.shared).1.answer? with
  | none => exact .inl ⟨_, rfl, rfl, rfl, rfl⟩
  | some reply => exact .inr ⟨⟨client, r.op, r.begun, c.time + 1, reply⟩, rfl, rfl, rfl, rfl⟩

theorem running_act_of_ne (c : Clients σ ω ρ) {client k : Nat} (r : Running σ ω ρ)
    (hk : k ≠ client) : (c.act client r).running k = c.running k := by
  simp only [act, if_neg hk]

/-- Where the operations are that were begun: each is under way in the hands of one client, or
over. -/
structure Booked (begun : List (Nat × ω)) (c : Clients σ ω ρ) : Prop where
  running : ∀ client r, c.running client = some r → (r.begun, r.op) ∈ begun
  finished : ∀ f ∈ c.finished, (f.begun, f.op) ∈ begun
  once : (c.finished.map Finished.begun).Nodup
  apart : ∀ client r, c.running client = some r → ∀ f ∈ c.finished, f.begun ≠ r.begun
  single : ∀ client r, c.running client = some r → ∀ other r', c.running other = some r' →
    r'.begun = r.begun → other = client
  complete : ∀ entry ∈ begun,
    (∃ client r, c.running client = some r ∧ (r.begun, r.op) = entry) ∨
      ∃ f ∈ c.finished, (f.begun, f.op) = entry

section Act

variable {begun : List (Nat × ω)} {c : Clients σ ω ρ} (h : Booked begun c) {client : Nat}
  {r : Running σ ω ρ} (hr : c.running client = some r)

include hr

/-- Whatever is under way behind an action was so before. -/
theorem before_act {k : Nat} {r' : Running σ ω ρ} (hk : (c.act client r).running k = some r') :
    ∃ old, c.running k = some old ∧ r'.begun = old.begun ∧ r'.op = old.op := by
  rcases running_act hk with hk | ⟨rfl, rfl⟩
  · exact ⟨r', hk, rfl, rfl⟩
  · exact ⟨r, hr, rfl, rfl⟩

include h

theorem Booked.running_act (k : Nat) (r' : Running σ ω ρ)
    (hk : (c.act client r).running k = some r') : (r'.begun, r'.op) ∈ begun := by
  obtain ⟨old, hold, hbegun, hop⟩ := before_act hr hk
  rw [hbegun, hop]
  exact h.running k old hold

theorem Booked.single_act (k : Nat) (r' : Running σ ω ρ)
    (hk : (c.act client r).running k = some r') (other : Nat) (r'' : Running σ ω ρ)
    (hother : (c.act client r).running other = some r'') (heq : r''.begun = r'.begun) :
    other = k := by
  obtain ⟨old, hold, hbegun, -⟩ := before_act hr hk
  obtain ⟨old', hold', hbegun', -⟩ := before_act hr hother
  exact h.single k old hold other old' hold' (by rw [← hbegun, ← hbegun', heq])

/-- An operation is under way in other hands, and stays there, or is the one that acts, or is over. -/
theorem Booked.complete_act {entry : Nat × ω} (hentry : entry ∈ begun) :
    (∃ k r', (c.act client r).running k = some r' ∧ (r'.begun, r'.op) = entry) ∨
      (r.begun, r.op) = entry ∨ ∃ f ∈ c.finished, (f.begun, f.op) = entry := by
  rcases h.complete entry hentry with ⟨k, old, hold, heq⟩ | hover
  · by_cases hk : k = client
    · subst hk
      obtain rfl := Option.some.inj (hr.symm.trans hold)
      exact .inr (.inl heq)
    · exact .inl ⟨k, old, by rw [running_act_of_ne c r hk, hold], heq⟩
  · exact .inr (.inr hover)

/-- The operation goes on behind its action. -/
theorem Booked.goesOn {r' : Running σ ω ρ} (hr' : (c.act client r).running client = some r')
    (hop : r'.op = r.op) (hbegun : r'.begun = r.begun)
    (hfinished : (c.act client r).finished = c.finished) : Booked begun (c.act client r) := by
  refine ⟨h.running_act hr, ?_, ?_, fun k r'' hk => ?_, h.single_act hr, fun entry hentry => ?_⟩ <;>
    rw [hfinished]
  · exact h.finished
  · exact h.once
  · obtain ⟨old, hold, hsame, -⟩ := before_act hr hk
    rw [hsame]
    exact h.apart k old hold
  · rcases h.complete_act hr hentry with hother | heq | hover
    · exact .inl hother
    · exact .inl ⟨client, r', hr', by rw [hbegun, hop, heq]⟩
    · exact .inr hover

/-- The operation is over behind its action. -/
theorem Booked.ends {f : Finished ω ρ} (hnone : (c.act client r).running client = none)
    (hop : f.op = r.op) (hbegun : f.begun = r.begun)
    (hfinished : (c.act client r).finished = f :: c.finished) : Booked begun (c.act client r) := by
  refine ⟨h.running_act hr, ?_, ?_, fun k r'' hk => ?_, h.single_act hr, fun entry hentry => ?_⟩ <;>
    rw [hfinished]
  · rw [List.forall_mem_cons, hbegun, hop]
    exact ⟨h.running client r hr, h.finished⟩
  · rw [List.map_cons, List.nodup_cons]
    refine ⟨fun hmem => ?_, h.once⟩
    obtain ⟨f', hf', heq⟩ := List.mem_map.mp hmem
    exact h.apart client r hr f' hf' (heq.trans hbegun)
  · have hne : k ≠ client := by
      rintro rfl
      rw [hnone] at hk
      cases hk
    obtain ⟨old, hold, hsame, -⟩ := before_act hr hk
    rw [hsame, List.forall_mem_cons, hbegun]
    exact ⟨fun heq => hne (h.single client r hr k old hold heq.symm), h.apart k old hold⟩
  · rcases h.complete_act hr hentry with hother | heq | ⟨f', hf', heq⟩
    · exact .inl hother
    · exact .inr ⟨f, List.mem_cons_self, by rw [hbegun, hop, heq]⟩
    · exact .inr ⟨f', List.mem_cons_of_mem _ hf', heq⟩

/-- The next action of an operation that is under way. -/
theorem booked_act : Booked begun (c.act client r) := by
  rcases act_cases c client r with
    ⟨r', hr', hop, hbegun, hfinished⟩ | ⟨f, hnone, hop, hbegun, hfinished⟩
  · exact h.goesOn hr hr' hop hbegun hfinished
  · exact h.ends hr hnone hop hbegun hfinished

end Act

/-- A client takes an operation into its hands. -/
def seat (c : Clients σ ω ρ) (client : Nat) (r : Running σ ω ρ) : Clients σ ω ρ :=
  { c with running := fun k => if k = client then some r else c.running k }

theorem act_seat (c : Clients σ ω ρ) (client : Nat) (r : Running σ ω ρ) :
    (c.seat client r).act client r = c.act client r := by
  have hrunning : ((c.seat client r).act client r).running = (c.act client r).running := by
    funext k
    by_cases hk : k = client
    · subst hk
      simp only [act, if_true]
      rfl
    · simp only [act, seat, if_neg hk]
  simp only [act, seat] at hrunning ⊢
  rw [hrunning]

theorem booked_seat {begun : List (Nat × ω)} {c : Clients σ ω ρ} (h : Booked begun c) {client : Nat}
    (hidle : c.running client = none) {r : Running σ ω ρ} (hnew : ∀ op, (r.begun, op) ∉ begun) :
    Booked (begun ++ [(r.begun, r.op)]) (c.seat client r) := by
  have hcases {k : Nat} {r' : Running σ ω ρ} (hk : (c.seat client r).running k = some r') :
      k = client ∧ r' = r ∨ k ≠ client ∧ c.running k = some r' := by
    simp only [seat] at hk
    split_ifs at hk with heq
    · exact .inl ⟨heq, (Option.some.inj hk).symm⟩
    · exact .inr ⟨heq, hk⟩
  have holder {k : Nat} {r' : Running σ ω ρ} (hk : c.running k = some r') : r'.begun ≠ r.begun :=
    fun heq => hnew r'.op (heq ▸ h.running k r' hk)
  refine ⟨fun k r' hk => ?_, fun f hf => ?_, h.once, fun k r' hk f hf => ?_,
    fun k r' hk other r'' hother heq => ?_, fun entry hentry => ?_⟩
  · rcases hcases hk with ⟨-, rfl⟩ | ⟨-, hk⟩
    · simp
    · exact List.mem_append_left _ (h.running k r' hk)
  · exact List.mem_append_left _ (h.finished f hf)
  · rcases hcases hk with ⟨-, rfl⟩ | ⟨-, hk⟩
    · exact fun heq => hnew f.op (heq ▸ h.finished f hf)
    · exact h.apart k r' hk f hf
  · rcases hcases hk with ⟨rfl, rfl⟩ | ⟨-, hold⟩ <;>
      rcases hcases hother with ⟨rfl, rfl⟩ | ⟨-, hold'⟩
    · rfl
    · exact absurd heq (holder hold')
    · exact absurd heq.symm (holder hold)
    · exact h.single k r' hold other r'' hold' heq
  · rcases List.mem_append.mp hentry with hentry | hentry
    · refine (h.complete entry hentry).imp_left fun ⟨k, r', hk, heq⟩ => ?_
      have hne : k ≠ client := by
        rintro rfl
        rw [hidle] at hk
        cases hk
      exact ⟨k, r', by simpa [seat, hne] using hk, heq⟩
    · obtain rfl := List.mem_singleton.mp hentry
      exact .inl ⟨client, r, by simp [seat], rfl⟩

theorem time_after {n : Nat} (hn : n ≤ moves.length) : (after program s moves n).time = n := by
  induction n with
  | zero => rfl
  | succ n ih =>
    rw [after_succ hn, step]
    split
    · exact congrArg (· + 1) (ih (Nat.le_of_succ_le hn))
    · rw [time_act, ih (Nat.le_of_succ_le hn)]

/-- The books are right after every move. -/
theorem booked_after {n : Nat} (hn : n ≤ moves.length) :
    Booked (begins program s moves n) (after program s moves n) := by
  induction n with
  | zero =>
    refine ⟨?_, ?_, List.nodup_nil, ?_, ?_, ?_⟩
    · intro client r hr
      cases hr
    · intro f hf
      cases hf
    · intro client r hr
      cases hr
    · intro client r hr
      cases hr
    · intro entry hentry
      cases hentry
  | succ n ih =>
    have hbooked := ih (Nat.le_of_succ_le hn)
    rw [begins_succ hn, after_succ hn, step]
    cases hact : (after program s moves n).acting program moves[n] with
    | none =>
      rw [beginning_eq_none hact]
      simp only [Option.map_none, Option.toList_none, List.append_nil]
      exact ⟨hbooked.running, hbooked.finished, hbooked.once, hbooked.apart, hbooked.single,
        hbooked.complete⟩
    | some found =>
      obtain ⟨client, r⟩ := found
      rcases acting_cases hact with ⟨hbegins, hr, hidle⟩ | ⟨hbegins, hr⟩ <;> rw [hbegins]
      · have htime : r.begun = n := by rw [hr, time_after (Nat.le_of_succ_le hn)]
        have hnew (op : ω) : (r.begun, op) ∉ begins program s moves n := fun hmem =>
          Nat.lt_irrefl _ (htime ▸ fst_lt_of_mem_begins hmem)
        simp only [Option.map_some, Option.toList_some]
        have hseated : ((after program s moves n).seat client r).running client = some r := by
          simp [seat]
        have hact' := booked_act (booked_seat hbooked hidle hnew) hseated
        rwa [act_seat, htime] at hact'
      · simp only [Option.map_none, Option.toList_none, List.append_nil]
        exact booked_act hbooked hr

/-! ## What is over, against what was begun -/

section Reading

variable {n : Nat} (hn : n ≤ moves.length)

include hn

theorem nodup_finished :
    ((after program s moves n).finished.map fun f => (f.begun, f.op)).Nodup := by
  have hfst : (((after program s moves n).finished.map fun f => (f.begun, f.op)).map
      Prod.fst).Nodup := by
    rw [List.map_map]
    exact (booked_after hn).once
  exact List.Nodup.of_map _ hfst

theorem finished_subset_begins :
    (after program s moves n).finished.map (fun f => (f.begun, f.op)) ⊆
      begins program s moves n := by
  intro entry hentry
  obtain ⟨f, hf, rfl⟩ := List.mem_map.mp hentry
  exact (booked_after hn).finished f hf

omit hn in
theorem filterMap_finished {κ : Type} (note : ω → σ → Option κ) :
    ((after program s moves n).finished.filterMap fun f =>
        note f.op (stateAfter program s moves f.begun)) =
      ((after program s moves n).finished.map fun f => (f.begun, f.op)).filterMap
        (noteOf program s moves note) := by
  rw [List.filterMap_map]
  rfl

/-- What is noted of the operations that are over was noted at their beginnings, once each. -/
theorem filterMap_finished_subperm {κ : Type} (note : ω → σ → Option κ) :
    ((after program s moves n).finished.filterMap fun f =>
      note f.op (stateAfter program s moves f.begun)).Subperm (noted program s moves note n) := by
  obtain ⟨l, hperm, hsub⟩ := (nodup_finished hn).subperm (finished_subset_begins hn)
  rw [filterMap_finished]
  exact ⟨l.filterMap _, hperm.filterMap _, hsub.filterMap _⟩

/-- It is all that was noted, if nothing is under way that notes anything. -/
theorem filterMap_finished_perm {κ : Type} {note : ω → σ → Option κ}
    (hidle : ∀ client r, (after program s moves n).running client = some r →
      ∀ t, note r.op t = none) :
    ((after program s moves n).finished.filterMap fun f =>
      note f.op (stateAfter program s moves f.begun)).Perm (noted program s moves note n) := by
  -- entries without a note do not count
  have hread (entries : List (Nat × ω)) : entries.filterMap (noteOf program s moves note) =
      (entries.filter fun entry => (noteOf program s moves note entry).isSome).filterMap
        (noteOf program s moves note) := by
    rw [List.filterMap_filter]
    refine List.filterMap_congr fun entry _ => ?_
    cases noteOf program s moves note entry <;> rfl
  rw [filterMap_finished, noted, hread, hread (begins program s moves n)]
  refine List.Perm.filterMap _ ?_
  rw [List.perm_ext_iff_of_nodup ((nodup_finished hn).filter _) ((nodup_begins n).filter _)]
  intro entry
  simp only [List.mem_filter]
  refine and_congr_left fun hsome => ⟨fun hmem => finished_subset_begins hn hmem, fun hmem => ?_⟩
  rcases (booked_after hn).complete entry hmem with ⟨client, r, hr, rfl⟩ | ⟨f, hf, rfl⟩
  · simp [noteOf, hidle client r hr] at hsome
  · exact List.mem_map_of_mem hf

end Reading

/-! ## What the actions behind the first leave alone -/

section Later

variable {R : σ → σ → Prop} (hprogram : ∀ op, (program op).AlwaysLater R)

include hprogram

theorem always_of_running {n : Nat} (hn : n ≤ moves.length) {client : Nat} {r : Running σ ω ρ}
    (hr : (after program s moves n).running client = some r) : r.rest.Always R := by
  induction n generalizing client r with
  | zero => cases hr
  | succ n ih =>
    have hbefore {client : Nat} {r : Running σ ω ρ} :=
      @ih (Nat.le_of_succ_le hn) client r
    rw [after_succ hn, step] at hr
    split at hr
    · exact hbefore hr
    · next acting r' hact =>
      rcases running_act hr with hr | ⟨rfl, rfl⟩
      · exact hbefore hr
      · rcases acting_cases hact with ⟨-, hr', -⟩ | ⟨-, hr'⟩
        · rw [hr']
          exact (hprogram r'.op).advance _
        · exact (hbefore hr').later.advance _

/-- A move takes the first action of the operation that begins with it, or changes the state along
`R`. -/
theorem next_cases (hrefl : ∀ t, R t t) {n : Nat} (hn : n < moves.length) :
    (∃ op, (after program s moves n).beginning moves[n] = some op ∧
        stateAfter program s moves (n + 1) =
          ((program op).advance (stateAfter program s moves n)).2) ∨
      (after program s moves n).beginning moves[n] = none ∧
        R (stateAfter program s moves n) (stateAfter program s moves (n + 1)) := by
  simp only [stateAfter, after_succ hn, step]
  cases hact : (after program s moves n).acting program moves[n] with
  | none => exact .inr ⟨beginning_eq_none hact, hrefl _⟩
  | some found =>
    obtain ⟨client, r⟩ := found
    rcases acting_cases hact with ⟨hbegins, hr, -⟩ | ⟨hbegins, hr⟩
    · refine .inl ⟨r.op, hbegins, ?_⟩
      rw [shared_act, hr]
    · refine .inr ⟨hbegins, ?_⟩
      rw [shared_act]
      exact (always_of_running hprogram (Nat.le_of_lt hn) hr).shared_advance hrefl _

end Later

/-! ## Coming to rest -/

theorem after_append {more : List (Move ω)} {n : Nat} (hn : n ≤ moves.length) :
    after program s (moves ++ more) n = after program s moves n := by
  rw [after, after, List.take_append_of_le_length hn]

theorem begins_append {more : List (Move ω)} {n : Nat} (hn : n ≤ moves.length) :
    begins program s (moves ++ more) n = begins program s moves n := by
  induction n with
  | zero => rfl
  | succ n ih =>
    rw [begins, begins, ih (Nat.le_of_succ_le hn), after_append (Nat.le_of_succ_le hn),
      List.getElem?_append_left hn]

/-- What was noted does not depend on the moves to come. -/
theorem noted_append {κ : Type} {note : ω → σ → Option κ} {more : List (Move ω)} {n : Nat}
    (hn : n ≤ moves.length) :
    noted program s (moves ++ more) note n = noted program s moves note n := by
  rw [noted, noted, begins_append hn]
  refine List.filterMap_congr fun entry hentry => ?_
  have hlt : entry.1 < n := fst_lt_of_mem_begins hentry
  have hle : entry.1 ≤ moves.length := Nat.le_of_lt (Nat.lt_of_lt_of_le hlt hn)
  rw [noteOf, noteOf, stateAfter, stateAfter, after_append hle]

theorem after_append_length (more : List (Move ω)) :
    after program s (moves ++ more) (moves ++ more).length =
      more.foldl (step program) (after program s moves moves.length) := by
  rw [after, after, List.take_length, List.take_length, List.foldl_append]

theorem running_act_self (c : Clients σ ω ρ) (client : Nat) (r : Running σ ω ρ) :
    (c.act client r).running client =
      if (r.rest.advance c.shared).1.answer?.isSome then none
      else some { r with rest := (r.rest.advance c.shared).1 } := by
  simp only [act, if_true]

/-- A client that is given turn after turn comes to the end of its operation. No other client does
anything meanwhile, and the state changes along `R`. -/
def ComesToEnd (program : ω → Program σ ρ) (R : σ → σ → Prop) (client : Nat)
    (c : Clients σ ω ρ) : Prop :=
  ∃ turns : List (Move ω), (∀ m ∈ turns, m = .turn client) ∧
    (turns.foldl (step program) c).running client = none ∧
    (∀ other ≠ client, (turns.foldl (step program) c).running other = c.running other) ∧
    R c.shared (turns.foldl (step program) c).shared

/-- All clients can finish what is under way, one after the other. -/
def ComesToRest (program : ω → Program σ ρ) (R : σ → σ → Prop) (c : Clients σ ω ρ) : Prop :=
  ∃ turns : List (Move ω), (∀ m ∈ turns, ∃ client, m = .turn client) ∧
    (∀ client, (turns.foldl (step program) c).running client = none) ∧
    R c.shared (turns.foldl (step program) c).shared

section Rest

variable {R : σ → σ → Prop} (hrefl : ∀ t, R t t) (htrans : ∀ {t u v}, R t u → R u v → R t v)

include hrefl

theorem comesToEnd_of_idle {c : Clients σ ω ρ} {client : Nat} (h : c.running client = none) :
    ComesToEnd program R client c :=
  ⟨[], by simp, h, fun _ _ => rfl, hrefl _⟩

include htrans

theorem comesToEnd_of_act {c : Clients σ ω ρ} {client : Nat} {r : Running σ ω ρ}
    (hr : c.running client = some r) (halways : r.rest.Always R)
    (h : ComesToEnd program R client (c.act client r)) : ComesToEnd program R client c := by
  have hstep : c.step program (.turn client) = c.act client r := by
    rw [step, acting, hr, Option.map_some]
  obtain ⟨turns, hturns, hidle, hothers, hshared⟩ := h
  refine ⟨.turn client :: turns, ?_, ?_, fun other hne => ?_, ?_⟩
  · simpa using hturns
  · rw [List.foldl_cons, hstep]
    exact hidle
  · rw [List.foldl_cons, hstep, hothers other hne, running_act_of_ne c r hne]
  · rw [List.foldl_cons, hstep]
    refine htrans ?_ hshared
    rw [shared_act]
    exact halways.shared_advance hrefl _

theorem comesToEnd {c : Clients σ ω ρ} {client : Nat}
    (halways : ∀ r, c.running client = some r → r.rest.Always R) :
    ComesToEnd program R client c := by
  cases hr : c.running client with
  | none => exact comesToEnd_of_idle hrefl hr
  | some r =>
    have hrest := halways r hr
    clear halways
    obtain ⟨op, begun, rest⟩ := r
    induction rest generalizing c with
    | done reply =>
      refine comesToEnd_of_act hrefl htrans hr hrest (comesToEnd_of_idle hrefl ?_)
      rw [running_act_self]
      rfl
    | call action next ih =>
      refine comesToEnd_of_act hrefl htrans hr hrest ?_
      by_cases hover : (next (action c.shared).1).answer?.isSome = true
      · refine comesToEnd_of_idle hrefl ?_
        rw [running_act_self]
        exact if_pos hover
      · refine ih (action c.shared).1 ?_ (hrest.2 _)
        rw [running_act_self]
        exact if_neg hover

theorem comesToRest {c : Clients σ ω ρ} (clients : List Nat)
    (hbusy : ∀ client r, c.running client = some r → client ∈ clients ∧ r.rest.Always R) :
    ComesToRest program R c := by
  induction clients generalizing c with
  | nil =>
    refine ⟨[], by simp, fun client => ?_, hrefl _⟩
    cases hr : c.running client with
    | none => exact hr
    | some r => exact absurd (hbusy client r hr).1 List.not_mem_nil
  | cons client clients ih =>
    have hend : ComesToEnd program R client c :=
      comesToEnd hrefl htrans fun r hr => (hbusy client r hr).2
    obtain ⟨turns, hturns, hidle, hothers, hshared⟩ := hend
    have hrest : ComesToRest program R (turns.foldl (step program) c) := by
      refine ih fun other r hr => ?_
      have hne : other ≠ client := by
        rintro rfl
        rw [hidle] at hr
        cases hr
      rw [hothers other hne] at hr
      obtain ⟨hmem, halways⟩ := hbusy other r hr
      exact ⟨(List.mem_cons.mp hmem).resolve_left hne, halways⟩
    obtain ⟨more, hmore, hidle', hshared'⟩ := hrest
    refine ⟨turns ++ more, fun m hm => ?_, ?_, ?_⟩
    · rcases List.mem_append.mp hm with hm | hm
      · exact ⟨client, hturns m hm⟩
      · exact hmore m hm
    · rw [List.foldl_append]
      exact hidle'
    · rw [List.foldl_append]
      exact htrans hshared hshared'

end Rest

/-- Finitely many clients are busy at any time. -/
theorem exists_busy (moves : List (Move ω)) {c : Clients σ ω ρ} {clients : List Nat}
    (h : ∀ client r, c.running client = some r → client ∈ clients) :
    ∃ clients : List Nat, ∀ client r, (moves.foldl (step program) c).running client = some r →
      client ∈ clients := by
  induction moves generalizing c clients with
  | nil => exact ⟨clients, h⟩
  | cons m moves ih =>
    rw [List.foldl_cons, step]
    cases c.acting program m with
    | none => exact ih h
    | some found =>
      obtain ⟨acting, r⟩ := found
      refine @ih _ (acting :: clients) fun client r' hr' => ?_
      rcases running_act hr' with hr' | ⟨rfl, -⟩
      · exact List.mem_cons_of_mem _ (h client r' hr')
      · exact List.mem_cons_self

end Clients

end TxnEngine
