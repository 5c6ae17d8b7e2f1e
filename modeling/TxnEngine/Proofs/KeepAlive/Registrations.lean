import TxnEngine.Proofs.Concurrency.Ledger
import TxnEngine.Proofs.KeepAlive.Dispatching
import TxnEngine.Proofs.Manager.Composition

/-!
# No registration gets lost

The registered ids, the registrations on their way to the dispatcher, and the deadlines are changed
by different parties, one action at a time. An id that is registered has to be in good hands at
every moment: it has its deadline, or its registration is on its way, or the party that has just
registered it is about to send the registration, which its next action does.

Results:
* `Tends.bind`, `tends_register`: programs that leave no registered id behind.
* `tends_program`: every operation does so.
* `attended_act`: what the action of any party does to everyone's registrations.
* `registered_attended`: among any parties every registered id is in good hands, and none has two
  deadlines.
-/

namespace TxnEngine

namespace KeepAlive

open Program

/-! ## What holds between the parties' actions -/

/-- Registrations are taken, and the deadlines are well kept. -/
structure Healthy (k : KeepAlive) : Prop where
  running : k.isRunning = true
  deadlines : k.deadlines.WellKept

/-- The id has a deadline, or its registration is on its way to the dispatcher. -/
def Covers (k : KeepAlive) (id : TxnId) : Prop :=
  id ∈ k.deadlines.ids ∨ id ∈ k.announced

/-- An action leads from `k` to `k'`: an id that stays registered stays covered, and one that is
newly registered is covered or announced next. -/
structure Tended (k k' : KeepAlive) (announced : TxnId → Prop) : Prop where
  healthy : k'.Healthy
  keeps : ∀ id ∈ k'.registered, k.Covers id → k'.Covers id
  enlists : ∀ id ∈ k'.registered, id ∈ k.registered ∨ k'.Covers id ∨ announced id

namespace Tended

variable {k k' : KeepAlive} {announced announced' : TxnId → Prop}

theorem mono (h : Tended k k' announced) (himp : ∀ id, announced id → announced' id) :
    Tended k k' announced' :=
  ⟨h.healthy, h.keeps, fun id hid => (h.enlists id hid).imp_right fun h => h.imp_right (himp id)⟩

/-- Nobody is registered by the action, and everybody stays covered. -/
theorem of_subset (hhealthy : k'.Healthy) (hregistered : ∀ id ∈ k'.registered, id ∈ k.registered)
    (hcovers : ∀ id ∈ k'.registered, k.Covers id → k'.Covers id) : Tended k k' announced :=
  ⟨hhealthy, hcovers, fun id hid => .inl (hregistered id hid)⟩

theorem refl (h : k.Healthy) : Tended k k announced :=
  .of_subset h (fun _ hid => hid) fun _ _ hcovers => hcovers

end Tended

/-- Whatever the state, the next action of the program announces the id. -/
def Announces {σ α : Type} (get : σ → KeepAlive) (id : TxnId) : Program σ α → Prop
  | done _ => False
  | call action _ => ∀ s, get (action s).2 = ((get s).announce id).2

/-- Every action of the program leaves the registered ids covered. One that it registers itself it
announces with its next action. -/
def Tends {σ α : Type} (get : σ → KeepAlive) : Program σ α → Prop
  | done _ => True
  | call action next =>
    (∀ s, (get s).Healthy → Tended (get s) (get (action s).2) fun id =>
      Announces get id (next (action s).1)) ∧ ∀ b, Tends get (next b)

section Programs

variable {σ τ α β : Type} {get : σ → KeepAlive}

theorem Announces.bind {p : Program σ α} {q : α → Program σ β} {id : TxnId}
    (h : Announces get id p) : Announces get id (p >>= q) := by
  cases p with
  | done a => exact h.elim
  | call action next => exact h

namespace Tends

theorem pure (a : α) : Tends get (Pure.pure a : Program σ α) :=
  trivial

theorem bind {p : Program σ α} {q : α → Program σ β} (hp : Tends get p)
    (hq : ∀ a, Tends get (q a)) : Tends get (p >>= q) := by
  change Tends get (p.bind q)
  induction p with
  | done a => exact hq a
  | call action next ih =>
    exact ⟨fun s hs => (hp.1 s hs).mono fun _ h => h.bind, fun b => ih b (hp.2 b)⟩

theorem map (f : α → β) {p : Program σ α} (hp : Tends get p) : Tends get (f <$> p) := by
  rw [map_eq_pure_bind]
  exact hp.bind fun a => pure (f a)

theorem atomically {action : σ → α × σ}
    (h : ∀ s, (get s).Healthy → Tended (get s) (get (action s).2) fun _ => False) :
    Tends get (Program.atomically action) :=
  ⟨fun s hs => (h s hs).mono fun _ => False.elim, fun _ => trivial⟩

/-- An action that leaves the registry alone. -/
theorem aside {action : σ → α × σ} (h : ∀ s, get (action s).2 = get s) :
    Tends get (Program.atomically action) :=
  atomically fun s hs => by
    rw [h]
    exact .refl hs

theorem focus {part : τ → σ} {put : σ → τ → τ} (hput : ∀ s t, part (put s t) = s)
    {p : Program σ α} (hp : Tends get p) : Tends (fun t => get (part t)) (p.focus part put) := by
  induction p with
  | done a => trivial
  | call action next ih =>
    refine ⟨fun t ht => ?_, fun b => ih b (hp.2 b)⟩
    have hannounces {id : TxnId} {q : Program σ α} (h : Announces get id q) :
        Announces (fun t => get (part t)) id (q.focus part put) := by
      cases q with
      | done a => exact h.elim
      | call action next =>
        intro t
        simp only [hput]
        exact h (part t)
    simp only [hput]
    exact (hp.1 (part t) ht).mono fun _ h => hannounces h

end Tends

end Programs

section Advance

variable {σ α : Type} {get : σ → KeepAlive} {p : Program σ α} {s : σ} {id : TxnId}

theorem tends_advance (hp : Tends get p) (s : σ) : Tends get (p.advance s).1 := by
  cases p with
  | done a => trivial
  | call action next => exact hp.2 _

/-- What the next action does. -/
theorem tended_advance (hp : Tends get p) (hs : (get s).Healthy) :
    Tended (get s) (get (p.advance s).2) fun id => Announces get id (p.advance s).1 := by
  cases p with
  | done a => exact .refl hs
  | call action next => exact hp.1 s hs

/-- An announcement reaches the dispatcher. -/
theorem covers_advance (hp : Announces get id p) (hs : (get s).isRunning = true) :
    (get (p.advance s).2).Covers id := by
  cases p with
  | done a => exact hp.elim
  | call action next =>
    have hannounced : get (action s).2 = { get s with announced := (get s).announced ++ [id] } := by
      rw [hp s, announce, if_pos hs]
    change (get (action s).2).Covers id
    rw [hannounced]
    exact .inr (List.mem_append_right _ (List.mem_singleton.mpr rfl))

end Advance

/-! ## The parties' actions -/

section Actions

variable {k : KeepAlive} {id : TxnId} {now : Instant}

theorem tended_discard (h : k.Healthy) (id : TxnId) :
    Tended k (k.discard id) fun _ => False :=
  .of_subset ⟨h.running, h.deadlines⟩ (fun _ hid => (List.mem_filter.mp hid).1)
    fun _ _ hcovers => hcovers

theorem tends_unregister (id : TxnId) : Tends (fun k => k) (unregister id) :=
  .atomically fun _ h => tended_discard h id

/-- Who registers an id announces it with the next action. -/
theorem tends_register (id : TxnId) : Tends (fun k => k) (register id) := by
  refine ⟨fun k hk => ?_, fun new => ?_⟩
  · unfold enlist
    split_ifs with hid
    · exact .refl hk
    · refine ⟨⟨hk.running, hk.deadlines⟩, fun _ _ hcovers => hcovers, fun other hother => ?_⟩
      rcases List.mem_cons.mp hother with rfl | hother
      · exact .inr (.inr fun _ => rfl)
      · exact .inl hother
  · cases new with
    | false => trivial
    | true =>
      refine ⟨fun k hk => ?_, fun taken => ?_⟩
      · rw [announce, if_pos hk.running]
        exact .of_subset ⟨hk.running, hk.deadlines⟩ (fun _ hid => hid) fun _ _ hcovers =>
          hcovers.imp_right (List.mem_append_left _)
      · cases taken with
        | true => trivial
        | false => exact .atomically fun _ h => tended_discard h id

/-- A registration that is received has its deadline from then on. -/
theorem tended_receive (h : k.Healthy) (now : Instant) :
    Tended k (k.receive now) fun _ => False := by
  unfold receive
  split
  · exact .refl h
  · next id rest hannounced =>
    have hdeadlines := h.deadlines
    refine .of_subset ⟨h.running, Deadlines.wellKept_schedule hdeadlines id _⟩ (fun _ hid => hid)
      fun other _ hcovers => ?_
    have hmem := Deadlines.mem_ids_schedule hdeadlines id other (now + k.interval.nanos)
    rcases hcovers with hpending | hother
    · exact .inl (hmem.mpr (.inr hpending))
    · rw [hannounced] at hother
      rcases List.mem_cons.mp hother with rfl | hother
      · exact .inl (hmem.mpr (.inl rfl))
      · exact .inr hother

theorem isRegistered_iff : k.isRegistered id = true ↔ id ∈ k.registered := by
  rw [isRegistered, List.contains_iff_mem]

/-- The dispatcher drops the deadline of an id only if that is not registered. -/
theorem tended_takeFirst (h : k.Healthy) (now : Instant) :
    Tended k (k.takeFirst now).2 fun _ => False := by
  have hdeadlines := h.deadlines
  refine .of_subset ⟨h.running, Deadlines.wellKept_takeFirst now _ _ hdeadlines⟩ (fun _ hid => hid)
    fun id hid hcovers => hcovers.imp_left fun hpending => ?_
  exact Deadlines.mem_ids_takeFirst now _ _ hpending (isRegistered_iff.mpr hid)

theorem tends_sweep (now : Instant) (fuel : Nat) : Tends (fun k => k) (sweep now fuel) := by
  induction fuel with
  | zero => trivial
  | succ fuel ih =>
    refine .bind (.atomically fun k h => tended_takeFirst h now) fun first => ?_
    cases first with
    | none => trivial
    | some looked => exact ih.bind fun _ => .pure _

theorem tends_sendAll (due : List TxnId) : Tends (fun k => k) (sendAll due) := by
  induction due with
  | nil => trivial
  | cons id rest ih =>
    refine .bind (.atomically fun k h => ?_) fun _ => ih
    exact .of_subset ⟨h.running, h.deadlines⟩ (fun _ hid => hid) fun _ _ hcovers => hcovers

theorem tends_dispatching (now : Instant) : Tends (fun k => k) (dispatching now) :=
  .bind (.aside fun _ => rfl) fun pending =>
    .bind (tends_sweep now (pending + 1)) fun due => tends_sendAll due

theorem tended_dispatch (h : k.Healthy) (now : Instant) :
    Tended k (k.dispatch now) fun _ => False := by
  have hdeadlines := h.deadlines
  obtain ⟨hkept, hkeeps⟩ := Deadlines.wellKept_drain now k.interval k.isRegistered hdeadlines
    (k.deadlines.pending.length + 1)
  exact .of_subset ⟨h.running, hkept⟩ (fun _ hid => hid) fun id hid hcovers =>
    hcovers.imp_left fun hpending => hkeeps id hpending (isRegistered_iff.mpr hid)

theorem tends_takeWork : Tends (fun k => k) (atomically takeWork) := by
  refine .atomically fun k h => ?_
  unfold takeWork
  split
  · exact .refl h
  · exact .of_subset ⟨h.running, h.deadlines⟩ (fun _ hid => hid) fun _ _ hcovers => hcovers

end Actions

/-! ## The operations -/

/-- What callers, the dispatcher and the workers do. Nobody shuts the registry down. -/
inductive Act where
  | manage (op : Manager.Op) (stays : op ≠ .shutdown)
  | register (id : TxnId)
  | unregister (id : TxnId)
  /-- The dispatcher sends what is due to the workers, action by action. -/
  | dispatch

/-- The program of each operation. -/
def Act.program : Act → Program Manager Manager.Reply
  | .manage op _ => op.program
  | .register id => (fun _ => .done) <$> Manager.onKeepAlive (KeepAlive.register id)
  | .unregister id => (fun _ => .done) <$> Manager.onKeepAlive (KeepAlive.unregister id)
  | .dispatch => do
    let now ← Program.read fun m => m.stopwatch.elapsed
    Manager.onKeepAlive (dispatching now)
    return .done

/-- The dispatcher's actions, run alone, are its operation among those of transaction management. -/
theorem run_dispatch_program (m : Manager) :
    (Act.program .dispatch).run m = (Manager.Op.program .dispatch).run m := by
  simp only [Act.program, run_bind, run_read, Manager.run_onKeepAlive, run_dispatching]
  rfl

theorem tends_onKeepAlive {α : Type} {p : Program KeepAlive α} (hp : Tends (fun k => k) p) :
    Tends Manager.keepAlive (Manager.onKeepAlive p) :=
  hp.focus fun _ _ => rfl

theorem tracking_tends : Manager.Tracking fun _ p => Tends Manager.keepAlive p where
  pure := .pure
  bind := .bind
  read := fun _ => .aside fun _ => rfl
  drawTimestamp := .aside fun _ => rfl
  transition := fun _ _ => .aside fun _ => rfl
  cached := fun _ => .aside fun _ => rfl
  remember := fun _ => .aside fun _ => rfl
  count := fun _ => .aside fun _ => rfl
  leave := fun _ => .aside fun _ => rfl
  unregister := fun id => tends_onKeepAlive (tends_unregister id)
  takeWork := tends_onKeepAlive tends_takeWork
  createRecord := fun _ => .aside fun _ => rfl
  enter := fun _ => .aside fun _ => rfl
  register := fun id => tends_onKeepAlive (tends_register id)

theorem tends_program (act : Act) : Tends Manager.keepAlive act.program := by
  cases act with
  | manage op stays =>
    refine tracking_tends.program fun hplain => ?_
    cases op with
    | receive => exact .map _ (.atomically fun m h => tended_receive h m.stopwatch.elapsed)
    | dispatch => exact .map _ (.atomically fun m h => tended_dispatch h m.stopwatch.elapsed)
    | shutdown => exact absurd rfl stays
    | setClock now | wait d => exact .map _ (.aside fun _ => rfl)
    | _ => cases hplain
  | register id => exact .map _ (tends_onKeepAlive (tends_register id))
  | unregister id => exact .map _ (tends_onKeepAlive (tends_unregister id))
  | dispatch =>
    exact .bind (.aside fun _ => rfl) fun now =>
      .bind (tends_onKeepAlive (tends_dispatching now)) fun _ => .pure _

/-! ## Among any parties -/

section Parties

open Clients

variable {c : Clients Manager Act Manager.Reply}

/-- Every registered id is covered, or someone is about to announce it; and everyone will go on
leaving no registered id behind. -/
structure Attended (c : Clients Manager Act Manager.Reply) : Prop where
  healthy : c.shared.keepAlive.Healthy
  registered : ∀ id ∈ c.shared.keepAlive.registered, c.shared.keepAlive.Covers id ∨
    ∃ client r, c.running client = some r ∧ Announces Manager.keepAlive id r.rest
  tends : ∀ client r, c.running client = some r → Tends Manager.keepAlive r.rest

/-- A client whose next action is an announcement is not done. -/
theorem running_of_announces {client : Nat} {r : Running Manager Act Manager.Reply} {id : TxnId}
    (h : Announces Manager.keepAlive id (r.rest.advance c.shared).1) :
    ∃ r', (c.act client r).running client = some r' ∧ r'.rest = (r.rest.advance c.shared).1 := by
  have hnot : ((r.rest.advance c.shared).1.answer?.isSome) = false := by
    generalize (r.rest.advance c.shared).1 = rest at h
    cases rest with
    | done a => exact h.elim
    | call action next => rfl
  exact ⟨{ r with rest := (r.rest.advance c.shared).1 }, by simp [act, hnot], rfl⟩

/-- What the next action of a party does to everyone's registrations. -/
theorem attended_act (h : Attended c) {client : Nat} {r : Running Manager Act Manager.Reply}
    (hr : Tends Manager.keepAlive r.rest)
    (hclient : c.running client = none ∨ c.running client = some r) :
    Attended (c.act client r) := by
  have hstep := tended_advance hr h.healthy
  have htends : Tends Manager.keepAlive (r.rest.advance c.shared).1 := tends_advance hr c.shared
  refine ⟨hstep.healthy, fun id hid => ?_, fun k r' hr' => ?_⟩
  · rcases hstep.enlists id hid with hbefore | hcovers | hannounces
    · rcases h.registered id hbefore with hcovers | ⟨k, r', hr', hannounces⟩
      · exact .inl (hstep.keeps id hid hcovers)
      · by_cases hk : k = client
        · -- the announcement itself
          subst hk
          obtain rfl : r' = r := by
            rcases hclient with hidle | hbusy
            · rw [hidle] at hr'
              cases hr'
            · exact Option.some.inj (hr'.symm.trans hbusy)
          exact .inl (covers_advance hannounces h.healthy.running)
        · exact .inr ⟨k, r', by rw [running_act_of_ne c r hk, hr'], hannounces⟩
    · exact .inl hcovers
    · obtain ⟨r', hr', hrest⟩ := running_of_announces hannounces
      exact .inr ⟨client, r', hr', hrest ▸ hannounces⟩
  · rcases running_act hr' with hr' | ⟨-, rfl⟩
    · exact h.tends k r' hr'
    · exact htends

/-- Among any callers, dispatchers and workers: every registered id has exactly one pending
deadline, or its registration is on its way to the dispatcher, or a party that registers it is about
to send the registration. No id ever has two deadlines. -/
theorem registered_attended {σ : Type} (log : Log) (config : Config) (coll : Collaborators σ)
    (moves : List (Move Act)) (n : Nat) :
    let clients := after Act.program (Engine.newManager log config coll) moves n
    let k := clients.shared.keepAlive
    (∀ id ∈ k.registered, k.deadlines.ids.count id = 1 ∨ id ∈ k.announced ∨
      ∃ client r, clients.running client = some r ∧ Announces Manager.keepAlive id r.rest) ∧
    ∀ id, k.deadlines.ids.count id ≤ 1 := by
  intro clients k
  have hattended : Attended clients := by
    refine after_induction ⟨⟨rfl, Deadlines.wellKept_empty⟩, nofun, nofun⟩ (fun c m h => ?_) n
    rw [step]
    cases hact : c.acting Act.program m with
    | none => exact ⟨h.healthy, h.registered, h.tends⟩
    | some found =>
      obtain ⟨client, r⟩ := found
      rcases acting_cases hact with ⟨-, hr, hidle⟩ | ⟨-, hbusy⟩
      · exact attended_act h (hr ▸ tends_program r.op) (.inl hidle)
      · exact attended_act h (h.tends client r hbusy) (.inr hbusy)
  have honce := hattended.healthy.deadlines.once
  refine ⟨fun id hid => ?_, fun id => List.nodup_iff_count_le_one.mp honce id⟩
  rcases hattended.registered id hid with (hpending | hannounced) | howed
  · exact .inl (List.count_eq_one_of_mem honce hpending)
  · exact .inr (.inl hannounced)
  · exact .inr (.inr howed)

end Parties

end KeepAlive

end TxnEngine
