import Mathlib.Data.List.Nodup
import Mathlib.Data.List.Perm.Basic
import TxnEngine.KeepAlive.Registry

/-!
# The dispatcher, one deadline at a time

The deadlines are the dispatcher's own, but whether an id is still registered it has to ask, and in
between others register and unregister. Here the dispatcher takes one action for each deadline that
is due and one for each message to the workers. Run alone these are the dispatch of all that is due.

Results:
* `run_dispatching`: the actions run alone.
* `Deadlines.WellKept`: an id has one pending deadline if it is noted as scheduled, and none
  otherwise.
* `Deadlines.wellKept_schedule`, `Deadlines.wellKept_takeFirst`, `Deadlines.wellKept_drain`: this
  holds behind every action.
-/

namespace TxnEngine

theorem Deadline.insertSorted_perm (d : Deadline) (pending : List Deadline) :
    (d.insertSorted pending).Perm (d :: pending) := by
  induction pending with
  | nil => exact .refl _
  | cons e rest ih =>
    rw [insertSorted]
    split_ifs
    · exact .refl _
    · exact (ih.cons e).trans (.swap d e rest)

namespace Deadlines

/-- The ids of the pending deadlines. -/
def ids (d : Deadlines) : List TxnId :=
  d.pending.map Deadline.id

/-- Every pending deadline is noted, and no id has two. -/
structure WellKept (d : Deadlines) : Prop where
  once : d.ids.Nodup
  apart : d.scheduled.Nodup
  noted : ∀ id, id ∈ d.scheduled ↔ id ∈ d.ids

theorem wellKept_empty : WellKept empty :=
  ⟨List.nodup_nil, List.nodup_nil, fun _ => Iff.rfl⟩

theorem ids_insertSorted (due : Instant) (id : TxnId) (pending : List Deadline)
    (scheduled : List TxnId) :
    (ids ⟨Deadline.insertSorted ⟨due, id⟩ pending, scheduled⟩).Perm
      (id :: pending.map Deadline.id) :=
  (Deadline.insertSorted_perm ⟨due, id⟩ pending).map Deadline.id

/-- An id that is scheduled has its deadline from then on, and the other ids keep theirs. -/
theorem mem_ids_schedule {d : Deadlines} (h : d.WellKept) (id other : TxnId) (due : Instant) :
    other ∈ (d.schedule id due).2.ids ↔ other = id ∨ other ∈ d.ids := by
  unfold schedule
  split_ifs with hid
  · exact ⟨.inr, fun hother => hother.elim (fun heq => heq ▸ (h.noted id).mp hid) fun hmem => hmem⟩
  · exact (ids_insertSorted due id d.pending _).mem_iff.trans List.mem_cons

theorem wellKept_schedule {d : Deadlines} (h : d.WellKept) (id : TxnId) (due : Instant) :
    (d.schedule id due).2.WellKept := by
  have hmem := fun other => mem_ids_schedule h id other due
  unfold schedule at hmem ⊢
  split_ifs at hmem ⊢ with hid
  · exact h
  · refine ⟨?_, List.nodup_cons.mpr ⟨hid, h.apart⟩, fun other => ?_⟩
    · rw [(ids_insertSorted due id d.pending _).nodup_iff, List.nodup_cons]
      exact ⟨fun hpending => hid ((h.noted id).mpr hpending), h.once⟩
    · rw [hmem, List.mem_cons, h.noted]

/-- Looks at the earliest deadline. One that is due is taken off the front, and goes back one
interval ahead of `now` if its id is live. Answers the id, and whether it is live. -/
def takeFirst (now : Instant) (interval : Duration) (isLive : TxnId → Bool) (d : Deadlines) :
    Option (TxnId × Bool) × Deadlines :=
  match d.pending with
  | [] => (none, d)
  | first :: rest =>
    if now < first.due then (none, d)
    else if isLive first.id then
      (some (first.id, true),
        ⟨Deadline.insertSorted ⟨now + interval.nanos, first.id⟩ rest, d.scheduled⟩)
    else (some (first.id, false), ⟨rest, d.scheduled.erase first.id⟩)

/-- Taking the due deadlines is looking at the earliest one again and again. -/
theorem drain_succ (now : Instant) (interval : Duration) (isLive : TxnId → Bool) (fuel : Nat)
    (d : Deadlines) : drain now interval isLive (fuel + 1) d =
      match d.takeFirst now interval isLive with
      | (none, d) => ([], d)
      | (some (id, live), d) =>
        let (taken, d) := drain now interval isLive fuel d
        (if live then id :: taken else taken, d) := by
  rw [drain, takeFirst]
  cases d.pending with
  | nil => rfl
  | cons first rest =>
    simp only
    split_ifs <;> rfl

variable (now : Instant) (interval : Duration) (isLive : TxnId → Bool) {d : Deadlines}

/-- An id loses its deadline only if it is not live. -/
theorem mem_ids_takeFirst {id : TxnId} (hid : id ∈ d.ids) (hlive : isLive id = true) :
    id ∈ (d.takeFirst now interval isLive).2.ids := by
  obtain ⟨pending, scheduled⟩ := d
  cases pending with
  | nil => exact hid
  | cons first rest =>
    rw [takeFirst]
    simp only
    split_ifs with hdue hfirst
    · exact hid
    · exact (ids_insertSorted _ first.id rest scheduled).mem_iff.mpr hid
    · rcases List.mem_cons.mp hid with rfl | hrest
      · exact absurd hlive hfirst
      · exact hrest

theorem wellKept_takeFirst (h : d.WellKept) : (d.takeFirst now interval isLive).2.WellKept := by
  obtain ⟨pending, scheduled⟩ := d
  cases pending with
  | nil => exact h
  | cons first rest =>
    rw [takeFirst]
    simp only
    split_ifs with hdue hfirst
    · exact h
    · have hperm := ids_insertSorted (now + interval.nanos) first.id rest scheduled
      exact ⟨hperm.nodup_iff.mpr h.once, h.apart, fun id => (h.noted id).trans hperm.mem_iff.symm⟩
    · obtain ⟨hnot, hrest⟩ := List.nodup_cons.mp h.once
      refine ⟨hrest, h.apart.erase _, fun id => ?_⟩
      rw [h.apart.mem_erase_iff, h.noted]
      refine ⟨fun hid => (List.mem_cons.mp hid.2).resolve_left hid.1, fun hid => ?_⟩
      exact ⟨fun heq => hnot (heq ▸ hid), List.mem_cons_of_mem _ hid⟩

/-- The same holds of all deadlines that are due. -/
theorem wellKept_drain (h : d.WellKept) (fuel : Nat) :
    (d.drain now interval isLive fuel).2.WellKept ∧
      ∀ id ∈ d.ids, isLive id = true → id ∈ (d.drain now interval isLive fuel).2.ids := by
  induction fuel generalizing d with
  | zero => exact ⟨h, fun _ hid _ => hid⟩
  | succ fuel ih =>
    have hkept := wellKept_takeFirst now interval isLive h
    have hmem {id : TxnId} (hid : id ∈ d.ids) (hlive : isLive id = true) :
        id ∈ (d.takeFirst now interval isLive).2.ids :=
      mem_ids_takeFirst now interval isLive hid hlive
    rw [drain_succ]
    generalize d.takeFirst now interval isLive = looked at hkept hmem
    obtain ⟨_ | ⟨first, live⟩, d'⟩ := looked
    · exact ⟨hkept, fun _ => hmem⟩
    · obtain ⟨hrest, hkeeps⟩ := ih hkept
      exact ⟨hrest, fun id hid hlive => hkeeps id (hmem hid hlive) hlive⟩

end Deadlines

namespace KeepAlive

open Program

/-- The dispatcher looks at its earliest deadline. -/
def takeFirst (now : Instant) (k : KeepAlive) : Option (TxnId × Bool) × KeepAlive :=
  let (first, deadlines) := k.deadlines.takeFirst now k.interval k.isRegistered
  (first, { k with deadlines })

/-- The dispatcher looks at its deadlines until none is due, at most `fuel` times, and answers with
the live ids that were due. -/
def sweep (now : Instant) : (fuel : Nat) → Program KeepAlive (List TxnId)
  | 0 => return []
  | fuel + 1 => do
    match ← atomically (takeFirst now) with
    | none => return []
    | some (id, live) =>
      let taken ← sweep now fuel
      return if live then id :: taken else taken

/-- Sends an id to the workers. -/
def send (id : TxnId) : Program KeepAlive Unit :=
  Program.modify fun k => { k with work := k.work ++ [id] }

def sendAll : List TxnId → Program KeepAlive Unit
  | [] => return ()
  | id :: rest => do
    send id
    sendAll rest

/-- The dispatcher sends what is due to the workers, action by action. -/
def dispatching (now : Instant) : Program KeepAlive Unit := do
  let pending ← Program.read fun k => k.deadlines.pending.length
  let due ← sweep now (pending + 1)
  sendAll due

theorem run_sweep (now : Instant) (fuel : Nat) (k : KeepAlive) :
    (sweep now fuel).run k =
      ((k.deadlines.drain now k.interval k.isRegistered fuel).1,
        { k with deadlines := (k.deadlines.drain now k.interval k.isRegistered fuel).2 }) := by
  induction fuel generalizing k with
  | zero => rfl
  | succ fuel ih =>
    rw [sweep, run_bind, Deadlines.drain_succ]
    simp only [run_atomically, takeFirst]
    generalize k.deadlines.takeFirst now k.interval k.isRegistered = looked
    obtain ⟨_ | ⟨id, live⟩, deadlines⟩ := looked
    · rfl
    · simp only [run_bind, ih, run_pure]
      rfl

theorem run_sendAll (due : List TxnId) (k : KeepAlive) :
    (sendAll due).run k = ((), { k with work := k.work ++ due }) := by
  induction due generalizing k with
  | nil => simp [sendAll]
  | cons id rest ih =>
    rw [sendAll, run_bind, ih]
    simp [send]

/-- The dispatcher's actions, run alone, send what is due to the workers. -/
theorem run_dispatching (now : Instant) (k : KeepAlive) :
    (dispatching now).run k = ((), k.dispatch now) := by
  simp only [dispatching, run_bind, run_read, run_sweep, run_sendAll]
  rfl

end KeepAlive

end TxnEngine
