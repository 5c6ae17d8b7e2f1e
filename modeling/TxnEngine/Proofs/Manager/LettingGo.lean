import TxnEngine.Proofs.Manager.Composition
import TxnEngine.Proofs.Manager.Effects

/-!
# Letting a transaction go

Whoever ends a transaction takes its id out of the active ones and out of the registered ones. That
is done behind the answer of the log: if the log does not answer, the transaction is left as it was,
still active, and still kept alive if it was. Once it was let go it does not come back: only a
beginning or an elevation registers an id, and then it has just been given its record.

Results:
* `parts_commit`, `parts_rollback`, `parts_fail`: how an attempt to end a transaction leaves it.
* `composed_letGo`: what was let go stays so, if nothing begins and nothing is elevated.
* `composed_unattended`, `unattended_begin`, `unattended_elevate`: an id that has its record is not
  registered again.
-/

namespace TxnEngine

/-- Who keeps to an invariant, whatever states it leads to. -/
def Discipline.ofInvariant {σ : Type} (I : σ → Prop) : Discipline σ where
  holds := I
  leads := fun _ _ => True
  refl := fun _ => trivial
  trans := fun _ _ => trivial

namespace Program

variable {σ α : Type} {I : σ → Prop}

theorem alone_ofInvariant {action : σ → α × σ} (h : ∀ s, I s → I (action s).2) :
    (atomically action).Alone (.ofInvariant I) :=
  .atomically fun s hs => ⟨h s hs, trivial⟩

end Program

namespace Log

/-- The log does not answer the request. -/
def Refuses (l : Log) (id : TxnId) (request : Transition) : Prop :=
  ∃ cause, (l.transition id request).1 = .error cause

theorem Puts.get?_ne_none {l l' : Log} {r : Record} (h : Puts r l l') {id : TxnId}
    (hid : l.get? id ≠ none) : l'.get? id ≠ none := by
  rw [h]
  split_ifs
  · exact Option.some_ne_none r
  · exact hid

/-- A request takes no record away. -/
theorem get?_transition_ne_none {l : Log} {id : TxnId} (h : l.get? id ≠ none) (other : TxnId)
    (t : Transition) : (l.transition other t).2.get? id ≠ none := by
  rcases records_after l (.transition other t) with hsame | ⟨image, -, hput⟩
  · rw [← (Same.of_records hsame) id] at h
    exact h
  · exact (Puts.of_records hput).get?_ne_none h

end Log

namespace Manager

open Program

/-! ## What was let go -/

/-- The transaction is neither active nor registered. -/
structure LetGo (id : TxnId) (m : Manager) : Prop where
  inactive : id ∉ m.active
  unregistered : id ∉ m.keepAlive.registered

theorem mem_discard {id other : TxnId} {k : KeepAlive} :
    other ∈ (k.discard id).registered ↔ other ≠ id ∧ other ∈ k.registered := by
  rw [KeepAlive.discard, List.mem_filter, decide_eq_true_eq, and_comm]

theorem registered_takeWork (k : KeepAlive) : k.takeWork.2.registered = k.registered := by
  unfold KeepAlive.takeWork
  split <;> rfl

/-- What ends, observes and renews transactions leaves alone what was let go. -/
theorem composed_letGo (id : TxnId) : Composed fun _ p => p.Alone (.ofInvariant (LetGo id)) where
  pure := .pure
  bind := .bind
  read := fun _ => alone_ofInvariant fun _ h => h
  drawTimestamp := alone_ofInvariant fun _ h => ⟨h.inactive, h.unregistered⟩
  transition := fun _ _ => alone_ofInvariant fun _ h => ⟨h.inactive, h.unregistered⟩
  cached := fun _ => alone_ofInvariant fun _ h => ⟨h.inactive, h.unregistered⟩
  remember := fun _ => alone_ofInvariant fun _ h => ⟨h.inactive, h.unregistered⟩
  count := fun _ => alone_ofInvariant fun _ h => ⟨h.inactive, h.unregistered⟩
  leave := fun _ => alone_ofInvariant fun _ h =>
    ⟨fun hid => h.inactive (List.mem_filter.mp hid).1, h.unregistered⟩
  unregister := fun _ => alone_ofInvariant fun _ h =>
    ⟨h.inactive, fun hid => h.unregistered (mem_discard.mp hid).2⟩
  takeWork := alone_ofInvariant fun m h =>
    ⟨h.inactive, fun hid => h.unregistered (registered_takeWork m.keepAlive ▸ hid)⟩

/-- A program goes on where the transaction has just been let go. -/
theorem letGo_untrack {α : Type} {post : α → Manager → Prop} {id : TxnId}
    {q : Unit → Program Manager α} {m : Manager}
    (h : ∀ m', LetGo id m' → (q ()).Yields post m') : (untrack id >>= q).Yields post m := by
  unfold Yields
  rw [run_bind]
  refine h _ ⟨fun hid => ?_, fun hid => ?_⟩
  · exact absurd rfl (of_decide_eq_true (List.mem_filter.mp hid).2)
  · exact (mem_discard.mp hid).1 rfl

/-- A program goes on where nothing has become of what was let go. -/
theorem letGo_behind {α β : Type} {post : β → Manager → Prop} {id : TxnId} {p : Program Manager α}
    {q : α → Program Manager β} {m : Manager} (hp : p.Alone (.ofInvariant (LetGo id)))
    (hm : LetGo id m) (h : ∀ a m', LetGo id m' → (q a).Yields post m') :
    (p >>= q).Yields post m :=
  .bind hp hm fun a m' hm' _ => h a m' hm'

/-! ## Attempts to end a transaction -/

/-- How an attempt to end a transaction leaves it. -/
inductive Parts (refusal : Prop) (m : Manager) (t : Transaction) : Transaction → Manager → Prop
  /-- The attempt is refused: all is as it was. -/
  | stays (m' : Manager) (refused : refusal) (active : m'.active = m.active)
      (keepAlive : m'.keepAlive = m.keepAlive) : Parts refusal m t t m'
  /-- The transaction is ended and let go. -/
  | goes (t' : Transaction) (m' : Manager) (granted : ¬ refusal) (ended : t'.isActive = false)
      (letGo : LetGo t.id m') : Parts refusal m t t' m'

namespace Parts

variable {refusal : Prop} {m m' : Manager} {t t' : Transaction} (h : Parts refusal m t t' m')
include h

/-- Who has ended a transaction has let it go. -/
theorem letGo_of_ended (hactive : t.isActive = true) (hended : t'.isActive = false) :
    LetGo t.id m' := by
  cases h with
  | stays =>
    rw [hactive] at hended
    cases hended
  | goes _ _ _ _ letGo => exact letGo

/-- The transaction is let go, unless the attempt is refused. Then it is if it was before. -/
theorem letGo_iff : LetGo t.id m' ↔ (refusal → LetGo t.id m) := by
  cases h with
  | stays _ refused active keepAlive =>
    refine ⟨fun h _ => ?_, fun h => ?_⟩
    · exact ⟨active ▸ h.inactive, keepAlive ▸ h.unregistered⟩
    · exact ⟨active ▸ (h refused).inactive, keepAlive ▸ (h refused).unregistered⟩
  | goes _ _ granted _ letGo => exact ⟨fun _ refused => absurd refused granted, fun _ => letGo⟩

end Parts

section Endings

variable (m : Manager) {t : Transaction} (hactive : t.isActive = true)
  (hpersisted : t.isPersisted = true)

/-- A commit is refused: no timestamp can be drawn, or the log does not answer. -/
def RefusesCommit (m : Manager) (t : Transaction) : Prop :=
  ∀ ts, m.oracle.draw.1 = .ok ts → m.log.Refuses t.id (.commit ts m.clock.now m.timeout)

include hactive hpersisted

theorem parts_commit : (commit t).Yields
    (fun answer m' => Parts (RefusesCommit m t) m t answer.2 m') m := by
  have hrest := composed_letGo t.id
  unfold commit drawTimestamp transition
  simp only [hactive, hpersisted, Bool.not_true, Bool.false_eq_true, if_false]
  refine .atomically_bind ?_
  cases hdraw : m.oracle.draw.1 with
  | error e => exact .pure (.stays _ (fun ts h => by rw [hdraw] at h; cases h) rfl rfl)
  | ok ts =>
    refine .atomically_bind (.atomically_bind (.atomically_bind ?_))
    simp only
    cases hanswer : (m.log.transition t.id (.commit ts m.clock.now m.timeout)).1 with
    | error e =>
      refine .pure (.stays _ (fun ts' h => ?_) rfl rfl)
      obtain rfl := Except.ok.inj (hdraw.symm.trans h)
      exact ⟨e, hanswer⟩
    | ok outcome =>
      have hgranted : ¬ RefusesCommit m t := fun h => by
        obtain ⟨e, he⟩ := h ts hdraw
        rw [hanswer] at he
        cases he
      cases outcome <;>
        exact letGo_untrack fun _ h => letGo_behind (hrest.remember _) h fun _ _ h =>
          letGo_behind (hrest.count _) h fun _ u h => .pure (.goes _ u hgranted rfl h)

theorem parts_rollback : (rollback t).Yields
    (fun answer m' => Parts (m.log.Refuses t.id .rollback) m t answer.2 m') m := by
  have hrest := composed_letGo t.id
  have hphase : t.phase = .active := by simpa [Transaction.isActive] using hactive
  unfold rollback transition
  simp only [hphase, hpersisted, Bool.not_true, Bool.false_eq_true, if_false]
  refine .atomically_bind ?_
  cases hanswer : (m.log.transition t.id .rollback).1 with
  | error e => exact .pure (.stays _ ⟨e, hanswer⟩ rfl rfl)
  | ok outcome =>
    have hgranted : ¬ m.log.Refuses t.id .rollback := by
      rintro ⟨e, he⟩
      rw [hanswer] at he
      cases he
    refine letGo_untrack fun _ h => letGo_behind (hrest.remember _) h fun _ v h => ?_
    cases outcome with
    | unchanged r => exact .pure (.goes _ v hgranted rfl h)
    | applied r | rejected r =>
      exact letGo_behind (hrest.count _) h fun _ w h => .pure (.goes _ w hgranted rfl h)

theorem parts_fail : (fail t).Yields
    (fun answer m' => Parts (m.log.Refuses t.id .fail) m t answer.2 m') m := by
  have hrest := composed_letGo t.id
  unfold fail transition
  simp only [hactive, hpersisted, Bool.not_true, Bool.false_eq_true, if_false]
  refine .atomically_bind ?_
  simp only
  cases hanswer : (m.log.transition t.id .fail).1 with
  | error e => exact .pure (.stays _ ⟨e, hanswer⟩ rfl rfl)
  | ok outcome =>
    have hgranted : ¬ m.log.Refuses t.id .fail := by
      rintro ⟨e, he⟩
      rw [hanswer] at he
      cases he
    refine letGo_untrack fun _ h => letGo_behind (hrest.remember _) h fun _ v h => ?_
    cases outcome with
    | applied r =>
      exact letGo_behind (hrest.count _) h fun _ w h => .pure (.goes _ w hgranted rfl h)
    | unchanged r | rejected r => exact .pure (.goes _ v hgranted rfl h)

end Endings

/-- A transaction that has its record is not elevated. -/
theorem run_elevate_of_persisted {t : Transaction} (h : t.isPersisted = true) (m : Manager) :
    ((elevate t).run m).1.2 = t ∧ ((elevate t).run m).2 = m := by
  unfold elevate
  split_ifs <;> exact ⟨rfl, rfl⟩

/-! ## Nobody is registered that has its record -/

/-- The transaction has its record, and is not registered. -/
structure Unattended (id : TxnId) (m : Manager) : Prop where
  recorded : m.log.get? id ≠ none
  unregistered : id ∉ m.keepAlive.registered

theorem composed_unattended (id : TxnId) :
    Composed fun _ p => p.Alone (.ofInvariant (Unattended id)) where
  pure := .pure
  bind := .bind
  read := fun _ => alone_ofInvariant fun _ h => h
  drawTimestamp := alone_ofInvariant fun _ h => ⟨h.recorded, h.unregistered⟩
  transition := fun other t => alone_ofInvariant fun _ h =>
    ⟨Log.get?_transition_ne_none h.recorded other t, h.unregistered⟩
  cached := fun _ => alone_ofInvariant fun _ h => ⟨h.recorded, h.unregistered⟩
  remember := fun _ => alone_ofInvariant fun _ h => ⟨h.recorded, h.unregistered⟩
  count := fun _ => alone_ofInvariant fun _ h => ⟨h.recorded, h.unregistered⟩
  leave := fun _ => alone_ofInvariant fun _ h => ⟨h.recorded, h.unregistered⟩
  unregister := fun _ => alone_ofInvariant fun _ h =>
    ⟨h.recorded, fun hid => h.unregistered (mem_discard.mp hid).2⟩
  takeWork := alone_ofInvariant fun m h =>
    ⟨h.recorded, fun hid => h.unregistered (registered_takeWork m.keepAlive ▸ hid)⟩

theorem unattended_track {id other : TxnId} (hother : id ≠ other) :
    (track other).Alone (.ofInvariant (Unattended id)) := by
  have hregister : (KeepAlive.register other).Alone (.ofInvariant fun k => id ∉ k.registered) := by
    unfold KeepAlive.register
    refine .bind (alone_ofInvariant fun k h => ?_) fun isNew => ?_
    · unfold KeepAlive.enlist
      split_ifs
      · exact h
      · exact fun hid => h ((List.mem_cons.mp hid).resolve_left hother)
    · split_ifs
      · refine .bind (alone_ofInvariant fun k h => ?_) fun isTaken => ?_
        · unfold KeepAlive.announce
          split_ifs <;> exact h
        · split_ifs
          · exact .pure _
          · exact alone_ofInvariant fun k h hid => h (mem_discard.mp hid).2
      · exact .pure _
  unfold track enter
  refine .bind (alone_ofInvariant fun m h => ⟨h.recorded, h.unregistered⟩) fun _ m hm => ?_
  rw [run_onKeepAlive]
  exact ⟨⟨hm.recorded, (hregister m.keepAlive hm.unregistered).1⟩, trivial⟩

/-- Only an id without a record is given one, and then tracked. -/
theorem unattended_createRecord {id : TxnId} {r : Record} {α : Type}
    {q : Except Error Unit → Program Manager α}
    (herror : ∀ e, (q (.error e)).Alone (.ofInvariant (Unattended id)))
    (hok : id ≠ r.id → (q (.ok ())).Alone (.ofInvariant (Unattended id))) :
    (createRecord r >>= q).Alone (.ofInvariant (Unattended id)) := by
  intro m hm
  unfold createRecord
  rw [run_bind, run_atomically]
  simp only
  rcases m.log.create_puts r with ⟨e, he, hsame⟩ | ⟨he, habsent, hputs⟩ <;> rw [he]
  · exact herror e _ ⟨(hsame id).symm ▸ hm.recorded, hm.unregistered⟩
  · exact hok (fun hid => hm.recorded (hid ▸ habsent)) _
      ⟨hputs.get?_ne_none hm.recorded, hm.unregistered⟩

theorem unattended_begin (id : TxnId) : begin.Alone (.ofInvariant (Unattended id)) := by
  have hparts := composed_unattended id
  unfold begin
  refine .bind hparts.drawTimestamp fun answer => ?_
  cases answer with
  | error e => exact .pure _
  | ok ts =>
    refine .bind (hparts.read _) fun now => unattended_createRecord (fun _ => .pure _) fun hid => ?_
    exact .bind (unattended_track hid) fun _ => .bind (hparts.count _) fun _ => .pure _

theorem unattended_beginReadOnly (id : TxnId) :
    beginReadOnly.Alone (.ofInvariant (Unattended id)) := by
  have hparts := composed_unattended id
  unfold beginReadOnly
  refine .bind hparts.drawTimestamp fun answer => ?_
  cases answer with
  | error e => exact .pure _
  | ok ts =>
    refine .bind (alone_ofInvariant fun m h => ⟨h.recorded, h.unregistered⟩) fun _ => ?_
    exact .bind (hparts.count _) fun _ => .pure _

theorem unattended_elevate (id : TxnId) (t : Transaction) :
    (elevate t).Alone (.ofInvariant (Unattended id)) := by
  have hparts := composed_unattended id
  unfold elevate
  split_ifs
  · exact .pure _
  · exact .pure _
  · refine .bind (hparts.read _) fun now => unattended_createRecord (fun _ => .pure _) fun hid => ?_
    exact .bind (unattended_track hid) fun _ => .pure _

end Manager

end TxnEngine
