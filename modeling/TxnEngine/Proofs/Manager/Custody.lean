import Mathlib.Algebra.BigOperators.Group.Finset.Piecewise
import Mathlib.Algebra.Order.BigOperators.Group.Finset
import TxnEngine.Proofs.Concurrency.Teams
import TxnEngine.Proofs.Manager.Effects

/-!
# Transactions in the hands of a team

Every member of a team begins a transaction and ends it. As long as the log and the oracle do not
fail and the clock stands still, nobody gets in the way of anybody else: no two members draw the
same timestamp, so each has a record of its own, which does not expire and which it can commit or
roll back at any time.

Results:
* `Guarded`: transaction management in the hands of a team, and what each member holds of it.
* `Manager.abides_begin`: a member can begin a transaction.
* `Manager.abides_commit`, `Manager.abides_rollback`: it can end its transaction as it likes.
-/

namespace TxnEngine

open Program

namespace Log

variable {l : Log} (hs : l.Sound)

include hs

theorem create_of_sound {r : Record} (habsent : l.get? r.id = none) :
    (l.create r).1 = .ok () ∧ (l.create r).2.Sound ∧ Puts r l (l.create r).2 := by
  have hnew : l.records.has r.id = false := by
    rw [Table.has]
    rw [get?] at habsent
    rw [habsent]
    rfl
  obtain ⟨s, hpersist, hsound⟩ := persist_of_sound hs r
  rw [create, if_neg (by simp [hnew])]
  refine ⟨by rw [hpersist], hsound, .of_records ?_⟩
  rw [hpersist]

theorem transition_of_sound {id : TxnId} {r next : Record} {t : Transition}
    (hr : l.get? id = some r) (ha : r.apply t = .applied next) :
    (l.transition id t).1 = .ok (.applied next) ∧ (l.transition id t).2.Sound ∧
      Puts next l (l.transition id t).2 := by
  obtain ⟨s, hpersist, hsound⟩ := persist_of_sound hs next
  rw [transition_eq hr, Record.image?_of_applied ha]
  simp only [ha]
  refine ⟨by rw [hpersist]; rfl, hsound, .of_records ?_⟩
  rw [hpersist]

end Log

/-- What a member holds of transaction management. -/
inductive Custody where
  | waiting
  /-- It has drawn the timestamp under which it is going to begin. -/
  | drawn (id : TxnId)
  | live (id : TxnId)
  /-- It has drawn the timestamp at which it is going to commit. -/
  | closing (id : TxnId)
  | ended

namespace Custody

/-- How many timestamps the member is still going to draw at most. -/
def draws : Custody → Nat
  | waiting => 2
  | drawn _ | live _ => 1
  | closing _ | ended => 0

/-- The id that is the member's own. -/
def id? : Custody → Option TxnId
  | drawn id | live id | closing id => some id
  | waiting | ended => none

/-- The record under that id, if it is there. -/
def record? (now : Millis) : Custody → Option Record
  | live id | closing id => some (.start id.beginTs now false)
  | waiting | drawn _ | ended => none

end Custody

/-- Transaction management in the hands of the first `members` of a team, whose ids begin with
`first`, at the time `now`. -/
structure Guarded (members first : Nat) (now : Millis) (K : Nat → Custody) (m : Manager) :
    Prop where
  clock : m.clock.now = now
  sound : m.log.Sound
  unrefused : m.oracle.refusals = []
  room : m.oracle.next.val.toNat + ∑ j ∈ Finset.range members, (K j).draws < UInt64.size
  begun : first ≤ m.oracle.next.val.toNat
  unborn : ∀ id : TxnId, m.oracle.next.val.toNat ≤ id.val.toNat → m.log.get? id = none
  held : ∀ j id, (K j).id? = some id →
    first ≤ id.val.toNat ∧ id.val.toNat < m.oracle.next.val.toNat
  record : ∀ j id, (K j).id? = some id → m.log.get? id = (K j).record? now
  apart : ∀ j j' id, (K j).id? = some id → (K j').id? = some id → j = j'

namespace Guarded

variable {members first : Nat} {now : Millis} {K : Nat → Custody} {m : Manager} {i : Nat}

/-- What the members are still going to draw changes by what one of them is. -/
theorem sum_update (hi : i < members) (k : Custody) :
    ∑ j ∈ Finset.range members, (Function.update K i k j).draws + (K i).draws =
      ∑ j ∈ Finset.range members, (K j).draws + k.draws := by
  have hmem : i ∈ Finset.range members := Finset.mem_range.mpr hi
  have hupdate : ∀ j ∈ Finset.range members, (Function.update K i k j).draws =
      Function.update (fun j => (K j).draws) i k.draws j := fun j _ =>
    Function.apply_update (fun _ => Custody.draws) K i k j
  rw [Finset.sum_congr rfl hupdate, Finset.sum_update_of_mem hmem,
    Finset.sdiff_singleton_eq_erase, ← Finset.add_sum_erase _ (fun j => (K j).draws) hmem]
  omega

/-- Whatever leaves the log, the oracle and the clock alone is nobody's concern. -/
theorem of_leads {m' : Manager} (hleads : Manager.silence.leads m m')
    (h : Guarded members first now K m) : Guarded members first now K m' := by
  obtain ⟨hlog, horacle, hclock, -⟩ := hleads
  obtain ⟨hnow, hsound, hunrefused, hroom, hfirst, hunborn, hheld, hrecord, hapart⟩ := h
  rw [← hclock] at hnow
  rw [← horacle] at hunrefused hroom hfirst hunborn hheld
  rw [← hlog] at hsound hunborn hrecord
  exact ⟨hnow, hsound, hunrefused, hroom, hfirst, hunborn, hheld, hrecord, hapart⟩

/-- There is a timestamp left to draw while a member is going to draw one. -/
theorem toNat_next (h : Guarded members first now K m) (hi : i < members) (hdraws : 0 < (K i).draws) :
    m.oracle.next.next.val.toNat = m.oracle.next.val.toNat + 1 := by
  have hlt : m.oracle.next.val.toNat + 1 < UInt64.size := by
    have hle := Finset.single_le_sum (f := fun j => (K j).draws) (fun _ _ => Nat.zero_le _)
      (Finset.mem_range.mpr hi)
    have hroom := h.room
    omega
  rw [Timestamp.next, UInt64.toNat_add]
  exact Nat.mod_eq_of_lt hlt

/-- A member that draws a timestamp has it as a new id, and all others have the ids that they had. -/
theorem id?_update_cases {k : Custody} {next : Timestamp} (hid : k = .drawn (.ofBegin next) ∨
      k.id? = (K i).id? ∧ k.record? now = (K i).record? now) {j : Nat} {id : TxnId}
    (hj : (Function.update K i k j).id? = some id) :
    (j = i ∧ k = .drawn id ∧ id = .ofBegin next) ∨
      (K j).id? = some id ∧ (Function.update K i k j).record? now = (K j).record? now := by
  by_cases hij : j = i
  · subst hij
    rw [Function.update_self] at hj ⊢
    rcases hid with rfl | ⟨hid, hrecord⟩
    · obtain rfl := Option.some.inj hj
      exact .inl ⟨rfl, rfl, rfl⟩
    · exact .inr ⟨hid ▸ hj, hrecord⟩
  · rw [Function.update_of_ne hij] at hj ⊢
    exact .inr ⟨hj, rfl⟩

/-- A member draws a timestamp, which is its id from now on or leaves it with the id that it has. -/
theorem draw (h : Guarded members first now K m) (hi : i < members) {k : Custody}
    (hdraws : k.draws < (K i).draws)
    (hid : k = .drawn (.ofBegin m.oracle.next) ∨
      k.id? = (K i).id? ∧ k.record? now = (K i).record? now) :
    m.oracle.draw.1 = .ok m.oracle.next ∧
      Guarded members first now (Function.update K i k) { m with oracle := m.oracle.draw.2 } := by
  have hdraw : m.oracle.draw = (.ok m.oracle.next, { m.oracle with next := m.oracle.next.next }) := by
    unfold Oracle.draw
    simp only [h.unrefused]
  have hsum := sum_update (K := K) hi k
  have hroom := h.room
  have hnext := h.toNat_next hi (Nat.zero_lt_of_lt hdraws)
  have hcases {j : Nat} {id : TxnId} := @id?_update_cases now K i k m.oracle.next hid j id
  have hnew {j : Nat} {id : TxnId} (hj : (K j).id? = some id) : id ≠ .ofBegin m.oracle.next := by
    rintro rfl
    exact Nat.lt_irrefl _ (h.held j _ hj).2
  rw [hdraw]
  refine ⟨rfl, h.clock, h.sound, h.unrefused, ?_, ?_, fun id hle => ?_, fun j id hj => ?_,
    fun j id hj => ?_, fun j j' id hj hj' => ?_⟩
  · simp only [hnext]
    omega
  · simp only [hnext]
    exact Nat.le_succ_of_le h.begun
  · simp only [hnext] at hle
    exact h.unborn id (by omega)
  · simp only [hnext]
    rcases hcases hj with ⟨-, -, rfl⟩ | ⟨hj, -⟩
    · exact ⟨h.begun, Nat.lt_succ_self _⟩
    · exact ⟨(h.held j id hj).1, Nat.lt_succ_of_lt (h.held j id hj).2⟩
  · rcases hcases hj with ⟨rfl, rfl, rfl⟩ | ⟨hj, hrecord⟩
    · rw [Function.update_self]
      exact h.unborn _ (Nat.le_refl _)
    · rw [hrecord]
      exact h.record j id hj
  · rcases hcases hj with ⟨hself, -, hid⟩ | ⟨hj, -⟩ <;>
      rcases hcases hj' with ⟨hself', -, hid'⟩ | ⟨hj', -⟩
    · rw [hself, hself']
    · exact absurd hid (hnew hj')
    · exact absurd hid' (hnew hj)
    · exact h.apart j j' id hj hj'

/-- A member changes its record. -/
theorem put (h : Guarded members first now K m) (hi : i < members) {id : TxnId}
    (hk : (K i).id? = some id) {k : Custody} (hdraws : k.draws ≤ (K i).draws) {r : Record}
    (hr : r.id = id) (hid : k.id? = none ∨ k.id? = some id ∧ k.record? now = some r) {log : Log}
    (hsound : log.Sound) (hputs : Log.Puts r m.log log) :
    Guarded members first now (Function.update K i k) { m with log } := by
  have hsum := sum_update (K := K) hi k
  have hroom := h.room
  have hcases {j : Nat} {other : TxnId} (hj : (Function.update K i k j).id? = some other) :
      (K j).id? = some other ∧ (j = i ∧ other = id ∧ k.record? now = some r ∨
        j ≠ i ∧ Function.update K i k j = K j) := by
    by_cases hij : j = i
    · subst hij
      rw [Function.update_self] at hj ⊢
      rcases hid with hnone | ⟨hsome, hrecord⟩
      · rw [hnone] at hj
        cases hj
      · obtain rfl : id = other := Option.some.inj (hsome.symm.trans hj)
        exact ⟨hk, .inl ⟨rfl, rfl, hrecord⟩⟩
    · rw [Function.update_of_ne hij] at hj ⊢
      exact ⟨hj, .inr ⟨hij, rfl⟩⟩
  refine ⟨h.clock, hsound, h.unrefused, ?_, h.begun, fun other hle => ?_,
    fun j other hj => h.held j other (hcases hj).1, fun j other hj => ?_,
    fun j j' other hj hj' => h.apart j j' other (hcases hj).1 (hcases hj').1⟩
  · change m.oracle.next.val.toNat + _ < _
    omega
  · rw [hputs.get?_of_ne]
    · exact h.unborn other hle
    · rintro rfl
      have hlt := (h.held i _ (hr ▸ hk)).2
      exact Nat.lt_irrefl _ (Nat.lt_of_lt_of_le hlt hle)
  · obtain ⟨hj', ⟨rfl, rfl, hrecord⟩ | ⟨hij, hsame⟩⟩ := hcases hj
    · rw [Function.update_self, hrecord, ← hr]
      exact hputs.get?
    · rw [hsame, hputs.get?_of_ne]
      · exact h.record j other hj'
      · rintro rfl
        exact hij (h.apart j i _ hj' (hr ▸ hk))

end Guarded

namespace Manager

variable {members first : Nat} {now : Millis} {i : Nat}

theorem abides_of_silent {α : Type} {p : Program Manager α} (hp : p.Acts silence.leads)
    (k : Custody) : p.Abides (Guarded members first now) i (fun _ l => l = k) k :=
  .of_acts (fun _ _ _ hleads h => h.of_leads hleads) hp

/-- Keeping books on the running transactions is nobody's concern. -/
theorem abides_of_quiet {α : Type} {p : Program Manager α} (hp : Quiet p) (k : Custody) :
    p.Abides (Guarded members first now) i (fun _ l => l = k) k := by
  refine abides_of_silent (hp.mono fun m m' hcore => ?_) k
  simp only [core, Core.mk.injEq] at hcore
  obtain ⟨hlog, -, horacle, hclock, htimeout⟩ := hcore
  exact ⟨hlog, horacle, hclock, htimeout⟩

theorem abides_track (id : TxnId) (k : Custody) :
    (track id).Abides (Guarded members first now) i (fun _ l => l = k) k :=
  .bind_of_same (abides_of_silent (.atomically fun _ => ⟨rfl, rfl, rfl, rfl⟩) k) fun _ =>
    abides_of_quiet (quiet_onKeepAlive _) k

theorem abides_untrack (id : TxnId) (k : Custody) :
    (untrack id).Abides (Guarded members first now) i (fun _ l => l = k) k :=
  .bind_of_same (abides_of_silent (.atomically fun _ => ⟨rfl, rfl, rfl, rfl⟩) k) fun _ =>
    abides_of_quiet (quiet_onKeepAlive _) k

theorem abides_readClock (k : Custody) :
    readClock.Abides (Guarded members first now) i (fun read l => read = now ∧ l = k) k :=
  .read fun _ _ h _ => ⟨h.clock, rfl⟩

variable (hi : i < members)

include hi

/-- A member can begin a transaction. -/
theorem abides_begin :
    begin.Abides (Guarded members first now) i
      (fun answer l => ∃ id, answer = .ok (.new id false) ∧ l = .live id) .waiting := by
  unfold begin
  have hdraw : drawTimestamp.Abides (Guarded members first now) i
      (fun answer l => ∃ ts, answer = .ok ts ∧ l = .drawn (.ofBegin ts)) .waiting := by
    intro K m h hk
    obtain ⟨hanswer, h'⟩ := h.draw hi (k := .drawn (.ofBegin m.oracle.next))
      (by rw [hk]; exact Nat.lt_succ_self 1) (.inl rfl)
    exact ⟨_, h', _, hanswer, rfl⟩
  refine .bind hdraw ?_
  rintro _ _ ⟨ts, rfl, rfl⟩
  refine .bind_of_known (abides_readClock _) ?_
  have hcreate : (createRecord (.start ts now false)).Abides (Guarded members first now) i
      (fun answer l => answer = .ok () ∧ l = .live (.ofBegin ts)) (.drawn (.ofBegin ts)) := by
    intro K m h hk
    have hid : (K i).id? = some (.ofBegin ts) := by
      rw [hk]
      rfl
    have habsent := h.record i _ hid
    rw [hk] at habsent
    obtain ⟨hok, hsound, hputs⟩ := Log.create_of_sound h.sound (r := .start ts now false) habsent
    refine ⟨.live (.ofBegin ts), h.put hi hid (by rw [hk]; rfl) rfl ?_ hsound hputs, hok, rfl⟩
    exact .inr ⟨rfl, rfl⟩
  refine .bind_of_known hcreate ?_
  refine .bind_of_same (abides_track _ _) fun _ => ?_
  refine .bind_of_same (abides_of_quiet (quiet_count _) _) fun _ => ?_
  exact .pure ⟨_, rfl, rfl⟩

/-- What a member asks of its record is granted, and ends its transaction. -/
theorem abides_transition {id : TxnId} {k : Custody} (hid : k.id? = some id)
    (hrecord : k.record? now = some (.start id.beginTs now false)) {t : Transition} {next : Record}
    (hnext : next.id = id) (happly : (Record.start id.beginTs now false).apply t = .applied next) :
    (transition id t).Abides (Guarded members first now) i
      (fun answer l => answer = .ok (.applied next) ∧ l = .ended) k := by
  rintro K m h rfl
  have hr := h.record i id hid
  rw [hrecord] at hr
  obtain ⟨hok, hsound, hputs⟩ := Log.transition_of_sound h.sound hr happly
  exact ⟨.ended, h.put hi hid (Nat.zero_le _) hnext (.inl rfl) hsound hputs, hok, rfl⟩

/-- A member can commit its transaction. -/
theorem abides_commit (id : TxnId) :
    (commit (.new id false)).Abides (Guarded members first now) i
      (fun answer _ => ∃ ts, answer.1 = .ok ts) (.live id) := by
  unfold commit
  have hdraw : drawTimestamp.Abides (Guarded members first now) i
      (fun answer l => (∃ ts, answer = .ok ts) ∧ l = .closing id) (.live id) := by
    intro K m h hk
    obtain ⟨hanswer, h'⟩ := h.draw hi (k := .closing id) (by rw [hk]; exact Nat.zero_lt_one)
      (.inr ⟨by rw [hk]; rfl, by rw [hk]; rfl⟩)
    exact ⟨_, h', ⟨_, hanswer⟩, rfl⟩
  refine .bind hdraw ?_
  rintro _ _ ⟨⟨ts, rfl⟩, rfl⟩
  refine .bind_of_known (abides_readClock _) ?_
  refine .bind_of_same (abides_of_quiet (quiet_read _) _) fun timeout => ?_
  have happly : (Record.start id.beginTs now false).apply (.commit ts now timeout) =
      .applied { Record.start id.beginTs now false with
        state := .committed, commitTs := some ts } := by
    simp [Record.apply, Record.start, Record.isExpired, Record.idleTime]
  refine .bind_of_known (abides_transition hi (t := .commit ts now timeout) rfl rfl rfl happly) ?_
  refine .bind_of_same (abides_untrack _ _) fun _ => ?_
  refine .bind_of_same (abides_of_quiet (quiet_remember _) _) fun _ => ?_
  refine .bind_of_same (abides_of_quiet (quiet_count _) _) fun _ => ?_
  exact .pure ⟨ts, rfl⟩

/-- A member can roll its transaction back. -/
theorem abides_rollback (id : TxnId) :
    (rollback (.new id false)).Abides (Guarded members first now) i
      (fun answer _ => answer.1 = .ok ()) (.live id) := by
  unfold rollback
  have happly : (Record.start id.beginTs now false).apply .rollback =
      .applied { Record.start id.beginTs now false with state := .rolledBack } := rfl
  refine .bind_of_known (abides_transition hi (t := .rollback) rfl rfl rfl happly) ?_
  refine .bind_of_same (abides_untrack _ _) fun _ => ?_
  refine .bind_of_same (abides_of_quiet (quiet_remember _) _) fun _ => ?_
  refine .bind_of_same (abides_of_quiet (quiet_count _) _) fun _ => ?_
  exact .pure rfl

end Manager

end TxnEngine
