import TxnEngine.Proofs.Manager.SnapshotIsolation

/-!
# Who owns a record

A record is created for one transaction that is held, and the log refuses to create a second one
under the same id. So every record that was created in a session is that of one transaction, and only
a commit of that transaction can commit it, whatever ids the oracle hands out.

Results:
* `Rightful`: every transaction that is held is the only one with its record.
* `rightful_of_step`, `rightful_run`: this stays so behind every request.
-/

namespace TxnEngine

namespace Manager

namespace Session

/-- What holds of the transactions that are held: one that may write has a record, which is there and
is no other one's, and which has no commit timestamp unless the transaction is committed. -/
structure Rightful (s : Session) : Prop where
  writes : ∀ t ∈ s.held, t.readOnly = false → t.isPersisted = true
  recorded : ∀ t ∈ s.held, t.isPersisted = true → s.manager.log.get? t.id ≠ none
  single : ∀ {i j : Nat} {t u : Transaction}, s.held[i]? = some t → s.held[j]? = some u →
    t.isPersisted = true → u.isPersisted = true → t.id = u.id → i = j
  uncommitted : ∀ t ∈ s.held, t.isPersisted = true → t.phase ≠ .committed →
    s.manager.log.commitTs? t.id = none

/-- A session in which no transaction is held yet. -/
theorem rightful_of_nil {s : Session} (h : s.held = []) : s.Rightful := by
  refine ⟨?_, ?_, ?_, ?_⟩ <;> rw [h] <;> nofun

/-- A session in which one of the transactions is held alone. -/
theorem Rightful.singleton {s : Session} (hs : s.Rightful) {t : Transaction} (ht : t ∈ s.held) :
    Rightful ⟨s.manager, [t]⟩ := by
  have hmem {u : Transaction} (hu : u ∈ [t]) : u ∈ s.held := List.mem_singleton.mp hu ▸ ht
  refine ⟨fun u hu => hs.writes u (hmem hu), fun u hu => hs.recorded u (hmem hu),
    fun {i j u v} hu hv _ _ _ => ?_, fun u hu => hs.uncommitted u (hmem hu)⟩
  have hi := (List.getElem?_eq_some_iff.mp hu).1
  have hj := (List.getElem?_eq_some_iff.mp hv).1
  rw [List.length_singleton] at hi hj
  omega

/-- Who is held behind a transaction that comes back to its owner. -/
theorem getElem?_set_cases {held : List Transaction} {k i : Nat} {t u : Transaction}
    (h : (held.set k t)[i]? = some u) : i = k ∧ u = t ∨ i ≠ k ∧ held[i]? = some u := by
  by_cases hik : i = k
  · subst hik
    have hi : i < held.length := by simpa using (List.getElem?_eq_some_iff.mp h).1
    rw [List.getElem?_set_self hi] at h
    exact .inl ⟨rfl, (Option.some.inj h).symm⟩
  · rw [List.getElem?_set_ne (Ne.symm hik)] at h
    exact .inr ⟨hik, h⟩

/-- Who is held behind a transaction that begins. -/
theorem getElem?_concat_cases {held : List Transaction} {i : Nat} {t u : Transaction}
    (h : (held ++ [t])[i]? = some u) : i = held.length ∧ u = t ∨ held[i]? = some u := by
  by_cases hi : i < held.length
  · rw [List.getElem?_append_left hi] at h
    exact .inr h
  · rw [List.getElem?_append_right (Nat.not_lt.mp hi)] at h
    obtain ⟨hzero, heq⟩ := List.getElem?_eq_some_iff.mp h
    rw [List.length_singleton] at hzero
    exact .inl ⟨by omega, by simpa using heq.symm⟩

section Steps

variable {s : Session} (hs : s.Rightful) {m : Manager}
  (hstays : ∀ id, s.manager.log.get? id ≠ none → m.log.get? id ≠ none)

include hs hstays

/-- A transaction comes back. The others keep their records and their commit timestamps, and it has
the record that it had, or a new one. -/
theorem Rightful.set {k : Nat} {t t' : Transaction} (ht : s.held[k]? = some t) (hid : t'.id = t.id)
    (hwrites : t'.readOnly = false → t'.isPersisted = true)
    (hrecord : t'.isPersisted = true →
      t.isPersisted = true ∨ s.manager.log.get? t.id = none ∧ m.log.get? t.id ≠ none)
    (hself : t'.isPersisted = true → t'.phase ≠ .committed → m.log.commitTs? t.id = none)
    (hothers : ∀ id, (t.isPersisted = true → id ≠ t.id) →
      m.log.commitTs? id = s.manager.log.commitTs? id) : Rightful ⟨m, s.held.set k t'⟩ := by
  -- no other one has the record that the transaction had, or has now
  have hother {i : Nat} {u : Transaction} (hu : s.held[i]? = some u) (hik : i ≠ k)
      (hpersisted : u.isPersisted = true) (hpersisted' : t'.isPersisted = true) : u.id ≠ t.id := by
    intro hsame
    rcases hrecord hpersisted' with hbefore | ⟨habsent, -⟩
    · exact hik (hs.single hu ht hpersisted hbefore hsame)
    · exact hs.recorded u (List.mem_of_getElem? hu) hpersisted (hsame ▸ habsent)
  have hmem : t ∈ s.held := List.mem_of_getElem? ht
  refine ⟨fun u hu hw => ?_, fun u hu hp => ?_, fun {i j u v} hu hv hp hq hsame => ?_,
    fun u hu hp hphase => ?_⟩
  · rcases List.mem_or_eq_of_mem_set hu with hu | rfl
    · exact hs.writes u hu hw
    · exact hwrites hw
  · rcases List.mem_or_eq_of_mem_set hu with hu | rfl
    · exact hstays u.id (hs.recorded u hu hp)
    · rw [hid]
      rcases hrecord hp with hbefore | ⟨-, hpresent⟩
      · exact hstays t.id (hs.recorded t hmem hbefore)
      · exact hpresent
  · rcases getElem?_set_cases hu with ⟨rfl, rfl⟩ | ⟨hik, hu'⟩ <;>
      rcases getElem?_set_cases hv with ⟨rfl, rfl⟩ | ⟨hjk, hv'⟩
    · rfl
    · exact absurd (hsame.symm.trans hid) (hother hv' hjk hq hp)
    · exact absurd (hsame.trans hid) (hother hu' hik hp hq)
    · exact hs.single hu' hv' hp hq hsame
  · obtain ⟨i, hi⟩ := List.mem_iff_getElem?.mp hu
    rcases getElem?_set_cases hi with ⟨rfl, rfl⟩ | ⟨hik, hi⟩
    · rw [hid]
      exact hself hp hphase
    · rw [hothers u.id fun hbefore hsame => hik (hs.single hi ht hp hbefore hsame)]
      exact hs.uncommitted u (List.mem_of_getElem? hi) hp hphase

/-- A transaction begins, with a new record or without one. -/
theorem Rightful.concat {t : Transaction} (hwrites : t.readOnly = false → t.isPersisted = true)
    (hrecord : t.isPersisted = true →
      s.manager.log.get? t.id = none ∧ m.log.get? t.id ≠ none)
    (hcommits : ∀ id, m.log.commitTs? id = s.manager.log.commitTs? id) :
    Rightful ⟨m, s.held ++ [t]⟩ := by
  have hother {u : Transaction} (hu : u ∈ s.held) (hpersisted : u.isPersisted = true)
      (hpersisted' : t.isPersisted = true) : u.id ≠ t.id := fun hsame =>
    hs.recorded u hu hpersisted (hsame ▸ (hrecord hpersisted').1)
  refine ⟨fun u hu hw => ?_, fun u hu hp => ?_, fun {i j u v} hu hv hp hq hsame => ?_,
    fun u hu hp hphase => ?_⟩
  · rcases List.mem_append.mp hu with hu | hu
    · exact hs.writes u hu hw
    · obtain rfl := List.mem_singleton.mp hu
      exact hwrites hw
  · rcases List.mem_append.mp hu with hu | hu
    · exact hstays u.id (hs.recorded u hu hp)
    · obtain rfl := List.mem_singleton.mp hu
      exact (hrecord hp).2
  · rcases getElem?_concat_cases hu with ⟨rfl, rfl⟩ | hu' <;>
      rcases getElem?_concat_cases hv with ⟨rfl, rfl⟩ | hv'
    · rfl
    · exact absurd hsame.symm (hother (List.mem_of_getElem? hv') hq hp)
    · exact absurd hsame (hother (List.mem_of_getElem? hu') hp hq)
    · exact hs.single hu' hv' hp hq hsame
  · rw [hcommits]
    rcases List.mem_append.mp hu with hu | hu
    · exact hs.uncommitted u hu hp hphase
    · obtain rfl := List.mem_singleton.mp hu
      rw [Log.commitTs?, (hrecord hp).1]
      rfl

end Steps

/-- Every request leaves the records with their owners. -/
theorem rightful_of_step {s s' : Session} (hs : s.Rightful) {request : Request}
    {reply : Option Reply} (h : Step s request reply s')
    (hpreserves : Preserves s.manager s'.manager) : s'.Rightful := by
  have hstays (id : TxnId) (hsome : s.manager.log.get? id ≠ none) :
      s'.manager.log.get? id ≠ none := by
    obtain ⟨r, hr⟩ := Option.ne_none_iff_exists'.mp hsome
    obtain ⟨r', hr', -⟩ := hpreserves id r hr
    rw [hr']
    exact Option.some_ne_none r'
  cases h with
  | idle _ m still =>
    refine ⟨hs.writes, fun t ht hp => hstays t.id (hs.recorded t ht hp), hs.single,
      fun t ht hp hphase => ?_⟩
    rw [still.commits]
    exact hs.uncommitted t ht hp hphase
  | began t m opens id next adds bare creates writes =>
    exact hs.concat hstays writes (fun hp => ⟨(creates hp).absent, (creates hp).present⟩)
      adds.commits
  | returned k t t' reply m held succeeds adds bare creates =>
    have hmem : t ∈ s.held := List.mem_of_getElem? held
    have hrecord (hp : t'.isPersisted = true) : t.isPersisted = true ∨
        s.manager.log.get? t.id = none ∧ m.log.get? t.id ≠ none := by
      cases hbefore : t.isPersisted with
      | true => exact .inl rfl
      | false => exact .inr ⟨(creates hbefore hp).absent, (creates hbefore hp).present⟩
    refine hs.set hstays held succeeds.id_eq (succeeds.writes (hs.writes t hmem)) hrecord
      (fun hp hphase => ?_) fun id _ => adds.commits id
    rw [adds.commits]
    rcases hrecord hp with hbefore | ⟨habsent, -⟩
    · refine hs.uncommitted t hmem hbefore ?_
      rcases succeeds with rfl | ⟨hactive, -⟩
      · exact hphase
      · have hrunning : t.phase = .active := by simpa [Transaction.isActive] using hactive
        rw [hrunning]
        decide
    · rw [Log.commitTs?, habsent]
      rfl
  | closed k t m commits held active bare still =>
    exact hs.set hstays held rfl (hs.writes t (List.mem_of_getElem? held)) .inl
      (fun hp => absurd (hp.symm.trans bare) (by decide)) fun id _ => still.commits id
  | committed k t m commits held active persisted next log =>
    refine hs.set hstays held rfl (hs.writes t (List.mem_of_getElem? held)) .inl
      (fun _ hphase => absurd rfl hphase) fun id hother => ?_
    rw [log.commits, if_neg (hother persisted)]

theorem rightful_run {s : Session} (hs : s.manager.Coherent) (h : s.Rightful)
    (requests : List Request) : (s.run requests).Rightful := by
  induction requests generalizing s with
  | nil => exact h
  | cons request requests ih =>
    obtain ⟨hcoherent, hpreserves⟩ := coherent_step hs request
    exact ih hcoherent (rightful_of_step h (step_spec hs.valid request) hpreserves)

end Session

end Manager

end TxnEngine
