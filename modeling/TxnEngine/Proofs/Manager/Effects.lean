import TxnEngine.Proofs.Manager.Abandonment

/-!
# What a request does

What an operation that runs alone does to the records, to the ids that are active and to its own
transaction. A call that fails leaves the records alone, and one that is answered puts the record it
is answered with in the place of the one before. So there are few things that a request can do, and
each of them changes one record at most.

Results:
* `Log.transition_cases`, `Log.create_puts`: what one call does to the records.
* `ending_commit`, `ending_rollback`, `ending_fail`: how a transaction is ended by its owner.
* `yields_settle`, `yields_renew`: how it is ended behind its owner's back.
* `effect_step`: all that a request does.
-/

namespace TxnEngine

namespace Log

/-! ## What a call does to the records -/

/-- The records are the same. -/
def Same (l l' : Log) : Prop :=
  ∀ id, l'.get? id = l.get? id

/-- The record is put into the log, and the others are the same. -/
def Puts (r : Record) (l l' : Log) : Prop :=
  ∀ id, l'.get? id = if id = r.id then some r else l.get? id

theorem Same.of_records {l l' : Log} (h : l'.records = l.records) : Same l l' := fun id => by
  rw [get?, h, get?]

theorem Same.refl (l : Log) : Same l l :=
  .of_records rfl

theorem Puts.of_records {l l' : Log} {r : Record} (h : l'.records = l.records.insert r.id r) :
    Puts r l l' := fun id => by
  rw [get?, h]
  split_ifs with hid
  · rw [hid, Table.find?_insert_self]
  · exact Table.find?_insert_of_ne _ _ (Ne.symm hid)

theorem Puts.get? {l l' : Log} {r : Record} (h : Puts r l l') : l'.get? r.id = some r := by
  rw [h, if_pos rfl]

theorem Puts.get?_of_ne {l l' : Log} {r : Record} (h : Puts r l l') {id : TxnId}
    (hid : id ≠ r.id) : l'.get? id = l.get? id := by
  rw [h, if_neg hid]

/-- A record that stands in its place already is the same. -/
theorem Puts.of_same {l : Log} {r : Record} (h : l.get? r.id = some r) : Puts r l l := fun id => by
  split_ifs with hid
  · rw [hid, h]
  · rfl

/-- A record is created that was not there, or nothing changes. -/
theorem create_puts (l : Log) (r : Record) :
    (∃ e, (l.create r).1 = .error e ∧ Same l (l.create r).2) ∨
      (l.create r).1 = .ok () ∧ l.get? r.id = none ∧ Puts r l (l.create r).2 := by
  rw [create]
  split_ifs with hhas
  · exact .inl ⟨_, rfl, .refl l⟩
  have habsent : l.get? r.id = none := by
    rw [Log.get?]
    simpa [Table.has] using hhas
  rcases records_persist l r with ⟨e, herror, hsame⟩ | ⟨hok, hput⟩
  · exact .inl ⟨e, herror, .of_records hsame⟩
  · exact .inr ⟨hok, habsent, .of_records hput⟩

/-- A request is answered with the record that it leaves, or changes nothing. -/
theorem transition_cases {l : Log} (hv : Valid l.records) (id : TxnId) (t : Transition) :
    (∃ e, (l.transition id t).1 = .error e ∧ Same l (l.transition id t).2) ∨
      ∃ r, l.get? id = some r ∧ (l.transition id t).1 = .ok (r.apply t) ∧
        (r.apply t).record.id = id ∧ Puts (r.apply t).record l (l.transition id t).2 := by
  cases hr : l.get? id with
  | none => exact .inl ⟨_, by rw [transition, hr], by simpa [transition, hr] using .refl l⟩
  | some r =>
    obtain ⟨hid, hc⟩ := hv id r hr
    have hrecord := Record.record_apply r t
    rw [transition_eq hr]
    cases hi : r.image? t with
    | none =>
      rw [hi, Option.getD_none] at hrecord
      exact .inr ⟨r, rfl, rfl, by rw [hrecord, hid], .of_same (by rw [hrecord, hid, hr])⟩
    | some next =>
      rw [hi, Option.getD_some] at hrecord
      rcases records_persist l next with ⟨e, herror, hkept⟩ | ⟨hok, hput⟩
      · exact .inl ⟨e, by simp only [herror]; rfl, .of_records hkept⟩
      · refine .inr ⟨r, rfl, by simp only [hok]; rfl, ?_, ?_⟩ <;> rw [hrecord]
        · exact (Record.image?_keeps hi hc).1.trans hid
        · exact .of_records hput

end Log

/-- A request that the owner of a transaction makes to end it. -/
def Transition.Ends : Transition → Prop
  | .commit _ _ _ | .rollback | .fail => True
  | .keepAlive _ _ | .abandon _ _ => False

/-- The transaction in its owner's hands behind the answer to a request to end it. -/
def Transaction.decided (t : Transaction) : Transition → TransitionOutcome → Transaction
  | .commit ts _ _, .applied _ => t.committedAt ts
  | _, _ => t.abort

section

variable (t : Transaction) (request : Transition) (outcome : TransitionOutcome)

@[simp]
theorem Transaction.id_decided : (t.decided request outcome).id = t.id := by
  unfold decided
  split <;> rfl

@[simp]
theorem Transaction.readOnly_decided : (t.decided request outcome).readOnly = t.readOnly := by
  unfold decided
  split <;> rfl

@[simp]
theorem Transaction.isPersisted_decided :
    (t.decided request outcome).isPersisted = t.isPersisted := by
  unfold decided
  split <;> rfl

theorem Transaction.phase_decided : (t.decided request outcome).phase ≠ .active := by
  unfold decided
  split <;> nofun

end

namespace Manager

open Program

/-! ## What an operation does -/

/-- The id becomes active. -/
def Enters (id : TxnId) (m m' : Manager) : Prop :=
  m'.active = if id ∈ m.active then m.active else id :: m.active

/-- The id is active no longer. -/
def Leaves (id : TxnId) (m m' : Manager) : Prop :=
  m'.active = m.active.filter (· ≠ id)

/-- Neither the records nor the active ids change. -/
structure Unmoved (m m' : Manager) : Prop where
  same : m.log.Same m'.log
  active : m'.active = m.active

theorem Enters.mem_iff {id other : TxnId} {m m' : Manager} (h : Enters id m m') :
    other ∈ m'.active ↔ other = id ∨ other ∈ m.active := by
  rw [h]
  split_ifs with hid
  · exact ⟨.inr, fun hother => hother.elim (fun heq => heq ▸ hid) fun hmem => hmem⟩
  · exact List.mem_cons

theorem Enters.nodup {id : TxnId} {m m' : Manager} (h : Enters id m m') (hm : m.active.Nodup) :
    m'.active.Nodup := by
  rw [h]
  split_ifs with hid
  · exact hm
  · exact List.nodup_cons.mpr ⟨hid, hm⟩

theorem Leaves.mem_iff {id other : TxnId} {m m' : Manager} (h : Leaves id m m') :
    other ∈ m'.active ↔ other ≠ id ∧ other ∈ m.active := by
  rw [h, List.mem_filter, decide_eq_true_eq, and_comm]

theorem Leaves.nodup {id : TxnId} {m m' : Manager} (h : Leaves id m m') (hm : m.active.Nodup) :
    m'.active.Nodup := by
  rw [h]
  exact hm.filter _

theorem Unmoved.refl (m : Manager) : Unmoved m m :=
  ⟨.refl _, rfl⟩

theorem unmoved_of_core {m m' : Manager} (h : m'.core = m.core) : Unmoved m m' :=
  ⟨.of_records (congrArg (fun c => c.log.records) h), congrArg Core.active h⟩

theorem core_track (id : TxnId) (m : Manager) : ((track id).run m).2.core =
    { m.core with active := if id ∈ m.active then m.active else id :: m.active } := by
  rw [track, run_bind, (quiet_onKeepAlive _).run]
  rfl

theorem core_untrack (id : TxnId) (m : Manager) : ((untrack id).run m).2.core =
    { m.core with active := m.active.filter (· ≠ id) } := by
  rw [untrack, run_bind, (quiet_onKeepAlive _).run]
  rfl

theorem Quiet.yields {α : Type} {post : α → Manager → Prop} {p : Program Manager α} {m : Manager}
    (hp : Quiet p) (h : ∀ a m', m'.core = m.core → post a m') : p.Yields post m :=
  h _ _ (hp.run m)

/-- A program goes on where one that is quiet has left the core. -/
theorem yields_quiet {α β : Type} {post : β → Manager → Prop} {p : Program Manager α}
    {q : α → Program Manager β} {m : Manager} (hp : Quiet p)
    (h : ∀ a m', m'.core = m.core → (q a).Yields post m') : (p >>= q).Yields post m := by
  unfold Yields
  rw [run_bind]
  exact h _ _ (hp.run m)

theorem yields_track {β : Type} {post : β → Manager → Prop} {id : TxnId}
    {q : Unit → Program Manager β} {m : Manager}
    (h : ∀ m', m'.core = { m.core with active := if id ∈ m.active then m.active else id :: m.active } →
      (q ()).Yields post m') : (track id >>= q).Yields post m := by
  unfold Yields
  rw [run_bind]
  exact h _ (core_track id m)

theorem yields_untrack {β : Type} {post : β → Manager → Prop} {id : TxnId}
    {q : Unit → Program Manager β} {m : Manager}
    (h : ∀ m', m'.core = { m.core with active := m.active.filter (· ≠ id) } →
      (q ()).Yields post m') : (untrack id >>= q).Yields post m := by
  unfold Yields
  rw [run_bind]
  exact h _ (core_untrack id m)

/-- A program goes on with the record of the log that it has looked up. -/
theorem yields_lookup {β : Type} {post : β → Manager → Prop} {id : TxnId}
    {q : Except Error Record → Program Manager β} {m : Manager} (hm : m.Coherent)
    (h : ∀ m', m'.core = m.core → (q (m.retrieve id)).Yields post m') :
    (lookup id >>= q).Yields post m := by
  unfold Yields
  rw [run_bind, (run_lookup hm id).1]
  exact h _ ((quiet_lookup id).run m)

/-! ## Ending a transaction -/

/-- All that an operation does by which the owner of a transaction ends it. -/
inductive Ending (m : Manager) (t : Transaction) : Transaction → Manager → Prop
  /-- It is refused. -/
  | refused (m' : Manager) (unmoved : Unmoved m m') : Ending m t t m'
  /-- It ends a transaction that has no record. -/
  | released (t' : Transaction) (m' : Manager) (isActive : t.isActive = true)
      (bare : t.isPersisted = false) (same : m.log.Same m'.log) (leaves : Leaves t.id m m')
      (owner : t' = t.abort ∨ t' = t.committedAt t.snapshot) : Ending m t t' m'
  /-- The record decides on it. -/
  | decided (r : Record) (request : Transition) (t' : Transaction) (m' : Manager)
      (isActive : t.isActive = true) (persisted : t.isPersisted = true) (ends : request.Ends)
      (get : m.log.get? t.id = some r) (id : (r.apply request).record.id = t.id)
      (puts : m.log.Puts (r.apply request).record m'.log) (leaves : Leaves t.id m m')
      (owner : t' = t.decided request (r.apply request)) : Ending m t t' m'

section Endings

variable {m : Manager} (hm : Log.Valid m.log.records) (t : Transaction)

include hm

/-- What the owner puts to the record, and what the record answers, when nothing else is done but to
let the transaction go. -/
theorem ending_of_answer (request : Transition) {m' : Manager} {t' : Transaction} {r : Record}
    {oracle : Oracle} (isActive : t.isActive = true) (persisted : t.isPersisted = true)
    (ends : request.Ends) (hr : m.log.get? t.id = some r)
    (hanswer : (m.log.transition t.id request).1 = .ok (r.apply request))
    (hcore : m'.core = { m.core with
      log := (m.log.transition t.id request).2
      active := m.active.filter (· ≠ t.id)
      oracle })
    (owner : t' = t.decided request (r.apply request)) : Ending m t t' m' := by
  rcases Log.transition_cases hm t.id request with ⟨e, herror, -⟩ | ⟨r', hr', -, hid, hputs⟩
  · rw [herror] at hanswer
    cases hanswer
  · obtain rfl := Option.some.inj (hr.symm.trans hr')
    refine .decided r request t' m' isActive persisted ends hr hid ?_ (congrArg Core.active hcore)
      owner
    rw [show m'.log = _ from congrArg Core.log hcore]
    exact hputs

theorem ending_commit :
    (commit t).Yields (fun answer m' => Ending m t answer.2 m') m := by
  unfold commit drawTimestamp readClock transition
  split_ifs with hactive hpersisted
  · exact .pure (.refused m (.refl m))
  · refine yields_untrack fun u hu => yields_quiet (quiet_count _) fun _ v hv => ?_
    have hcore := hv.trans hu
    exact .pure (.released _ v (by simpa using hactive) (by simpa using hpersisted)
      (.of_records (congrArg (fun c => c.log.records) hcore)) (congrArg Core.active hcore) (.inr rfl))
  · refine .atomically_bind ?_
    cases m.oracle.draw.1 with
    | error e => exact .pure (.refused _ ⟨.refl _, rfl⟩)
    | ok ts =>
      refine .atomically_bind (.atomically_bind (.atomically_bind ?_))
      rcases Log.transition_cases hm t.id (.commit ts m.clock.now m.timeout) with
        ⟨e, herror, hsame⟩ | ⟨r, hr, hok, -⟩
      · simp only [herror]
        exact .pure (.refused _ ⟨hsame, rfl⟩)
      simp only [hok]
      cases ha : r.apply (.commit ts m.clock.now m.timeout) with
      | applied made | unchanged made | rejected made =>
        refine yields_untrack fun u hu => yields_quiet (quiet_remember _) fun _ v hv =>
          yields_quiet (quiet_count _) fun _ w hw => .pure ?_
        exact ending_of_answer hm t (.commit ts m.clock.now m.timeout) (by simpa using hactive)
          (by simpa using hpersisted) trivial hr hok (hw.trans (hv.trans hu)) (by rw [ha]; rfl)

theorem ending_rollback :
    (rollback t).Yields (fun answer m' => Ending m t answer.2 m') m := by
  unfold rollback transition
  cases hphase : t.phase with
  | aborted | committed => exact .pure (.refused m (.refl m))
  | active =>
    have hactive : t.isActive = true := by simp [Transaction.isActive, hphase]
    simp only
    split_ifs with hpersisted
    · refine yields_untrack fun u hu => ?_
      exact .pure (.released _ u hactive (by simpa using hpersisted)
        (.of_records (congrArg (fun c => c.log.records) hu)) (congrArg Core.active hu) (.inl rfl))
    · refine .atomically_bind ?_
      rcases Log.transition_cases hm t.id .rollback with ⟨e, herror, hsame⟩ | ⟨r, hr, hok, -⟩
      · simp only [herror]
        exact .pure (.refused _ ⟨hsame, rfl⟩)
      have hending {m' : Manager} (hcore : m'.core = { m.core with
          log := (m.log.transition t.id .rollback).2
          active := m.active.filter (· ≠ t.id) }) : Ending m t t.abort m' :=
        ending_of_answer hm t .rollback hactive (by simpa using hpersisted) trivial hr hok hcore rfl
      simp only [hok]
      refine yields_untrack fun u hu => yields_quiet (quiet_remember _) fun _ v hv => ?_
      cases r.apply .rollback with
      | applied made | rejected made =>
        exact yields_quiet (quiet_count _) fun _ w hw => .pure (hending (hw.trans (hv.trans hu)))
      | unchanged made => exact .pure (hending (hv.trans hu))

theorem ending_fail :
    (fail t).Yields (fun answer m' => Ending m t answer.2 m') m := by
  unfold fail transition
  split_ifs with hactive hpersisted
  · exact .pure (.refused m (.refl m))
  · refine yields_untrack fun u hu => ?_
    exact .pure (.released _ u (by simpa using hactive) (by simpa using hpersisted)
      (.of_records (congrArg (fun c => c.log.records) hu)) (congrArg Core.active hu) (.inl rfl))
  · refine .atomically_bind ?_
    rcases Log.transition_cases hm t.id .fail with ⟨e, herror, hsame⟩ | ⟨r, hr, hok, -⟩
    · simp only [herror]
      exact .pure (.refused _ ⟨hsame, rfl⟩)
    have hending {m' : Manager} (hcore : m'.core = { m.core with
        log := (m.log.transition t.id .fail).2
        active := m.active.filter (· ≠ t.id) }) : Ending m t t.abort m' :=
      ending_of_answer hm t .fail (by simpa using hactive) (by simpa using hpersisted) trivial hr hok
        hcore rfl
    simp only [hok]
    refine yields_untrack fun u hu => yields_quiet (quiet_remember _) fun _ v hv => ?_
    cases r.apply .fail with
    | applied made =>
      exact yields_quiet (quiet_count _) fun _ w hw => .pure (hending (hw.trans (hv.trans hu)))
    | unchanged made | rejected made => exact .pure (hending (hv.trans hu))

end Endings

/-! ## Beginning a transaction -/

theorem creates_begin (m : Manager) : begin.Yields (fun answer m' =>
    (∃ e, answer = .error e ∧ Unmoved m m') ∨
      answer = .ok (.new (.ofBegin m.oracle.next) false) ∧
        m.log.get? (.ofBegin m.oracle.next) = none ∧
        m.log.Puts (.start m.oracle.next m.clock.now false) m'.log ∧
        Enters (.ofBegin m.oracle.next) m m') m := by
  unfold begin drawTimestamp readClock createRecord
  refine .atomically_bind ?_
  cases hdraw : m.oracle.draw.1 with
  | error e => exact .pure (.inl ⟨e, rfl, .refl _, rfl⟩)
  | ok ts =>
    obtain ⟨rfl, -⟩ := draw_eq_ok hdraw
    refine .atomically_bind (.atomically_bind ?_)
    rcases m.log.create_puts (.start m.oracle.next m.clock.now false) with
      ⟨e, herror, hsame⟩ | ⟨hok, habsent, hputs⟩
    · simp only [herror]
      exact .pure (.inl ⟨e, rfl, hsame, rfl⟩)
    · simp only [hok]
      refine yields_track fun u hu => yields_quiet (quiet_count _) fun _ v hv => ?_
      have hcore := hv.trans hu
      refine .pure (.inr ⟨rfl, habsent, ?_, congrArg Core.active hcore⟩)
      rw [show v.log = _ from congrArg Core.log hcore]
      exact hputs

theorem enters_beginReadOnly (m : Manager) : beginReadOnly.Yields (fun answer m' =>
    (∃ e, answer = .error e ∧ Unmoved m m') ∨
      answer = .ok (.new (.ofBegin m.oracle.next) true) ∧ m.log.Same m'.log ∧
        Enters (.ofBegin m.oracle.next) m m') m := by
  unfold beginReadOnly drawTimestamp
  refine .atomically_bind ?_
  cases hdraw : m.oracle.draw.1 with
  | error e => exact .pure (.inl ⟨e, rfl, .refl _, rfl⟩)
  | ok ts =>
    obtain ⟨rfl, -⟩ := draw_eq_ok hdraw
    exact .inr ⟨rfl, .refl _, rfl⟩

theorem creates_elevate (m : Manager) (t : Transaction) : (elevate t).Yields (fun answer m' =>
    answer.2 = t ∧ Unmoved m m' ∨
      (t.isActive = true ∧ t.isPersisted = false) ∧ answer.2 = t.elevated ∧
        m.log.get? t.id = none ∧ m.log.Puts (.start t.snapshot m.clock.now true) m'.log ∧
        Enters t.id m m') m := by
  unfold elevate readClock createRecord
  split_ifs with hactive hpersisted
  · exact .pure (.inl ⟨rfl, .refl m⟩)
  · exact .pure (.inl ⟨rfl, .refl m⟩)
  · refine .atomically_bind (.atomically_bind ?_)
    rcases m.log.create_puts (.start t.snapshot m.clock.now true) with
      ⟨e, herror, hsame⟩ | ⟨hok, habsent, hputs⟩
    · simp only [herror]
      exact .pure (.inl ⟨rfl, hsame, rfl⟩)
    · simp only [hok]
      refine yields_track fun u hu => .pure (.inr ⟨⟨by simpa using hactive, by simpa using hpersisted⟩,
        rfl, habsent, ?_, congrArg Core.active hu⟩)
      rw [show u.log = _ from congrArg Core.log hu]
      exact hputs

/-! ## Ending a transaction behind its owner's back -/

theorem status_eq_abandoned_iff {r : Record} {now timeout : Millis} :
    r.status now timeout = .abandoned ↔ r.isExpired now timeout = true := by
  cases hs : r.state with
  | active => by_cases he : r.isExpired now timeout = true <;> simp [Record.status, hs, he]
  | committed => cases hts : r.commitTs <;> simp [Record.status, Record.isExpired, hs, hts]
  | rolledBack | error => simp [Record.status, Record.isExpired, hs]

/-- An expired record is rolled back, and its transaction is let go. -/
theorem yields_settle {m : Manager} (hm : m.Coherent) (id : TxnId) :
    (settle id).Yields (fun _ m' => Unmoved m m' ∨
      ∃ r, m.log.get? id = some r ∧ r.isExpired m.clock.now m.timeout = true ∧
        m.log.Puts { r with state := .rolledBack } m'.log ∧ Leaves id m m') m := by
  unfold settle readClock transition
  refine .atomically_bind (yields_lookup hm fun u hu => ?_)
  have hlog : u.log = m.log := congrArg Core.log hu
  have htimeout : u.timeout = m.timeout := congrArg Core.timeout hu
  cases hr : m.log.get? id with
  | none =>
    simp only [retrieve, hr]
    exact .pure (.inl (unmoved_of_core hu))
  | some r =>
    simp only [retrieve, hr]
    refine .atomically_bind ?_
    simp only [htimeout]
    split_ifs with hlive
    · exact .pure (.inl (unmoved_of_core hu))
    have hexpired : r.isExpired m.clock.now m.timeout = true := by
      rw [← status_eq_abandoned_iff]
      simpa using hlive
    have ha : r.apply (.abandon m.clock.now m.timeout) = .applied { r with state := .rolledBack } := by
      simp [Record.apply, Record.state_of_isExpired hexpired, hexpired]
    refine .atomically_bind ?_
    simp only [hlog]
    rcases Log.transition_cases hm.valid id (.abandon m.clock.now m.timeout) with
      ⟨e, herror, hsame⟩ | ⟨r', hr', hok, -, hputs⟩
    · simp only [herror]
      exact .pure (.inl ⟨hsame, congrArg Core.active hu⟩)
    · obtain rfl := Option.some.inj (hr.symm.trans hr')
      rw [ha] at hok hputs
      simp only [hok]
      refine yields_quiet (quiet_count _) fun _ v hv => yields_untrack fun w hw =>
        yields_quiet (quiet_remember _) fun _ x hx => .pure (.inr ⟨r, rfl, hexpired, ?_, ?_⟩)
      · have hlogx : x.log = v.log := congrArg Core.log (hx.trans hw)
        rw [hlogx, show v.log = _ from congrArg Core.log hv]
        exact hputs
      · have hactive : v.active = m.active := (congrArg Core.active hv).trans (congrArg Core.active hu)
        rw [Leaves, ← hactive]
        exact congrArg Core.active (hx.trans hw)

/-- What a renewal of the transaction does: the record answers, and the transaction stays active
whatever the answer is. -/
structure Renewal (id : TxnId) (m m' : Manager) : Prop where
  active : m'.active = m.active
  log : m.log.Same m'.log ∨ ∃ r, m.log.get? id = some r ∧
    (r.apply (.keepAlive m.clock.now m.timeout)).record.id = id ∧
    m.log.Puts (r.apply (.keepAlive m.clock.now m.timeout)).record m'.log

theorem yields_renew {m : Manager} (hm : Log.Valid m.log.records) (id : TxnId) :
    (renew id).Yields (fun _ m' => Renewal id m m') m := by
  unfold renew readClock transition
  refine .atomically_bind (.atomically_bind ?_)
  split_ifs
  · refine (quiet_count _).yields fun _ u hu => ?_
    have hunmoved := unmoved_of_core hu
    exact ⟨hunmoved.active, .inl hunmoved.same⟩
  refine .atomically_bind (.atomically_bind ?_)
  -- what follows on the answer of the record is quiet
  have hquiet {p : Program Manager Unit} (hp : Quiet p) : p.Yields (fun _ m' => Renewal id m m')
      { m with log := (m.log.transition id (.keepAlive m.clock.now m.timeout)).2 } := by
    refine hp.yields fun _ u hu => ⟨congrArg Core.active hu, ?_⟩
    rw [show u.log = _ from congrArg Core.log hu]
    rcases Log.transition_cases hm id (.keepAlive m.clock.now m.timeout) with
      ⟨e, -, hsame⟩ | ⟨r, hr, -, hid, hputs⟩
    · exact .inl hsame
    · exact .inr ⟨r, hr, hid, hputs⟩
  split
  · exact hquiet (quiet_count _)
  · exact hquiet (.pure _)
  · exact hquiet (quiet_onKeepAlive _)
  · exact hquiet (quiet_onKeepAlive _)
  · exact hquiet (quiet_count _)

theorem yields_work {m : Manager} (hm : Log.Valid m.log.records) :
    work.Yields (fun _ m' => ∃ id, Renewal id m m') m := by
  have hidle (m' : Manager) (hcore : m'.core = m.core) : ∃ id, Renewal id m m' := by
    have hunmoved := unmoved_of_core hcore
    exact ⟨default, hunmoved.active, .inl hunmoved.same⟩
  unfold work
  refine yields_quiet (quiet_onKeepAlive _) fun due u hu => ?_
  cases due with
  | none => exact .pure (hidle u hu)
  | some id =>
    refine .atomically_bind ?_
    split_ifs
    · simp only [core, Core.mk.injEq] at hu
      obtain ⟨hlog, hactive, -, hclock, htimeout⟩ := hu
      obtain ⟨hstays, hrecord⟩ := yields_renew (hlog ▸ hm) id
      rw [hlog, hclock, htimeout] at hrecord
      exact ⟨id, hstays.trans hactive, hrecord⟩
    · exact .pure (hidle u hu)

/-! ## What a request does -/

/-- The request can have the record of the transaction renewed. -/
def Request.Renews (id : TxnId) (request : Request) : Prop :=
  request = .renew id ∨ request = .work

namespace Session

/-- All that a request does to the records, to the active ids and to the transactions that are
held. -/
inductive Effect (s : Session) (request : Request) : Session → Prop
  /-- Nothing of that. -/
  | unmoved (m : Manager) (unmoved : Unmoved s.manager m) : Effect s request ⟨m, s.held⟩
  /-- A transaction begins, with a record. -/
  | created (m : Manager) (absent : s.manager.log.get? (.ofBegin s.manager.oracle.next) = none)
      (puts : s.manager.log.Puts (.start s.manager.oracle.next s.manager.clock.now false) m.log)
      (enters : Enters (.ofBegin s.manager.oracle.next) s.manager m) :
      Effect s request ⟨m, s.held ++ [.new (.ofBegin s.manager.oracle.next) false]⟩
  /-- A transaction begins that only reads. -/
  | opened (m : Manager) (same : s.manager.log.Same m.log)
      (enters : Enters (.ofBegin s.manager.oracle.next) s.manager m) :
      Effect s request ⟨m, s.held ++ [.new (.ofBegin s.manager.oracle.next) true]⟩
  /-- A transaction that only reads is given a record. -/
  | elevated (k : Nat) (t : Transaction) (m : Manager) (held : s.held[k]? = some t)
      (isActive : t.isActive = true) (bare : t.isPersisted = false)
      (absent : s.manager.log.get? t.id = none)
      (puts : s.manager.log.Puts (.start t.snapshot s.manager.clock.now true) m.log)
      (enters : Enters t.id s.manager m) : Effect s request ⟨m, s.held.set k t.elevated⟩
  /-- A transaction is ended by its owner. -/
  | ended (k : Nat) (t t' : Transaction) (m : Manager) (held : s.held[k]? = some t)
      (ending : Ending s.manager t t' m) : Effect s request ⟨m, s.held.set k t'⟩
  /-- A transaction whose record has expired is settled. -/
  | settled (id : TxnId) (r : Record) (m : Manager) (settles : request = .settle id)
      (get : s.manager.log.get? id = some r)
      (expired : r.isExpired s.manager.clock.now s.manager.timeout = true)
      (puts : s.manager.log.Puts { r with state := .rolledBack } m.log)
      (leaves : Leaves id s.manager m) : Effect s request ⟨m, s.held⟩
  /-- A record is asked to stay alive. -/
  | renewed (id : TxnId) (r : Record) (m : Manager) (renews : request.Renews id)
      (get : s.manager.log.get? id = some r)
      (id : (r.apply (.keepAlive s.manager.clock.now s.manager.timeout)).record.id = id)
      (puts : s.manager.log.Puts
        (r.apply (.keepAlive s.manager.clock.now s.manager.timeout)).record m.log)
      (active : m.active = s.manager.active) : Effect s request ⟨m, s.held⟩

/-- What is left of a request that gives its owner a transaction back. -/
theorem step_of_owned {s : Session} {request : Request} {k : Nat} {α : Type}
    {p : Program Manager (α × Transaction)} {f : α × Transaction → Reply}
    (hprogram : request.program s.held = some (f <$> p)) (howned : request.owned? = some k)
    (hf : ∀ answer, (f answer).transaction? = some answer.2) :
    (s.step request).2 = ⟨(p.run s.manager).2, s.held.set k (p.run s.manager).1.2⟩ := by
  simp only [step, hprogram, run_map, keep, howned, hf]

/-- What is left of a request that gives no one a transaction. -/
theorem step_of_unowned {s : Session} (request : Request) {α : Type} {p : Program Manager α}
    {f : α → Reply} (hprogram : request.program s.held = some (f <$> p))
    (hf : ∀ answer, (f answer).transaction? = none) :
    (s.step request).2 = ⟨(p.run s.manager).2, s.held⟩ := by
  simp only [step, hprogram, run_map, keep, hf]

theorem effect_of_quiet {s : Session} {request : Request} {α : Type} {p : Program Manager α}
    {f : α → Reply} (hprogram : request.program s.held = some (f <$> p))
    (hf : ∀ answer, (f answer).transaction? = none) (hp : Quiet p) :
    Effect s request (s.step request).2 := by
  rw [step_of_unowned request hprogram hf]
  exact .unmoved _ (unmoved_of_core (hp.run _))

theorem effect_of_renewal {s : Session} {request : Request} {id : TxnId} {m : Manager}
    (hrenews : request.Renews id) (h : Renewal id s.manager m) : Effect s request ⟨m, s.held⟩ := by
  rcases h.log with hsame | ⟨r, hr, hid, hputs⟩
  · exact .unmoved m ⟨hsame, h.active⟩
  · exact .renewed id r m hrenews hr hid hputs h.active

theorem effect_of_unserved {s : Session} {request : Request} (h : s.step request = (none, s)) :
    Effect s request (s.step request).2 := by
  rw [h]
  exact .unmoved s.manager (.refl _)

/-- A request whose program ends its transaction or refuses to. -/
theorem effect_of_ending {s : Session} {request : Request} {k : Nat} {t : Transaction}
    (ht : s.held[k]? = some t) {α : Type} {p : Program Manager (α × Transaction)}
    {f : α × Transaction → Reply} (hprogram : request.program s.held = some (f <$> p))
    (howned : request.owned? = some k) (hf : ∀ answer, (f answer).transaction? = some answer.2)
    (hp : p.Yields (fun answer m' => Ending s.manager t answer.2 m') s.manager) :
    Effect s request (s.step request).2 := by
  rw [step_of_owned hprogram howned hf]
  exact .ended k t _ _ ht hp

/-- Every request does what it can do. -/
theorem effect_step {s : Session} (hs : s.manager.Coherent) (request : Request) :
    Effect s request (s.step request).2 := by
  cases request with
  | begin =>
    simp only [step, Request.program, Op.program, run_map, keep, Request.owned?]
    rcases creates_begin s.manager with ⟨e, he, hunmoved⟩ | ⟨hok, habsent, hputs, henters⟩
    · rw [he]
      exact .unmoved _ hunmoved
    · rw [hok]
      exact .created _ habsent hputs henters
  | beginReadOnly =>
    simp only [step, Request.program, Op.program, run_map, keep, Request.owned?]
    rcases enters_beginReadOnly s.manager with ⟨e, he, hunmoved⟩ | ⟨hok, hsame, henters⟩
    · rw [he]
      exact .unmoved _ hunmoved
    · rw [hok]
      exact .opened _ hsame henters
  | elevate k =>
    obtain hnone | ⟨t, ht, hprogram⟩ := held_cases s (.elevate k) rfl
    · exact effect_of_unserved hnone
    rw [step_of_owned hprogram rfl fun _ => rfl]
    rcases creates_elevate s.manager t with
      ⟨hsame, hunmoved⟩ | ⟨⟨hactive, hbare⟩, helevated, habsent, hputs, henters⟩
    · exact .ended k t _ _ ht (by rw [hsame]; exact .refused _ hunmoved)
    · rw [helevated]
      exact .elevated k t _ ht hactive hbare habsent hputs henters
  | commit k =>
    obtain hnone | ⟨t, ht, hprogram⟩ := held_cases s (.commit k) rfl
    · exact effect_of_unserved hnone
    · exact effect_of_ending ht hprogram rfl (fun _ => rfl) (ending_commit hs.valid t)
  | rollback k =>
    obtain hnone | ⟨t, ht, hprogram⟩ := held_cases s (.rollback k) rfl
    · exact effect_of_unserved hnone
    · exact effect_of_ending ht hprogram rfl (fun _ => rfl) (ending_rollback hs.valid t)
  | fail k =>
    obtain hnone | ⟨t, ht, hprogram⟩ := held_cases s (.fail k) rfl
    · exact effect_of_unserved hnone
    · exact effect_of_ending ht hprogram rfl (fun _ => rfl) (ending_fail hs.valid t)
  | isVisible k candidate =>
    obtain hnone | ⟨t, -, hprogram⟩ := held_cases s (.isVisible k candidate) rfl
    · exact effect_of_unserved hnone
    · exact effect_of_quiet hprogram (fun _ => rfl) (quiet_isVisibleAt _ _ _)
  | status id => exact effect_of_quiet rfl (fun _ => rfl) (quiet_status id)
  | settle id =>
    rw [step_of_unowned (.settle id) rfl fun _ => rfl]
    rcases yields_settle hs id with hunmoved | ⟨r, hr, hexpired, hputs, hleaves⟩
    · exact .unmoved _ hunmoved
    · exact .settled id r _ rfl hr hexpired hputs hleaves
  | renew id =>
    rw [step_of_unowned (.renew id) rfl fun _ => rfl]
    exact effect_of_renewal (.inl rfl) (yields_renew hs.valid id)
  | work =>
    rw [step_of_unowned .work rfl fun _ => rfl]
    obtain ⟨id, hrenewal⟩ := yields_work hs.valid
    exact effect_of_renewal (.inr rfl) hrenewal
  | setClock now =>
    rw [step_of_unowned (.setClock now) rfl fun _ => rfl]
    exact .unmoved _ ⟨.refl _, rfl⟩
  | receive | dispatch | wait d => exact effect_of_quiet rfl (fun _ => rfl) (.atomically fun _ => rfl)

end Session

end Manager

end TxnEngine
