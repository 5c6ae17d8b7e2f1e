import TxnEngine.Proofs.Manager.Composition

/-!
# Operations that run alone

Run one after the other, operations do little to the log. Most of them give no transaction a record
or a commit timestamp, whatever the storage does. The others are the beginnings, which add a record
or none, the elevation, which adds one, and the commit, which commits its own transaction if it
succeeds, and none if it fails.

Results:
* `Log.create_cases`, `Log.still_after_transition`, `Log.transition_commit_cases`: what a single
  call does to the records and the commit timestamps.
* `aborting_still`, `still_settle`: the operations that commit nothing change neither.
* `yields_begin`, `yields_beginReadOnly`, `yields_elevate`, `yields_commit`: everything that the
  others can do.
-/

namespace TxnEngine

namespace Program

variable {σ τ α β : Type} {D : Discipline σ}

/-- A program that runs alone keeps to a discipline. -/
def Alone (D : Discipline σ) (p : Program σ α) : Prop :=
  ∀ s, D.holds s → D.holds (p.run s).2 ∧ D.leads s (p.run s).2

/-- What the program answers and leaves when it runs alone. -/
def Yields (post : α → σ → Prop) (p : Program σ α) (s : σ) : Prop :=
  post (p.run s).1 (p.run s).2

namespace Alone

theorem pure (a : α) : (Pure.pure a : Program σ α).Alone D :=
  fun s hs => ⟨hs, D.refl s⟩

theorem bind {p : Program σ α} {q : α → Program σ β} (hp : p.Alone D) (hq : ∀ a, (q a).Alone D) :
    (p >>= q).Alone D := by
  intro s hs
  obtain ⟨ht, hst⟩ := hp s hs
  obtain ⟨hu, htu⟩ := hq (p.run s).1 _ ht
  rw [run_bind]
  exact ⟨hu, D.trans hst htu⟩

theorem atomically {action : σ → α × σ}
    (h : ∀ s, D.holds s → D.holds (action s).2 ∧ D.leads s (action s).2) :
    (Program.atomically action).Alone D :=
  h

theorem focus {D : Discipline τ} {get : τ → σ} {put : σ → τ → τ}
    (hput : ∀ part t, D.holds t → D.holds (put part t) ∧ D.leads t (put part t))
    (p : Program σ α) : (p.focus get put).Alone D := by
  induction p with
  | done a => exact pure a
  | call action next ih =>
    intro t ht
    obtain ⟨hu, htu⟩ := hput (action (get t)).2 t ht
    obtain ⟨hv, huv⟩ := ih (action (get t)).1 _ hu
    exact ⟨hv, D.trans htu huv⟩

end Alone

namespace Yields

variable {post : β → σ → Prop} {q : α → Program σ β} {s : σ}

theorem pure {b : β} (h : post b s) : (Pure.pure b : Program σ β).Yields post s :=
  h

theorem atomically_bind {action : σ → α × σ} (h : (q (action s).1).Yields post (action s).2) :
    (Program.atomically action >>= q).Yields post s :=
  h

theorem bind {p : Program σ α} (hp : p.Alone D) (hs : D.holds s)
    (h : ∀ a t, D.holds t → D.leads s t → (q a).Yields post t) : (p >>= q).Yields post s := by
  obtain ⟨ht, hst⟩ := hp s hs
  unfold Yields
  rw [run_bind]
  exact h _ _ ht hst

theorem seq {p : Program σ α} {mid : α → σ → Prop} (hp : p.Yields mid s)
    (h : ∀ a t, mid a t → (q a).Yields post t) : (p >>= q).Yields post s := by
  unfold Yields
  rw [run_bind]
  exact h _ _ hp

theorem behind {p : Program σ α} (h : ∀ a t, (q a).Yields post t) : (p >>= q).Yields post s := by
  unfold Yields
  rw [run_bind]
  exact h _ _

end Yields

/-- What is promised in company holds alone. -/
theorem Ensures.alone {may : σ → σ → Prop} {post : α → σ → Prop} {p : Program σ α} {s : σ}
    (h : p.Ensures D may post s) (hs : D.holds s) :
    D.holds (p.run s).2 ∧ D.leads s (p.run s).2 := by
  induction p generalizing s with
  | done a => exact ⟨hs, D.refl s⟩
  | call action next ih =>
    obtain ⟨hstep, hnext⟩ := h s hs (D.refl s)
    obtain ⟨hu, hlead⟩ := ih _ hnext hstep.holds
    exact ⟨hu, D.trans hstep.leads hlead⟩

theorem Promises.alone {may : σ → σ → Prop} {post : α → σ → Prop} {p : Program σ α} {s : σ}
    (h : p.Promises D may post s) (hs : D.holds s) :
    D.holds (p.run s).2 ∧ D.leads s (p.run s).2 := by
  cases p with
  | done a => exact ⟨hs, D.refl s⟩
  | call action next =>
    obtain ⟨hu, hlead⟩ := h.2.alone h.1.holds
    exact ⟨hu, D.trans h.1.leads hlead⟩

end Program

namespace Log

/-! ## What a call does to the records and the commit timestamps -/

/-- No transaction gets a record or a commit timestamp. -/
structure Still (l l' : Log) : Prop where
  records : ∀ id, l.get? id = none → l'.get? id = none
  commits : ∀ id, l'.commitTs? id = l.commitTs? id

/-- No other transaction gets a record, and none a commit timestamp. -/
structure Adds (id : TxnId) (l l' : Log) : Prop where
  records : ∀ other, other ≠ id → l.get? other = none → l'.get? other = none
  commits : ∀ other, l'.commitTs? other = l.commitTs? other

/-- The transaction gets its record, no other one does, and none gets a commit timestamp. -/
structure Creates (id : TxnId) (l l' : Log) : Prop extends Adds id l l' where
  absent : l.get? id = none
  present : l'.get? id ≠ none

/-- The transaction is committed, and no other one gets a record or a commit timestamp. -/
structure Commits (id : TxnId) (ts : Timestamp) (l l' : Log) : Prop where
  records : ∀ other, l.get? other = none → l'.get? other = none
  commits : ∀ other, l'.commitTs? other = if other = id then some ts else l.commitTs? other

theorem Still.of_records {l l' : Log} (h : l'.records = l.records) : Still l l' := by
  have hget (id : TxnId) : l'.get? id = l.get? id := by rw [get?, h, get?]
  exact ⟨fun id hnone => (hget id).trans hnone, fun id => by rw [commitTs?, hget, commitTs?]⟩

theorem Still.refl (l : Log) : Still l l :=
  .of_records rfl

theorem Still.adds {l l' : Log} (h : Still l l') (id : TxnId) : Adds id l l' :=
  ⟨fun other _ => h.records other, h.commits⟩

theorem commitTs?_of_insert {l l' : Log} {r : Record} (h : l'.records = l.records.insert r.id r)
    (id : TxnId) : l'.commitTs? id = if id = r.id then r.commitTs else l.commitTs? id := by
  rw [commitTs?, get?, h]
  by_cases hid : id = r.id
  · rw [if_pos hid, hid, Table.find?_insert_self, Option.bind_some]
  · rw [if_neg hid, Table.find?_insert_of_ne _ _ (Ne.symm hid)]
    rfl

/-- A creation that fails leaves the records alone. -/
theorem create_cases (l : Log) (ts : Timestamp) (now : Millis) (readOnly : Bool) :
    (∃ e, (l.create (.start ts now readOnly)).1 = .error e ∧
        Still l (l.create (.start ts now readOnly)).2) ∨
      (l.create (.start ts now readOnly)).1 = .ok () ∧
        Creates (.ofBegin ts) l (l.create (.start ts now readOnly)).2 := by
  have hid : (Record.start ts now readOnly).id = .ofBegin ts := rfl
  rw [create, hid]
  split_ifs with hhas
  · exact .inl ⟨_, rfl, .refl l⟩
  have habsent : l.get? (.ofBegin ts) = none := by
    rw [get?]
    simpa [Table.has] using hhas
  rcases records_persist l (.start ts now readOnly) with ⟨e, herror, hsame⟩ | ⟨hok, hput⟩
  · exact .inl ⟨e, herror, .of_records hsame⟩
  · refine .inr ⟨hok, ⟨fun other hother hnone => ?_, fun other => ?_⟩, habsent, ?_⟩
    · rw [get?, hput, Table.find?_insert_of_ne _ _ (by rw [hid]; exact Ne.symm hother)]
      exact hnone
    · rw [commitTs?_of_insert hput]
      split_ifs with hother
      · rw [commitTs?, hother, hid, habsent]
        rfl
      · rfl
    · rw [get?, hput, hid, Table.find?_insert_self]
      exact Option.some_ne_none _

section Requests

variable {l : Log} (hv : Valid l.records)

include hv

/-- A request gives no transaction a record. -/
theorem get?_after_transition {id other : TxnId} {t : Transition} (h : l.get? other = none) :
    (l.after (.transition id t)).get? other = none := by
  rcases records_after l (.transition id t) with hsame | ⟨image, himage, hput⟩
  · rw [get?, hsame, ← get?, h]
  · rw [get?, hput, Table.find?_insert_of_ne, ← get?, h]
    rintro rfl
    rcases image?_cases hv himage with ⟨_, _, _, hcall, -⟩ | ⟨_, old, -, hold, -⟩
    · cases hcall
    · rw [h] at hold
      cases hold

/-- A request that is no commit commits nothing. -/
theorem still_after_transition {id : TxnId} {t : Transition}
    (ht : ∀ ts now timeout, t ≠ .commit ts now timeout) : Still l (l.after (.transition id t)) := by
  refine ⟨fun other => get?_after_transition hv, fun other => Option.ext fun ts => ⟨fun h => ?_,
    fun h => ?_⟩⟩
  · rcases commitTs?_after hv h with h | ⟨now, timeout, hcall⟩
    · exact h
    · cases hcall
      exact absurd rfl (ht ts now timeout)
  · obtain ⟨r, hr, hts⟩ := Option.bind_eq_some_iff.mp h
    have hf := Record.isFinished_of_commitTs (hv other r hr).2 hts
    rw [commitTs?, get?_after_of_finished hv hr hf, Option.bind_some, hts]

/-- A commit that is not granted commits nothing. -/
theorem transition_commit_cases (id : TxnId) (ts : Timestamp) (now timeout : Millis) :
    let made := l.transition id (.commit ts now timeout)
    (∃ r, made.1 = .ok (.applied r) ∧ Commits id ts l made.2) ∨
      (∀ r, made.1 ≠ .ok (.applied r)) ∧ Still l made.2 := by
  intro made
  have hrecords (other : TxnId) : l.get? other = none → made.2.get? other = none :=
    get?_after_transition hv
  simp only [made] at hrecords ⊢
  cases hr : l.get? id with
  | none => exact .inr ⟨fun r => by simp [transition, hr], by simpa [transition, hr] using .refl l⟩
  | some r =>
    obtain ⟨hid, hc⟩ := hv id r hr
    rw [transition_eq hr] at hrecords ⊢
    cases hi : r.image? (.commit ts now timeout) with
    | none =>
      refine .inr ⟨fun made h => ?_, .refl l⟩
      rw [Record.image?_of_applied (Except.ok.inj h)] at hi
      cases hi
    | some next =>
      simp only [hi] at hrecords ⊢
      have hsame : next.id = id := (Record.image?_keeps hi hc).1.trans hid
      rcases records_persist l next with ⟨e, herror, hkept⟩ | ⟨hok, hput⟩
      · refine .inr ⟨fun r hr => ?_, .of_records hkept⟩
        rw [herror] at hr
        cases hr
      have hcommits := commitTs?_of_insert hput
      rw [hsame] at hcommits
      rw [hok]
      cases ha : r.apply (.commit ts now timeout) with
      | applied made =>
        rw [Record.image?_of_applied ha] at hi
        cases hi
        obtain ⟨-, rfl⟩ := Record.apply_commit_eq_applied ha
        exact .inl ⟨_, rfl, hrecords, hcommits⟩
      | rejected made =>
        -- the record has expired, and had no commit timestamp before
        have hbefore : l.commitTs? id = r.commitTs := by rw [commitTs?, hr, Option.bind_some]
        have hexpired : next.commitTs = r.commitTs := by
          rcases Record.image?_cases hi with ⟨_, _, _, -, h, -⟩ | ⟨_, h, -⟩ | ⟨h, -⟩ | ⟨-, h⟩
          · rw [ha] at h; cases h
          · rw [ha] at h; cases h
          · rw [ha] at h; cases h
          · rw [h]
        refine .inr ⟨fun r h => ?_, hrecords, fun other => ?_⟩
        · cases h
        · rw [hcommits]
          split_ifs with hother
          · rw [hother, hbefore, hexpired]
          · rfl
      | unchanged made => simp [Record.image?, ha] at hi

end Requests

end Log

namespace Manager

open Program

/-! ## Programs that leave the log alone -/

/-- The log and the oracle are not used, and the clock is not moved. -/
def silence : Discipline Manager where
  holds := fun _ => True
  leads := fun m m' => m'.log = m.log ∧ m'.oracle = m.oracle ∧ m'.clock = m.clock ∧
    m'.timeout = m.timeout
  refl := fun _ => ⟨rfl, rfl, rfl, rfl⟩
  trans := by
    rintro s t u ⟨hlog, horacle, hclock, htimeout⟩ ⟨hlog', horacle', hclock', htimeout'⟩
    exact ⟨hlog'.trans hlog, horacle'.trans horacle, hclock'.trans hclock,
      htimeout'.trans htimeout⟩

theorem silent_atomically {α : Type} {action : Manager → α × Manager}
    (h : ∀ m, silence.leads m (action m).2) : (atomically action).Alone silence :=
  .atomically fun m _ => ⟨trivial, h m⟩

/-- What transaction management is about: all of it but the cache, the registrations, the stopwatch
and the counters. -/
structure Core where
  log : Log
  active : List TxnId
  oracle : Oracle
  clock : Clock
  timeout : Millis

def core (m : Manager) : Core :=
  ⟨m.log, m.active, m.oracle, m.clock, m.timeout⟩

/-- Every action of the program leaves the core alone. -/
def Quiet {α : Type} (p : Program Manager α) : Prop :=
  p.Acts fun m m' => m'.core = m.core

theorem Quiet.run {α : Type} {p : Program Manager α} (hp : Quiet p) (m : Manager) :
    (p.run m).2.core = m.core :=
  Acts.run_eq hp m

theorem silent_of_quiet {α : Type} {p : Program Manager α} (hp : Quiet p) : p.Alone silence := by
  intro m _
  have hcore := hp.run m
  simp only [core, Core.mk.injEq] at hcore
  obtain ⟨hlog, -, horacle, hclock, htimeout⟩ := hcore
  exact ⟨trivial, hlog, horacle, hclock, htimeout⟩

theorem quiet_onKeepAlive {α : Type} (p : Program KeepAlive α) : Quiet (onKeepAlive p) := by
  refine Acts.focus (fun _ _ => ?_) p
  rfl

theorem quiet_count (event : Metrics.Event) : Quiet (count event) :=
  .atomically fun _ => rfl

theorem quiet_remember (r : Record) : Quiet (remember r) :=
  .atomically fun _ => rfl

theorem quiet_read {β : Type} (f : Manager → β) : Quiet (Program.read f) :=
  .atomically fun _ => rfl

theorem observing_quiet : Observing fun _ p => Quiet p where
  pure := .pure
  bind := .bind
  read := fun f _ => quiet_read f
  cached := fun _ => .atomically fun _ => rfl
  remember := quiet_remember
  count := quiet_count

theorem quiet_lookup (id : TxnId) : Quiet (lookup id) :=
  observing_quiet.lookup id

theorem quiet_status (id : TxnId) : Quiet (status id) :=
  observing_quiet.status id

theorem quiet_isVisibleAt (snapshot : Timestamp) (own : Option TxnId) (candidate : TxnId) :
    Quiet (isVisibleAt snapshot own candidate) :=
  observing_quiet.isVisibleAt snapshot own candidate

theorem silent_onKeepAlive {α : Type} (p : Program KeepAlive α) :
    (onKeepAlive p).Alone silence :=
  silent_of_quiet (quiet_onKeepAlive p)

theorem silent_count (event : Metrics.Event) : (count event).Alone silence :=
  silent_of_quiet (quiet_count event)

theorem silent_remember (r : Record) : (remember r).Alone silence :=
  silent_of_quiet (quiet_remember r)

theorem silent_read {β : Type} (f : Manager → β) : (Program.read f).Alone silence :=
  silent_of_quiet (quiet_read f)

theorem silent_track (id : TxnId) : (track id).Alone silence :=
  .bind (silent_atomically fun _ => ⟨rfl, rfl, rfl, rfl⟩) fun _ => silent_onKeepAlive _

theorem silent_untrack (id : TxnId) : (untrack id).Alone silence :=
  .bind (silent_atomically fun _ => ⟨rfl, rfl, rfl, rfl⟩) fun _ => silent_onKeepAlive _

theorem silent_lookup (id : TxnId) : (lookup id).Alone silence :=
  silent_of_quiet (quiet_lookup id)

theorem silent_status (id : TxnId) : (status id).Alone silence :=
  silent_of_quiet (quiet_status id)

theorem silent_isVisibleAt (snapshot : Timestamp) (own : Option TxnId) (candidate : TxnId) :
    (isVisibleAt snapshot own candidate).Alone silence :=
  silent_of_quiet (quiet_isVisibleAt snapshot own candidate)

/-! ## Programs that commit nothing -/

/-- What leaves the log readable and gives no transaction a record or a commit timestamp. -/
def stillness : Discipline Manager where
  holds := fun m => Log.Valid m.log.records
  leads := fun m m' => Log.Still m.log m'.log
  refl := fun m => .refl m.log
  trans := fun hst htu =>
    ⟨fun id h => htu.records id (hst.records id h),
      fun id => (htu.commits id).trans (hst.commits id)⟩

theorem still_of_silent {α : Type} {p : Program Manager α} (hp : p.Alone silence) :
    p.Alone stillness := by
  intro m hm
  obtain ⟨hlog, -⟩ := (hp m trivial).2
  simp only [stillness, hlog]
  exact ⟨hm, .refl _⟩

/-- A request that is no commit. -/
theorem still_transition (id : TxnId) {t : Transition}
    (ht : ∀ ts now timeout, t ≠ .commit ts now timeout) : (transition id t).Alone stillness := by
  refine .atomically fun m hm => ?_
  exact ⟨Log.valid_after hm (.transition id t), Log.still_after_transition hm ht⟩

theorem aborting_still : Aborting fun _ p => p.Alone stillness where
  pure := .pure
  bind := .bind
  read := fun f _ => still_of_silent (silent_read f)
  remember := fun _ => still_of_silent (silent_remember _)
  count := fun _ => still_of_silent (silent_count _)
  transition := fun id _ => still_transition id
  leave := fun _ => still_of_silent (silent_atomically fun _ => ⟨rfl, rfl, rfl, rfl⟩)
  unregister := fun _ => still_of_silent (silent_onKeepAlive _)
  takeWork := still_of_silent (silent_onKeepAlive _)

theorem still_settle (id : TxnId) : (settle id).Alone stillness :=
  aborting_still.settle
    (fun _ => still_of_silent (silent_atomically fun _ => ⟨rfl, rfl, rfl, rfl⟩)) id

/-! ## The other operations -/

/-- A transaction begins at the timestamp that comes next, with a record, or not at all. -/
theorem yields_begin (m : Manager) : begin.Yields (fun answer m' =>
    (∃ e, answer = .error e ∧ m.log.Still m'.log) ∨
      answer = .ok (.new (.ofBegin m.oracle.next) false) ∧
        m.log.Creates (.ofBegin m.oracle.next) m'.log ∧ m'.oracle.next = m.oracle.next.next) m := by
  unfold begin drawTimestamp createRecord
  refine .atomically_bind ?_
  cases hdraw : m.oracle.draw.1 with
  | error e => exact .inl ⟨e, rfl, .refl _⟩
  | ok ts =>
    obtain ⟨rfl, hnext⟩ := draw_eq_ok hdraw
    refine .bind (silent_read _) trivial fun now t _ ⟨hlog, horacle, _⟩ => .atomically_bind ?_
    rcases Log.create_cases t.log m.oracle.next now false with
      ⟨e, herror, hstill⟩ | ⟨hok, hcreates⟩
    · simp only [herror]
      exact .inl ⟨e, rfl, hlog ▸ hstill⟩
    · simp only [hok]
      refine .bind (silent_track _) trivial fun _ u _ ⟨hlog', horacle', _⟩ =>
        .bind (silent_count _) trivial fun _ v _ ⟨hlog'', horacle'', _⟩ => ?_
      refine .pure (.inr ⟨rfl, ?_, ?_⟩)
      · rw [hlog'', hlog', ← hlog]
        exact hcreates
      · rw [horacle'', horacle', horacle]
        exact hnext

/-- A transaction that only reads begins at the timestamp that comes next, or not at all. -/
theorem yields_beginReadOnly (m : Manager) : beginReadOnly.Yields (fun answer m' =>
    m'.log = m.log ∧
      ((∃ e, answer = .error e) ∨
        answer = .ok (.new (.ofBegin m.oracle.next) true) ∧
          m'.oracle.next = m.oracle.next.next)) m := by
  unfold beginReadOnly drawTimestamp
  refine .atomically_bind ?_
  cases hdraw : m.oracle.draw.1 with
  | error e => exact ⟨rfl, .inl ⟨e, rfl⟩⟩
  | ok ts =>
    obtain ⟨rfl, hnext⟩ := draw_eq_ok hdraw
    exact ⟨rfl, .inr ⟨rfl, hnext⟩⟩

/-- An elevation gives the transaction a record, or does nothing. -/
theorem yields_elevate (m : Manager) (t : Transaction) : (elevate t).Yields (fun answer m' =>
    answer.2 = t ∧ m.log.Still m'.log ∨
      t.isActive = true ∧ answer.2 = t.elevated ∧ m.log.Creates t.id m'.log) m := by
  unfold elevate createRecord
  split_ifs with hactive hpersisted
  · exact .inl ⟨rfl, .refl _⟩
  · exact .inl ⟨rfl, .refl _⟩
  · refine .bind (silent_read _) trivial fun now u _ ⟨hlog, _⟩ => .atomically_bind ?_
    rcases Log.create_cases u.log t.snapshot now true with ⟨e, herror, hstill⟩ | ⟨hok, hcreates⟩
    · simp only [herror]
      exact .inl ⟨rfl, hlog ▸ hstill⟩
    · simp only [hok]
      refine .bind (silent_track _) trivial fun _ v _ ⟨hlog', _⟩ =>
        .pure (.inr ⟨by simpa using hactive, rfl, ?_⟩)
      rw [hlog', ← hlog]
      exact hcreates

/-- What a commit does that is not refused. -/
inductive CommitEffect (t : Transaction) (m m' : Manager) :
    Except Error Timestamp × Transaction → Prop where
  /-- It fails, and may end the transaction. -/
  | failed (e : Error) (t' : Transaction) (still : m.log.Still m'.log)
      (owner : t' = t ∨ t.isActive = true ∧ t' = t.abort) : CommitEffect t m m' (.error e, t')
  /-- It ends a transaction that has no record. -/
  | closed (active : t.isActive = true) (bare : t.isPersisted = false)
      (still : m.log.Still m'.log) :
      CommitEffect t m m' (.ok t.snapshot, t.committedAt t.snapshot)
  /-- It commits the transaction at the timestamp that comes next. -/
  | committed (active : t.isActive = true) (persisted : t.isPersisted = true)
      (commits : m.log.Commits t.id m.oracle.next m'.log)
      (next : m'.oracle.next = m.oracle.next.next) :
      CommitEffect t m m' (.ok m.oracle.next, t.committedAt m.oracle.next)

theorem yields_commit {m : Manager} (hm : Log.Valid m.log.records) (t : Transaction) :
    (commit t).Yields (fun answer m' => CommitEffect t m m' answer) m := by
  unfold commit drawTimestamp transition
  split_ifs with hactive hpersisted
  · exact .failed _ _ (.refl _) (.inl rfl)
  · refine .bind (silent_untrack _) trivial fun _ u _ ⟨hlog, _⟩ =>
      .bind (silent_count _) trivial fun _ v _ ⟨hlog', _⟩ => ?_
    refine .pure (.closed (by simpa using hactive) (by simpa using hpersisted) ?_)
    rw [hlog', hlog]
    exact .refl _
  · have hactive : t.isActive = true := by simpa using hactive
    refine .atomically_bind ?_
    cases hdraw : m.oracle.draw.1 with
    | error e => exact .failed _ _ (.refl _) (.inl rfl)
    | ok ts =>
      obtain ⟨rfl, hnext⟩ := draw_eq_ok hdraw
      refine .bind (silent_read _) trivial fun now u _ ⟨hlog, horacle, _⟩ =>
        .bind (silent_read _) trivial fun timeout v _ ⟨hlog', horacle', _⟩ => .atomically_bind ?_
      have hlogv : v.log = m.log := hlog'.trans hlog
      have horaclev : v.oracle = m.oracle.draw.2 := horacle'.trans horacle
      rcases Log.transition_commit_cases (hlogv ▸ hm) t.id m.oracle.next now timeout with
        ⟨r, hr, hcommits⟩ | ⟨hnot, hstill⟩
      · simp only [hr]
        refine .bind (silent_untrack _) trivial fun _ w _ ⟨hlog₁, horacle₁, _⟩ =>
          .bind (silent_remember _) trivial fun _ x _ ⟨hlog₂, horacle₂, _⟩ =>
            .bind (silent_count _) trivial fun _ y _ ⟨hlog₃, horacle₃, _⟩ => ?_
        refine .pure (.committed hactive (by simpa using hpersisted) ?_ ?_)
        · rw [hlog₃, hlog₂, hlog₁, ← hlogv]
          exact hcommits
        · rw [horacle₃, horacle₂, horacle₁]
          exact (congrArg Oracle.next horaclev).trans hnext
      · -- whatever else the answer is, the commit fails
        cases hanswer : (v.log.transition t.id (.commit m.oracle.next now timeout)).1 with
        | error e =>
          simp only
          exact .pure (.failed _ _ (hlogv ▸ hstill) (.inl rfl))
        | ok outcome =>
          cases outcome with
          | applied r => exact absurd hanswer (hnot r)
          | unchanged r | rejected r =>
            simp only
            refine .bind (silent_untrack _) trivial fun _ w _ ⟨hlog₁, _⟩ =>
              .bind (silent_remember _) trivial fun _ x _ ⟨hlog₂, _⟩ =>
                .bind (silent_count _) trivial fun _ y _ ⟨hlog₃, _⟩ => ?_
            refine .pure (.failed _ _ ?_ (.inr ⟨hactive, rfl⟩))
            rw [hlog₃, hlog₂, hlog₁, ← hlogv]
            exact hstill

/-- A transaction that is rolled back is ended or left as it is. -/
theorem yields_rollback (m : Manager) (t : Transaction) : (rollback t).Yields (fun answer _ =>
    answer.2 = t ∨ t.isActive = true ∧ answer.2 = t.abort) m := by
  unfold rollback
  cases hphase : t.phase with
  | aborted | committed => exact .pure (.inl rfl)
  | active =>
    have hactive : t.isActive = true := by simp [Transaction.isActive, hphase]
    simp only
    split_ifs
    · exact .behind fun _ _ => .pure (.inr ⟨hactive, rfl⟩)
    · refine .behind fun answer _ => ?_
      cases answer with
      | error e => exact .pure (.inl rfl)
      | ok outcome =>
        refine .behind fun _ _ => .behind fun _ _ => ?_
        cases outcome with
        | unchanged r => exact .pure (.inr ⟨hactive, rfl⟩)
        | applied r | rejected r => exact .behind fun _ _ => .pure (.inr ⟨hactive, rfl⟩)

theorem yields_fail (m : Manager) (t : Transaction) : (fail t).Yields (fun answer _ =>
    answer.2 = t ∨ t.isActive = true ∧ answer.2 = t.abort) m := by
  unfold fail
  split_ifs with hactive
  · exact .pure (.inl rfl)
  · exact .behind fun _ _ => .pure (.inr ⟨by simpa using hactive, rfl⟩)
  · have hactive : t.isActive = true := by simpa using hactive
    refine .behind fun answer _ => ?_
    cases answer with
    | error e => exact .pure (.inl rfl)
    | ok outcome =>
      refine .behind fun _ _ => .behind fun _ _ => ?_
      cases outcome with
      | applied r => exact .behind fun _ _ => .pure (.inr ⟨hactive, rfl⟩)
      | unchanged r | rejected r => exact .pure (.inr ⟨hactive, rfl⟩)

end Manager

end TxnEngine
