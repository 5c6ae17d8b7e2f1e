import TxnEngine.Manager
import TxnEngine.Proofs.Concurrency.Ensures
import TxnEngine.Proofs.Log.SingleWinner

/-!
# The discipline of transaction management

What every atomic action on the shared state keeps to: the log stays readable, a record that is
there stays there, a finished record stays as it is, and the cache holds nothing but finished
records of the log. What an action may do beside that is limited in two respects: which transactions
it commits, and how far it moves the oracle.

Results:
* `step_of_eq`, `step_after`, `step_remember`: the actions that change nothing that matters, that
  change the log, and that change the cache.
* `ensures_transition`, `ensures_cached`, `ensures_getRecord`, `ensures_remember`: what a client can
  rely on behind each action.
-/

namespace TxnEngine

namespace CompletedCache

/-! ## What a cache holds -/

theorem find?_makeRoom {capacity : Nat} {entries : Table TxnId CachedRecord} {order : List TxnId}
    {id : TxnId} {entry : CachedRecord}
    (h : (makeRoom capacity entries order).1.find? id = some entry) :
    entries.find? id = some entry := by
  induction order generalizing entries with
  | nil => exact h
  | cons oldest rest ih =>
    rw [makeRoom] at h
    split_ifs at h with hroom
    · exact h
    · have hkept := ih h
      by_cases hid : oldest = id
      · rw [hid, Table.find?_erase_self] at hkept
        cases hkept
      · rwa [Table.find?_erase_of_ne _ hid] at hkept

/-- What is held after an insertion: the new record, if it is finished, or what was held before. -/
theorem find?_insert {c : CompletedCache} {r : Record} {now : Instant} {id : TxnId}
    {entry : CachedRecord} (h : (c.insert r now).2.entries.find? id = some entry) :
    (∃ held, c.entries.find? id = some held ∧ entry.record = held.record) ∨
      r.isFinished = true ∧ r.id = id ∧ entry.record = r := by
  unfold insert at h
  split_ifs at h with hrefused
  · exact .inl ⟨entry, h, rfl⟩
  · simp only [Bool.or_eq_true, decide_eq_true_eq, Bool.not_eq_true', not_or,
      Bool.not_eq_false] at hrefused
    by_cases hid : r.id = id
    · subst hid
      split at h
      · next held hheld =>
        rw [Table.find?_insert_self] at h
        cases h
        exact .inl ⟨held, hheld, rfl⟩
      · rw [Table.find?_insert_self] at h
        cases h
        exact .inr ⟨hrefused.2, rfl, rfl⟩
    · split at h
      · rw [Table.find?_insert_of_ne _ _ hid] at h
        exact .inl ⟨entry, h, rfl⟩
      · rw [Table.find?_insert_of_ne _ _ hid] at h
        exact .inl ⟨entry, find?_makeRoom h, rfl⟩

theorem entries_get (c : CompletedCache) (id : TxnId) (now : Instant) :
    (c.get id now).2.entries = c.entries := by
  unfold get
  split
  · split_ifs <;> rfl
  · rfl

theorem find?_of_get {c : CompletedCache} {id : TxnId} {now : Instant} {r : Record}
    (h : (c.get id now).1 = some r) : ∃ entry, c.entries.find? id = some entry ∧ entry.record = r := by
  unfold get at h
  split at h
  · next entry hentry =>
    split_ifs at h
    · exact ⟨entry, hentry, Option.some.inj h⟩
  · cases h

end CompletedCache

namespace Log

/-! ## Commit timestamps in the log -/

/-- The commit timestamp of a transaction, if it is committed. -/
def commitTs? (l : Log) (id : TxnId) : Option Timestamp :=
  (l.get? id).bind Record.commitTs

/-- A record that was not there before a call was created by it. -/
theorem created_of_get?_after {l : Log} (hv : Valid l.records) {c : Call} {id : TxnId} {r : Record}
    (hnone : l.get? id = none) (hr : (l.after c).get? id = some r) :
    ∃ ts now readOnly, r = .start ts now readOnly := by
  rcases records_after l c with hsame | ⟨image, himage, hput⟩
  · rw [get?, hsame, ← get?, hnone] at hr
    cases hr
  rw [get?, hput] at hr
  by_cases hid : image.id = id
  · subst hid
    rw [Table.find?_insert_self] at hr
    cases hr
    rcases image?_cases hv himage with ⟨ts, now, readOnly, -, hstart, -⟩ | ⟨_, old, -, hold, -⟩
    · exact ⟨ts, now, readOnly, hstart⟩
    · rw [hnone] at hold
      cases hold
  · rw [Table.find?_insert_of_ne _ _ hid, ← get?, hnone] at hr
    cases hr

/-- Only a commit gives a transaction a commit timestamp. -/
theorem commitTs?_after {l : Log} (hv : Valid l.records) {c : Call} {id : TxnId} {ts : Timestamp}
    (h : (l.after c).commitTs? id = some ts) :
    l.commitTs? id = some ts ∨
      ∃ now timeout, c = .transition id (.commit ts now timeout) := by
  obtain ⟨r', hr', hts⟩ := Option.bind_eq_some_iff.mp h
  cases hr : l.get? id with
  | none =>
    obtain ⟨_, _, _, rfl⟩ := created_of_get?_after hv hr hr'
    cases hts
  | some r =>
    obtain ⟨hid, hc⟩ := hv id r hr
    rcases get?_after_cases hv hr c with hsame | hnext
    · obtain rfl := Option.some.inj (hsame.symm.trans hr')
      exact .inl (by rw [commitTs?, hr, Option.bind_some, hts])
    obtain rfl := Option.some.inj (hnext.symm.trans hr')
    cases hbefore : r.commitTs with
    | none =>
      obtain ⟨now, timeout, rfl, -⟩ := Record.next_commitTs hbefore hts
      exact .inr ⟨now, timeout, by rw [hid]⟩
    | some ts' =>
      rw [Record.next_finished (Record.isFinished_of_commitTs hc hbefore)] at hts
      exact .inl (by rw [commitTs?, hr, Option.bind_some, hts])

/-- A request leaves the record that it is answered with. -/
theorem get?_after_of_answer {l : Log} (hv : Valid l.records) {id : TxnId} {t : Transition}
    {outcome : TransitionOutcome} (h : (l.transition id t).1 = .ok outcome) :
    outcome.record.id = id ∧ (l.after (.transition id t)).get? id = some outcome.record := by
  cases hr : l.get? id with
  | none => simp [transition, hr] at h
  | some r =>
    obtain ⟨hid, hc⟩ := hv id r hr
    simp only [after, transition_eq hr] at h ⊢
    cases hi : r.image? t with
    | none =>
      simp only [hi, Except.ok.injEq] at h ⊢
      rw [← h, Record.record_apply, hi]
      exact ⟨hid, hr⟩
    | some next =>
      simp only [hi] at h ⊢
      have hsame : next.id = id := (Record.image?_keeps hi hc).1.trans hid
      rcases records_persist l next with ⟨e, herror, -⟩ | ⟨hok, hput⟩
      · rw [herror] at h
        cases h
      · rw [hok] at h
        cases h
        rw [Record.record_apply, hi, Option.getD_some, get?, hput]
        exact ⟨hsame, hsame ▸ Table.find?_insert_self _ _ _⟩

end Log

namespace Manager

/-! ## The discipline -/

/-- The log is readable, and the cache agrees with it. -/
structure Coherent (m : Manager) : Prop where
  valid : Log.Valid m.log.records
  cached : ∀ id entry, m.cache.entries.find? id = some entry →
    entry.record.isFinished = true ∧ m.log.get? id = some entry.record

/-- Records stay, and finished ones stay as they are. -/
def Preserves (m m' : Manager) : Prop :=
  ∀ id r, m.log.get? id = some r →
    ∃ r', m'.log.get? id = some r' ∧ (r.isFinished = true → r' = r)

/-- What all clients of transaction management keep to. -/
def discipline : Discipline Manager where
  holds := Coherent
  leads := Preserves
  refl := fun _ _ r hr => ⟨r, hr, fun _ => rfl⟩
  trans := by
    intro s t u hst htu id r hr
    obtain ⟨r', hr', hfixed⟩ := hst id r hr
    obtain ⟨r'', hr'', hfixed'⟩ := htu id r' hr'
    refine ⟨r'', hr'', fun hf => ?_⟩
    obtain rfl := hfixed hf
    exact hfixed' hf

/-- Which transactions an action commits, and at which timestamps, and how it uses the oracle. -/
structure May (commits : TxnId → Timestamp → Prop) (m m' : Manager) : Prop where
  commits : ∀ id ts, m'.log.commitTs? id = some ts →
    m.log.commitTs? id = some ts ∨ commits id ts
  draws : m'.oracle.next = m.oracle.next ∨ m'.oracle.next = m.oracle.next.next

/-- Nothing is committed. -/
def nothing (_ : TxnId) (_ : Timestamp) : Prop := False

theorem May.refl (commits : TxnId → Timestamp → Prop) (m : Manager) : May commits m m :=
  ⟨fun _ _ h => .inl h, .inl rfl⟩

variable {m m' : Manager} {commits : TxnId → Timestamp → Prop}

/-! ## Single actions -/

/-- An action that leaves the log and the cached records alone. -/
theorem step_of_eq (hm : m.Coherent) (hlog : m'.log = m.log)
    (hcache : m'.cache.entries = m.cache.entries)
    (hdraws : m'.oracle.next = m.oracle.next ∨ m'.oracle.next = m.oracle.next.next) :
    discipline.Step (May commits) m m' := by
  refine ⟨⟨by rw [hlog]; exact hm.valid, ?_⟩, ?_, ?_, hdraws⟩
  · rw [hlog, hcache]
    exact hm.cached
  · intro id r hr
    exact ⟨r, by rw [hlog, hr], fun _ => rfl⟩
  · intro id ts hts
    rw [hlog] at hts
    exact .inl hts

/-- A call on the log. -/
theorem step_after (hm : m.Coherent) (c : Log.Call)
    (hcommits : ∀ id ts now timeout, c = .transition id (.commit ts now timeout) → commits id ts) :
    discipline.Step (May commits) m { m with log := m.log.after c } := by
  have hleads : Preserves m { m with log := m.log.after c } := by
    intro id r hr
    rcases Log.get?_after_cases hm.valid hr c with hsame | hnext
    · exact ⟨r, hsame, fun _ => rfl⟩
    · exact ⟨_, hnext, fun hf => Record.next_finished hf c⟩
  refine ⟨⟨Log.valid_after hm.valid c, ?_⟩, hleads, ?_, .inl rfl⟩
  · intro id entry hentry
    obtain ⟨hf, hget⟩ := hm.cached id entry hentry
    obtain ⟨r, hr, hfixed⟩ := hleads id _ hget
    exact ⟨hf, by rw [hr, hfixed hf]⟩
  · intro id ts hts
    refine (Log.commitTs?_after hm.valid hts).imp_right fun ⟨now, timeout, hc⟩ => ?_
    exact hcommits id ts now timeout hc

/-- The record is in the log if it is finished. -/
def Stored (r : Record) (m : Manager) : Prop :=
  r.isFinished = true → m.log.get? r.id = some r

theorem Stored.later {r : Record} (h : Stored r m) (hlead : Preserves m m') : Stored r m' := by
  intro hf
  obtain ⟨r', hr', hfixed⟩ := hlead r.id r (h hf)
  rw [hr', hfixed hf]

/-- The transaction has a record. -/
def Recorded (id : TxnId) (m : Manager) : Prop :=
  ∃ r, m.log.get? id = some r

theorem Recorded.later {id : TxnId} (h : Recorded id m) (hlead : Preserves m m') :
    Recorded id m' := by
  obtain ⟨r, hr⟩ := h
  obtain ⟨r', hr', -⟩ := hlead id r hr
  exact ⟨r', hr'⟩

/-- Putting a record of the log into the cache. -/
theorem step_remember (hm : m.Coherent) {r : Record} (hr : Stored r m) :
    discipline.Step (May commits) m ((remember r).run m).2 := by
  refine ⟨⟨hm.valid, fun id entry hentry => ?_⟩, fun id r hr => ⟨r, hr, fun _ => rfl⟩,
    fun id ts hts => .inl hts, .inl rfl⟩
  rcases CompletedCache.find?_insert hentry with ⟨held, hheld, hsame⟩ | ⟨hf, hid, hsame⟩
  · rw [hsame]
    exact hm.cached id held hheld
  · rw [hsame]
    exact ⟨hf, hid ▸ hr hf⟩

/-! ## What each action ensures -/

variable (commits)

theorem ensures_read {β : Type} (f : Manager → β) :
    (Program.read f).Ensures discipline (May commits) (fun _ _ => True) m := by
  refine .atomically fun t ht _ => ⟨step_of_eq ht rfl rfl (.inl rfl), fun _ _ _ => trivial⟩

theorem ensures_modify {f : Manager → Manager}
    (hf : ∀ t : Manager, (f t).log = t.log ∧ (f t).cache = t.cache ∧ (f t).oracle = t.oracle) :
    (Program.modify f).Ensures discipline (May commits) (fun _ _ => True) m := by
  refine .atomically fun t ht _ => ⟨?_, fun _ _ _ => trivial⟩
  obtain ⟨hlog, hcache, horacle⟩ := hf t
  exact step_of_eq ht hlog (congrArg _ hcache) (.inl (congrArg _ horacle))

theorem ensures_count (event : Metrics.Event) :
    (count event).Ensures discipline (May commits) (fun _ _ => True) m :=
  ensures_modify commits fun _ => ⟨rfl, rfl, rfl⟩

theorem ensures_onKeepAlive {α : Type} (p : Program KeepAlive α) :
    (onKeepAlive p).Ensures discipline (May commits) (fun _ _ => True) m := by
  unfold onKeepAlive
  refine .focus (fun _ _ ht => ?_) p
  exact step_of_eq ht rfl rfl (.inl rfl)

theorem ensures_track (hm : m.Coherent) (id : TxnId) :
    (track id).Ensures discipline (May commits) (fun _ _ => True) m :=
  .bind hm (ensures_modify commits fun _ => ⟨rfl, rfl, rfl⟩) fun _ _ _ _ _ =>
    ensures_onKeepAlive commits _

theorem ensures_untrack (hm : m.Coherent) (id : TxnId) :
    (untrack id).Ensures discipline (May commits) (fun _ _ => True) m :=
  .bind hm (ensures_modify commits fun _ => ⟨rfl, rfl, rfl⟩) fun _ _ _ _ _ =>
    ensures_onKeepAlive commits _

theorem ensures_createRecord (ts : Timestamp) (now : Millis) (readOnly : Bool) :
    (createRecord (.start ts now readOnly)).Ensures discipline (May commits)
      (fun _ _ => True) m := by
  refine .atomically fun t ht _ => ⟨?_, fun _ _ _ => trivial⟩
  exact step_after ht (.create ts now readOnly) (fun _ _ _ _ h => by cases h)

/-- What a request is answered with that is made in the state `m`. -/
structure Answered (id : TxnId) (t : Transition) (m : Manager)
    (answer : Except Error TransitionOutcome) (m' : Manager) : Prop where
  /-- A record gives the answer, and the record behind the answer is the one in the log. -/
  granted : ∀ outcome, answer = .ok outcome → (∃ r : Record, r.Consistent ∧ outcome = r.apply t) ∧
    outcome.record.id = id ∧ Stored outcome.record m' ∧ Recorded id m'
  refused : ∀ e, answer = .error e →
    e = .transactionNotFound id ∧ ¬Recorded id m ∨ ∃ cause, e = .storage cause

theorem ensures_transition {id : TxnId} {t : Transition}
    (hcommits : ∀ ts now timeout, t = .commit ts now timeout → commits id ts) :
    (transition id t).Ensures discipline (May commits) (Answered id t m) m := by
  refine .atomically fun s hs hms => ⟨?_, fun u _ hlead => ⟨fun outcome hanswer => ?_, fun e he => ?_⟩⟩
  · refine step_after hs (.transition id t) fun other ts now timeout h => ?_
    cases h
    exact hcommits ts now timeout rfl
  · obtain ⟨hid, hget⟩ := Log.get?_after_of_answer hs.valid hanswer
    have hstored : Stored outcome.record { s with log := s.log.after (.transition id t) } := by
      intro _
      rw [hid]
      exact hget
    have hrecorded : Recorded id { s with log := s.log.after (.transition id t) } := ⟨_, hget⟩
    refine ⟨?_, hid, hstored.later hlead, hrecorded.later hlead⟩
    rcases Log.answer_cases s.log id t with ⟨r, hr, h⟩ | ⟨h, -⟩ | ⟨cause, h⟩
    · exact ⟨r, (hs.valid id r hr).2, Except.ok.inj (hanswer.symm.trans h)⟩
    · exact absurd (hanswer.symm.trans h) nofun
    · exact absurd (hanswer.symm.trans h) nofun
  · rcases Log.answer_cases s.log id t with ⟨r, hr, h⟩ | ⟨h, hnone⟩ | ⟨cause, h⟩
    · exact absurd (he.symm.trans h) nofun
    · refine .inl ⟨Except.error.inj (he.symm.trans h), fun hrecorded => ?_⟩
      obtain ⟨r, hr⟩ := hrecorded.later hms
      rw [hnone] at hr
      cases hr
    · exact .inr ⟨cause, Except.error.inj (he.symm.trans h)⟩

/-- The record that the cache gives is the one in the log. -/
theorem ensures_cached (id : TxnId) :
    (cached id).Ensures discipline (May commits)
      (fun answer m => ∀ r, answer = some r → r.isFinished = true ∧ m.log.get? id = some r) m := by
  refine .atomically fun s hs _ => ⟨?_, fun u _ hlead r hr => ?_⟩
  · exact step_of_eq hs rfl (CompletedCache.entries_get s.cache id _) (.inl rfl)
  · obtain ⟨entry, hentry, rfl⟩ := CompletedCache.find?_of_get hr
    obtain ⟨hf, hget⟩ := hs.cached id entry hentry
    obtain ⟨r', hr', hfixed⟩ := hlead id entry.record hget
    exact ⟨hf, by rw [hr', hfixed hf]⟩

/-- The record that the log gives is there, and it is the one that was there before if that one was
finished already. -/
theorem ensures_getRecord (id : TxnId) :
    (getRecord id).Ensures discipline (May commits)
      (fun answer m' => (∀ r, answer = some r →
          r.id = id ∧ r.Consistent ∧ Stored r m' ∧ Recorded id m') ∧
        ∀ r, m.log.get? id = some r →
          ∃ r', answer = some r' ∧ (r.isFinished = true → r' = r)) m := by
  refine .atomically fun s hs hms => ⟨step_of_eq hs rfl rfl (.inl rfl), fun u _ hlead => ⟨?_, ?_⟩⟩
  · intro r hr
    obtain ⟨hid, hc⟩ := hs.valid id r hr
    have hrecorded : Recorded id s := ⟨r, hr⟩
    refine ⟨hid, hc, Stored.later (fun _ => ?_) hlead, hrecorded.later hlead⟩
    rw [hid]
    exact hr
  · exact hms id

theorem ensures_remember {r : Record} (hr : Stored r m) :
    (remember r).Ensures discipline (May commits) (fun _ _ => True) m :=
  .atomically fun _ hs hlead => ⟨step_remember hs (hr.later hlead), fun _ _ _ => trivial⟩

end Manager

end TxnEngine
