import TxnEngine.Proofs.Manager.Effects

/-!
# Operations that fail

An operation asks the log first and books what the log has answered. If the log does not answer,
because its storage fails, then nothing has been booked yet: whatever can be seen of transaction
management is as it was before, and so is the transaction in its owner's hands. A conflict is no
failure of this kind. It is the answer of a record that is finished, and is booked like any other.

Results:
* `unseen_begin`, `unseen_elevate`, `unseen_commit`, `unseen_rollback`, `unseen_fail`,
  `unseen_settle`: every operation that can fail.
* `step_unseen`: no request that fails without a conflict leaves a trace.
* `storage_failure_unseen`: what this says about requests that the storage fails.
-/

namespace TxnEngine

/-- The refusal comes from a record that is finished. -/
def Error.isConflict : Error → Bool
  | .conflict _ _ => true
  | _ => false

namespace Log

theorem records_create_of_error {l : Log} {r : Record} {e : Error} (h : (l.create r).1 = .error e) :
    (l.create r).2.records = l.records := by
  rw [create] at h ⊢
  split_ifs at h ⊢
  · rfl
  · rcases records_persist l r with ⟨_, -, hsame⟩ | ⟨hok, -⟩
    · exact hsame
    · rw [hok] at h
      cases h

/-- A request that is not answered leaves the table alone, also when it is an expiry that could not
be written back. -/
theorem records_transition_of_error {l : Log} {id : TxnId} {t : Transition} {e : Error}
    (h : (l.transition id t).1 = .error e) : (l.transition id t).2.records = l.records := by
  cases hr : l.get? id with
  | none => rw [transition, hr]
  | some r =>
    rw [transition_eq hr] at h ⊢
    cases hi : r.image? t with
    | none => rfl
    | some next =>
      simp only [hi] at h ⊢
      rcases records_persist l next with ⟨e', herror, hsame⟩ | ⟨hok, -⟩
      · exact hsame
      · rw [hok] at h
        cases h

end Log

namespace Manager

open Program

/-! ## What can be seen -/

/-- What can be seen of transaction management: all of it but the bytes of the log, the oracle, the
stopwatch and the counts of cache hits and misses. -/
def visible (m : Manager) : Manager :=
  { m with
    log := { m.log with store := default }
    oracle := default
    stopwatch := default
    cache := { m.cache with hits := 0, misses := 0 }
    metrics := { m.metrics with cacheHits := 0, cacheMisses := 0 } }

theorem visible_withLog {m : Manager} {l : Log} (h : l.records = m.log.records) :
    { m with log := l }.visible = m.visible := by
  simp only [visible, h]

/-- Asking the cache only counts. -/
theorem visible_cached (id : TxnId) (m : Manager) : ((cached id).run m).2.visible = m.visible := by
  simp only [cached, run_atomically, CompletedCache.get]
  split
  · split_ifs <;> rfl
  · rfl

theorem seen_of_visible {m m' : Manager} (h : m'.visible = m.visible) :
    m'.log.records = m.log.records ∧ m'.active = m.active ∧ m'.keepAlive = m.keepAlive ∧
      m'.cache.entries = m.cache.entries ∧ m'.cache.order = m.cache.order := by
  simp only [visible, Manager.mk.injEq, Log.mk.injEq, CompletedCache.mk.injEq] at h
  obtain ⟨⟨-, hrecords⟩, -, -, -, ⟨-, -, hentries, horder, -⟩, hactive, hkeepAlive, -⟩ := h
  exact ⟨hrecords, hactive, hkeepAlive, hentries, horder⟩

/-! ## The operations -/

/-- Whoever fails without a conflict leaves all that can be seen as it was, and `kept` holds. -/
def Unseen {α : Type} (m : Manager) (kept : Prop) (answer : Except Error α) (m' : Manager) : Prop :=
  ∀ e, answer = .error e → e.isConflict = false → kept ∧ m'.visible = m.visible

namespace Unseen

variable {α : Type} {m m' : Manager} {kept : Prop}

theorem ok (a : α) : Unseen m kept (.ok a) m' := by
  rintro e ⟨⟩

theorem conflict (id : TxnId) (state : TxnState) :
    Unseen m kept (.error (.conflict id state) : Except Error α) m' := by
  rintro e ⟨⟩ hconflict
  cases hconflict

theorem error (e : Error) (hkept : kept) (h : m'.visible = m.visible) :
    Unseen m kept (.error e : Except Error α) m' := fun _ _ _ => ⟨hkept, h⟩

end Unseen

/-- A look-up changes nothing that can be seen, unless it finds a finished record. -/
theorem yields_visible_lookup (m : Manager) (id : TxnId) : (lookup id).Yields (fun answer m' =>
    m'.visible = m.visible ∨ ∃ r, answer = .ok r ∧ r.isFinished = true) m := by
  unfold lookup getRecord
  have hcached : (cached id).Yields (fun _ m' => m'.visible = m.visible) m := visible_cached id m
  refine .seq hcached fun found u hu => ?_
  cases found with
  | some r => exact .atomically_bind (.pure (.inl hu))
  | none =>
    refine .atomically_bind (.atomically_bind ?_)
    cases hr : u.log.get? id with
    | none =>
      simp only [hr]
      exact .pure (.inl hu)
    | some r =>
      simp only [hr]
      split_ifs with hfinished
      · exact .behind fun _ _ => .pure (.inr ⟨r, rfl, hfinished⟩)
      · exact .pure (.inl hu)

/-- A creation that fails leaves the records alone. -/
theorem yields_createRecord {m : Manager} {r : Record} {α : Type} {post : α → Manager → Prop}
    {q : Except Error Unit → Program Manager α}
    (herror : ∀ e l, l.records = m.log.records → (q (.error e)).Yields post { m with log := l })
    (hok : ∀ u, (q (.ok ())).Yields post u) : (createRecord r >>= q).Yields post m := by
  unfold createRecord
  refine .atomically_bind ?_
  cases hcreate : (m.log.create r).1 with
  | error e => exact herror e _ (Log.records_create_of_error hcreate)
  | ok _ => exact hok _

/-- A request that is not answered leaves the records alone. -/
theorem yields_transition {m : Manager} {id : TxnId} {t : Transition} {α : Type}
    {post : α → Manager → Prop} {q : Except Error TransitionOutcome → Program Manager α}
    (herror : ∀ e l, l.records = m.log.records → (q (.error e)).Yields post { m with log := l })
    (hok : ∀ outcome u, (q (.ok outcome)).Yields post u) : (transition id t >>= q).Yields post m := by
  unfold transition
  refine .atomically_bind ?_
  cases hanswer : (m.log.transition id t).1 with
  | error e => exact herror e _ (Log.records_transition_of_error hanswer)
  | ok outcome => exact hok outcome _

theorem unseen_begin (m : Manager) : begin.Yields (Unseen m True) m := by
  unfold begin drawTimestamp readClock
  refine .atomically_bind ?_
  cases m.oracle.draw.1 with
  | error e => exact .pure (.error e trivial rfl)
  | ok ts =>
    refine .atomically_bind (yields_createRecord (fun e l hl => ?_) fun _ => ?_)
    · exact .pure (.error e trivial (visible_withLog hl))
    · exact .behind fun _ _ => .behind fun _ _ => .pure (.ok _)

theorem unseen_beginReadOnly (m : Manager) : beginReadOnly.Yields (Unseen m True) m := by
  unfold beginReadOnly drawTimestamp
  refine .atomically_bind ?_
  cases m.oracle.draw.1 with
  | error e => exact .pure (.error e trivial rfl)
  | ok ts => exact .behind fun _ _ => .behind fun _ _ => .pure (.ok _)

section Owners

variable (m : Manager) (t : Transaction)

theorem unseen_elevate : (elevate t).Yields
    (fun answer m' => Unseen m (answer.2 = t) answer.1 m') m := by
  unfold elevate readClock
  split_ifs
  · exact .pure (.error _ rfl rfl)
  · exact .pure (.ok ())
  · refine .atomically_bind (yields_createRecord (fun e l hl => ?_) fun _ => ?_)
    · exact .pure (.error e rfl (visible_withLog hl))
    · exact .behind fun _ _ => .pure (.ok ())

theorem unseen_commit : (commit t).Yields
    (fun answer m' => Unseen m (answer.2 = t) answer.1 m') m := by
  unfold commit drawTimestamp readClock
  split_ifs
  · exact .pure (.error _ rfl rfl)
  · exact .behind fun _ _ => .behind fun _ _ => .pure (.ok _)
  · refine .atomically_bind ?_
    cases m.oracle.draw.1 with
    | error e => exact .pure (.error e rfl rfl)
    | ok ts =>
      refine .atomically_bind (.atomically_bind (yields_transition (fun e l hl => ?_)
        fun outcome _ => ?_))
      · exact .pure (.error e rfl (visible_withLog hl))
      cases outcome with
      | applied r =>
        exact .behind fun _ _ => .behind fun _ _ => .behind fun _ _ => .pure (.ok _)
      | unchanged r | rejected r =>
        exact .behind fun _ _ => .behind fun _ _ => .behind fun _ _ => .pure (.conflict _ _)

theorem unseen_rollback : (rollback t).Yields
    (fun answer m' => Unseen m (answer.2 = t) answer.1 m') m := by
  unfold rollback
  cases t.phase with
  | aborted => exact .pure (.ok ())
  | committed => exact .pure (.conflict _ _)
  | active =>
    simp only
    split_ifs
    · exact .behind fun _ _ => .pure (.ok ())
    · refine yields_transition (fun e l hl => .pure (.error e rfl (visible_withLog hl)))
        fun outcome _ => .behind fun _ _ => .behind fun _ _ => ?_
      cases outcome with
      | applied r => exact .behind fun _ _ => .pure (.ok ())
      | unchanged r => exact .pure (.ok ())
      | rejected r => exact .behind fun _ _ => .pure (.conflict _ _)

theorem unseen_fail : (fail t).Yields
    (fun answer m' => Unseen m (answer.2 = t) answer.1 m') m := by
  unfold fail
  split_ifs
  · exact .pure (.ok ())
  · exact .behind fun _ _ => .pure (.ok ())
  · refine yields_transition (fun e l hl => .pure (.error e rfl (visible_withLog hl)))
      fun outcome _ => .behind fun _ _ => .behind fun _ _ => ?_
    cases outcome with
    | applied r => exact .behind fun _ _ => .pure (.ok ())
    | unchanged r | rejected r => exact .pure (.ok ())

end Owners

theorem unseen_status (m : Manager) (id : TxnId) : (status id).Yields (Unseen m True) m := by
  unfold status
  refine .seq (yields_visible_lookup m id) fun answer u hu => ?_
  cases answer with
  | error e => exact .pure (.error e trivial (hu.resolve_right (by simp)))
  | ok r => exact .behind fun _ _ => .behind fun _ _ => .pure (.ok _)

theorem unseen_isVisibleAt (m : Manager) (snapshot : Timestamp) (own : Option TxnId)
    (candidate : TxnId) : (isVisibleAt snapshot own candidate).Yields (Unseen m True) m := by
  unfold isVisibleAt
  split_ifs
  · exact .pure (.ok _)
  · exact .pure (.ok _)
  · refine .seq (unseen_status m candidate) fun answer u hu => ?_
    rcases answer with e | status
    · refine .pure fun e' he => hu e' ?_
      rw [Except.error.inj he]
    · cases status <;> exact .pure (.ok _)

/-- A record that has to be given its end was not finished, so the look-up has not cached it. -/
theorem unseen_settle (m : Manager) (id : TxnId) : (settle id).Yields (Unseen m True) m := by
  unfold settle readClock
  refine .atomically_bind (.seq (yields_visible_lookup m id) fun answer u hu => ?_)
  cases answer with
  | error e => exact .pure (.error e trivial (hu.resolve_right (by simp)))
  | ok r =>
    refine .atomically_bind ?_
    simp only
    split_ifs with hlive
    · exact .pure (.ok _)
    have hseen : u.visible = m.visible := by
      refine hu.resolve_right ?_
      rintro ⟨_, ⟨⟩, hfinished⟩
      have hexpired := status_eq_abandoned_iff.mp (Decidable.not_not.mp hlive)
      have hs := Record.isFinished_eq_false_iff.mpr (Record.state_of_isExpired hexpired)
      exact absurd (hfinished.symm.trans hs) (by decide)
    refine yields_transition (fun e l hl => ?_) fun outcome _ => ?_
    · exact .pure (.error e trivial ((visible_withLog hl).trans hseen))
    cases outcome with
    | applied r => exact .behind fun _ _ => .behind fun _ _ => .behind fun _ _ => .pure (.ok _)
    | unchanged r | rejected r => exact .behind fun _ _ => .pure (.ok _)

/-! ## Requests -/

/-- The error of an answer. -/
def errorOf? {α : Type} : Except Error α → Option Error
  | .error e => some e
  | .ok _ => none

theorem errorOf?_eq_some_iff {α : Type} {answer : Except Error α} {e : Error} :
    errorOf? answer = some e ↔ answer = .error e := by
  cases answer <;> simp [errorOf?]

/-- The error that a request is answered with. -/
def Reply.error? : Reply → Option Error
  | .began answer => errorOf? answer
  | .ended answer => errorOf? answer.1
  | .committed answer => errorOf? answer.1
  | .judged answer => errorOf? answer
  | .visible answer => errorOf? answer
  | .settled answer => errorOf? answer
  | .done => none

namespace Session

variable {s : Session} {request : Request} {reply : Reply} {e : Error}

/-- The request has not changed anything that can be seen. -/
def Untouched (s : Session) (request : Request) : Prop :=
  (s.step request).2.held = s.held ∧ (s.step request).2.manager.visible = s.manager.visible

section

variable (hreply : (s.step request).1 = some reply) (he : reply.error? = some e)
  (hconflict : e.isConflict = false)

include hreply he hconflict

theorem untouched_of_owned {β : Type} {p : Program Manager (Except Error β × Transaction)}
    {f : Except Error β × Transaction → Reply} {k : Nat} {t : Transaction}
    (ht : s.held[k]? = some t) (hprogram : request.program s.held = some (f <$> p))
    (howned : request.owned? = some k) (hf : ∀ answer, (f answer).transaction? = some answer.2)
    (herror : ∀ answer, (f answer).error? = errorOf? answer.1)
    (hp : p.Yields (fun answer m' => Unseen s.manager (answer.2 = t) answer.1 m') s.manager) :
    s.Untouched request := by
  have hstep := step_of_owned hprogram howned hf
  have hanswer : f (p.run s.manager).1 = reply := by
    simpa only [step, hprogram, run_map, Option.some.injEq] using hreply
  have hfailed := errorOf?_eq_some_iff.mp ((herror _).symm.trans (hanswer ▸ he))
  obtain ⟨hkept, hvisible⟩ := hp e hfailed hconflict
  refine ⟨?_, ?_⟩ <;> rw [hstep]
  · obtain ⟨hk, rfl⟩ := List.getElem?_eq_some_iff.mp ht
    simp only [hkept, List.set_getElem_self]
  · exact hvisible

theorem untouched_of_unowned {β : Type} {p : Program Manager (Except Error β)}
    {f : Except Error β → Reply} (hprogram : request.program s.held = some (f <$> p))
    (howned : request.owned? = none) (hf : ∀ e, (f (.error e)).transaction? = none)
    (herror : ∀ answer, (f answer).error? = errorOf? answer)
    (hp : p.Yields (Unseen s.manager True) s.manager) : s.Untouched request := by
  have hanswer : f (p.run s.manager).1 = reply := by
    simpa only [step, hprogram, run_map, Option.some.injEq] using hreply
  have hfailed := errorOf?_eq_some_iff.mp ((herror _).symm.trans (hanswer ▸ he))
  have hvisible := (hp e hfailed hconflict).2
  refine ⟨?_, ?_⟩ <;> simp only [step, hprogram, run_map]
  · simp only [keep, howned, hfailed, hf]
  · exact hvisible

/-- A request that fails without a conflict leaves no trace. -/
theorem step_unseen : s.Untouched request := by
  have unserved (h : s.step request = (none, s)) : s.Untouched request := by
    rw [h] at hreply
    cases hreply
  have owned {β : Type} {p : Program Manager (Except Error β × Transaction)} {f k t} :=
    @untouched_of_owned s request reply e hreply he hconflict β p f k t
  have unowned {β : Type} {p : Program Manager (Except Error β)} {f} :=
    @untouched_of_unowned s request reply e hreply he hconflict β p f
  cases request with
  | begin => exact unowned rfl rfl (fun _ => rfl) (fun _ => rfl) (unseen_begin _)
  | beginReadOnly => exact unowned rfl rfl (fun _ => rfl) (fun _ => rfl) (unseen_beginReadOnly _)
  | elevate k =>
    obtain hnone | ⟨t, ht, hprogram⟩ := held_cases s (.elevate k) rfl
    · exact unserved hnone
    · exact owned ht hprogram rfl (fun _ => rfl) (fun _ => rfl) (unseen_elevate _ t)
  | commit k =>
    obtain hnone | ⟨t, ht, hprogram⟩ := held_cases s (.commit k) rfl
    · exact unserved hnone
    · exact owned ht hprogram rfl (fun _ => rfl) (fun _ => rfl) (unseen_commit _ t)
  | rollback k =>
    obtain hnone | ⟨t, ht, hprogram⟩ := held_cases s (.rollback k) rfl
    · exact unserved hnone
    · exact owned ht hprogram rfl (fun _ => rfl) (fun _ => rfl) (unseen_rollback _ t)
  | fail k =>
    obtain hnone | ⟨t, ht, hprogram⟩ := held_cases s (.fail k) rfl
    · exact unserved hnone
    · exact owned ht hprogram rfl (fun _ => rfl) (fun _ => rfl) (unseen_fail _ t)
  | isVisible k candidate =>
    obtain hnone | ⟨t, -, hprogram⟩ := held_cases s (.isVisible k candidate) rfl
    · exact unserved hnone
    · exact unowned hprogram rfl (fun _ => rfl) (fun _ => rfl) (unseen_isVisibleAt _ _ _ _)
  | status id => exact unowned rfl rfl (fun _ => rfl) (fun _ => rfl) (unseen_status _ id)
  | settle id => exact unowned rfl rfl (fun _ => rfl) (fun _ => rfl) (unseen_settle _ id)
  | renew id | receive | dispatch | work | setClock now | wait d =>
    simp only [step, Request.program, Op.program, run_map, Option.some.injEq] at hreply
    rw [← hreply] at he
    cases he

end

/-- A request that the storage fails changes nothing that anyone in the process can see: not the
records, not the transactions that are held, not what is active, kept alive or cached. Only the
bytes of the log, the oracle, the stopwatch and the counts of cache hits and misses may have moved,
so the request can be put again. -/
theorem storage_failure_unseen {s : Session} {request : Request} {reply : Reply}
    {cause : StorageError} (hreply : (s.step request).1 = some reply)
    (hfail : reply.error? = some (.storage cause)) :
    let s' := (s.step request).2
    s'.held = s.held ∧ (∀ id, s'.manager.log.get? id = s.manager.log.get? id) ∧
      s'.manager.active = s.manager.active ∧ s'.manager.keepAlive = s.manager.keepAlive ∧
      s'.manager.cache.entries = s.manager.cache.entries ∧
      s'.manager.cache.order = s.manager.cache.order ∧ s'.manager.visible = s.manager.visible := by
  intro s'
  obtain ⟨hheld, hvisible⟩ := step_unseen hreply hfail rfl
  obtain ⟨hrecords, hactive, hkeepAlive, hentries, horder⟩ := seen_of_visible hvisible
  exact ⟨hheld, Log.Same.of_records hrecords, hactive, hkeepAlive, hentries, horder, hvisible⟩

/-- A session whose second append is torn. -/
def tornSession : Session :=
  onLog (Log.openedFaulty .shared []
      ⟨fun p => if p = .tornAppend then [⟨false, 1⟩, ⟨true, 1⟩] else []⟩) .default
    (Workload.ownCollaborators 0 Directory.defaultLabel)

/-- A commit whose append is torn leaves its transaction running. -/
theorem storage_failure_unseen_torn :
    let s := tornSession.run [.begin]
    (s.step (.commit 0)).1 =
        some (.committed (.error (.storage Primitive.tornAppend.failure), .new ⟨1⟩ false)) ∧
      (s.step (.commit 0)).2.held = [.new ⟨1⟩ false] ∧
      (s.step (.commit 0)).2.manager.log.get? ⟨1⟩ = some (.start ⟨1⟩ 0 false) ∧
      (s.step (.commit 0)).2.manager.active = [⟨1⟩] := by
  intro s
  have hbegun : s.held = [.new ⟨1⟩ false] ∧ s.manager.log.get? ⟨1⟩ = some (.start ⟨1⟩ 0 false) ∧
      s.manager.active = [⟨1⟩] := by
    simp only [s, tornSession, Log.openedFaulty_nil]
    decide +kernel
  obtain ⟨hheld, hrecord, hactive⟩ := hbegun
  have hreply : (s.step (.commit 0)).1 =
      some (.committed (.error (.storage Primitive.tornAppend.failure), .new ⟨1⟩ false)) := by
    have hcommit : ((commit (.new ⟨1⟩ false)).run s.manager).1 =
        (.error (.storage Primitive.tornAppend.failure), .new ⟨1⟩ false) := by
      simp only [s, tornSession, Log.openedFaulty_nil]
      decide +kernel
    rw [answer_commit (t := .new ⟨1⟩ false) (by rw [hheld]; rfl), hcommit]
  obtain ⟨hkept, hrecords, hstays, -⟩ := storage_failure_unseen hreply rfl
  exact ⟨hreply, hkept.trans hheld, (hrecords ⟨1⟩).trans hrecord, hstays.trans hactive⟩

end Session

end Manager

end TxnEngine
