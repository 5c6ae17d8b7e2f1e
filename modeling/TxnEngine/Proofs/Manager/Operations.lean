import TxnEngine.KeepAlive.Renewal
import TxnEngine.Manager.Operations
import TxnEngine.Proofs.Manager.Discipline

/-!
# What the operations of the transaction manager ensure

Each operation is followed from action to action. All keep to the discipline of transaction
management, and only a commit commits anything: its own transaction, at the timestamp that it drew
with its first action.

Results:
* `ensures_lookup`, `ensures_status`: a looked-up record is the one in the log, if either is
  finished.
* `ensures_isVisibleAt`: an answer that a writer is visible holds from then on, and an answer that
  it is not held when the question was asked.
* `promises_commit`: what a commit commits.
* `ensures_settle`: a settler is told a final status only if the record is finished with it.
-/

namespace TxnEngine

namespace Manager

open Program

variable {m : Manager} (commits : TxnId → Timestamp → Prop)

/-! ## Looking records up -/

/-- What a look-up answers that begins in the state `m`. -/
structure Found (id : TxnId) (m : Manager) (answer : Except Error Record) (m' : Manager) :
    Prop where
  /-- A record that was there is found, and finished ones are found as they were. -/
  before : ∀ r, m.log.get? id = some r →
    ∃ r', answer = .ok r' ∧ (r.isFinished = true → r' = r)
  /-- The record that is found is the one in the log, if it is finished. -/
  after : ∀ r, answer = .ok r → r.id = id ∧ r.Consistent ∧ Stored r m'
  /-- Then there is a record. -/
  present : ∀ r, answer = .ok r → Recorded id m'
  missing : ∀ e, answer = .error e → e = .transactionNotFound id

theorem ensures_lookup (hm : m.Coherent) (id : TxnId) :
    (lookup id).Ensures discipline (May commits) (Found id m) m := by
  unfold lookup
  refine .bind hm (ensures_cached commits id) fun answer t ht hmt hcached => ?_
  cases answer with
  | some r =>
    obtain ⟨hf, hget⟩ := hcached r rfl
    refine .bind ht (ensures_count commits _) fun _ u hu htu _ => ?_
    have hrecorded : Recorded id t := ⟨r, hget⟩
    refine .pure fun v _ huv => ⟨fun r₀ hr₀ => ⟨r, rfl, fun hf₀ => ?_⟩, fun r' hr' => ?_,
      fun _ _ => hrecorded.later (discipline.trans htu huv), fun _ he => by cases he⟩
    · obtain ⟨r', hr', hfixed⟩ := hmt id r₀ hr₀
      rw [hget, hfixed hf₀] at hr'
      exact Option.some.inj hr'
    · cases hr'
      obtain ⟨hid, hc⟩ := ht.valid id r hget
      have hstored : Stored r t := fun _ => hid ▸ hget
      exact ⟨hid, hc, hstored.later (discipline.trans htu huv)⟩
  | none =>
    refine .bind ht (ensures_count commits _) fun _ u hu htu _ => ?_
    refine .bind hu (ensures_getRecord commits id) fun answer v hv huv hfound => ?_
    have hbefore (r : Record) (hr : m.log.get? id = some r) :
        ∃ r', answer = some r' ∧ (r.isFinished = true → r' = r) := by
      obtain ⟨r₁, hr₁, hfixed₁⟩ := discipline.trans hmt htu id r hr
      obtain ⟨r₂, hr₂, hfixed₂⟩ := hfound.2 r₁ hr₁
      refine ⟨r₂, hr₂, fun hf => ?_⟩
      obtain rfl := hfixed₁ hf
      exact hfixed₂ hf
    cases answer with
    | none =>
      refine .pure fun w _ _ => ⟨fun r hr => ?_, nofun, nofun, fun e he => ?_⟩
      · obtain ⟨r', hr', -⟩ := hbefore r hr
        cases hr'
      · exact (Except.error.inj he).symm
    | some r =>
      obtain ⟨hid, hc, hstored, hrecorded⟩ := hfound.1 r rfl
      have hanswer (w : Manager) (hvw : Preserves v w) : Found id m (.ok r) w := by
        refine ⟨fun r₀ hr₀ => ?_, fun r' hr' => ?_, fun _ _ => hrecorded.later hvw,
          fun _ he => by cases he⟩
        · obtain ⟨r', hr', hfixed⟩ := hbefore r₀ hr₀
          cases hr'
          exact ⟨r, rfl, hfixed⟩
        · cases hr'
          exact ⟨hid, hc, hstored.later hvw⟩
      simp only
      split_ifs
      · refine .bind hv (ensures_remember commits hstored) fun _ w _ hvw _ => ?_
        exact .pure fun x _ hwx => hanswer x (discipline.trans hvw hwx)
      · exact .pure fun w _ hvw => hanswer w hvw

/-- What the status of a transaction answers that is asked for in the state `m`. -/
def Judged (id : TxnId) (m : Manager) (answer : Except Error TxnStatus) (m' : Manager) : Prop :=
  (∀ r, m.log.get? id = some r → ∃ status, answer = .ok status) ∧
    ∀ status, answer = .ok status → ∃ r now timeout, status = r.status now timeout ∧
      r.id = id ∧ r.Consistent ∧ Stored r m' ∧
        ∀ r₀, m.log.get? id = some r₀ → r₀.isFinished = true → r = r₀

theorem ensures_status (hm : m.Coherent) (id : TxnId) :
    (status id).Ensures discipline (May commits) (Judged id m) m := by
  unfold status
  refine .bind hm (ensures_lookup commits hm id) fun answer t ht hmt hfound => ?_
  cases answer with
  | error e =>
    refine .pure fun u _ _ => ⟨fun r hr => ?_, fun status h => by cases h⟩
    obtain ⟨r', hr', -⟩ := hfound.before r hr
    cases hr'
  | ok r =>
    refine .bind ht (ensures_read commits _) fun now u hu htu _ => ?_
    refine .bind hu (ensures_read commits _) fun timeout v hv huv _ => ?_
    refine .pure fun w _ hvw => ⟨fun _ _ => ⟨_, rfl⟩, fun status h => ?_⟩
    cases h
    obtain ⟨hid, hc, hstored⟩ := hfound.after r rfl
    refine ⟨r, now, timeout, rfl, hid, hc,
      hstored.later (discipline.trans htu (discipline.trans huv hvw)), fun r₀ hr₀ hf => ?_⟩
    obtain ⟨r', hr', hfixed⟩ := hfound.before r₀ hr₀
    cases hr'
    exact hfixed hf

/-! ## Visibility -/

/-- A reader at `snapshot` sees what the transaction wrote, by its record in the log. -/
def Sees (snapshot : Timestamp) (id : TxnId) (m : Manager) : Prop :=
  ∃ ts, m.log.commitTs? id = some ts ∧ ts ≤ snapshot

/-- What a question about visibility answers that is asked in the state `m`. -/
structure TellsVisible (snapshot : Timestamp) (own : Option TxnId) (candidate : TxnId)
    (m : Manager) (answer : Except Error Bool) (m' : Manager) : Prop where
  answers : ∀ r, m.log.get? candidate = some r → ∃ b, answer = .ok b
  yes : answer = .ok true → own = some candidate ∨
    ¬snapshot ≤ candidate.beginTs ∧ Sees snapshot candidate m'
  no : answer = .ok false → own ≠ some candidate ∧
    (¬snapshot ≤ candidate.beginTs → ¬Sees snapshot candidate m)

/-- A record is judged committed exactly if it has a commit timestamp. -/
theorem status_eq_committed_iff {r : Record} (hc : r.Consistent) {now timeout : Millis}
    {ts : Timestamp} : r.status now timeout = .committed ts ↔ r.commitTs = some ts := by
  unfold Record.Consistent at hc
  unfold Record.status
  cases hs : r.state with
  | active =>
    have hnone : r.commitTs = none := by simpa [hs] using hc
    rw [hnone]
    simp only
    split_ifs <;> simp
  | committed =>
    obtain ⟨ts', hts'⟩ := Option.isSome_iff_exists.mp (hc.mpr hs)
    simp [hts']
  | rolledBack | error =>
    have hnone : r.commitTs = none := by simpa [hs] using hc
    simp [hnone]

/-- A transaction with a commit timestamp has a finished record. -/
theorem finished_of_commitTs? (hm : m.Coherent) {id : TxnId} {ts : Timestamp}
    (h : m.log.commitTs? id = some ts) :
    ∃ r, m.log.get? id = some r ∧ r.isFinished = true ∧ r.commitTs = some ts := by
  obtain ⟨r, hr, hts⟩ := Option.bind_eq_some_iff.mp h
  exact ⟨r, hr, Record.isFinished_of_commitTs (hm.valid id r hr).2 hts, hts⟩

/-- A commit timestamp stays what it is. -/
theorem commitTs?_later {id : TxnId} {ts : Timestamp} {m' : Manager} (hm : m.Coherent)
    (h : m.log.commitTs? id = some ts) (hlead : Preserves m m') :
    m'.log.commitTs? id = some ts := by
  obtain ⟨r, hr, hf, hrts⟩ := finished_of_commitTs? hm h
  obtain ⟨r', hr', hfixed⟩ := hlead id r hr
  rw [Log.commitTs?, hr', hfixed hf, Option.bind_some, hrts]

theorem ensures_isVisibleAt (hm : m.Coherent) (snapshot : Timestamp) (own : Option TxnId)
    (candidate : TxnId) :
    (isVisibleAt snapshot own candidate).Ensures discipline (May commits)
      (TellsVisible snapshot own candidate m) m := by
  unfold isVisibleAt
  split_ifs with hown hold
  · exact .pure fun _ _ _ => ⟨fun _ _ => ⟨_, rfl⟩, fun _ => .inl hown, nofun⟩
  · exact .pure fun _ _ _ =>
      ⟨fun _ _ => ⟨_, rfl⟩, nofun, fun _ => ⟨hown, fun hnew => absurd hold hnew⟩⟩
  · refine .bind hm (ensures_status commits hm candidate) fun answer t ht hmt hjudged => ?_
    cases answer with
    | error e =>
      refine .pure fun _ _ _ => ⟨fun r hr => ?_, nofun, nofun⟩
      obtain ⟨status, hstatus⟩ := hjudged.1 r hr
      cases hstatus
    | ok status =>
      obtain ⟨r, now, timeout, rfl, hid, hc, hstored, hbefore⟩ := hjudged.2 _ rfl
      -- a writer that is seen in `m` has the very record that was judged
      have hseen (h : Sees snapshot candidate m) : ∃ ts, r.commitTs = some ts ∧ ts ≤ snapshot := by
        obtain ⟨ts, hts, hle⟩ := h
        obtain ⟨r₀, hr₀, hf, hrts⟩ := finished_of_commitTs? hm hts
        exact ⟨ts, by rw [hbefore r₀ hr₀ hf, hrts], hle⟩
      cases hstatus : r.status now timeout with
      | committed ts =>
        have hts := (status_eq_committed_iff hc).mp hstatus
        refine .pure fun u _ htu => ⟨fun _ _ => ⟨_, rfl⟩, fun hyes => .inr ⟨hold, ts, ?_, ?_⟩,
          fun hno => ⟨hown, fun _ hsees => ?_⟩⟩
        · have hf := Record.isFinished_of_commitTs hc hts
          rw [Log.commitTs?, ← hid, hstored.later htu hf, Option.bind_some, hts]
        · exact of_decide_eq_true (Except.ok.inj hyes)
        · obtain ⟨ts', hts', hle⟩ := hseen hsees
          rw [hts] at hts'
          cases hts'
          exact of_decide_eq_false (Except.ok.inj hno) hle
      | active | rolledBack | error | abandoned =>
        refine .pure fun u _ _ => ⟨fun _ _ => ⟨_, rfl⟩, nofun, fun _ => ⟨hown, fun _ hsees => ?_⟩⟩
        obtain ⟨ts, hts, -⟩ := hseen hsees
        rw [(status_eq_committed_iff hc).mpr hts] at hstatus
        cases hstatus

/-- A reader that asks alone about an older writer is told whether it sees the writer by the
writer's record. -/
theorem run_isVisible (hm : m.Coherent) {reader : Transaction} {candidate : TxnId} {r : Record}
    (hr : m.log.get? candidate = some r) (hold : candidate.beginTs < reader.snapshot) :
    ∃ b, ((isVisible reader candidate).run m).1 = .ok b ∧
      (b = true ↔ Sees reader.snapshot candidate m) := by
  have hle : ¬reader.snapshot ≤ candidate.beginTs := UInt64.not_le.mpr hold
  have hother : some reader.id ≠ some candidate := by
    intro hsame
    cases hsame
    exact UInt64.lt_irrefl _ hold
  have hensures := ensures_isVisibleAt nothing hm reader.snapshot (some reader.id) candidate
  by_cases hsees : Sees reader.snapshot candidate m
  · obtain ⟨htells, -⟩ := hensures.run hm (fun _ _ _ _ => trivial) trivial
    obtain ⟨b, hb⟩ := htells.answers r hr
    refine ⟨b, hb, fun _ => hsees, fun _ => ?_⟩
    cases b with
    | true => rfl
    | false => exact absurd hsees ((htells.no hb).2 hle)
  · -- nothing is committed while the reader asks
    have hkeeps (t u : Manager) (hmay : May nothing t u) (ht : ¬Sees reader.snapshot candidate t) :
        ¬Sees reader.snapshot candidate u := by
      rintro ⟨ts, hts, hle⟩
      exact ht ⟨ts, (hmay.commits _ _ hts).resolve_right id, hle⟩
    obtain ⟨htells, hstill⟩ := hensures.run hm hkeeps hsees
    obtain ⟨b, hb⟩ := htells.answers r hr
    refine ⟨b, hb, fun htrue => ?_, fun h => absurd h hsees⟩
    subst htrue
    exact ((htells.yes hb).elim (absurd · hother) fun h => absurd h.2 hstill)

/-- A reader that asks alone is told whether it is the writer itself, or sees an older writer by the
writer's record. -/
theorem run_isVisible_iff (hm : m.Coherent) (reader : Transaction) {candidate : TxnId} {r : Record}
    (hr : m.log.get? candidate = some r) :
    ∃ b, ((isVisible reader candidate).run m).1 = .ok b ∧
      (b = true ↔ candidate = reader.id ∨
        candidate.beginTs < reader.snapshot ∧ Sees reader.snapshot candidate m) := by
  by_cases hown : candidate = reader.id
  · refine ⟨true, ?_, by simp [hown]⟩
    rw [isVisible, isVisibleAt, if_pos (by rw [hown])]
    rfl
  by_cases hold : candidate.beginTs < reader.snapshot
  · obtain ⟨b, hb, hiff⟩ := run_isVisible hm hr hold
    exact ⟨b, by rw [hb], by simp [hiff, hown, hold]⟩
  · have hle : reader.snapshot ≤ candidate.beginTs := UInt64.not_lt.mp hold
    refine ⟨false, ?_, by simp [hown, hold]⟩
    rw [isVisible, isVisibleAt, if_neg (by simpa using Ne.symm hown), if_pos hle]
    rfl

/-! ## Beginning -/

/-- A transaction that was begun in the state `m` reads at the timestamp that came next there. -/
def Begins (m : Manager) (answer : Except Error Transaction) : Prop :=
  ∀ t, answer = .ok t → m.oracle.draw.1 = .ok t.snapshot

theorem next_draw (o : Oracle) :
    o.draw.2.next = o.next ∨ o.draw.2.next = o.next.next := by
  unfold Oracle.draw
  split
  · exact .inl rfl
  · exact .inr rfl

theorem step_draw (hm : m.Coherent) :
    discipline.Step (May commits) m { m with oracle := m.oracle.draw.2 } :=
  step_of_eq hm rfl rfl (next_draw m.oracle)

theorem promises_begin (hm : m.Coherent) :
    begin.Promises discipline (May commits) (fun answer _ => Begins m answer) m := by
  unfold begin drawTimestamp
  refine .atomically_bind (step_draw commits hm) ?_
  simp only
  cases hdraw : m.oracle.draw.1 with
  | error e => exact .pure fun _ _ _ => nofun
  | ok ts =>
    refine .bind (step_draw commits hm).holds (ensures_read commits _) fun now t ht _ _ => ?_
    refine .bind ht (ensures_createRecord commits ts now false) fun answer u hu _ _ => ?_
    cases answer with
    | error e => exact .pure fun _ _ _ => nofun
    | ok _ =>
      refine .bind hu (ensures_track commits hu _) fun _ v hv _ _ => ?_
      refine .bind hv (ensures_count commits _) fun _ _ _ _ _ => ?_
      refine .pure fun _ _ _ reader hreader => ?_
      cases hreader
      exact hdraw

theorem promises_beginReadOnly (hm : m.Coherent) :
    beginReadOnly.Promises discipline (May commits) (fun answer _ => Begins m answer) m := by
  unfold beginReadOnly drawTimestamp
  refine .atomically_bind (step_draw commits hm) ?_
  simp only
  cases hdraw : m.oracle.draw.1 with
  | error e => exact .pure fun _ _ _ => nofun
  | ok ts =>
    refine .bind (step_draw commits hm).holds (ensures_modify commits fun _ => ⟨rfl, rfl, rfl⟩)
      fun _ t ht _ _ => ?_
    refine .bind ht (ensures_count commits _) fun _ _ _ _ _ => ?_
    refine .pure fun _ _ _ reader hreader => ?_
    cases hreader
    exact hdraw

theorem ensures_elevate (hm : m.Coherent) (t : Transaction) :
    (elevate t).Ensures discipline (May commits) (fun _ _ => True) m := by
  unfold elevate
  split_ifs
  · exact .pure fun _ _ _ => trivial
  · exact .pure fun _ _ _ => trivial
  · refine .bind hm (ensures_read commits _) fun now u hu _ _ => ?_
    refine .bind hu (ensures_createRecord commits _ _ _) fun answer v hv _ _ => ?_
    cases answer with
    | error e => exact .pure fun _ _ _ => trivial
    | ok _ =>
      refine .bind hv (ensures_track commits hv _) fun _ _ _ _ _ => ?_
      exact .pure fun _ _ _ => trivial

/-! ## Ending -/

/-- What a commit can commit that begins in the state `m`: the transaction itself, at the timestamp
that comes next there. -/
def CommitOf (t : Transaction) (m : Manager) (id : TxnId) (ts : Timestamp) : Prop :=
  id = t.id ∧ t.isActive = true ∧ t.isPersisted = true ∧ m.oracle.draw.1 = .ok ts

/-- Asking for a transition, and going on with the record that is in the log now. -/
theorem ensures_request (hm : m.Coherent) {id : TxnId} {t : Transition} {α : Type}
    {rest : Except Error TransitionOutcome → Program Manager α}
    (hcommits : ∀ ts now timeout, t = .commit ts now timeout → commits id ts)
    (herror : ∀ e u, (rest (.error e)).Ensures discipline (May commits) (fun _ _ => True) u)
    (hok : ∀ outcome u, u.Coherent → Stored outcome.record u →
      (rest (.ok outcome)).Ensures discipline (May commits) (fun _ _ => True) u) :
    (transition id t >>= rest).Ensures discipline (May commits) (fun _ _ => True) m := by
  refine .bind hm (ensures_transition commits hcommits) fun answer u hu _ hanswered => ?_
  cases answer with
  | error e => exact herror e u
  | ok outcome => exact hok outcome u hu (hanswered.granted outcome rfl).2.2.1

/-- Letting a transaction go whose record is finished. -/
theorem ensures_release (hm : m.Coherent) (id : TxnId) {r : Record} (hr : Stored r m)
    {α : Type} {rest : Program Manager α}
    (hrest : ∀ t, t.Coherent → rest.Ensures discipline (May commits) (fun _ _ => True) t) :
    (do untrack id; remember r; rest).Ensures discipline (May commits) (fun _ _ => True) m := by
  refine .bind hm (ensures_untrack commits hm id) fun _ t ht hmt _ => ?_
  refine .bind ht (ensures_remember commits (hr.later hmt)) fun _ u hu _ _ => ?_
  exact hrest u hu

/-- Counting an event before the answer. -/
theorem ensures_count_pure {α : Type} (hm : m.Coherent) (event : Metrics.Event) (a : α) :
    (do count event; return a).Ensures discipline (May commits) (fun _ _ => True) m :=
  .bind hm (ensures_count commits event) fun _ _ _ _ _ => .pure fun _ _ _ => trivial

theorem promises_commit (hm : m.Coherent) (t : Transaction) :
    (commit t).Promises discipline (May (CommitOf t m)) (fun _ _ => True) m := by
  unfold commit
  split_ifs with hactive hpersisted
  · exact Ensures.promises (May.refl _) (.pure fun _ _ _ => trivial) hm
  · refine Ensures.promises (May.refl _) ?_ hm
    refine .bind hm (ensures_untrack _ hm _) fun _ u hu _ _ => ?_
    exact ensures_count_pure _ hu _ _
  · unfold drawTimestamp
    refine .atomically_bind (step_draw _ hm) ?_
    simp only
    cases hdraw : m.oracle.draw.1 with
    | error e => exact .pure fun _ _ _ => trivial
    | ok ts =>
      refine .bind (step_draw (CommitOf t m) hm).holds (ensures_read _ _) fun now u hu _ _ => ?_
      refine .bind hu (ensures_read _ _) fun timeout v hv _ _ => ?_
      refine ensures_request _ hv (fun ts' _ _ h => ?_) (fun _ _ => .pure fun _ _ _ => trivial)
        fun outcome w hw hr => ?_
      · cases h
        exact ⟨rfl, by simpa using hactive, by simpa using hpersisted, hdraw⟩
      cases outcome with
      | applied r => exact ensures_release _ hw _ hr fun x hx => ensures_count_pure _ hx _ _
      | unchanged r => exact ensures_release _ hw _ hr fun x hx => ensures_count_pure _ hx _ _
      | rejected r => exact ensures_release _ hw _ hr fun x hx => ensures_count_pure _ hx _ _

theorem ensures_rollback (hm : m.Coherent) (t : Transaction) :
    (rollback t).Ensures discipline (May commits) (fun _ _ => True) m := by
  unfold rollback
  cases t.phase with
  | aborted => exact .pure fun _ _ _ => trivial
  | committed => exact .pure fun _ _ _ => trivial
  | active =>
    simp only
    split_ifs
    · refine .bind hm (ensures_untrack commits hm _) fun _ _ _ _ _ => ?_
      exact .pure fun _ _ _ => trivial
    · refine ensures_request _ hm nofun (fun _ _ => .pure fun _ _ _ => trivial)
        fun outcome u hu hr => ?_
      refine ensures_release _ hu _ hr fun x hx => ?_
      cases outcome with
      | applied r => exact ensures_count_pure _ hx _ _
      | unchanged r => exact .pure fun _ _ _ => trivial
      | rejected r => exact ensures_count_pure _ hx _ _

theorem ensures_fail (hm : m.Coherent) (t : Transaction) :
    (fail t).Ensures discipline (May commits) (fun _ _ => True) m := by
  unfold fail
  split_ifs
  · exact .pure fun _ _ _ => trivial
  · refine .bind hm (ensures_untrack commits hm _) fun _ _ _ _ _ => ?_
    exact .pure fun _ _ _ => trivial
  · refine ensures_request _ hm nofun (fun _ _ => .pure fun _ _ _ => trivial)
      fun outcome u hu hr => ?_
    refine ensures_release _ hu _ hr fun x hx => ?_
    cases outcome with
    | applied r => exact ensures_count_pure _ hx _ _
    | unchanged r => exact .pure fun _ _ _ => trivial
    | rejected r => exact .pure fun _ _ _ => trivial

/-! ## Settling and renewing -/

/-- The record is finished, with that final status. -/
def Ends (id : TxnId) (status : FinalStatus) (m : Manager) : Prop :=
  ∃ r, m.log.get? id = some r ∧ r.isFinished = true ∧
    ∀ now timeout, (r.status now timeout).final? = some status

theorem Ends.later {id : TxnId} {status : FinalStatus} {m' : Manager} (h : Ends id status m)
    (hlead : Preserves m m') : Ends id status m' := by
  obtain ⟨r, hr, hf, hstatus⟩ := h
  obtain ⟨r', hr', hfixed⟩ := hlead id r hr
  obtain rfl := hfixed hf
  exact ⟨r', hr', hf, hstatus⟩

/-- A record has one final status. -/
theorem Ends.unique {id : TxnId} {status status' : FinalStatus} (h : Ends id status m)
    (h' : Ends id status' m) : status = status' := by
  obtain ⟨r, hr, -, hstatus⟩ := h
  obtain ⟨r', hr', -, hstatus'⟩ := h'
  obtain rfl := Option.some.inj (hr.symm.trans hr')
  exact Option.some.inj ((hstatus 0 0).symm.trans (hstatus' 0 0))

/-- What a finished record means does not depend on the time. -/
theorem status_of_isFinished {r : Record} (hf : r.isFinished = true)
    (now timeout now' timeout' : Millis) : r.status now timeout = r.status now' timeout' := by
  cases hs : r.state <;> simp_all [Record.isFinished, TxnState.isFinished, Record.status]

/-- A record that is judged to be final, and is not abandoned, is finished. -/
theorem isFinished_of_final? {r : Record} {now timeout : Millis} {status : FinalStatus}
    (hfinal : (r.status now timeout).final? = some status)
    (hne : r.status now timeout ≠ .abandoned) : r.isFinished = true := by
  cases hs : r.state with
  | active =>
    by_cases he : r.isExpired now timeout = true
    · simp [Record.status, hs, he] at hne
    · simp [Record.status, hs, he, TxnStatus.final?] at hfinal
  | committed | rolledBack | error => simp [Record.isFinished, TxnState.isFinished, hs]

theorem isFinished_of_final?_none {r : Record} {now timeout : Millis}
    (h : (r.status now timeout).final? = none) : r.isFinished = false := by
  rw [Record.isFinished_eq_false_iff]
  cases hs : r.state <;> cases hts : r.commitTs <;>
    simp_all [Record.status, TxnStatus.final?]

theorem isFinished_of_abandoned {r : Record} {now timeout : Millis}
    (h : r.status now timeout = .abandoned) : r.isFinished = false := by
  rw [Record.isFinished_eq_false_iff]
  cases hs : r.state <;> cases hts : r.commitTs <;> simp_all [Record.status]

theorem Stored.ends {r : Record} (hr : Stored r m) {now timeout : Millis} {status : FinalStatus}
    (hfinal : (r.status now timeout).final? = some status)
    (hne : r.status now timeout ≠ .abandoned) : Ends r.id status m := by
  have hf := isFinished_of_final? hfinal hne
  refine ⟨r, hr hf, hf, fun now' timeout' => ?_⟩
  rw [status_of_isFinished hf now' timeout' now timeout, hfinal]

/-- A record that was asked to be abandoned is not judged to be abandoned any more. -/
theorem status_abandon_ne {r : Record} (now timeout : Millis) :
    (r.apply (.abandon now timeout)).record.status now timeout ≠ .abandoned := by
  cases hs : r.state with
  | active =>
    by_cases he : r.isExpired now timeout = true <;>
      simp [Record.apply, TransitionOutcome.record, Record.status, hs, he]
  | committed =>
    cases hts : r.commitTs <;>
      simp [Record.apply, TransitionOutcome.record, Record.status, hs, hts]
  | rolledBack | error => simp [Record.apply, TransitionOutcome.record, Record.status, hs]

/-- What a settler is told that begins in the state `m`. -/
structure Settles (id : TxnId) (m : Manager) (answer : Except Error (Option FinalStatus))
    (m' : Manager) : Prop where
  final : ∀ status, answer = .ok (some status) → Ends id status m'
  live : answer = .ok none → Recorded id m' ∧ ∀ r, m.log.get? id = some r → r.isFinished = false
  refused : ∀ e, answer = .error e →
    e = .transactionNotFound id ∧ ¬Recorded id m ∨ ∃ cause, e = .storage cause

theorem Settles.later {id : TxnId} {answer : Except Error (Option FinalStatus)} {m' m'' : Manager}
    (h : Settles id m answer m') (hlead : Preserves m' m'') : Settles id m answer m'' :=
  ⟨fun status hs => (h.final status hs).later hlead,
    fun hl => ⟨(h.live hl).1.later hlead, (h.live hl).2⟩, h.refused⟩

theorem Settles.earlier {id : TxnId} {answer : Except Error (Option FinalStatus)} {m' m'' : Manager}
    (h : Settles id m' answer m'') (hlead : Preserves m m') : Settles id m answer m'' := by
  refine ⟨h.final, fun hl => ⟨(h.live hl).1, fun r hr => ?_⟩, fun e he => ?_⟩
  · obtain ⟨r', hr', hfixed⟩ := hlead id r hr
    by_contra hf
    obtain rfl := hfixed (by simpa using hf)
    exact hf ((h.live hl).2 r' hr')
  · refine (h.refused e he).imp_left fun ⟨hmissing, hnone⟩ => ⟨hmissing, fun hrecorded => ?_⟩
    exact hnone (hrecorded.later hlead)

/-- If a live record was found, there was no finished one. -/
theorem Found.live {id : TxnId} {r : Record} {m' : Manager} (h : Found id m (.ok r) m')
    (hlive : r.isFinished = false) :
    ∀ r₀, m.log.get? id = some r₀ → r₀.isFinished = false := by
  intro r₀ hr₀
  by_contra hf
  obtain ⟨r', hr', hfixed⟩ := h.before r₀ hr₀
  cases hr'
  obtain rfl := hfixed (by simpa using hf)
  exact hf hlive

/-- The judgement of a record that was found, if it is not abandoned. -/
theorem Found.settles {id : TxnId} {r : Record} {m' : Manager} (h : Found id m (.ok r) m')
    {now timeout : Millis} (hne : r.status now timeout ≠ .abandoned) :
    Settles id m (.ok (r.status now timeout).final?) m' := by
  obtain ⟨hid, -, hstored⟩ := h.after r rfl
  refine ⟨fun status hs => ?_, fun hl => ⟨h.present r rfl, h.live ?_⟩, fun _ he => by cases he⟩
  · rw [← hid]
    exact hstored.ends (Except.ok.inj hs) hne
  · exact isFinished_of_final?_none (Except.ok.inj hl)

/-- The judgement of the record that an expired one was answered with. -/
theorem Answered.settles {id : TxnId} {now timeout : Millis} {outcome : TransitionOutcome}
    {m' m'' : Manager} (h : Answered id (.abandon now timeout) m' (.ok outcome) m'')
    (hlive : ∀ r, m.log.get? id = some r → r.isFinished = false) :
    Settles id m (.ok (outcome.record.status now timeout).final?) m'' := by
  obtain ⟨⟨r, -, rfl⟩, hid, hstored, hrecorded⟩ := h.granted outcome rfl
  refine ⟨fun status hs => ?_, fun _ => ⟨hrecorded, hlive⟩, fun _ he => by cases he⟩
  rw [← hid]
  exact hstored.ends (Except.ok.inj hs) (status_abandon_ne now timeout)

theorem ensures_settle (hm : m.Coherent) (id : TxnId) :
    (settle id).Ensures discipline (May commits) (Settles id m) m := by
  unfold settle
  refine .bind hm (ensures_read commits _) fun now t ht hmt _ => ?_
  refine .mono (fun _ _ (h : Settles id t _ _) => h.earlier hmt) ?_
  refine .bind ht (ensures_lookup commits ht id) fun answer u hu htu hfound => ?_
  cases answer with
  | error e =>
    refine .pure fun _ _ _ => ⟨nofun, nofun, fun e' he => .inl ⟨?_, fun ⟨r, hr⟩ => ?_⟩⟩
    · rw [← Except.error.inj he]
      exact hfound.missing e rfl
    · obtain ⟨r', hr', -⟩ := hfound.before r hr
      cases hr'
  | ok r =>
    refine .bind hu (ensures_read commits _) fun timeout v hv huv _ => ?_
    simp only
    split_ifs with hstatus
    · exact .pure fun w _ hvw => (hfound.settles hstatus).later (discipline.trans huv hvw)
    · have hlive := hfound.live (isFinished_of_abandoned (not_not.mp hstatus))
      refine .bind hv (ensures_transition commits nofun) fun answer w hw hvw hanswered => ?_
      cases answer with
      | error e =>
        refine .pure fun _ _ _ => ⟨nofun, nofun, fun e' he => .inr ?_⟩
        rw [← Except.error.inj he]
        refine (hanswered.refused e rfl).resolve_left fun ⟨_, hnone⟩ => ?_
        exact hnone ((hfound.present r rfl).later huv)
      | ok outcome =>
        have hstored := (hanswered.granted outcome rfl).2.2.1
        have hsettles := hanswered.settles hlive
        -- what is left after the bookkeeping of an applied request
        have hrest {x : Manager} (hx : x.Coherent) (hwx : Preserves w x) :
            (do
              remember outcome.record
              return .ok (outcome.record.status now timeout).final? :
                Program Manager (Except Error (Option FinalStatus))).Ensures discipline
                  (May commits) (Settles id t) x := by
          refine .bind hx (ensures_remember commits (hstored.later hwx)) fun _ y _ hxy _ => ?_
          exact .pure fun z _ hyz =>
            hsettles.later (discipline.trans hwx (discipline.trans hxy hyz))
        cases outcome with
        | applied r =>
          refine .bind hw (ensures_count commits _) fun _ x hx hwx _ => ?_
          refine .bind hx (ensures_untrack commits hx id) fun _ y hy hxy _ => ?_
          exact hrest hy (discipline.trans hwx hxy)
        | unchanged r => exact hrest hw (discipline.refl w)
        | rejected r => exact hrest hw (discipline.refl w)

theorem ensures_renew (hm : m.Coherent) (id : TxnId) :
    (renew id).Ensures discipline (May commits) (fun _ _ => True) m := by
  unfold renew
  refine .bind hm (ensures_read commits _) fun now t ht _ _ => ?_
  refine .bind ht (ensures_read commits _) fun connected u hu _ _ => ?_
  split_ifs
  · exact ensures_count commits _
  · refine .bind hu (ensures_read commits _) fun timeout v hv _ _ => ?_
    refine .bind hv (ensures_transition commits nofun) fun answer w _ _ _ => ?_
    split
    · exact ensures_count commits _
    · exact .pure fun _ _ _ => trivial
    · exact ensures_onKeepAlive commits _
    · exact ensures_onKeepAlive commits _
    · exact ensures_count commits _

theorem ensures_work (hm : m.Coherent) :
    work.Ensures discipline (May commits) (fun _ _ => True) m := by
  unfold work
  refine .bind hm (ensures_onKeepAlive commits _) fun due t ht _ _ => ?_
  cases due with
  | none => exact .pure fun _ _ _ => trivial
  | some id =>
    refine .bind ht (ensures_read commits _) fun registered u hu _ _ => ?_
    split_ifs
    · exact ensures_renew commits hu id
    · exact .pure fun _ _ _ => trivial

end Manager

end TxnEngine
