import TxnEngine.Proofs.Log.Scan
import TxnEngine.Proofs.Storage.FaultyCalls

/-!
# Calls on a log

The calls that write to a log, and what each of them asks the log to keep: `Log.image?` is the image
that a call makes durable, if it makes one. Everything else a call does follows from it.

Results:
* `Record.image?_cases`: all that a request can make of a record.
* `transition_eq`, `after_eq`: a call persists its image, and changes nothing if it has none.
* `persist_holding`, `persist_faulty`: what persisting an image does, without faults and under any.
* `valid_run`: every record in the table stands under its own id and can be read back.
* `get?_run_of_finished`: a finished record stays.
-/

namespace TxnEngine

namespace Record

/-! ## What a request makes of a record -/

/-- The new image of a record whose request is granted, or rejected for being expired. -/
def image? (r : Record) (t : Transition) : Option Record :=
  match r.apply t with
  | .applied next => some next
  | .rejected next => if next = r then none else some next
  | .unchanged _ => none

theorem image?_of_applied {r next : Record} {t : Transition} (h : r.apply t = .applied next) :
    r.image? t = some next := by
  rw [image?, h]

theorem image?_of_expired {r : Record} {t : Transition} (hs : r.state = .active)
    (h : r.apply t = .rejected { r with state := .rolledBack }) :
    r.image? t = some { r with state := .rolledBack } := by
  have hne : ({ r with state := .rolledBack } : Record) ≠ r := fun he => by
    simpa [hs] using congrArg Record.state he
  simp only [image?, h, if_neg hne]

theorem isFinished_eq_false_iff {r : Record} : r.isFinished = false ↔ r.state = .active := by
  cases hs : r.state <;> simp [isFinished, TxnState.isFinished, hs]

/-- Of the records that can be read back only finished ones have a commit timestamp. -/
theorem isFinished_of_commitTs {r : Record} (hc : r.Consistent) {ts : Timestamp}
    (hts : r.commitTs = some ts) : r.isFinished = true := by
  have hs : r.state = .committed := hc.mp (by rw [hts]; rfl)
  rw [isFinished, hs]
  rfl

theorem eq_of_apply_unchanged {r next : Record} {t : Transition}
    (h : r.apply t = .unchanged next) : next = r := by
  cases hf : r.isFinished with
  | true =>
    rcases apply_finished r t hf with ha | ha <;> rw [ha] at h <;> cases h
    rfl
  | false =>
    -- a live record is never left unchanged
    have hs := isFinished_eq_false_iff.mp hf
    cases t with
    | rollback => simp [apply, hs] at h
    | fail => simp [apply, hs] at h
    | commit ts now timeout | keepAlive now timeout | abandon now timeout =>
      by_cases he : r.isExpired now timeout <;> simp [apply, hs, he] at h

/-- The record that a request is answered with. -/
theorem record_apply (r : Record) (t : Transition) :
    (r.apply t).record = (r.image? t).getD r := by
  unfold image?
  cases ha : r.apply t with
  | applied next => rfl
  | rejected next => by_cases hn : next = r <;> simp [TransitionOutcome.record, hn]
  | unchanged next =>
    obtain rfl := eq_of_apply_unchanged ha
    rfl

theorem image?_finished {r : Record} (h : r.isFinished = true) (t : Transition) :
    r.image? t = none := by
  rcases apply_finished r t h with ha | ha <;> simp [image?, ha]

theorem record_apply_of_finished {r : Record} (h : r.isFinished = true) (t : Transition) :
    (r.apply t).record = r := by
  rw [record_apply, image?_finished h, Option.getD_none]

theorem state_of_image? {r next : Record} {t : Transition} (h : r.image? t = some next) :
    r.state = .active := by
  rw [← isFinished_eq_false_iff, ← Bool.not_eq_true]
  intro hf
  rw [image?_finished hf] at h
  cases h

/-- All that a request can make of a record. -/
theorem image?_cases {r next : Record} {t : Transition} (h : r.image? t = some next) :
    (∃ ts now timeout, t = .commit ts now timeout ∧ r.apply t = .applied next ∧
        next = { r with state := .committed, commitTs := some ts }) ∨
      (∃ now, r.apply t = .applied next ∧
        next = { r with lastKeepAlive := max r.lastKeepAlive now }) ∨
      (r.apply t = .applied next ∧ next = { r with state := .error }) ∨
      ((r.apply t = .applied next ∨ r.apply t = .rejected next) ∧
        next = { r with state := .rolledBack }) := by
  have hs := state_of_image? h
  -- the answer tells the image
  have applied (made : Record) (ha : r.apply t = .applied made) :
      r.apply t = .applied next ∧ next = made := by
    rw [image?_of_applied ha] at h
    cases h
    exact ⟨ha, rfl⟩
  have expired (ha : r.apply t = .rejected { r with state := .rolledBack }) :
      r.apply t = .rejected next ∧ next = { r with state := .rolledBack } := by
    rw [image?_of_expired hs ha] at h
    cases h
    exact ⟨ha, rfl⟩
  cases t with
  | commit ts now timeout =>
    by_cases he : r.isExpired now timeout
    · obtain ⟨ha, hn⟩ := expired (by simp [apply, hs, he])
      exact .inr (.inr (.inr ⟨.inr ha, hn⟩))
    · obtain ⟨ha, hn⟩ := applied { r with state := .committed, commitTs := some ts }
        (by simp [apply, hs, he])
      exact .inl ⟨ts, now, timeout, rfl, ha, hn⟩
  | rollback =>
    obtain ⟨ha, hn⟩ := applied { r with state := .rolledBack } (by simp [apply, hs])
    exact .inr (.inr (.inr ⟨.inl ha, hn⟩))
  | fail =>
    obtain ⟨ha, hn⟩ := applied { r with state := .error } (by simp [apply, hs])
    exact .inr (.inr (.inl ⟨ha, hn⟩))
  | keepAlive now timeout =>
    by_cases he : r.isExpired now timeout
    · obtain ⟨ha, hn⟩ := expired (by simp [apply, hs, he])
      exact .inr (.inr (.inr ⟨.inr ha, hn⟩))
    · obtain ⟨ha, hn⟩ := applied { r with lastKeepAlive := max r.lastKeepAlive now }
        (by simp [apply, hs, he])
      exact .inr (.inl ⟨now, ha, hn⟩)
  | abandon now timeout =>
    by_cases he : r.isExpired now timeout
    · obtain ⟨ha, hn⟩ := applied { r with state := .rolledBack } (by simp [apply, hs, he])
      exact .inr (.inr (.inr ⟨.inl ha, hn⟩))
    · simp [image?, apply, hs, he] at h

/-- A new image keeps what identifies the transaction, and can be read back. -/
theorem image?_keeps {r next : Record} {t : Transition} (h : r.image? t = some next)
    (hc : r.Consistent) :
    next.id = r.id ∧ next.beginTs = r.beginTs ∧ next.readOnly = r.readOnly ∧
      r.lastKeepAlive ≤ next.lastKeepAlive ∧ next.Consistent := by
  have hs := state_of_image? h
  have hnone : r.commitTs = none := by
    simpa [Consistent, hs] using hc
  rcases image?_cases h with ⟨ts, now, timeout, -, -, rfl⟩ | ⟨now, -, rfl⟩ | ⟨-, rfl⟩ | ⟨-, rfl⟩
  · simp [Consistent]
  · refine ⟨rfl, rfl, rfl, ?_, by simp [Consistent, hs, hnone]⟩
    simp only [max]
    split
    · assumption
    · exact UInt64.le_refl _
  · simp [Consistent, hnone]
  · simp [Consistent, hnone]

end Record

namespace Log

/-! ## Calls -/

/-- A call that writes. The records that are created are those of transactions that begin. -/
inductive Call where
  | create (ts : Timestamp) (now : Millis) (readOnly : Bool)
  | transition (id : TxnId) (t : Transition)
deriving DecidableEq, Inhabited

/-- The log after a call. -/
def after (l : Log) : Call → Log
  | .create ts now readOnly => (l.create (.start ts now readOnly)).2
  | .transition id t => (l.transition id t).2

/-- The log after calls made one behind the other. -/
def run (l : Log) (calls : List Call) : Log :=
  calls.foldl after l

/-- The image that a call asks the log to keep, if it makes one. -/
def image? (l : Log) : Call → Option Record
  | .create ts now readOnly =>
    if l.records.has (.ofBegin ts) then none else some (.start ts now readOnly)
  | .transition id t => (l.get? id).bind fun r => r.image? t

@[simp]
theorem run_nil (l : Log) : l.run [] = l := rfl

@[simp]
theorem run_cons (l : Log) (c : Call) (calls : List Call) :
    l.run (c :: calls) = (l.after c).run calls := rfl

theorem run_append (l : Log) (a b : List Call) : l.run (a ++ b) = (l.run a).run b :=
  List.foldl_append

/-- A request on a record persists the image it makes, and does nothing else. -/
theorem transition_eq {l : Log} {id : TxnId} {r : Record} (h : l.get? id = some r)
    (t : Transition) :
    l.transition id t =
      match r.image? t with
      | none => (.ok (r.apply t), l)
      | some next => ((l.persist next).1.map fun _ => r.apply t, (l.persist next).2) := by
  simp only [transition, h]
  unfold Record.image?
  cases ha : r.apply t with
  | applied next =>
    rcases hp : l.persist next with ⟨_ | _, _⟩ <;> simp only [TransitionOutcome.record, hp] <;> rfl
  | rejected next =>
    by_cases hn : next = r
    · simp [hn]
    · simp only [ne_eq, hn, not_false_eq_true, decide_true, if_true, if_false]
      rcases hp : l.persist next with ⟨_ | _, _⟩ <;> simp only [TransitionOutcome.record, hp] <;> rfl
  | unchanged next => simp

theorem after_eq (l : Log) (c : Call) :
    l.after c = ((l.image? c).map fun r => (l.persist r).2).getD l := by
  cases c with
  | create ts now readOnly =>
    have hid : (Record.start ts now readOnly).id = .ofBegin ts := rfl
    simp only [after, create, image?, hid]
    cases h : l.records.has (.ofBegin ts) <;> simp
  | transition id t =>
    simp only [after, image?]
    cases hr : l.get? id with
    | none => simp [transition, hr]
    | some r =>
      rw [transition_eq hr, Option.bind_some]
      cases r.image? t <;> rfl

/-! ## Persisting -/

theorem persist_holding (h : Handle) (bytes : Bytes) (records : RecordTable) (r : Record) :
    (⟨.holding h bytes .none, records⟩ : Log).persist r =
      (.ok (), ⟨.holding h (bytes ++ r.encode) .none, records.insert r.id r⟩) := by
  simp only [persist, Store.append_holding, Faults.take_none, Store.flush_holding,
    Store.sync_holding, Bool.false_eq_true, if_false]
  split <;> rfl

/-- What persisting an image does under any schedule of faults. The first primitive that fails ends
it, and what was appended before stays. -/
theorem persist_faulty (h : Handle) (bytes : Bytes) (f : Faults) (records : RecordTable)
    (r : Record) :
    ∃ f', (⟨.holding h bytes f, records⟩ : Log).persist r =
      if f.fails .append 0 then
        (.error (.storage Primitive.append.failure), ⟨.holding h bytes f', records⟩)
      else if f.fails .tornAppend 0 then
        (.error (.storage Primitive.tornAppend.failure),
          ⟨.holding h (bytes ++ r.encode.take (r.encode.length / 2)) f', records⟩)
      else if f.fails .flush 0 then
        (.error (.storage Primitive.flush.failure), ⟨.holding h (bytes ++ r.encode) f', records⟩)
      else if r.isFinished = true ∧ f.fails .sync 0 = true then
        (.error (.storage Primitive.sync.failure), ⟨.holding h (bytes ++ r.encode) f', records⟩)
      else (.ok (), ⟨.holding h (bytes ++ r.encode) f', records.insert r.id r⟩) := by
  have htorn : (f.take .append).2.fails .tornAppend = f.fails .tornAppend :=
    Faults.fails_take_of_ne _ _ (by decide)
  rw [persist, Store.append_holding]
  simp only [Faults.fst_take, htorn]
  cases f.fails .append 0 with
  | true => exact ⟨_, rfl⟩
  | false =>
    cases f.fails .tornAppend 0 with
    | true => exact ⟨_, rfl⟩
    | false =>
      obtain ⟨f₁, hf₁⟩ : ∃ f₁, f₁ = ((f.take .append).2.take .tornAppend).2 := ⟨_, rfl⟩
      have hflush : f₁.fails .flush = f.fails .flush := by
        rw [hf₁, Faults.fails_take_of_ne _ _ (by decide), Faults.fails_take_of_ne _ _ (by decide)]
      have hsync : (f₁.take .flush).2.fails .sync = f.fails .sync := by
        rw [Faults.fails_take_of_ne _ _ (by decide), hf₁, Faults.fails_take_of_ne _ _ (by decide),
          Faults.fails_take_of_ne _ _ (by decide)]
      simp only [← hf₁, Bool.false_eq_true, if_false, Store.flush_faulty, hflush]
      cases f.fails .flush 0 with
      | true => exact ⟨_, rfl⟩
      | false =>
        simp only [Bool.false_eq_true, if_false, Store.sync_faulty, hsync]
        cases r.isFinished with
        | false => exact ⟨_, rfl⟩
        | true => cases f.fails .sync 0 <;> exact ⟨_, rfl⟩

/-- Whatever fails, an image is in the table only if it is in the log; of an image that is not in
the table, the log has nothing, the first half or all. -/
theorem persist_cases (h : Handle) (bytes : Bytes) (f : Faults) (records : RecordTable)
    (r : Record) :
    (∃ f', (⟨.holding h bytes f, records⟩ : Log).persist r =
        (.ok (), ⟨.holding h (bytes ++ r.encode) f', records.insert r.id r⟩)) ∨
      ∃ e f' part, (part = [] ∨ part = r.encode ∨ part = r.encode.take (r.encode.length / 2)) ∧
        (⟨.holding h bytes f, records⟩ : Log).persist r =
          (.error e, ⟨.holding h (bytes ++ part) f', records⟩) := by
  obtain ⟨f', hp⟩ := persist_faulty h bytes f records r
  split_ifs at hp
  · exact .inr ⟨_, f', [], .inl rfl, by rw [hp, List.append_nil]⟩
  · exact .inr ⟨_, f', _, .inr (.inr rfl), hp⟩
  · exact .inr ⟨_, f', _, .inr (.inl rfl), hp⟩
  · exact .inr ⟨_, f', _, .inr (.inl rfl), hp⟩
  · exact .inl ⟨f', hp⟩

/-- Persisting puts the image into the table, or fails and leaves the table alone. -/
theorem records_persist (l : Log) (r : Record) :
    (∃ e, (l.persist r).1 = .error e ∧ (l.persist r).2.records = l.records) ∨
      (l.persist r).1 = .ok () ∧ (l.persist r).2.records = l.records.insert r.id r := by
  unfold persist
  repeat' split
  all_goals simp

/-- Only the storage keeps an image from being persisted. -/
theorem error_persist {l : Log} {r : Record} {e : Error} (h : (l.persist r).1 = .error e) :
    ∃ cause, e = .storage cause := by
  unfold persist at h
  repeat' split at h
  all_goals cases h
  all_goals exact ⟨_, rfl⟩

/-- A request is answered by the record, unless there is none or the storage fails. -/
theorem answer_cases (l : Log) (id : TxnId) (t : Transition) :
    (∃ r, l.get? id = some r ∧ (l.transition id t).1 = .ok (r.apply t)) ∨
      ((l.transition id t).1 = .error (.transactionNotFound id) ∧ l.get? id = none) ∨
      ∃ cause, (l.transition id t).1 = .error (.storage cause) := by
  cases hr : l.get? id with
  | none => exact .inr (.inl ⟨by simp [transition, hr], rfl⟩)
  | some r =>
    rw [transition_eq hr]
    cases r.image? t with
    | none => exact .inl ⟨r, rfl, rfl⟩
    | some next =>
      simp only
      cases hp : (l.persist next).1 with
      | ok _ => exact .inl ⟨r, rfl, rfl⟩
      | error e =>
        obtain ⟨cause, rfl⟩ := error_persist hp
        exact .inr (.inr ⟨cause, rfl⟩)

/-! ## What the table holds -/

/-- Every record stands under its own id and can be read back. -/
def Valid (records : RecordTable) : Prop :=
  ∀ id r, records.find? id = some r → r.id = id ∧ r.Consistent

theorem valid_nil : Valid [] := by
  intro id r hr
  cases hr

theorem Valid.insert {records : RecordTable} (hv : Valid records) {r : Record}
    (hc : r.Consistent) : Valid (records.insert r.id r) := by
  intro id s hs
  by_cases hid : r.id = id
  · subst hid
    rw [Table.find?_insert_self] at hs
    cases hs
    exact ⟨rfl, hc⟩
  · rw [Table.find?_insert_of_ne _ _ hid] at hs
    exact hv id s hs

theorem Valid.fill {records : RecordTable} (hv : Valid records) {images : List Record}
    (hc : ∀ r ∈ images, r.Consistent) : Valid (fill records images) := by
  induction images generalizing records with
  | nil => exact hv
  | cons r images ih =>
    exact ih (hv.insert (hc r List.mem_cons_self)) fun s hs => hc s (List.mem_cons_of_mem _ hs)

theorem valid_opened (h : Handle) (bytes : Bytes) : Valid (opened h bytes).records :=
  valid_nil.fill fun _ => consistent_of_mem_scan

/-- An image is that of a transaction that was not there, or a request makes it of the record that
stands in its place. -/
theorem image?_cases {l : Log} (hv : Valid l.records) {c : Call} {r : Record}
    (h : l.image? c = some r) :
    (∃ ts now readOnly, c = .create ts now readOnly ∧ r = .start ts now readOnly ∧
        l.get? r.id = none) ∨
      ∃ t old, c = .transition r.id t ∧ l.get? r.id = some old ∧ old.image? t = some r ∧
        old.Consistent := by
  cases c with
  | create ts now readOnly =>
    simp only [image?] at h
    split_ifs at h with hhas
    cases h
    have hnone : l.get? (.ofBegin ts) = none := by
      unfold get?
      simpa [Table.has] using hhas
    exact .inl ⟨ts, now, readOnly, rfl, rfl, hnone⟩
  | transition id t =>
    obtain ⟨old, hold, hi⟩ := Option.bind_eq_some_iff.mp h
    obtain ⟨hid, hc⟩ := hv id old hold
    obtain rfl : r.id = id := (Record.image?_keeps hi hc).1.trans hid
    exact .inr ⟨t, old, rfl, hold, hi, hc⟩

/-- The image that a call makes can be read back, and no finished record stands in its place. -/
theorem consistent_of_image? {l : Log} (hv : Valid l.records) {c : Call} {r : Record}
    (h : l.image? c = some r) :
    r.Consistent ∧ ∀ old, l.get? r.id = some old → old.isFinished = false := by
  rcases image?_cases hv h with ⟨ts, now, readOnly, -, rfl, hnone⟩ | ⟨t, old, -, hold, hi, hc⟩
  · refine ⟨by simp [Record.Consistent, Record.start], fun old hold => ?_⟩
    rw [hnone] at hold
    cases hold
  · refine ⟨(Record.image?_keeps hi hc).2.2.2.2, fun other hother => ?_⟩
    rw [hold] at hother
    cases hother
    exact Record.isFinished_eq_false_iff.mpr (Record.state_of_image? hi)

/-- A call leaves the table alone or puts its image into it. -/
theorem records_after (l : Log) (c : Call) :
    (l.after c).records = l.records ∨
      ∃ r, l.image? c = some r ∧ (l.after c).records = l.records.insert r.id r := by
  rw [after_eq]
  cases l.image? c with
  | none => exact .inl rfl
  | some r =>
    rcases records_persist l r with ⟨e, -, hr⟩ | ⟨-, hr⟩
    · exact .inl hr
    · exact .inr ⟨r, rfl, hr⟩

theorem valid_after {l : Log} (hv : Valid l.records) (c : Call) : Valid (l.after c).records := by
  rcases records_after l c with hr | ⟨r, hi, hr⟩ <;> rw [hr]
  · exact hv
  · exact hv.insert (consistent_of_image? hv hi).1

theorem valid_run {l : Log} (hv : Valid l.records) (calls : List Call) :
    Valid (l.run calls).records := by
  induction calls generalizing l with
  | nil => exact hv
  | cons c calls ih => exact ih (valid_after hv c)

/-- A finished record stays. -/
theorem get?_after_of_finished {l : Log} (hv : Valid l.records) {id : TxnId} {r : Record}
    (hr : l.get? id = some r) (hf : r.isFinished = true) (c : Call) :
    (l.after c).get? id = some r := by
  unfold get? at hr ⊢
  rcases records_after l c with h | ⟨image, hi, h⟩ <;> rw [h]
  · exact hr
  · rw [Table.find?_insert_of_ne, hr]
    rintro rfl
    rw [(consistent_of_image? hv hi).2 r hr] at hf
    cases hf

theorem get?_run_of_finished {l : Log} (hv : Valid l.records) {id : TxnId} {r : Record}
    (hr : l.get? id = some r) (hf : r.isFinished = true) (calls : List Call) :
    (l.run calls).get? id = some r := by
  induction calls generalizing l with
  | nil => exact hr
  | cons c calls ih => exact ih (valid_after hv c) (get?_after_of_finished hv hr hf c)

/-! ## Logs whose storage does not fail -/

/-- The storage of the log works. -/
def Sound (l : Log) : Prop :=
  ∃ h bytes, l.store = .holding h bytes .none

theorem sound_opened (h : Handle) (bytes : Bytes) : (opened h bytes).Sound :=
  ⟨h, _, rfl⟩

theorem persist_of_sound {l : Log} (hs : l.Sound) (r : Record) :
    ∃ s, l.persist r = (.ok (), ⟨s, l.records.insert r.id r⟩) ∧ (l.persist r).2.Sound := by
  obtain ⟨store, records⟩ := l
  obtain ⟨h, bytes, rfl⟩ := hs
  rw [persist_holding]
  exact ⟨_, rfl, h, _, rfl⟩

/-- A request is answered by the record. -/
theorem answer_of_sound {l : Log} (hs : l.Sound) {id : TxnId} {r : Record}
    (hr : l.get? id = some r) (t : Transition) : (l.transition id t).1 = .ok (r.apply t) := by
  rw [transition_eq hr]
  cases r.image? t with
  | none => rfl
  | some next =>
    obtain ⟨s, hp, -⟩ := persist_of_sound hs next
    simp only [hp]
    rfl

theorem sound_after {l : Log} (hs : l.Sound) (c : Call) : (l.after c).Sound := by
  rw [after_eq]
  cases l.image? c with
  | none => exact hs
  | some r =>
    obtain ⟨-, -, h⟩ := persist_of_sound hs r
    exact h

theorem sound_run {l : Log} (hs : l.Sound) (calls : List Call) : (l.run calls).Sound := by
  induction calls generalizing l with
  | nil => exact hs
  | cons c calls ih => exact ih (sound_after hs c)

/-- The table takes in the image that a call makes. -/
theorem records_after_of_sound {l : Log} (hs : l.Sound) (c : Call) :
    (l.after c).records = fill l.records (l.image? c).toList := by
  rw [after_eq]
  cases l.image? c with
  | none => rfl
  | some r =>
    obtain ⟨s, hp, -⟩ := persist_of_sound hs r
    simp [hp]

end Log

end TxnEngine
