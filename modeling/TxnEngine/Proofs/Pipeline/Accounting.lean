import Mathlib.Data.List.Nodup
import TxnEngine.Pipeline

/-!
# Every row of a batch is accounted for

A row of a batch is pending until an attempt decides it: it is written, or refused for good and
reported. What a batch has counted and the last outcomes of its rows tell the same story at every
point between two rows, whatever the substrate answers and whatever others do to the shared write
side in the meantime.

Results:
* `Program.Answers`: what a program answers in any company.
* `Accounted.settle`, `Accounted.keep`: what a row does to the account that is decided or stays
  pending.
* `accounts_sortRows`, `accounts_attempts`, `accounts_run`: the account holds behind every row,
  every attempt, and the whole batch.
* `submit_accounts`: the answer to a batch, and what the pipeline counts for it.
-/

namespace TxnEngine

namespace Program

variable {σ τ α β : Type}

/-- Whatever state each action finds, the answer has the property `post`. -/
def Answers (post : α → Prop) : Program σ α → Prop
  | done a => post a
  | call action next => ∀ s, Answers post (next (action s).1)

namespace Answers

variable {post : α → Prop} {p : Program σ α}

theorem pure {a : α} (h : post a) : (Pure.pure a : Program σ α).Answers post :=
  h

theorem any (p : Program σ α) : p.Answers fun _ => True := by
  induction p with
  | done a => trivial
  | call action next ih => exact fun s => ih _

theorem bind {q : α → Program σ β} {post' : β → Prop} (hp : p.Answers post)
    (hq : ∀ a, post a → (q a).Answers post') : (p >>= q).Answers post' := by
  change (p.bind q).Answers post'
  induction p with
  | done a => exact hq a hp
  | call action next ih => exact fun s => ih _ (hp s)

theorem mono {post' : α → Prop} (hpost : ∀ a, post a → post' a) (hp : p.Answers post) :
    p.Answers post' := by
  induction p with
  | done a => exact hpost a hp
  | call action next ih => exact fun s => ih _ (hp s)

/-- What is answered behind a program, whatever that one answers. -/
theorem behind {q : α → Program σ β} {post' : β → Prop} (hq : ∀ a, (q a).Answers post') :
    (p >>= q).Answers post' :=
  bind (any p) fun a _ => hq a

/-- A program that runs alone answers as it would in company. -/
theorem run (h : p.Answers post) (s : σ) : post (p.run s).1 := by
  induction p generalizing s with
  | done a => exact h
  | call action next ih => exact ih _ (h s) _

end Answers

end Program

namespace Outcome

/-! ## The classes of outcomes -/

theorem class_of_canRetry {o : Outcome} (h : o.canRetry = true) :
    o.isSuccess = false ∧ o.isTerminalReject = false ∧ o.shouldCancel = false := by
  cases o <;> first | exact ⟨rfl, rfl, rfl⟩ | cases h

theorem isTerminalReject_of_decided {o : Outcome} (hsuccess : o.isSuccess = false)
    (hretry : o.canRetry = false) (hcancel : o.shouldCancel = false) :
    o.isTerminalReject = true := by
  simp only [isSuccess, canRetry, shouldCancel] at hsuccess hretry hcancel
  simp [isTerminalReject, OutcomeCode.isTerminalReject, hsuccess, hretry, hcancel]

theorem isTerminalReject_of_isSuccess {o : Outcome} (h : o.isSuccess = true) :
    o.isTerminalReject = false ∧ o.canRetry = false ∧ o.shouldCancel = false := by
  cases o <;> first | exact ⟨rfl, rfl, rfl⟩ | cases h

theorem class_of_isTerminalReject {o : Outcome} (h : o.isTerminalReject = true) :
    o.isSuccess = false ∧ o.canRetry = false ∧ o.shouldCancel = false := by
  cases o <;> first | exact ⟨rfl, rfl, rfl⟩ | cases h

/-- Each outcome is of exactly one class. -/
theorem countP_classes (outcomes : List Outcome) :
    outcomes.countP isSuccess + outcomes.countP isTerminalReject + outcomes.countP canRetry +
      outcomes.countP shouldCancel = outcomes.length := by
  induction outcomes with
  | nil => rfl
  | cons o rest ih =>
    simp only [List.countP_cons, List.length_cons]
    cases o <;>
      simp [isSuccess, isTerminalReject, canRetry, shouldCancel, code, OutcomeCode.isSuccess,
        OutcomeCode.canRetry, OutcomeCode.shouldCancel, OutcomeCode.isTerminalReject] <;> omega

end Outcome

/-- What the change of one entry does to a count. -/
theorem countP_set_add {α : Type} (f : α → Bool) {l : List α} {i : Nat} {old : α}
    (hold : l[i]? = some old) (new : α) :
    (l.set i new).countP f + (if f old then 1 else 0) =
      l.countP f + if f new then 1 else 0 := by
  obtain ⟨hi, rfl⟩ := List.getElem?_eq_some_iff.mp hold
  have hle : (if f l[i] then 1 else 0) ≤ l.countP f := by
    split_ifs with hf
    · exact List.countP_pos_iff.mpr ⟨l[i], List.getElem_mem hi, hf⟩
    · exact Nat.zero_le _
  rw [List.countP_set hi]
  omega

namespace BatchRun

@[simp]
theorem outcomes_note (b : BatchRun) (index : Nat) (o : Outcome) :
    (b.note index o).outcomes = b.outcomes.set index o := by
  simp [note, outcomes, List.map_set]

@[simp]
theorem counts_note (b : BatchRun) (index : Nat) (o : Outcome) :
    (b.note index o).counts = b.counts := rfl

end BatchRun

/-! ## The account of a batch -/

/-- How a batch of `n` rows stands. The `pending` rows are still to be written; every other row is
decided and counted. Only a permissive batch goes on behind a row that is refused. -/
structure Accounted (permissive : Bool) (n : Nat) (pending : List BatchRow) (b : BatchRun) :
    Prop where
  length : b.outcomes.length = n
  written : b.counts.written = b.outcomes.countP Outcome.isSuccess
  ignored : b.counts.ignored = b.outcomes.countP Outcome.isTerminalReject
  thrown : b.counts.thrown = 0
  strict : permissive = false → b.counts.ignored = 0
  undecided : pending.length = b.outcomes.countP Outcome.canRetry
  uncancelled : b.outcomes.countP Outcome.shouldCancel = 0
  nodup : (pending.map BatchRow.index).Nodup
  retries : ∀ row ∈ pending, ∃ o, b.outcomes[row.index]? = some o ∧ o.canRetry = true

namespace Accounted

variable {permissive : Bool} {n : Nat} {pending front rest : List BatchRow} {row : BatchRow}
  {b b' : BatchRun} {o : Outcome}

theorem total (h : Accounted permissive n pending b) :
    b.counts.written + b.counts.ignored + pending.length = n := by
  have hclasses := Outcome.countP_classes b.outcomes
  have := h.written
  have := h.ignored
  have := h.undecided
  have := h.uncancelled
  have := h.length
  omega

/-- Only the counts of rows that were decided matter. -/
theorem congr (h : Accounted permissive n pending b) (houtcomes : b'.outcomes = b.outcomes)
    (hwritten : b'.counts.written = b.counts.written)
    (hignored : b'.counts.ignored = b.counts.ignored)
    (hthrown : b'.counts.thrown = b.counts.thrown) : Accounted permissive n pending b' := by
  refine ⟨?_, ?_, ?_, hthrown.trans h.thrown, fun hp => hignored.trans (h.strict hp), ?_, ?_,
    h.nodup, ?_⟩
  · rw [houtcomes, h.length]
  · rw [houtcomes, hwritten, h.written]
  · rw [houtcomes, hignored, h.ignored]
  · rw [houtcomes, h.undecided]
  · rw [houtcomes, h.uncancelled]
  · simpa only [houtcomes] using h.retries

/-- A row that is to be sent again. -/
theorem keep (h : Accounted permissive n pending b) (hrow : row ∈ pending)
    (ho : o.canRetry = true) : Accounted permissive n pending (b.note row.index o) := by
  obtain ⟨old, hold, hretry⟩ := h.retries row hrow
  obtain ⟨hsuccess, hreject, hcancel⟩ := Outcome.class_of_canRetry ho
  obtain ⟨hsuccess', hreject', hcancel'⟩ := Outcome.class_of_canRetry hretry
  have hcount (f : Outcome → Bool) (hf : f o = f old) :
      (b.outcomes.set row.index o).countP f = b.outcomes.countP f := by
    have := countP_set_add f hold o
    rw [hf] at this
    omega
  refine ⟨?_, ?_, ?_, h.thrown, h.strict, ?_, ?_, h.nodup, fun other hother => ?_⟩ <;>
    rw [BatchRun.outcomes_note]
  · rw [List.length_set, h.length]
  · rw [hcount _ (hsuccess.trans hsuccess'.symm), BatchRun.counts_note, h.written]
  · rw [hcount _ (hreject.trans hreject'.symm), BatchRun.counts_note, h.ignored]
  · rw [hcount _ (ho.trans hretry.symm), h.undecided]
  · rw [hcount _ (hcancel.trans hcancel'.symm), h.uncancelled]
  · obtain ⟨other', hother', hretry'⟩ := h.retries other hother
    by_cases hindex : row.index = other.index
    · have hlt : other.index < b.outcomes.length := (List.getElem?_eq_some_iff.mp hother').1
      exact ⟨o, by rw [hindex, List.getElem?_set_self hlt], ho⟩
    · exact ⟨other', by rw [List.getElem?_set_ne hindex, hother'], hretry'⟩

/-- A row that is decided is pending no more. -/
theorem settle (h : Accounted permissive n (front ++ row :: rest) b) (ho : o.canRetry = false)
    (hcancel : o.shouldCancel = false) (hstrict : permissive = false → o.isTerminalReject = false)
    (houtcomes : b'.outcomes = b.outcomes.set row.index o)
    (hwritten : b'.counts.written = b.counts.written + if o.isSuccess then 1 else 0)
    (hignored : b'.counts.ignored = b.counts.ignored + if o.isTerminalReject then 1 else 0)
    (hthrown : b'.counts.thrown = b.counts.thrown) : Accounted permissive n (front ++ rest) b' := by
  obtain ⟨old, hold, hretry⟩ := h.retries row (by simp)
  obtain ⟨hsuccess', hreject', hcancel'⟩ := Outcome.class_of_canRetry hretry
  have hcount (f : Outcome → Bool) := countP_set_add f hold o
  have hnodup : ((front ++ rest).map BatchRow.index).Nodup ∧
      row.index ∉ (front ++ rest).map BatchRow.index := by
    have hall := h.nodup
    rw [List.map_append, List.map_cons, List.nodup_middle, List.nodup_cons,
      ← List.map_append] at hall
    exact hall.symm
  have hnone (hp : permissive = false) : b'.counts.ignored = 0 := by
    rw [hignored, h.strict hp, hstrict hp]
    rfl
  refine ⟨?_, ?_, ?_, hthrown.trans h.thrown, hnone, ?_, ?_, hnodup.1,
    fun other hother => ?_⟩ <;> rw [houtcomes]
  · rw [List.length_set, h.length]
  · have := hcount Outcome.isSuccess
    simp only [hsuccess', Bool.false_eq_true, if_false] at this
    rw [hwritten, h.written, ← this, Nat.add_zero]
  · have := hcount Outcome.isTerminalReject
    simp only [hreject', Bool.false_eq_true, if_false] at this
    rw [hignored, h.ignored, ← this, Nat.add_zero]
  · have := hcount Outcome.canRetry
    simp only [hretry, ho, Bool.false_eq_true, if_true, if_false] at this
    have hlength := h.undecided
    simp only [List.length_append, List.length_cons] at hlength ⊢
    omega
  · have := hcount Outcome.shouldCancel
    simp only [hcancel, hcancel', Bool.false_eq_true, if_false] at this
    rw [Nat.add_zero] at this
    rw [this, Nat.add_zero, h.uncancelled]
  · have hmem : other ∈ front ++ row :: rest := by
      rcases List.mem_append.mp hother with hmem | hmem <;> simp [hmem]
    obtain ⟨other', hother', hretry'⟩ := h.retries other hmem
    have hindex : row.index ≠ other.index := fun heq =>
      hnodup.2 (heq ▸ List.mem_map_of_mem hother)
    exact ⟨other', by rw [List.getElem?_set_ne hindex, hother'], hretry'⟩

/-- Several rows that are to be sent again. -/
theorem keepAll (h : Accounted permissive n pending b) {rows : List BatchRow}
    (hrows : rows ⊆ pending) (ho : o.canRetry = true) : Accounted permissive n pending (b.noteAll rows o) := by
  induction rows generalizing b with
  | nil => exact h
  | cons row rows ih =>
    obtain ⟨hrow, hrest⟩ := List.cons_subset.mp hrows
    exact ih (h.keep hrow ho) hrest

end Accounted

/-- What the counts of a batch say that ended with an error: no row was counted twice. -/
def BatchRun.WithinBounds (n : Nat) (b : BatchRun) : Prop :=
  b.counts.written + b.counts.ignored + b.counts.thrown ≤ n

/-- What the answer to a batch of `n` rows says that did not end with an error. -/
structure BatchResult.Accounts (permissive : Bool) (n : Nat) (r : BatchResult) : Prop where
  length : r.outcomes.length = n
  uncancelled : ∀ o ∈ r.outcomes, o.shouldCancel = false
  written : r.written = r.outcomes.countP Outcome.isSuccess
  counted : r.stats.written = r.written
  ignored : r.stats.ignored = r.outcomes.countP Outcome.isTerminalReject
  thrown : r.stats.thrown = r.outcomes.countP Outcome.canRetry
  total : r.written + r.stats.ignored + r.stats.thrown = n
  strict : permissive = false → r.written = n
  succeeded : r.written = n → r.state = .succeeded
  partiallySucceeded : 0 < r.written → r.written < n → r.state = .partiallySucceeded
  rejected : r.written = 0 → 0 < n → r.state = .rejected

namespace Pipeline

open Program

variable {σ : Type}

/-- What stands behind a batch of `n` rows. -/
def Concludes (permissive : Bool) (n : Nat) : Except Error BatchResult × BatchRun → Prop
  | (.ok r, b) => r.Accounts permissive n ∧ r.stats = b.counts ∧ r.state = b.state
  | (.error _, b) => b.WithinBounds n

/-- How a batch of `n` rows stands behind a part of it: either some rows stay pending, or the batch
is over. -/
def Stands (permissive : Bool) (n : Nat) (front : List BatchRow) :
    Except Error (List BatchRow) × BatchRun → Prop
  | (.ok pending, b) => Accounted permissive n (front ++ pending) b
  | (.error _, b) => b.WithinBounds n

/-! ## One attempt -/

theorem withinBounds_of_accounted {permissive : Bool} {n : Nat} {pending : List BatchRow}
    {b : BatchRun} (h : Accounted permissive n pending b) : b.WithinBounds n := by
  have := h.total
  have := h.thrown
  unfold BatchRun.WithinBounds
  omega

/-- A row that is refused for good ends the batch, or is reported and decided. -/
theorem accounts_rejectRow (permissive mixed : Bool) {n : Nat} {front rest : List BatchRow}
    {row : BatchRow} {o : Outcome} {b : BatchRun}
    (h : Accounted permissive n (front ++ row :: rest) b)
    (hreject : o.isTerminalReject = true) (hsuccess : o.isSuccess = false)
    (hretry : o.canRetry = false) (hcancel : o.shouldCancel = false) :
    (rejectRow permissive mixed row o b : Program (WriteSide σ) _).Answers fun
      | (.ok (), b) => Accounted permissive n (front ++ rest) b
      | (.error _, b) => b.WithinBounds n := by
  unfold rejectRow
  cases hrecorder : (if permissive = true then b.recorder else none) with
  | none =>
    have hbounds := withinBounds_of_accounted h
    exact .pure hbounds
  | some recorder =>
    have hpermissive : permissive = true := by
      by_contra hp
      rw [if_neg hp] at hrecorder
      cases hrecorder
    have hcounted : ({ b with
        counts.ignored := b.counts.ignored + 1
        counts.partialIgnored := b.counts.partialIgnored + if mixed then 1 else 0 } :
          BatchRun).WithinBounds n := by
      have htotal := h.total
      have hthrown := h.thrown
      simp only [List.length_append, List.length_cons] at htotal
      change b.counts.written + (b.counts.ignored + 1) + b.counts.thrown ≤ n
      omega
    refine .behind fun reported => ?_
    obtain ⟨exceeded, recorder'⟩ := reported
    rcases exceeded with e | _ | _
    · exact .pure hcounted
    · refine .pure (h.settle hretry hcancel ?_ ?_ ?_ ?_ rfl)
      · simp [hpermissive]
      · exact BatchRun.outcomes_note _ _ _
      · simp [hsuccess]
      · simp [hreject]
    · exact .behind fun p => .pure hcounted

/-- The account holds behind every outcome of a call that is sorted. -/
theorem accounts_sortRows (permissive mixed : Bool) {n : Nat} {front : List BatchRow}
    {outcomes : List (BatchRow × Outcome)} {b : BatchRun}
    (h : Accounted permissive n (front ++ outcomes.map Prod.fst) b)
    (hcancel : ∀ answered ∈ outcomes, answered.2.shouldCancel = false) :
    (sortRows permissive mixed outcomes b : Program (WriteSide σ) _).Answers
      (Stands permissive n front) := by
  induction outcomes generalizing front b with
  | nil => exact .pure h
  | cons answered rest ih =>
    obtain ⟨row, o⟩ := answered
    obtain ⟨hnow, hlater⟩ := List.forall_mem_cons.mp hcancel
    simp only at hnow
    rw [List.map_cons] at h
    simp only [sortRows]
    split_ifs with hsuccess hretry
    · have hdone : Accounted permissive n (front ++ rest.map Prod.fst)
          (acceptRow mixed row o b) := by
        refine h.settle ?_ hnow ?_ (BatchRun.outcomes_note _ _ _) ?_ ?_ rfl
        · exact (Outcome.isTerminalReject_of_isSuccess hsuccess).2.1
        · exact fun _ => (Outcome.isTerminalReject_of_isSuccess hsuccess).1
        · simp [acceptRow, hsuccess]
        · simp [acceptRow, (Outcome.isTerminalReject_of_isSuccess hsuccess).1]
      exact ih hdone hlater
    · have hkept : Accounted permissive n ((front ++ [row]) ++ rest.map Prod.fst)
          (deferRow mixed row o b) := by
        have hrow : row ∈ front ++ row :: rest.map Prod.fst := by simp
        have hkeep := h.keep hrow hretry
        rw [List.append_assoc]
        exact hkeep.congr rfl rfl rfl rfl
      refine .bind (ih hkept hlater) fun result hresult => ?_
      obtain ⟨e | pending, b'⟩ := result
      · exact .pure hresult
      · refine .pure ?_
        simpa [Stands] using hresult
    · have hsuccess : o.isSuccess = false := by simpa using hsuccess
      have hretry : o.canRetry = false := by simpa using hretry
      have hreject := Outcome.isTerminalReject_of_decided hsuccess hretry hnow
      refine .bind (accounts_rejectRow permissive mixed h hreject hsuccess hretry hnow) ?_
      rintro ⟨e | _, b'⟩ hresult
      · exact .pure hresult
      · exact ih hresult hlater

theorem map_fst_answered (response : BatchResponse) (rows : List BatchRow) :
    (answered response rows).map Prod.fst = rows := by
  simp [answered, Function.comp_def, List.zipIdx_map_fst]

variable [Substrate σ]

/-- The account holds behind every attempt. -/
theorem accounts_attempt (permissive : Bool) (txn : TxnId) {n : Nat} {pending : List BatchRow}
    {b : BatchRun} (h : Accounted permissive n pending b) :
    (attempt permissive txn pending b : Program (WriteSide σ) _).Answers
      (Stands permissive n []) := by
  have hbounds := withinBounds_of_accounted h
  unfold attempt
  refine .behind fun located => ?_
  cases located with
  | error e => exact .pure hbounds
  | ok address =>
    refine .behind fun written => ?_
    cases written with
    | error e =>
      simp only
      split_ifs
      · exact .pure (h.keepAll (List.Subset.refl _) rfl)
      · exact .pure hbounds
    | ok response =>
      simp only
      cases hfind : (answered response pending).find? fun x => x.2.shouldCancel with
      | some found => exact .pure hbounds
      | none =>
        have hcancel : ∀ x ∈ answered response pending, x.2.shouldCancel = false := by
          simpa using hfind
        have hstart : Accounted permissive n ([] ++ (answered response pending).map Prod.fst) b := by
          rw [map_fst_answered]
          exact h
        refine .bind (accounts_sortRows permissive _ hstart hcancel) fun sorted hsorted => ?_
        obtain ⟨e | pending', b'⟩ := sorted
        · exact .pure hsorted
        · simp only
          split_ifs
          · exact .behind fun _ => .pure hsorted
          · exact .pure hsorted

/-! ## A batch -/

/-- The account holds behind all attempts. -/
@[simp]
theorem startAttempt_latest (made : Nat) (pending : List BatchRow) (b : BatchRun) :
    (startAttempt made pending b).latest = b.latest := by
  unfold startAttempt
  split_ifs <;> rfl

@[simp]
theorem startAttempt_recorder (made : Nat) (pending : List BatchRow) (b : BatchRun) :
    (startAttempt made pending b).recorder = b.recorder := by
  unfold startAttempt
  split_ifs <;> rfl

/-- An attempt starts with nothing counted but the rows that are sent again. -/
theorem startAttempt_counts (made : Nat) (pending : List BatchRow) (b : BatchRun) :
    (startAttempt made pending b).counts = { b.counts with
      retried := b.counts.retried + if made = 0 then 0 else pending.length } := by
  unfold startAttempt
  split_ifs <;> rfl

theorem accounts_attempts (retry : RetryConfig) (permissive : Bool) (txn : TxnId) {n : Nat}
    (left made : Nat) {pending : List BatchRow} {b : BatchRun}
    (h : Accounted permissive n pending b) :
    (attempts retry permissive txn left made pending b : Program (WriteSide σ) _).Answers fun
      | (.ok (pending, _), b) => Accounted permissive n pending b
      | (.error _, b) => b.WithinBounds n := by
  induction left generalizing made pending b with
  | zero => exact .pure h
  | succ left ih =>
    unfold attempts
    split_ifs
    · exact .pure h
    have hstart : Accounted permissive n pending (startAttempt made pending b) := by
      refine h.congr ?_ ?_ ?_ ?_ <;> simp [startAttempt_counts, BatchRun.outcomes]
    refine .behind fun delay? => ?_
    cases delay? with
    | none => exact .pure (withinBounds_of_accounted hstart)
    | some delay =>
      refine .bind (accounts_attempt permissive txn hstart) fun result hresult => ?_
      obtain ⟨e | pending', b'⟩ := result
      · exact .pure hresult
      · exact ih (made + 1) hresult

theorem index_batchRows (rows : List Mutation) :
    (batchRows rows).map BatchRow.index = List.range rows.length := by
  rw [batchRows, List.map_map, List.range_eq_range']
  exact List.zipIdx_map_snd 0 rows

/-- Before the first attempt every row is pending. -/
theorem accounted_start (p : Pipeline) (rows : List Mutation) :
    Accounted p.options.isPermissive rows.length (batchRows rows)
      ⟨p.state, p.recorder, .zero, Array.replicate rows.length none⟩ := by
  have houtcomes : (⟨p.state, p.recorder, .zero, Array.replicate rows.length none⟩ :
      BatchRun).outcomes = List.replicate rows.length (.notRun none) := by
    simp [BatchRun.outcomes]
  have hnone {f : Outcome → Bool} (hf : f (.notRun none) = false) :
      (List.replicate rows.length (Outcome.notRun none)).countP f = 0 := by
    simp [List.countP_replicate, hf]
  refine ⟨?_, ?_, ?_, rfl, fun _ => rfl, ?_, ?_, ?_, fun row hrow => ⟨.notRun none, ?_, rfl⟩⟩
  · rw [houtcomes, List.length_replicate]
  · rw [houtcomes, hnone rfl]
    rfl
  · rw [houtcomes, hnone rfl]
    rfl
  · rw [houtcomes, List.countP_replicate]
    simp [batchRows, Outcome.canRetry, Outcome.code, OutcomeCode.canRetry]
  · rw [houtcomes, hnone rfl]
  · rw [index_batchRows]
    exact List.nodup_range
  · have hindex : row.index ∈ List.range rows.length :=
      index_batchRows rows ▸ List.mem_map_of_mem hrow
    rw [houtcomes, List.getElem?_replicate, if_pos (List.mem_range.mp hindex)]

theorem finalState_of_some {written n : Nat} (hpos : 0 < written) (hlt : written < n) :
    finalState written n = .partiallySucceeded :=
  (if_neg (Nat.ne_of_lt hlt)).trans (if_pos hpos)

theorem finalState_of_none {written n : Nat} (hzero : written = 0) (hpos : 0 < n) :
    finalState written n = .rejected :=
  (if_neg (hzero ▸ Nat.ne_of_lt hpos)).trans (if_neg (hzero ▸ Nat.lt_irrefl 0))

/-- A batch whose counts are those of the last outcomes of its rows. -/
theorem concludes_completed {permissive : Bool} {n : Nat} {b : BatchRun} (p : Place)
    (hlength : b.outcomes.length = n) (hcancel : b.outcomes.countP Outcome.shouldCancel = 0)
    (hwritten : b.counts.written = b.outcomes.countP Outcome.isSuccess)
    (hignored : b.counts.ignored = b.outcomes.countP Outcome.isTerminalReject)
    (hthrown : b.counts.thrown = b.outcomes.countP Outcome.canRetry)
    (hstrict : permissive = false → b.counts.written = n) :
    Concludes permissive n (completed p b) := by
  have hclasses := Outcome.countP_classes b.outcomes
  have htotal : b.counts.written + b.counts.ignored + b.counts.thrown = n := by omega
  refine ⟨⟨hlength, ?_, hwritten, rfl, hignored, hthrown, htotal, hstrict, ?_, ?_, ?_⟩, rfl, rfl⟩
  · exact fun o ho => Bool.eq_false_iff.mpr (List.countP_eq_zero.mp hcancel o ho)
  · exact fun hall => if_pos (hall.trans hlength.symm)
  · exact fun hpos hlt => finalState_of_some hpos (hlength ▸ hlt)
  · exact fun hzero hpos => finalState_of_none hzero (hlength ▸ hpos)

/-- The end of a batch: the rows still pending are counted as thrown. -/
theorem accounts_conclude {permissive : Bool} {n : Nat} {pending : List BatchRow} {b : BatchRun}
    (h : Accounted permissive n pending b) (made : Nat) (p : Place) :
    Concludes permissive n (conclude permissive pending made p b) := by
  have htotal := h.total
  have hthrown : b.counts.thrown + pending.length = b.outcomes.countP Outcome.canRetry := by
    rw [h.thrown, Nat.zero_add, h.undecided]
  have hcompleted (hall : permissive = false → b.counts.written = n) : Concludes permissive n
      (completed p { b with counts.thrown := b.counts.thrown + pending.length }) :=
    concludes_completed p h.length h.uncancelled h.written h.ignored hthrown hall
  unfold conclude
  cases pending with
  | nil =>
    refine hcompleted fun hstrict => ?_
    rw [h.strict hstrict] at htotal
    exact htotal
  | cons first rest =>
    cases permissive with
    | true => exact hcompleted nofun
    | false =>
      change b.counts.written + b.counts.ignored + (b.counts.thrown + (first :: rest).length) ≤ n
      have := h.thrown
      omega

/-- The account holds behind the whole batch. -/
theorem accounts_run (p : Pipeline) (txn : TxnId) (rows : List Mutation) :
    (p.run txn rows : Program (WriteSide σ) _).Answers
      (Concludes p.options.isPermissive rows.length) := by
  unfold run
  refine .bind (accounts_attempts p.retry _ txn _ 0 (accounted_start p rows)) ?_
  rintro ⟨e | ⟨pending, made⟩, b⟩ h
  · exact .pure h
  · exact .behind fun place => .pure (accounts_conclude h made place)

/-! ## The answer to a batch -/

/-- An error that a caller sees ends the batch, and its counts are kept. -/
theorem absorb_error (p : Pipeline) {e : Error} (he : e ≠ .outOfRange) (b : BatchRun) :
    (p.absorb (.error e) b).stats = p.stats + b.counts ∧
      (p.absorb (.error e) b).state.isTerminal = true := by
  unfold absorb
  split
  · case h_1 hout =>
    cases hout
    exact absurd rfl he
  · refine ⟨rfl, ?_⟩
    simp only
    split_ifs with hterminal
    · exact hterminal
    · rfl
  · case h_3 hok => cases hok

theorem run_submit (p : Pipeline) {t : Transaction} (hactive : t.isActive = true)
    (hwrites : t.readOnly = false) (rows : List Mutation) (w : WriteSide σ) :
    (p.submit t rows).run w =
      let ((answer, b), w) := (p.run t.id rows).run w
      ((answer, p.absorb answer b), w) := by
  unfold submit
  simp only [hactive, hwrites, Bool.not_true, Bool.false_eq_true, if_false, run_bind, run_pure]

/-- Every row of a batch is accounted for once. A batch that does not end with an error tells the
last outcome of every row, and its counts are those of the outcomes; one that ends with an error has
counted no row twice, and leaves the pipeline in a state in which it is over. The pipeline counts
what the batch has counted. An answer out of range stands for a call that does not return. -/
theorem submit_accounts (p : Pipeline) {t : Transaction} (hactive : t.isActive = true)
    (hwrites : t.readOnly = false) (rows : List Mutation) (w : WriteSide σ) :
    let batch := ((p.run t.id rows).run w).1.2
    let answer := ((p.submit t rows).run w).1.1
    let p' := ((p.submit t rows).run w).1.2
    (∀ r, answer = .ok r → r.Accounts p.options.isPermissive rows.length ∧
      r.stats = batch.counts ∧ r.state = p'.state) ∧
    (∀ e, answer = .error e → e ≠ .outOfRange →
      batch.counts.written + batch.counts.ignored + batch.counts.thrown ≤ rows.length ∧
      p'.state.isTerminal = true) ∧
    (answer ≠ .error .outOfRange → p'.stats = p.stats + batch.counts) := by
  have hrun := (accounts_run p t.id rows).run w
  rw [run_submit p hactive hwrites]
  generalize (p.run t.id rows).run w = ran at hrun ⊢
  obtain ⟨⟨e | r, b⟩, w'⟩ := ran
  · refine ⟨nofun, ?_, fun he => ?_⟩
    · rintro _ ⟨⟩ he
      exact ⟨hrun, (p.absorb_error he b).2⟩
    · have he : e ≠ .outOfRange := fun h => he (h ▸ rfl)
      exact (p.absorb_error he b).1
  · obtain ⟨haccounts, hstats, hstate⟩ := hrun
    refine ⟨?_, nofun, fun _ => rfl⟩
    rintro _ ⟨⟩
    exact ⟨haccounts, hstats, hstate⟩

/-- Of three rows one is written at once. The others meet a busy region and are sent again: one is
then refused for good and reported in a file that is open already, and one meets a busy region
again. -/
theorem submit_accounts_one_of_each :
    let p : Pipeline := ⟨.noDelay 2, .permissive "rows.csv" (-1),
      some ⟨"rows.bad", "rows.bad", -1, 0, some ⟨"rows.bad", .shared⟩, false⟩, .zero, .succeeded⟩
    let t : Transaction := .new ⟨7⟩ false
    let rows : List Mutation := [.insert [1] [97], .insert [2] [98], .insert [3] [99]]
    let w : WriteSide ScriptedSubstrate :=
      ⟨(ScriptedSubstrate.empty.script [2] [.regionTooBusy none, .indexNotSetup none]).script [3]
          [.regionTooBusy none, .regionTooBusy none],
        .localDefault, { Directory.memory "bad/" with files := [("rows.bad", #[])] }, fun _ => 0⟩
    t.isActive = true ∧ t.readOnly = false ∧
      ∃ r, ((p.submit t rows).run w).1.1 = .ok r ∧ r.Accounts true 3 ∧
        r.state = .partiallySucceeded ∧ r.stats.retried = 2 ∧
        r.outcomes = [.success, .indexNotSetup none, .regionTooBusy none] := by
  intro p t rows w
  have haccounts := (submit_accounts p (t := t) rfl rfl rows w).1
  have htold : ((p.submit t rows).run w).1.1.toOption.map
      (fun r => (r.state, r.stats.retried, r.outcomes)) =
        some (.partiallySucceeded, 2, [.success, .indexNotSetup none, .regionTooBusy none]) := by
    decide +kernel
  generalize ((p.submit t rows).run w).1.1 = answer at haccounts htold ⊢
  refine ⟨rfl, rfl, ?_⟩
  cases answer with
  | error e => cases htold
  | ok r =>
    obtain ⟨hstate, htold⟩ := Prod.mk.inj (Option.some.inj htold)
    obtain ⟨hretried, houtcomes⟩ := Prod.mk.inj htold
    exact ⟨r, rfl, (haccounts r rfl).1, hstate, hretried, houtcomes⟩

end Pipeline

end TxnEngine
