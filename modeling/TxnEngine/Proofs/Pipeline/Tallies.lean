import TxnEngine.Proofs.Pipeline.Resubmission

/-!
# What the calls of a batch leave counted

A call that is answered tells an outcome of each of its rows, and the rows are processed in order.
Those that were processed so far decide everything: what the batch has counted, what its recorder
has counted and written, and whether the next row ends the batch.

Results:
* `tally`: the counts of a batch, by the rows that were processed.
* `Booked`: a batch has counted these rows and reported those that were refused.
* `booked_rejectRow`: what becomes of a batch at a row that is refused for good.
* `booked_sortRows`: the rows of a call are all processed, or those up to the first that ends the
  batch.
-/

namespace TxnEngine

/-- A row with the outcome that a call told of it. -/
structure ToldRow where
  row : Mutation
  outcome : Outcome
  /-- Whether the call wrote some of its rows and others not. -/
  mixed : Bool

/-- What a call told of its rows, in order. A call that failed told nothing. -/
def RoutedCall.told (c : RoutedCall) : List ToldRow :=
  match c.answer with
  | .ok response =>
    let outcomes := c.rows.zipIdx.map fun (_, position) => response.outcomeFor position
    let mixed := outcomes.any Outcome.isSuccess && outcomes.any fun o => !o.isSuccess
    c.rows.zipIdx.map fun (row, position) => ⟨row, response.outcomeFor position, mixed⟩
  | .error _ => []

namespace Pipeline

open Program

/-- What a sequence of calls told, in order. -/
def toldOf (calls : List RoutedCall) : List ToldRow :=
  calls.flatMap RoutedCall.told

/-- The rows that were refused for good. -/
def refused (told : List ToldRow) : List BadRecord :=
  (told.filter fun x => x.outcome.isTerminalReject).map fun x => ⟨x.row, x.outcome⟩

/-- The counts of a batch in which these rows were processed. -/
def tally (resent thrown : Nat) (told : List ToldRow) : WriteStats where
  written := told.countP fun x => x.outcome.isSuccess
  retried := resent
  thrown := thrown
  regionTooBusy := told.countP fun x => x.outcome.isBusy
  partialRows := told.countP fun x => x.mixed && x.outcome.isSuccess
  partialRetried := told.countP fun x => x.mixed && x.outcome.canRetry
  partialIgnored := told.countP fun x => x.mixed && x.outcome.isTerminalReject
  ignored := told.countP fun x => x.outcome.isTerminalReject

/-- The rows of a call as they are processed. -/
def toldBy (mixed : Bool) (outcomes : List (BatchRow × Outcome)) : List ToldRow :=
  outcomes.map fun x => ⟨x.1.mutation, x.2, mixed⟩

section Told

variable {told : List ToldRow} {mixed : Bool} {row : BatchRow} {o : Outcome} {b : BatchRun}
  {again : Nat}

theorem toldOf_concat (calls : List RoutedCall) (c : RoutedCall) :
    toldOf (calls ++ [c]) = toldOf calls ++ c.told := by
  rw [toldOf, List.flatMap_append, List.flatMap_singleton]
  rfl

/-- A call tells its rows what the batch reads from the answer. -/
theorem told_of_answer {c : RoutedCall} {response : BatchResponse} {pending : List BatchRow}
    (hanswer : c.answer = .ok response) (hrows : c.rows = pending.map BatchRow.mutation) :
    c.told = toldBy (isMixed (answered response pending)) (answered response pending) := by
  simp only [RoutedCall.told, hanswer, hrows, toldBy, isMixed, answered, List.zipIdx_map,
    List.map_map, List.any_map]
  rfl

theorem told_of_error {c : RoutedCall} {e : Error} (hanswer : c.answer = .error e) :
    c.told = [] := by
  rw [RoutedCall.told, hanswer]

theorem refused_append (told later : List ToldRow) :
    refused (told ++ later) = refused told ++ refused later := by
  rw [refused, List.filter_append, List.map_append]
  rfl

theorem refused_singleton (x : ToldRow) :
    refused [x] = if x.outcome.isTerminalReject then [⟨x.row, x.outcome⟩] else [] := by
  rw [refused, List.filter_cons]
  split_ifs <;> rfl

/-- A row that is not refused for good adds no refusal. -/
theorem refused_concat_of_not_reject (told : List ToldRow) {x : ToldRow}
    (h : x.outcome.isTerminalReject = false) : refused (told ++ [x]) = refused told := by
  rw [refused_append, refused_singleton, h, if_neg Bool.false_ne_true, List.append_nil]

/-- Fewer rows, fewer refusals. -/
theorem length_refused_le {told told' : List ToldRow} (h : told <+: told') :
    (refused told).length ≤ (refused told').length := by
  obtain ⟨rest, rfl⟩ := h
  rw [refused_append, List.length_append]
  exact Nat.le_add_right _ _

/-! ## One more row -/

theorem counts_acceptRow (hsuccess : o.isSuccess = true) (h : b.counts = tally again 0 told) :
    (acceptRow mixed row o b).counts = tally again 0 (told ++ [⟨row.mutation, o, mixed⟩]) := by
  obtain ⟨hreject, hretry, -⟩ := Outcome.isTerminalReject_of_isSuccess hsuccess
  have hbusy := Outcome.isBusy_of_not_canRetry hretry
  rw [acceptRow, BatchRun.counts_note, h]
  simp [tally, List.countP_append, List.countP_singleton, hsuccess, hretry, hreject, hbusy]

theorem counts_deferRow (hretry : o.canRetry = true) (h : b.counts = tally again 0 told) :
    (deferRow mixed row o b).counts = tally again 0 (told ++ [⟨row.mutation, o, mixed⟩]) := by
  obtain ⟨hsuccess, hreject, -⟩ := Outcome.class_of_canRetry hretry
  rw [deferRow, BatchRun.counts_note, h]
  simp [tally, List.countP_append, List.countP_singleton, hsuccess, hretry, hreject]

theorem counts_counted (mixed : Bool) (row : BatchRow) (r : Recorder)
    (hreject : o.isTerminalReject = true) (h : b.counts = tally again 0 told) :
    (counted mixed r b).counts = tally again 0 (told ++ [⟨row.mutation, o, mixed⟩]) := by
  obtain ⟨hsuccess, hretry, -⟩ := Outcome.class_of_isTerminalReject hreject
  have hbusy := Outcome.isBusy_of_not_canRetry hretry
  rw [counted, h]
  simp [tally, List.countP_append, List.countP_singleton, hsuccess, hretry, hreject, hbusy]

end Told

/-! ## The books of a batch -/

/-- The refused rows among those in `told` were reported, by a batch that started over the directory
`d₀`, where the file of its recorder was `file`. A strict batch reports nothing. -/
structure Filed (p : Pipeline) (d₀ : Directory) (file : Option Bytes) (told : List ToldRow)
    (recorder : Option Recorder) (d : Directory) : Prop where
  strict : p.options.isPermissive = false → recorder = p.recorder ∧ d = d₀
  permissive : p.options.isPermissive = true → ∃ r r', p.recorder = some r ∧ recorder = some r' ∧
    r.Added d₀.place file (refused told) r' d

/-- The rows in `told` were counted and reported. -/
structure Booked (p : Pipeline) (d₀ : Directory) (file : Option Bytes) (again : Nat)
    (told : List ToldRow) (b : BatchRun) (d : Directory) : Prop
    extends Filed p d₀ file told b.recorder d where
  counts : b.counts = tally again 0 told

/-- A batch goes on behind that many refused rows. -/
def Bears (p : Pipeline) (n : Nat) : Prop :=
  n ≠ 0 → p.options.isPermissive = true ∧ ∀ r, p.recorder = some r →
    r.count + n < UInt64.size ∧ exceedsTolerance (r.count + n) r.tolerance = false

/-- How a batch ends at the row `x` with the given place in it, which is refused for good, behind
the rows in `told`. An end out of range stands for a batch that does not return. -/
inductive Halts (p : Pipeline) (d₀ : Directory) (file : Option Bytes) (again : Nat)
    (told : List ToldRow) (x : ToldRow) (index : Nat) : Error → BatchRun → Directory → Prop
  | rejected {b : BatchRun} {d : Directory} (hstrict : p.options.isPermissive = false)
    (hbooked : Booked p d₀ file again told b d) :
    Halts p d₀ file again told x index (.writeRejected index x.outcome) b d
  | exceeded {r : Recorder} {b : BatchRun} {d : Directory}
    (hpermissive : p.options.isPermissive = true) (hrecorder : p.recorder = some r)
    (hroom : r.count + (refused (told ++ [x])).length < UInt64.size)
    (hexceeds : exceedsTolerance (r.count + (refused (told ++ [x])).length) r.tolerance = true)
    (hbooked : Booked p d₀ file again (told ++ [x]) b d) :
    Halts p d₀ file again told x index (.toleranceExceeded
      (r.count + (refused (told ++ [x])).length) r.tolerance (r.file d₀.place)) b d
  | overflows {r : Recorder} {b : BatchRun} {d : Directory}
    (hpermissive : p.options.isPermissive = true) (hrecorder : p.recorder = some r)
    (hfull : UInt64.size ≤ r.count + (refused (told ++ [x])).length) :
    Halts p d₀ file again told x index .outOfRange b d

/-- What becomes of a batch, behind the rows in `told`, at the outcomes of a call: all of them are
processed, or those up to the first that ends the batch. -/
inductive Sorts (p : Pipeline) (d₀ : Directory) (file : Option Bytes) (again : Nat)
    (told : List ToldRow) (mixed : Bool) (outcomes : List (BatchRow × Outcome))
    (latest : Array (Option Outcome)) :
    Except Error (List BatchRow) → BatchRun → Directory → Prop
  | halted {front rest : List (BatchRow × Outcome)} {row : BatchRow} {o : Outcome} {e : Error}
    {b : BatchRun} {d : Directory} (houtcomes : outcomes = front ++ (row, o) :: rest)
    (hreject : o.isTerminalReject = true)
    (hbears : Bears p (refused (told ++ toldBy mixed front)).length)
    (hhalts : Halts p d₀ file again (told ++ toldBy mixed front) ⟨row.mutation, o, mixed⟩ row.index
      e b d) : Sorts p d₀ file again told mixed outcomes latest (.error e) b d
  | passed {b : BatchRun} {d : Directory} (hlatest : b.latest = noted outcomes latest)
    (hbooked : Booked p d₀ file again (told ++ toldBy mixed outcomes) b d)
    (hbears : Bears p (refused (told ++ toldBy mixed outcomes)).length) :
    Sorts p d₀ file again told mixed outcomes latest (.ok (deferred outcomes)) b d

section Books

variable {σ : Type} {p : Pipeline} {d₀ : Directory} {file : Option Bytes} {again : Nat}
  {told : List ToldRow} {b : BatchRun} {w : WriteSide σ} {o : Outcome}

theorem bears_zero (p : Pipeline) : Bears p 0 :=
  fun h => absurd rfl h

theorem Bears.mono {m n : Nat} (h : Bears p n) (hle : m ≤ n) : Bears p m := by
  intro hm
  obtain ⟨hpermissive, hrecorder⟩ := h (by omega)
  refine ⟨hpermissive, fun r hr => ?_⟩
  obtain ⟨hroom, hwithin⟩ := hrecorder r hr
  refine ⟨by omega, ?_⟩
  by_contra hexceeds
  have := exceedsTolerance_of_le (Bool.not_eq_false _ |>.mp hexceeds)
    (Nat.add_le_add_left hle r.count)
  exact Bool.false_ne_true (hwithin.symm.trans this)

/-- Only refused rows are reported. -/
theorem Filed.concat_of_not_reject {recorder : Option Recorder} {d : Directory} {x : ToldRow}
    (h : Filed p d₀ file told recorder d) (hreject : x.outcome.isTerminalReject = false) :
    Filed p d₀ file (told ++ [x]) recorder d := by
  refine ⟨h.strict, ?_⟩
  rw [refused_concat_of_not_reject told hreject]
  exact h.permissive

/-- A refused row that the recorder cannot count ends the batch. -/
theorem run_rejectRow_of_full (mixed : Bool) (row : BatchRow) (o : Outcome) {r : Recorder}
    (hrecorder : b.recorder = some r) (hfull : ¬ r.count + 1 < UInt64.size) :
    ∃ b', (rejectRow true mixed row o b).run w = ((.error .outOfRange, b'), w) := by
  have hrecord : (r.record row.mutation.reportText o.code.errorCode).run w.directory =
      ((.error .outOfRange, r), w.directory) := by
    rw [Recorder.record, Recorder.mergeCount?, if_neg hfull]
    rfl
  simp [rejectRow, hrecorder, run_onDirectory, hrecord]

/-- A row that is refused for good ends the batch, or the batch reports it and goes on. -/
theorem booked_rejectRow (mixed : Bool) (row : BatchRow) (hreject : o.isTerminalReject = true)
    (h : Booked p d₀ file again told b w.directory) (hbears : Bears p (refused told).length) :
    ∃ answer b' d', (rejectRow p.options.isPermissive mixed row o b).run w =
        ((answer, b'), { w with directory := d' }) ∧
      ((∃ e, answer = .error e ∧
          Halts p d₀ file again told ⟨row.mutation, o, mixed⟩ row.index e b' d') ∨
        answer = .ok () ∧ b'.latest = b.latest.setIfInBounds row.index (some o) ∧
          Booked p d₀ file again (told ++ [⟨row.mutation, o, mixed⟩]) b' d' ∧
          Bears p (refused (told ++ [⟨row.mutation, o, mixed⟩])).length) := by
  have hone : refused (told ++ [⟨row.mutation, o, mixed⟩]) =
      refused told ++ [⟨row.mutation, o⟩] := by
    rw [refused_append, refused_singleton, if_pos hreject]
  cases hp : p.options.isPermissive with
  | false => exact ⟨_, _, w.directory, rfl, .inl ⟨_, rfl, .rejected hp ⟨h.toFiled, h.counts⟩⟩⟩
  | true =>
    obtain ⟨r, r', hr, hr', hadded⟩ := h.permissive hp
    have hwithin (hsome : refused told ≠ []) : r'.isExceeded = false := by
      obtain ⟨-, hrecorder⟩ := hbears (by simpa using hsome)
      rw [Recorder.isExceeded, hadded.count, hadded.tolerance]
      exact (hrecorder r hr).2
    have hlength : r.count + (refused (told ++ [⟨row.mutation, o, mixed⟩])).length =
        r'.count + 1 := by
      rw [hone, List.length_append, ← Nat.add_assoc, ← hadded.count]
      rfl
    by_cases hroom : r'.count + 1 < UInt64.size
    · obtain ⟨r'', d', hrun, hadded'⟩ := hadded.record hwithin hroom ⟨row.mutation, o⟩
      rw [← hone] at hadded'
      have hfiled : Filed p d₀ file (told ++ [⟨row.mutation, o, mixed⟩]) (some r'') d' :=
        ⟨fun hstrict => absurd (hp.symm.trans hstrict) (by simp),
          fun _ => ⟨r, r'', hr, rfl, hadded'⟩⟩
      have hexceeded : r''.isExceeded = exceedsTolerance
          (r.count + (refused (told ++ [⟨row.mutation, o, mixed⟩])).length) r.tolerance := by
        rw [Recorder.isExceeded, hadded'.count, hadded'.tolerance]
      have hcounts := counts_counted mixed row r'' hreject h.counts
      have hrow := run_rejectRow_of_record mixed row o hr' hrun
      cases hexceeds : r''.isExceeded with
      | true =>
        have herror : r''.toleranceError d'.place = .toleranceExceeded
            (r.count + (refused (told ++ [⟨row.mutation, o, mixed⟩])).length) r.tolerance
            (r.file d₀.place) := by
          rw [Recorder.toleranceError, Recorder.file, Recorder.file, hadded'.count,
            hadded'.tolerance, hadded'.names.1, hadded'.place]
        rw [hexceeds, if_pos rfl, herror] at hrow
        exact ⟨_, _, d', hrow, .inl ⟨_, rfl,
          .exceeded hp hr (hlength ▸ hroom) (hexceeded ▸ hexceeds) ⟨hfiled, hcounts⟩⟩⟩
      | false =>
        rw [hexceeds, if_neg Bool.false_ne_true] at hrow
        refine ⟨_, _, d', hrow, .inr ⟨rfl, rfl, ⟨hfiled, hcounts⟩, fun _ => ⟨hp, ?_⟩⟩⟩
        rintro _ hsame
        obtain rfl := Option.some.inj (hr.symm.trans hsame)
        exact ⟨hlength ▸ hroom, hexceeded ▸ hexceeds⟩
    · obtain ⟨b', hrun⟩ := run_rejectRow_of_full (w := w) mixed row o hr' hroom
      exact ⟨_, b', w.directory, hrun, .inl ⟨_, rfl,
        .overflows hp hr (hlength ▸ Nat.not_lt.mp hroom)⟩⟩

/-- One more outcome in front, which does not end the batch. -/
theorem Sorts.cons {mixed : Bool} {row : BatchRow} {rest : List (BatchRow × Outcome)}
    {latest : Array (Option Outcome)} {answer : Except Error (List BatchRow)} {d : Directory}
    (h : Sorts p d₀ file again (told ++ [⟨row.mutation, o, mixed⟩]) mixed rest
      (latest.setIfInBounds row.index (some o)) answer b d) :
    Sorts p d₀ file again told mixed ((row, o) :: rest) latest
      (if o.canRetry then answer.map fun pending => row :: pending else answer) b d := by
  have hcons (outcomes : List (BatchRow × Outcome)) :
      told ++ [⟨row.mutation, o, mixed⟩] ++ toldBy mixed outcomes =
        told ++ toldBy mixed ((row, o) :: outcomes) := by
    rw [List.append_assoc]
    rfl
  cases h with
  | @halted front rest row' o' e _ _ houtcomes hreject hbears hhalts =>
    rw [hcons] at hbears hhalts
    have herror : (if o.canRetry then
        (Except.error e : Except Error (List BatchRow)).map fun pending => row :: pending
        else .error e) = .error e := by
      split_ifs <;> rfl
    rw [herror]
    exact .halted (by rw [houtcomes, List.cons_append]) hreject hbears hhalts
  | passed hlatest hbooked hbears =>
    rw [hcons] at hbooked hbears
    have hdeferred : (if o.canRetry then
        (Except.ok (deferred rest) : Except Error (List BatchRow)).map fun pending => row :: pending
        else .ok (deferred rest)) = .ok (deferred ((row, o) :: rest)) := by
      rw [deferred_cons]
      split_ifs <;> rfl
    rw [hdeferred]
    exact .passed hlatest hbooked hbears

/-- The outcomes of a call are processed in order, up to the first that ends the batch. -/
theorem booked_sortRows (mixed : Bool) {outcomes : List (BatchRow × Outcome)}
    (hcancel : ∀ x ∈ outcomes, x.2.shouldCancel = false)
    (h : Booked p d₀ file again told b w.directory) (hbears : Bears p (refused told).length) :
    ∃ answer b' d', (sortRows p.options.isPermissive mixed outcomes b).run w =
        ((answer, b'), { w with directory := d' }) ∧
      Sorts p d₀ file again told mixed outcomes b.latest answer b' d' := by
  induction outcomes generalizing b w told with
  | nil =>
    refine ⟨_, b, w.directory, rfl, .passed rfl ?_ ?_⟩
    · rwa [toldBy, List.map_nil, List.append_nil]
    · rwa [toldBy, List.map_nil, List.append_nil]
  | cons x rest ih =>
    obtain ⟨row, o⟩ := x
    obtain ⟨hnow, hlater⟩ := List.forall_mem_cons.mp hcancel
    have hsame (hreject : o.isTerminalReject = false) :
        refused (told ++ [⟨row.mutation, o, mixed⟩]) = refused told :=
      refused_concat_of_not_reject told hreject
    simp only [sortRows]
    split_ifs with hsuccess hretry
    · obtain ⟨hreject, hretry, -⟩ := Outcome.isTerminalReject_of_isSuccess hsuccess
      have hbooked : Booked p d₀ file again (told ++ [⟨row.mutation, o, mixed⟩])
          (acceptRow mixed row o b) w.directory :=
        ⟨h.toFiled.concat_of_not_reject hreject, counts_acceptRow hsuccess h.counts⟩
      obtain ⟨answer, b', d', hrun, hsorts⟩ := ih hlater hbooked (by rwa [hsame hreject])
      have hcons : Sorts p d₀ file again told mixed ((row, o) :: rest) b.latest _ b' d' :=
        hsorts.cons
      rw [hretry, if_neg Bool.false_ne_true] at hcons
      exact ⟨answer, b', d', hrun, hcons⟩
    · obtain ⟨-, hreject, -⟩ := Outcome.class_of_canRetry hretry
      have hbooked : Booked p d₀ file again (told ++ [⟨row.mutation, o, mixed⟩])
          (deferRow mixed row o b) w.directory :=
        ⟨h.toFiled.concat_of_not_reject hreject, counts_deferRow hretry h.counts⟩
      obtain ⟨answer, b', d', hrun, hsorts⟩ := ih hlater hbooked (by rwa [hsame hreject])
      have hcons : Sorts p d₀ file again told mixed ((row, o) :: rest) b.latest _ b' d' :=
        hsorts.cons
      rw [if_pos hretry] at hcons
      refine ⟨_, b', d', ?_, hcons⟩
      rw [run_bind, hrun]
      cases answer <;> rfl
    · have hreject := Outcome.isTerminalReject_of_decided (by simpa using hsuccess)
        (by simpa using hretry) hnow
      obtain ⟨answer, b₁, d₁, hreject', hone⟩ := booked_rejectRow mixed row hreject h hbears
      rcases hone with ⟨e, rfl, hhalts⟩ | ⟨rfl, hlatest, hbooked, hbears'⟩
      · refine ⟨.error e, b₁, d₁, by rw [run_bind, hreject']; rfl, ?_⟩
        have hnil : told ++ toldBy mixed [] = told := List.append_nil told
        exact .halted (List.nil_append _).symm hreject (by rwa [hnil]) (by rwa [hnil])
      · obtain ⟨answer, b', d', hrun, hsorts⟩ :=
          ih (w := { w with directory := d₁ }) hlater hbooked hbears'
        rw [hlatest] at hsorts
        have hcons := hsorts.cons
        rw [if_neg hretry] at hcons
        exact ⟨answer, b', d', by rw [run_bind, hreject']; exact hrun, hcons⟩

end Books

end Pipeline

end TxnEngine
