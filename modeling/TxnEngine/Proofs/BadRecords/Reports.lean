import TxnEngine.Proofs.BadRecords.Sink
import TxnEngine.Substrate

/-!
# What a recorder reports

The rows that were refused so far decide everything about a recorder: its count, the bytes of its
file, and whether the file is closed. Every row that is recorded carries this on to one more row.

Results:
* `BadRecord.count_newline_line`: each bad record is one line.
* `BadRecord.kept_concat`: rows are kept up to the first that exceeds the tolerance.
* `Recorder.Reports.record`: what is recorded of one more row.
* `Recorder.Added.record`: the same for a recorder that was in use before.
-/

namespace TxnEngine

/-- A row that was refused for good. -/
structure BadRecord where
  row : Mutation
  outcome : Outcome
deriving DecidableEq

namespace BadRecord

/-- The line by which the row is reported. -/
def line (x : BadRecord) : Bytes :=
  Bytes.ofText (Recorder.line x.row.reportText x.outcome.code.errorCode)

theorem count_newline_line (x : BadRecord) : x.line.count Bytes.newline = 1 :=
  Recorder.count_newline_line x.row.reportText x.outcome.code

/-- The bad records that are reported in a file: all of them, or those up to the first that exceeds the
tolerance. -/
def kept (tolerance : Int) (rejects : List BadRecord) : List BadRecord :=
  if tolerance < 0 then rejects else rejects.take (tolerance.toNat + 1)

/-- The file in which bad records are reported. Without any there is no file. -/
def file? (tolerance : Int) (rejects : List BadRecord) : Option Bytes :=
  if rejects = [] then none else some ((kept tolerance rejects).flatMap line)

end BadRecord

theorem exceedsTolerance_iff {count : Nat} {tolerance : Int} :
    exceedsTolerance count tolerance = true ↔ 0 ≤ tolerance ∧ tolerance < count := by
  rw [exceedsTolerance, Bool.and_eq_true, decide_eq_true_iff, decide_eq_true_iff]

theorem exceedsTolerance_of_le {m n : Nat} {tolerance : Int}
    (h : exceedsTolerance m tolerance = true) (hle : m ≤ n) :
    exceedsTolerance n tolerance = true := by
  rw [exceedsTolerance_iff] at h ⊢
  omega

namespace BadRecord

variable {tolerance : Int} {rejects : List BadRecord}

theorem kept_concat (tolerance : Int) (rejects : List BadRecord) (x : BadRecord) :
    kept tolerance (rejects ++ [x]) =
      if exceedsTolerance rejects.length tolerance then kept tolerance rejects
      else kept tolerance rejects ++ [x] := by
  by_cases hneg : tolerance < 0
  · have hwithin : ¬ exceedsTolerance rejects.length tolerance = true := fun h => by
      rw [exceedsTolerance_iff] at h
      omega
    rw [if_neg hwithin, kept, kept, if_pos hneg, if_pos hneg]
  rw [kept, kept, if_neg hneg, if_neg hneg]
  split_ifs with hexceeds
  · rw [exceedsTolerance_iff] at hexceeds
    exact List.take_append_of_le_length (by omega)
  · rw [exceedsTolerance_iff] at hexceeds
    have hlength : (rejects ++ [x]).length ≤ tolerance.toNat + 1 := by
      rw [List.length_append, List.length_singleton]
      omega
    rw [List.take_of_length_le hlength, List.take_of_length_le (by omega)]

/-- One more bad record adds its line, unless the tolerance was exceeded before. -/
theorem file?_concat (tolerance : Int) (rejects : List BadRecord) (x : BadRecord) :
    file? tolerance (rejects ++ [x]) =
      if exceedsTolerance rejects.length tolerance then file? tolerance rejects
      else some ((file? tolerance rejects).getD [] ++ x.line) := by
  rw [file?, if_neg (by simp), kept_concat]
  split_ifs with hexceeds
  · have hsome : rejects ≠ [] := by
      rintro rfl
      rw [exceedsTolerance_iff] at hexceeds
      simp only [List.length_nil] at hexceeds
      omega
    rw [file?, if_neg hsome]
  · rw [List.flatMap_append, List.flatMap_singleton, file?]
    split_ifs with hnone
    · subst hnone
      simp [kept]
    · rfl

end BadRecord

namespace Recorder

/-- The recorder has counted these bad records, and its file reports them. -/
structure Reports (r : Recorder) (d : Directory) (rejects : List BadRecord) : Prop where
  count : r.count = rejects.length
  closed : r.isClosed = exceedsTolerance rejects.length r.tolerance
  holds : r.Holds d (BadRecord.file? r.tolerance rejects)

/-- A recorder that was just made has reported nothing. -/
theorem Fresh.reports {r : Recorder} {d : Directory} (h : r.Fresh d)
    (haccepted : d.place.refusal? r.physicalName = none) : r.Reports d [] := by
  obtain ⟨hholds, hcount, hclosed⟩ := h.holds haccepted
  refine ⟨hcount, ?_, hholds⟩
  rw [hclosed, eq_comm, Bool.eq_false_iff, ne_eq, exceedsTolerance_iff, List.length_nil]
  omega

/-- What is recorded of one more row, if their number fits into 64 bits. -/
theorem Reports.record {r : Recorder} {d : Directory} {rejects : List BadRecord}
    (h : r.Reports d rejects) (x : BadRecord) :
    ((r.record x.row.reportText x.outcome.code.errorCode).run d).1.1 = .error .outOfRange ∨
    ∃ r' d', (r.record x.row.reportText x.outcome.code.errorCode).run d =
        ((.ok (exceedsTolerance (rejects.length + 1) r.tolerance), r'), d') ∧
      r'.tolerance = r.tolerance ∧ r'.physicalName = r.physicalName ∧
      r'.Reports d' (rejects ++ [x]) := by
  by_cases hroom : r.count + 1 < UInt64.size
  · obtain ⟨r', d', hrun, ⟨sink, hr'⟩, -, hholds⟩ :=
      run_record h.holds hroom x.row.reportText x.outcome.code.errorCode
    have htolerance : r'.tolerance = r.tolerance := by rw [hr']
    refine .inr ⟨r', d', by rw [← h.count]; exact hrun, htolerance, by rw [hr'], ?_, ?_, ?_⟩
    · rw [hr', List.length_append, List.length_singleton, ← h.count]
    · rw [htolerance, hr', List.length_append, List.length_singleton, ← h.count]
      simp only [h.closed, ← h.count]
      cases hexceeds : exceedsTolerance r.count r.tolerance with
      | true => rw [exceedsTolerance_of_le hexceeds (Nat.le_succ _), Bool.or_self]
      | false => rw [Bool.false_or]
    · rw [htolerance, BadRecord.file?_concat, ← h.closed]
      exact hholds
  · refine .inl ?_
    rw [Recorder.record, mergeCount?, if_neg hroom]
    rfl

/-! ## Recorders that were in use before -/

/-- What has become of the recorder `r` and its file behind these bad records, none of which came
behind one that exceeded the tolerance. -/
structure Added (r : Recorder) (p : Place) (file : Option Bytes) (rejects : List BadRecord)
    (r' : Recorder) (d : Directory) : Prop where
  names : r'.logicalName = r.logicalName ∧ r'.physicalName = r.physicalName
  tolerance : r'.tolerance = r.tolerance
  count : r'.count = r.count + rejects.length
  closed : r'.isClosed = (r.isClosed || (!rejects.isEmpty && r'.isExceeded))
  place : d.place = p
  holds : r'.Holds d (if r.isClosed || rejects.isEmpty then file
    else some (file.getD [] ++ rejects.flatMap BadRecord.line))

variable {r r' : Recorder} {p : Place} {d : Directory} {file : Option Bytes}
  {rejects : List BadRecord}

theorem Holds.added (h : r.Holds d file) : r.Added d.place file [] r d := by
  refine ⟨⟨rfl, rfl⟩, rfl, rfl, ?_, rfl, ?_⟩
  · simp
  · simpa using h

/-- One more bad record, if there is room to count it and the tolerance was not exceeded before. -/
theorem Added.record (h : r.Added p file rejects r' d)
    (hwithin : rejects ≠ [] → r'.isExceeded = false) (hroom : r'.count + 1 < UInt64.size)
    (x : BadRecord) :
    ∃ r'' d', (r'.record x.row.reportText x.outcome.code.errorCode).run d =
        ((.ok r''.isExceeded, r''), d') ∧ r.Added p file (rejects ++ [x]) r'' d' := by
  obtain ⟨r'', d', hrun, ⟨sink, hr''⟩, hplace, hholds⟩ :=
    run_record h.holds hroom x.row.reportText x.outcome.code.errorCode
  have hexceeded : exceedsTolerance (r'.count + 1) r'.tolerance = r''.isExceeded := by
    rw [hr'']
    rfl
  have hopen : r'.isClosed = r.isClosed := by
    rw [h.closed]
    by_cases hnone : rejects = []
    · simp [hnone]
    · simp [hwithin hnone]
  rw [hexceeded] at hrun
  refine ⟨r'', d', hrun, ⟨?_, ?_, ?_, ?_, hplace.trans h.place, ?_⟩⟩
  · rw [hr'']
    exact h.names
  · rw [hr'']
    exact h.tolerance
  · rw [hr'', List.length_append, ← Nat.add_assoc, ← h.count]
    rfl
  · have hsome : (rejects ++ [x]).isEmpty = false := by simp
    rw [← hexceeded, ← hopen, hsome, hr'']
    rfl
  · have hline : Bytes.ofText (line x.row.reportText x.outcome.code.errorCode) = x.line := rfl
    rw [hopen, hline] at hholds
    cases hclosed : r.isClosed with
    | true => simpa [hclosed] using hholds
    | false =>
      cases rejects with
      | nil => simpa [hclosed] using hholds
      | cons first rest => simpa [hclosed] using hholds

end Recorder

end TxnEngine
