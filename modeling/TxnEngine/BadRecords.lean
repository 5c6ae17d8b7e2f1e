import TxnEngine.Error
import TxnEngine.Program
import TxnEngine.Storage.Directory
import TxnEngine.Text.Quoted

/-!
# Bad-record files

Rows that a permissive load rejects are reported in a file, one line each, up to a tolerance. A load
reserves its file's logical name from the name of its source; a worker of the load writes to a
physical file under a name derived from it. The file is created when the first row is written.

A negative tolerance is never exceeded. When the count of rows exceeds the tolerance the file is
closed, and later rows are only counted.
-/

namespace TxnEngine

/-- A report on the bad records of a load (`BadRecordSummary`). -/
structure BadRecordSummary where
  file : String
  count : Nat
  tolerance : Int
  exceeded : Bool
deriving DecidableEq, Inhabited

def BadRecordSummary.text (s : BadRecordSummary) : String :=
  toString s.count ++ " bad record(s), see " ++ s.file

/-- Whether a count is above a tolerance (`exceeds`). A negative tolerance has no limit. -/
def exceedsTolerance (count : Nat) (tolerance : Int) : Bool :=
  decide (0 ≤ tolerance) && decide (tolerance < count)

/-- Counts the rejected rows of a load and reports them in a file (`BadRecordsRecorder`). -/
structure Recorder where
  logicalName : String
  physicalName : String
  tolerance : Int
  count : Nat
  /-- The file, once a row was written. -/
  sink : Option Sink
  isClosed : Bool
deriving DecidableEq, Inhabited

namespace Recorder

open Program

/-! ## Names -/

/-- What stands behind the last separator of a path, `/` or `\`. -/
def lastComponent (path : List Char) : List Char :=
  (path.reverse.takeWhile fun c => c ≠ '/' && c ≠ '\\').reverse

/-- A file name without what follows its last point. A point in front does not count, and an empty
name becomes `input`. -/
def stemOf (name : List Char) : List Char :=
  match name.reverse.dropWhile (· ≠ '.') with
  | _ :: c :: rest => (c :: rest).reverse
  | _ => if name = [] then "input".toList else name

/-- The stem of a load's file name (`source_stem`). -/
def sourceStem (source : String) : String :=
  String.ofList (stemOf (lastComponent source.toList))

/-- The candidates for a load's logical name. -/
def logicalCandidate (stem : String) : Nat → String
  | 0 => stem ++ ".bad"
  | n => stem ++ "_" ++ toString n ++ ".bad"

/-- The candidates for a worker's physical name. -/
def workerCandidate (base : String) : Nat → String
  | 0 => base
  | n => base ++ "_" ++ toString n

/-- How many candidates are tried. -/
def candidateLimit : Nat := UInt32.size - 1

/-- Reserves the first free candidate from number `n` on, of at most `fuel` many
(`reserve_first_free`). -/
def reserveFrom (candidate : Nat → String) :
    (fuel n : Nat) → Program Directory (Except Error String)
  | 0, _ => return .error (.invalidOperation .noFreeName)
  | fuel + 1, n => do
    match ← atomically fun d => d.reserve (candidate n) with
    | .error e => return .error (.storage e)
    | .ok true => return .ok (candidate n)
    | .ok false => reserveFrom candidate fuel (n + 1)

/-- The recorder of a load that reads `source` (`BadRecordsRecorder::new`). -/
def new (source : String) (tolerance : Int) : Program Directory (Except Error Recorder) := do
  let stem := sourceStem source
  match ← reserveFrom (logicalCandidate stem) candidateLimit 0 with
  | .error e => return .error e
  | .ok name => return .ok ⟨name, name, tolerance, 0, none, false⟩

/-- The recorder of a worker of the same load (`BadRecordsRecorder::for_worker`). -/
def forWorker (r : Recorder) (worker : String) : Program Directory (Except Error Recorder) := do
  let base := r.logicalName ++ "." ++ worker
  match ← reserveFrom (workerCandidate base) candidateLimit 0 with
  | .error e => return .error e
  | .ok name => return .ok ⟨r.logicalName, name, r.tolerance, 0, none, false⟩

/-- The `n`-th of the worker ids that no one has to choose: a random identifier of version 4,
without hyphens. -/
def freshWorkerId (n : Nat) : String :=
  String.ofList (Text.hexPadded 12 n ++ "4000800000000000".toList ++ Text.hexPadded 4 n)

/-! ## Recording -/

/-- A text in one line: every newline becomes `\n`. -/
def oneLine (text : String) : String :=
  String.ofList (text.toList.flatMap fun c => if c = '\n' then ['\\', 'n'] else [c])

/-- The line that reports a row. -/
def line (text code : String) : String :=
  code ++ " " ++ oneLine text ++ "\n"

/-- Whether the count is above the tolerance (`BadRecordsRecorder::is_exceeded`). -/
def isExceeded (r : Recorder) : Bool :=
  exceedsTolerance r.count r.tolerance

/-- An operation of a store on an open sink. -/
def onSink {α : Type} (f : Store → α × Store) (s : Sink) : Program Directory (α × Sink) :=
  atomically fun d => d.onSink f s

/-- Closes the file (`BadRecordsRecorder::close`). What is recorded afterwards is only counted. -/
def close (r : Recorder) : Program Directory (Except Error Unit × Recorder) := do
  let closed := { r with isClosed := true, sink := none }
  match r.sink with
  | none => return (.ok (), closed)
  | some sink =>
    match ← onSink Store.flush sink with
    | (.error e, _) => return (.error (.storage e), closed)
    | (.ok (), sink) =>
      match ← onSink Store.sync sink with
      | (.error e, _) => return (.error (.storage e), closed)
      | (.ok (), _) => return (.ok (), closed)

/-- Writes a line to the file, which is created for the first one. -/
def writeLine (r : Recorder) (line : String) : Program Directory (Except Error Unit × Recorder) := do
  let opened ←
    match r.sink with
    | some sink => pure (.ok sink)
    | none => atomically fun d => d.create r.physicalName
  match opened with
  | .error e => return (.error (.storage e), r)
  | .ok sink =>
    let (answer, sink) ← onSink (fun s => s.append (Bytes.ofText line)) sink
    let r := { r with sink := some sink }
    match answer with
    | .error e => return (.error (.storage e), r)
    | .ok _ => return (.ok (), r)

/-- The recorder with more rows counted, if their number fits into 64 bits
(`BadRecordsRecorder::merge`). -/
def mergeCount? (r : Recorder) (count : Nat) : Option Recorder :=
  if r.count + count < UInt64.size then some { r with count := r.count + count } else none

/-- Reports a row that was counted. Tells whether the tolerance is exceeded, which closes the
file. -/
def report (r : Recorder) (text code : String) :
    Program Directory (Except Error Bool × Recorder) := do
  let (written, r) ← if r.isClosed then pure (.ok (), r) else r.writeLine (line text code)
  match written with
  | .error e => return (.error e, r)
  | .ok () =>
    if r.isExceeded && !r.isClosed then
      match ← r.close with
      | (.error e, r) => return (.error e, r)
      | (.ok (), r) => return (.ok true, r)
    else return (.ok r.isExceeded, r)

/-- Counts a rejected row and reports it (`BadRecordsRecorder::record_bad_record`). Tells whether
the tolerance is exceeded. A row too many to be counted is not reported. -/
def record (r : Recorder) (text code : String) :
    Program Directory (Except Error Bool × Recorder) := do
  match r.mergeCount? 1 with
  | none => return (.error .outOfRange, r)
  | some r => r.report text code

/-- Lets go of the recorder (`Drop` of `BadRecordsRecorder`): its file is closed and its name given
back. -/
def discard (r : Recorder) : Program Directory Unit := do
  let _ ← r.close
  Program.modify fun d => d.release r.physicalName

/-! ## Reports -/

/-- The place of the load's logical file. -/
def file (r : Recorder) (p : Place) : String :=
  p.location r.logicalName

/-- The place of the file that this recorder writes. -/
def physicalFile (r : Recorder) (p : Place) : String :=
  p.location r.physicalName

/-- The report on the load so far (`BadRecordsRecorder::summary`). -/
def summary (r : Recorder) (p : Place) : BadRecordSummary :=
  ⟨r.file p, r.count, r.tolerance, r.isExceeded⟩

/-- The error that says the tolerance is exceeded (`BadRecordsRecorder::tolerance_error`). -/
def toleranceError (r : Recorder) (p : Place) : Error :=
  .toleranceExceeded r.count r.tolerance (r.file p)

/-- The recorder as it is shown in messages (`Debug` of `BadRecordsRecorder`). -/
def text (r : Recorder) : String :=
  "BadRecordsRecorder \x7b logical_name: " ++ Text.quoted r.logicalName ++ ", physical_name: " ++
    Text.quoted r.physicalName ++ ", tolerance: " ++ toString r.tolerance ++ ", count: " ++
    toString r.count ++ ", closed: " ++ (if r.isClosed then "true" else "false") ++ " \x7d"

end Recorder

end TxnEngine
