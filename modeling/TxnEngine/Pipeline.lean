import TxnEngine.BadRecords
import TxnEngine.Config
import TxnEngine.Stats
import TxnEngine.Substrate
import TxnEngine.Transaction

/-!
# Write pipelines

A pipeline carries batches of rows to a substrate. In each attempt it sends the pending rows, in the
order of the batch, and sorts their outcomes: rows written are done, rows worth another attempt stay
pending, and rows refused for good either end the batch (a strict pipeline) or are reported and left
out (a permissive one). An outcome that cancels ends the batch before anything of its call is
counted.

`Pipeline.submit` is a program over what pipelines share (`WriteSide`), so that the calls of several
pipelines can be interleaved.
-/

namespace TxnEngine

/-- What the pipelines of an engine share. -/
structure WriteSide (σ : Type) where
  substrate : σ
  locator : Locator
  directory : Directory
  /-- The random numbers from 0 to 1 that will be drawn, in order. -/
  random : Nat → Float

/-- How the last batch of a pipeline went (`PipelineState`). -/
inductive PipelineState where
  | attempting
  | retrying
  | succeeded
  | partiallySucceeded
  | rejected
  | aborted
deriving DecidableEq, Inhabited

namespace PipelineState

/-- Whether the batch is over (`PipelineState::is_terminal`). -/
def isTerminal : PipelineState → Bool
  | attempting | retrying => false
  | _ => true

def text : PipelineState → String
  | attempting => "ATTEMPTING"
  | retrying => "RETRYING"
  | succeeded => "SUCCEEDED"
  | partiallySucceeded => "PARTIALLY_SUCCEEDED"
  | rejected => "REJECTED"
  | aborted => "ABORTED"

/-- The name used when a whole pipeline is shown. -/
def name : PipelineState → String
  | attempting => "Attempting"
  | retrying => "Retrying"
  | succeeded => "Succeeded"
  | partiallySucceeded => "PartiallySucceeded"
  | rejected => "Rejected"
  | aborted => "Aborted"

def all : List PipelineState :=
  [attempting, retrying, succeeded, partiallySucceeded, rejected, aborted]

end PipelineState

/-- The answer to a batch (`BatchResult`). -/
structure BatchResult where
  state : PipelineState
  written : Nat
  stats : WriteStats
  /-- The last outcome of every row. -/
  outcomes : List Outcome
  badRecords : Option BadRecordSummary
deriving DecidableEq, Inhabited

/-- The indices of the rows that were not written (`BatchResult::failed_rows`). -/
def BatchResult.failedRows (r : BatchResult) : List Nat :=
  (r.outcomes.zipIdx.filter fun (o, _) => !o.isSuccess).map Prod.snd

/-- A row of a batch, with its place in it. -/
structure BatchRow where
  index : Nat
  mutation : Mutation
deriving DecidableEq, Inhabited

/-- A batch on its way (the state of `WritePipeline::run`). -/
structure BatchRun where
  state : PipelineState
  recorder : Option Recorder
  counts : WriteStats
  /-- The last outcome of every row that has one. -/
  latest : Array (Option Outcome)
deriving DecidableEq, Inhabited

namespace BatchRun

/-- Sets the last outcome of a row. -/
def note (b : BatchRun) (index : Nat) (o : Outcome) : BatchRun :=
  { b with latest := b.latest.setIfInBounds index (some o) }

/-- Sets the last outcome of several rows. -/
def noteAll (b : BatchRun) (rows : List BatchRow) (o : Outcome) : BatchRun :=
  rows.foldl (fun b row => b.note row.index o) b

/-- The last outcome of every row. A row without one was not run. -/
def outcomes (b : BatchRun) : List Outcome :=
  b.latest.toList.map fun o => o.getD (.notRun none)

end BatchRun

/-- A write pipeline (`WritePipeline`). -/
structure Pipeline where
  retry : RetryConfig
  options : WriteOptions
  recorder : Option Recorder
  stats : WriteStats
  state : PipelineState
deriving Inhabited

namespace Pipeline

open Program

variable {σ : Type}

/-- A pipeline that has carried nothing (`WritePipeline::new`). A permissive one needs a
recorder. -/
def new (retry : RetryConfig) (options : WriteOptions) (recorder : Option Recorder) :
    Except ConfigFault Pipeline :=
  if options.isPermissive && recorder.isNone then .error .recorderMissing
  else
    match retry.validate with
    | .error fault => .error fault
    | .ok () => .ok ⟨retry, options, recorder, .zero, .succeeded⟩

/-! ## Shared actions -/

/-- A program of the directory. -/
def onDirectory {α : Type} (p : Program Directory α) : Program (WriteSide σ) α :=
  p.focus (fun w => w.directory) fun directory w => { w with directory }

/-- Asks the locator for the route (`PartitionLocator::locate`). -/
def locate : Program (WriteSide σ) (Except Error PartitionAddress) :=
  atomically fun w =>
    let (answer, locator) := w.locator.locate
    (answer, { w with locator })

/-- Drops the route (`PartitionLocator::invalidate`). -/
def invalidate : Program (WriteSide σ) Unit :=
  Program.modify fun w => { w with locator := w.locator.invalidate }

/-- Calls the substrate (`Substrate::write`). -/
def write [Substrate σ] (address : PartitionAddress) (txn : TxnId) (rows : List Mutation) :
    Program (WriteSide σ) (Except Error BatchResponse) :=
  atomically fun w =>
    let (answer, substrate) := Substrate.write address txn rows w.substrate
    (answer, { w with substrate })

/-- Where the bad-record files lie. -/
def place : Program (WriteSide σ) Place :=
  Program.read fun w => w.directory.place

/-- Finds the delay in front of an attempt, if it can be represented. A random number is drawn only
where the delay has a random part. -/
def pause (retry : RetryConfig) (made : Nat) : Program (WriteSide σ) (Option Duration) :=
  atomically fun w =>
    (retry.drawnDelay? (w.random 0) made,
      { w with random := fun n => w.random (n + (retry.isJittered made).toNat) })

/-! ## One attempt -/

/-- Each row of a call with its outcome. -/
def answered (response : BatchResponse) (rows : List BatchRow) : List (BatchRow × Outcome) :=
  rows.zipIdx.map fun (row, position) => (row, response.outcomeFor position)

/-- Whether some rows of a call were written and others not. -/
def isMixed (outcomes : List (BatchRow × Outcome)) : Bool :=
  (outcomes.any fun (_, o) => o.isSuccess) && (outcomes.any fun (_, o) => !o.isSuccess)

/-- Counts a row as written. -/
def acceptRow (mixed : Bool) (row : BatchRow) (o : Outcome) (b : BatchRun) : BatchRun :=
  { b with
    counts.written := b.counts.written + 1
    counts.partialRows := b.counts.partialRows + if mixed then 1 else 0 }.note row.index o

/-- Counts a row as pending again. -/
def deferRow (mixed : Bool) (row : BatchRow) (o : Outcome) (b : BatchRun) : BatchRun :=
  { b with
    counts.regionTooBusy := b.counts.regionTooBusy + if o.isBusy then 1 else 0
    counts.partialRetried := b.counts.partialRetried + if mixed then 1 else 0 }.note row.index o

/-- Ends the batch at a row that is refused for good, or reports the row (`WritePipeline::reject`).
The row counts as ignored before it is reported. -/
def rejectRow (permissive mixed : Bool) (row : BatchRow) (o : Outcome) (b : BatchRun) :
    Program (WriteSide σ) (Except Error Unit × BatchRun) := do
  match (if permissive then b.recorder else none) with
  | none => return (.error (.writeRejected row.index o), { b with state := .rejected })
  | some recorder =>
    let b := { b with
      counts.ignored := b.counts.ignored + 1
      counts.partialIgnored := b.counts.partialIgnored + if mixed then 1 else 0 }
    let (exceeded, recorder) ←
      onDirectory (recorder.record row.mutation.reportText o.code.errorCode)
    let b := { b with recorder := some recorder }
    match exceeded with
    | .error e => return (.error e, b)
    | .ok true => return (.error (recorder.toleranceError (← place)), { b with state := .rejected })
    | .ok false => return (.ok (), b.note row.index o)

/-- Sorts the outcomes of a call in order, and answers with the rows that stay pending (the loop
over rows in `WritePipeline::run`). -/
def sortRows (permissive mixed : Bool) :
    List (BatchRow × Outcome) → BatchRun →
      Program (WriteSide σ) (Except Error (List BatchRow) × BatchRun)
  | [], b => return (.ok [], b)
  | (row, o) :: rest, b => do
    if o.isSuccess then sortRows permissive mixed rest (acceptRow mixed row o b)
    else if o.canRetry then
      match ← sortRows permissive mixed rest (deferRow mixed row o b) with
      | (.ok pending, b) => return (.ok (row :: pending), b)
      | (.error e, b) => return (.error e, b)
    else
      match ← rejectRow permissive mixed row o b with
      | (.error e, b) => return (.error e, b)
      | (.ok (), b) => sortRows permissive mixed rest b

/-- Whether an outcome of the call says that the route is stale. -/
def needsRefresh (outcomes : List (BatchRow × Outcome)) : Bool :=
  outcomes.any fun (_, o) => o.refreshCache

/-- One attempt at the pending rows (the body of the loop in `WritePipeline::run`): the rows that
stay pending, or what ends the batch. -/
def attempt [Substrate σ] (permissive : Bool) (txn : TxnId) (pending : List BatchRow)
    (b : BatchRun) : Program (WriteSide σ) (Except Error (List BatchRow) × BatchRun) := do
  match ← locate with
  | .error e => return (.error e, b)
  | .ok address =>
    match ← write address txn (pending.map BatchRow.mutation) with
    | .error e =>
      if e.isRetryable then
        return (.ok pending, b.noteAll pending (.notRun (some e.message)))
      else return (.error e, { b with state := .aborted })
    | .ok response =>
      let outcomes := answered response pending
      match outcomes.find? fun (_, o) => o.shouldCancel with
      | some (row, o) => return (.error (.writeAborted row.index o), { b with state := .aborted })
      | none =>
        match ← sortRows permissive (isMixed outcomes) outcomes b with
        | (.error e, b) => return (.error e, b)
        | (.ok pending, b) =>
          if needsRefresh outcomes then invalidate
          return (.ok pending, b)

/-! ## A batch -/

/-- The batch at the start of an attempt: rows that were sent before count as sent again. -/
def startAttempt (made : Nat) (pending : List BatchRow) (b : BatchRun) : BatchRun :=
  if made = 0 then { b with state := .attempting }
  else { b with state := .retrying, counts.retried := b.counts.retried + pending.length }

/-- Attempts until no row is pending or no attempt is left (the loop of `WritePipeline::run`): the
rows still pending and the number of attempts made, or what ends the batch. An attempt whose delay
is out of range is not made. -/
def attempts [Substrate σ] (retry : RetryConfig) (permissive : Bool) (txn : TxnId) :
    (left made : Nat) → (pending : List BatchRow) → BatchRun →
      Program (WriteSide σ) (Except Error (List BatchRow × Nat) × BatchRun)
  | 0, made, pending, b => return (.ok (pending, made), b)
  | left + 1, made, pending, b => do
    if pending.isEmpty then return (.ok (pending, made), b)
    else
      let b := startAttempt made pending b
      match ← pause retry made with
      | none => return (.error .outOfRange, b)
      | some _ =>
        match ← attempt permissive txn pending b with
        | (.error e, b) => return (.error e, b)
        | (.ok pending, b) => attempts retry permissive txn left (made + 1) pending b

/-- The state of a batch that came to its end. -/
def finalState (written rows : Nat) : PipelineState :=
  if written = rows then .succeeded
  else if 0 < written then .partiallySucceeded
  else .rejected

/-- The answer to a batch that did not end with an error. -/
def completed (p : Place) (b : BatchRun) : Except Error BatchResult × BatchRun :=
  let state := finalState b.counts.written b.outcomes.length
  (.ok ⟨state, b.counts.written, b.counts, b.outcomes, b.recorder.map fun r => r.summary p⟩,
    { b with state })

/-- The end of a batch whose attempts are over (the end of `WritePipeline::run`). Rows still pending
count as thrown, and end a strict batch with an error. -/
def conclude (permissive : Bool) (pending : List BatchRow) (made : Nat) (p : Place) (b : BatchRun) :
    Except Error BatchResult × BatchRun :=
  let b := { b with counts.thrown := b.counts.thrown + pending.length }
  match pending with
  | [] => completed p b
  | first :: _ =>
    if permissive then completed p b
    else
      (.error (.retriesExhausted pending.length made
        ((b.outcomes[first.index]?).getD (.notRun none))), { b with state := .rejected })

/-- The rows of a batch with their places. -/
def batchRows (rows : List Mutation) : List BatchRow :=
  rows.zipIdx.map fun (mutation, index) => ⟨index, mutation⟩

/-- Carries a batch on behalf of a transaction (`WritePipeline::run`). -/
def run [Substrate σ] (p : Pipeline) (txn : TxnId) (rows : List Mutation) :
    Program (WriteSide σ) (Except Error BatchResult × BatchRun) := do
  let b : BatchRun := ⟨p.state, p.recorder, .zero, Array.replicate rows.length none⟩
  let permissive := p.options.isPermissive
  match ← attempts p.retry permissive txn p.retry.maxAttempts 0 (batchRows rows) b with
  | (.error e, b) => return (.error e, b)
  | (.ok (pending, made), b) => return conclude permissive pending made (← place) b

/-- The pipeline behind a batch (the end of `WritePipeline::submit`): what the batch counted is
added, and an error that left the batch open counts as an abort. A batch that stopped out of range
is left as it is, and does not count. -/
def absorb (p : Pipeline) (answer : Except Error BatchResult) (b : BatchRun) : Pipeline :=
  match answer with
  | .error .outOfRange => { p with recorder := b.recorder, state := b.state }
  | .error _ =>
    { p with
      recorder := b.recorder
      stats := p.stats + b.counts
      state := if b.state.isTerminal then b.state else .aborted }
  | .ok _ => { p with recorder := b.recorder, stats := p.stats + b.counts, state := b.state }

/-- Carries a batch on behalf of a transaction that is active and may write
(`WritePipeline::submit`). -/
def submit [Substrate σ] (p : Pipeline) (t : Transaction) (rows : List Mutation) :
    Program (WriteSide σ) (Except Error BatchResult × Pipeline) := do
  if !t.isActive then return (.error (.invalidOperation .notActive), p)
  else if t.readOnly then return (.error (.invalidOperation .readOnly), p)
  else
    let (answer, b) ← p.run t.id rows
    return (answer, p.absorb answer b)

/-! ## The end -/

/-- Closes the bad-record file, and hands out the statistics and the recorder
(`WritePipeline::finish`). A recorder whose file cannot be closed is let go. -/
def finish (p : Pipeline) : Program (WriteSide σ) (Except Error (WriteStats × Option Recorder)) := do
  match p.recorder with
  | none => return .ok (p.stats, none)
  | some recorder =>
    match ← onDirectory recorder.close with
    | (.ok (), recorder) => return .ok (p.stats, some recorder)
    | (.error e, recorder) =>
      onDirectory recorder.discard
      return .error e

/-- Lets go of the pipeline and its recorder. -/
def discard (p : Pipeline) : Program (WriteSide σ) Unit := do
  match p.recorder with
  | none => return ()
  | some recorder => onDirectory recorder.discard

/-- Finishes the pipeline and lets go of its recorder (`finish_batch_pipeline`). -/
def retire (p : Pipeline) : Program (WriteSide σ) Unit := do
  match ← p.finish with
  | .ok (_, some recorder) => onDirectory recorder.discard
  | _ => return ()

/-- Statistics as they are shown in messages. -/
def statsText (s : WriteStats) : String :=
  "WriteStats \x7b written: " ++ toString s.written ++ ", retried: " ++ toString s.retried ++
    ", thrown: " ++ toString s.thrown ++ ", region_too_busy: " ++ toString s.regionTooBusy ++
    ", partial_rows: " ++ toString s.partialRows ++ ", partial_retried: " ++
    toString s.partialRetried ++ ", partial_ignored: " ++ toString s.partialIgnored ++
    ", ignored: " ++ toString s.ignored ++ " \x7d"

/-- The pipeline as it is shown in messages (`Debug` of `WritePipeline`). -/
def text (p : Pipeline) : String :=
  "WritePipeline \x7b state: " ++ p.state.name ++ ", options: " ++ p.options.text ++
    ", stats: " ++ statsText p.stats ++ ", recorder: " ++
    (match p.recorder with
      | none => "None"
      | some recorder => "Some(" ++ recorder.text ++ ")") ++ " \x7d"

end Pipeline

end TxnEngine
