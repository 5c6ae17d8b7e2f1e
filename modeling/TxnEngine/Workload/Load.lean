import TxnEngine.Workload.Fixture

/-!
# Parallel loads

A load reads one source with several workers. Each worker has a transaction, a pipeline and a
bad-record recorder of its own, under the logical name of the load; in the end the statistics are
added up and the workers' counts are merged into the coordinator's.

The parts are kept apart so that the workers can be interleaved: `prepareLoad` makes the recorders,
`loadWorker` is one worker, `reportLoad` collects the runs. `parallelLoad` runs the workers one
after the other.
-/

namespace TxnEngine.Workload

open Program

variable {σ : Type}

/-- What is to be loaded. -/
structure LoadPlan where
  source : String
  workers : Nat
  rowsPerWorker : Nat
  tolerance : Int
deriving DecidableEq, Inhabited

/-- What one worker did (`WorkerRun`). -/
structure WorkerRun where
  stats : WriteStats
  recorder : Option Recorder
  /-- What stopped the worker. -/
  error : Option Error
deriving DecidableEq, Inhabited

/-- What a load did (`LoadReport`). -/
structure LoadReport where
  stats : WriteStats
  workers : Nat
  badRecords : BadRecordSummary
  /-- The places of the workers' bad-record files. -/
  workerFiles : List String
  /-- The messages of what stopped workers. -/
  errors : List String
deriving DecidableEq, Inhabited

/-- Row `i` of a worker. -/
def loadRow (worker i : Nat) : Mutation :=
  (Mutation.insert (.ofText ("w" ++ toString worker ++ "-row-" ++ toString i))
    (.ofText "v")).withSourceText (toString worker ++ "," ++ toString i)

/-- The rows of a worker. -/
def loadRows (plan : LoadPlan) (worker : Nat) : List Mutation :=
  (List.range plan.rowsPerWorker).map (loadRow worker)

/-! ## Recorders -/

/-- A program of the bad-record directory. -/
def onSinks {α : Type} (p : Program Directory α) : Program (Engine σ) α :=
  Engine.onWrites (Pipeline.onDirectory p)

/-- Lets go of a list of recorders. -/
def discardAll : List Recorder → Program (Engine σ) Unit
  | [] => return ()
  | r :: rest => do
    onSinks r.discard
    discardAll rest

/-- Recorders for `count` workers from number `worker` on, or the first refusal, with which those
made before it are let go. -/
def workerRecorders (coordinator : Recorder) :
    (count worker : Nat) → Program (Engine σ) (Except Error (List Recorder))
  | 0, _ => return .ok []
  | count + 1, worker => do
    match ← onSinks (coordinator.forWorker (toString worker)) with
    | .error e => return .error e
    | .ok recorder =>
      match ← workerRecorders coordinator count (worker + 1) with
      | .ok rest => return .ok (recorder :: rest)
      | .error e =>
        onSinks recorder.discard
        return .error e

/-- The recorders of a load (the beginning of `parallel_load`): the coordinator's and the
workers'. -/
def prepareLoad (plan : LoadPlan) :
    Program (Engine σ) (Except Error (Recorder × List Recorder)) := do
  match ← Engine.newRecorder plan.source plan.tolerance with
  | .error e => return .error e
  | .ok coordinator =>
    match ← workerRecorders coordinator plan.workers 0 with
    | .ok recorders => return .ok (coordinator, recorders)
    | .error e =>
      onSinks coordinator.discard
      return .error e

/-! ## Workers -/

/-- The end of a worker's transaction: committed after a batch that was answered, rolled back after
one that failed. -/
def endTransaction (t : Transaction) (answer : Except Error BatchResult) :
    Program (Engine σ) (Except Error (Option Error)) := do
  match answer with
  | .ok _ =>
    match ← Engine.commit t with
    | (.ok _, _) => return .ok none
    | (.error e, _) => return .error e
  | .error cause =>
    match ← Engine.rollback t with
    | (.ok (), _) => return .ok (some cause)
    | (.error e, _) => return .error e

/-- A worker (`load_worker`): it begins a transaction, carries its rows as one batch, ends the
transaction and finishes its pipeline. -/
def loadWorker [Substrate σ] (plan : LoadPlan) (worker : Nat) (recorder : Recorder) :
    Program (Engine σ) (Except Error WorkerRun) := do
  match ← Engine.beginTransaction with
  | .error e =>
    onSinks recorder.discard
    return .error e
  | .ok t =>
    let retry ← Program.read fun e => e.config.retry
    match ← Engine.newPipeline retry (.permissive plan.source plan.tolerance) (some recorder) with
    | .error e => return .error e
    | .ok p =>
      let (answer, p) ← Engine.onWrites (p.submit t (loadRows plan worker))
      match ← endTransaction t answer with
      | .error e =>
        Engine.onWrites p.discard
        return .error e
      | .ok stopped =>
        match ← Engine.onWrites p.finish with
        | .error e => return .error e
        | .ok (stats, recorder) => return .ok ⟨stats, recorder, stopped⟩

/-- The workers one after the other, each with its number and recorder. -/
def runWorkers [Substrate σ] (plan : LoadPlan) :
    List (Recorder × Nat) → Program (Engine σ) (List (Except Error WorkerRun))
  | [] => return []
  | (recorder, worker) :: rest => do
    let run ← loadWorker plan worker recorder
    return run :: (← runWorkers plan rest)

/-! ## The report -/

/-- The coordinator with a worker's count added; a sum that does not fit leaves it as it is. -/
def mergeRecorder (coordinator worker : Recorder) : Recorder :=
  (coordinator.mergeCount? worker.count).getD coordinator

/-- What was collected from the first runs. -/
structure Collected where
  coordinator : Recorder
  tally : Tally
  workerFiles : List String
  errors : List String

/-- Adds a run to what was collected. -/
def Collected.add (c : Collected) (p : Place) (run : WorkerRun) : Collected where
  coordinator := (run.recorder.map (mergeRecorder c.coordinator)).getD c.coordinator
  tally := (c.tally.add run.stats).2
  workerFiles := c.workerFiles ++ (run.recorder.map fun r => r.physicalFile p).toList
  errors := c.errors ++ (run.error.map Error.message).toList

/-- The report on the runs of a load, or the first failure among them (the end of
`parallel_load`). -/
def loadReport (p : Place) (coordinator : Recorder) (runs : List (Except Error WorkerRun)) :
    Except Error LoadReport := do
  let runs ← runs.mapM id
  let c := runs.foldl (fun c run => c.add p run) (Collected.mk coordinator .empty [] [])
  return ⟨c.tally.total, c.tally.contributions, c.coordinator.summary p, c.workerFiles, c.errors⟩

/-- The recorders that the runs left. -/
def leftRecorders (runs : List (Except Error WorkerRun)) : List Recorder :=
  runs.filterMap fun run =>
    match run with
    | .ok run => run.recorder
    | .error _ => none

/-- Reports on the runs of a load and lets go of all its recorders. -/
def reportLoad (coordinator : Recorder) (runs : List (Except Error WorkerRun)) :
    Program (Engine σ) (Except Error LoadReport) := do
  let place ← Engine.onWrites Pipeline.place
  discardAll (leftRecorders runs)
  onSinks coordinator.discard
  return loadReport place coordinator runs

/-- A load whose workers run one after the other (`parallel_load`). -/
def parallelLoad [Substrate σ] (plan : LoadPlan) :
    Program (Engine σ) (Except Error LoadReport) := do
  match ← prepareLoad plan with
  | .error e => return .error e
  | .ok (coordinator, recorders) =>
    let runs ← runWorkers plan recorders.zipIdx
    reportLoad coordinator runs

end TxnEngine.Workload
