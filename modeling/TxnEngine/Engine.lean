import TxnEngine.Capacity
import TxnEngine.Manager.Operations
import TxnEngine.Pipeline
import TxnEngine.Resolver

/-!
# The engine

An engine joins transaction management, the write side, the stamps on versions and the resolver that
writes them. Every operation first checks that the engine was not shut down.

Batches of one transaction that are permissive with the same tolerance share a pipeline, and with it
one bad-record file and one count, until the transaction ends or a different kind of batch comes in
between. A batch that is aborted also ends its transaction.
-/

namespace TxnEngine

/-- What an engine is given (`Collaborators`): sources of time and order, the write side, and the
stamps. -/
structure Collaborators (σ : Type) where
  oracle : Oracle
  clock : Clock
  stopwatch : Stopwatch
  writes : WriteSide σ
  stamps : Stamps

/-- The state of an engine over the substrate `σ` (`Engine`). -/
structure Engine (σ : Type) where
  config : Config
  manager : Manager
  writes : WriteSide σ
  stamps : Stamps
  resolver : Resolver
  /-- The pipelines that wait for further batches of their transactions. -/
  pipelines : Table TxnId Pipeline
  isOpen : Bool

namespace Engine

open Program

variable {σ α : Type}

/-! ## Opening and shutting down -/

/-- Transaction management over an opened log (`TransactionManager::new`). -/
def newManager (log : Log) (config : Config) (c : Collaborators σ) : Manager where
  log := log
  oracle := c.oracle
  clock := c.clock
  stopwatch := c.stopwatch
  cache := .new config.cacheCapacity config.cacheMaxAge
  active := []
  keepAlive := .start config.keepAliveInterval
  metrics := .zero
  timeout := config.transactionTimeout.millis

/-- A new engine over an opened log. -/
def new (log : Log) (config : Config) (c : Collaborators σ) : Engine σ where
  config := config
  manager := newManager log config c
  writes := c.writes
  stamps := c.stamps
  resolver := .start config.resolverQueueCapacity config.resolverWorkers
  pipelines := []
  isOpen := true

/-- An engine over an opened log, if the configuration admits one (`Engine::open_with_store`). -/
def openLog (log : Log) (config : Config) (c : Collaborators σ) : Except Error (Engine σ) :=
  match config.validate with
  | .error fault => .error (.invalidConfig fault)
  | .ok () =>
    if Capacity.admitsKeepAlive config.keepAliveWorkers &&
        Capacity.admitsResolver config.resolverQueueCapacity config.resolverWorkers then
      .ok (new log config c)
    else .error .outOfRange

/-- An engine over a stored log (`Engine::open`). -/
def openStore (store : Store) (config : Config) (c : Collaborators σ) :
    Except Error (Engine σ) × Store :=
  match Log.openStore store with
  | (.error e, store) => (.error e, store)
  | (.ok log, store) => (openLog log config c, store)

/-- What the engine was given, as it is now. -/
def collaborators (e : Engine σ) : Collaborators σ :=
  ⟨e.manager.oracle, e.manager.clock, e.manager.stopwatch, e.writes, e.stamps⟩

/-- A program of transaction management. -/
def onManager (p : Program Manager α) : Program (Engine σ) α :=
  p.focus (fun e => e.manager) fun manager e => { e with manager }

/-- A program of the write side. -/
def onWrites (p : Program (WriteSide σ) α) : Program (Engine σ) α :=
  p.focus (fun e => e.writes) fun writes e => { e with writes }

/-- Runs a program unless the engine was shut down (`Engine::ensure_open`). -/
def whenOpen (p : Program (Engine σ) (Except Error α)) : Program (Engine σ) (Except Error α) := do
  if ← Program.read fun e => e.isOpen then p else return .error .shutdown

/-- Runs a program on a transaction unless the engine was shut down. -/
def whenOpenFor (t : Transaction) (p : Program (Engine σ) (Except Error α × Transaction)) :
    Program (Engine σ) (Except Error α × Transaction) := do
  if ← Program.read fun e => e.isOpen then p else return (.error .shutdown, t)

/-! ## The resolver -/

/-- Stamps a version (`VersionStamper::stamp`). -/
def stamp (loc : CellLocation) (id : TxnId) (status : FinalStatus) :
    Program (Engine σ) (Except Error Unit) :=
  atomically fun e =>
    let (answer, stamps) := e.stamps.stamp loc id status
    (answer, { e with stamps })

/-- Submits a version for stamping (`ReadResolver::submit`). -/
def submitVersion (job : ResolveJob) : Program (Engine σ) Bool := do
  let submission ← atomically fun e =>
    let (submission, resolver) := e.resolver.submit job
    (submission, { e with resolver })
  match submission with
  | .accepted =>
    onManager (Manager.count .submit)
    return true
  | .dropped =>
    onManager (Manager.count .drop)
    return false
  | .closed => return false

/-- A resolver worker's job. -/
def resolveJob (job : ResolveJob) : Program (Engine σ) Resolution := do
  let resolution ← Resolver.resolve (fun id => onManager (Manager.settle id)) stamp job
  match resolution with
  | .resolved => onManager (Manager.count .resolve)
  | .left => pure ()
  | .failed _ => onManager (Manager.count .resolveFailure)
  return resolution

/-- A resolver worker's turn (the loop of `work`): it receives the next submission and works it
off. -/
def resolveNext : Program (Engine σ) (Option (ResolveJob × Resolution)) := do
  let next ← atomically fun e =>
    let (job, resolver) := e.resolver.receive
    (job, { e with resolver })
  match next with
  | none => return none
  | some job => return some (job, ← resolveJob job)

/-- A number of worker's turns. -/
def resolveTurns : Nat → Program (Engine σ) Unit
  | 0 => return ()
  | n + 1 => do
    let _ ← resolveNext
    resolveTurns n

/-- Works off every submission that waits. -/
def resolveAll : Program (Engine σ) Unit := do
  let waiting ← Program.read fun e => e.resolver.queue.length
  resolveTurns waiting

/-! ## Transactions -/

/-- Begins a transaction that may write (`Engine::begin_transaction`). -/
def beginTransaction : Program (Engine σ) (Except Error Transaction) :=
  whenOpen (onManager Manager.begin)

/-- Begins a transaction that only reads (`Engine::begin_read_only`). -/
def beginReadOnly : Program (Engine σ) (Except Error Transaction) :=
  whenOpen (onManager Manager.beginReadOnly)

/-- Lets a read-only transaction write (`Engine::elevate`). -/
def elevate (t : Transaction) : Program (Engine σ) (Except Error Unit × Transaction) :=
  whenOpenFor t (onManager (Manager.elevate t))

/-- Takes out the pipeline that waits for a transaction. -/
def takePipeline (id : TxnId) : Program (Engine σ) (Option Pipeline) :=
  atomically fun e => (e.pipelines.find? id, { e with pipelines := e.pipelines.erase id })

/-- Lets a pipeline wait for further batches of a transaction. -/
def keepPipeline (id : TxnId) (p : Pipeline) : Program (Engine σ) Unit :=
  Program.modify fun e => { e with pipelines := e.pipelines.insert id p }

/-- Retires the pipeline that waits for a transaction (`Engine::retire_batch_pipeline`). -/
def retirePipeline (id : TxnId) : Program (Engine σ) Unit := do
  match ← takePipeline id with
  | none => return ()
  | some p => onWrites p.retire

/-- Commits a transaction, whose waiting pipeline is retired first (`Engine::commit`). -/
def commit (t : Transaction) : Program (Engine σ) (Except Error Timestamp × Transaction) :=
  whenOpenFor t do
    retirePipeline t.id
    onManager (Manager.commit t)

/-- Rolls a transaction back, whose waiting pipeline is retired first (`Engine::rollback`). -/
def rollback (t : Transaction) : Program (Engine σ) (Except Error Unit × Transaction) :=
  whenOpenFor t do
    retirePipeline t.id
    onManager (Manager.rollback t)

/-- The end of a transaction whose body is over (the end of `Engine::transaction`): a body that
succeeded is committed, one that failed is rolled back if that is still possible. -/
def conclude (t : Transaction) (result : Except Error α) : Program (Engine σ) (Except Error α) := do
  match result with
  | .ok value =>
    match ← commit t with
    | (.ok _, _) => return .ok value
    | (.error e, _) => return .error e
  | .error e =>
    if t.isActive then
      let _ ← rollback t
      return .error e
    else return .error e

/-- Runs a body in a transaction of its own (`Engine::transaction`). -/
def transaction (body : Transaction → Program (Engine σ) (Except Error α × Transaction)) :
    Program (Engine σ) (Except Error α) := do
  match ← beginTransaction with
  | .error e => return .error e
  | .ok t =>
    let (result, t) ← body t
    conclude t result

/-! ## Reading -/

/-- The status of a transaction (`Engine::status`). -/
def status (id : TxnId) : Program (Engine σ) (Except Error TxnStatus) :=
  whenOpen (onManager (Manager.status id))

/-- Whether a transaction sees what `candidate` wrote (`Engine::is_visible`). -/
def isVisible (reader : Transaction) (candidate : TxnId) : Program (Engine σ) (Except Error Bool) :=
  whenOpen (onManager (Manager.isVisible reader candidate))

/-- Whether a final status lets a reader at `snapshot` see its writer's versions
(`visible_under`). -/
def visibleUnder (status : FinalStatus) (snapshot : Timestamp) : Bool :=
  match status with
  | .committed ts => decide (ts ≤ snapshot)
  | .rolledBack => false

/-- Whether a transaction sees a version with the given stamp
(`VisibilityChecker::is_visible_version`). If the stamp is unresolved and the writer has a final
status, `submits` tells whether the version is submitted for stamping. -/
def versionVisible (submits : Bool) (reader : Transaction) (loc : CellLocation)
    (s : CellStamp) : Program (Engine σ) (Except Error Bool) := do
  if s.txnId = reader.id then return .ok true
  else
    match s.status with
    | some status => return .ok (visibleUnder status reader.snapshot)
    | none =>
      match ← onManager (Manager.status s.txnId) with
      | .error e => return .error e
      | .ok status =>
        match status.final? with
        | none => return .ok false
        | some final =>
          if submits then
            let _ ← submitVersion ⟨loc, s.txnId⟩
            return .ok (visibleUnder final reader.snapshot)
          else return .ok (visibleUnder final reader.snapshot)

/-- Whether a transaction sees a version with the given stamp (`Engine::is_visible_version`). -/
def isVisibleVersion (reader : Transaction) (loc : CellLocation) (s : CellStamp) :
    Program (Engine σ) (Except Error Bool) :=
  whenOpen (versionVisible true reader loc s)

/-! ## Writing -/

/-- The name of the load of a pipeline that is given none. -/
def defaultSource : String := "batch"

/-- A recorder of the engine's directory. -/
def newRecorder (source : String) (tolerance : Int) :
    Program (Engine σ) (Except Error Recorder) :=
  onWrites (Pipeline.onDirectory (Recorder.new source tolerance))

/-- Lets go of a recorder, if there is one. -/
def discardRecorder : Option Recorder → Program (Engine σ) Unit
  | none => return ()
  | some recorder => onWrites (Pipeline.onDirectory recorder.discard)

/-- A pipeline over the engine's write side. Its recorder is let go if it is refused. -/
def newPipeline (retry : RetryConfig) (options : WriteOptions) (recorder : Option Recorder) :
    Program (Engine σ) (Except Error Pipeline) := do
  match Pipeline.new retry options recorder with
  | .ok p => return .ok p
  | .error fault =>
    discardRecorder recorder
    return .error (.invalidConfig fault)

/-- A pipeline with the engine's retry configuration; a permissive one gets a new recorder
(`Engine::write_pipeline`). -/
def writePipeline (options : WriteOptions) : Program (Engine σ) (Except Error Pipeline) :=
  whenOpen do
    let retry ← Program.read fun e => e.config.retry
    if options.isPermissive then
      match ← newRecorder (options.sourceName.getD defaultSource) options.tolerance with
      | .error e => return .error e
      | .ok recorder => newPipeline retry options (some recorder)
    else newPipeline retry options none

/-- Whether a waiting pipeline takes a batch of the given kind. -/
def accepts (p : Pipeline) (permissive : Bool) (tolerance : Int) : Bool :=
  permissive && p.options.isPermissive && p.options.tolerance = tolerance

/-- The pipeline for a batch of a transaction (in `Engine::submit_write_batch`): the waiting one if
it fits, or else a new one. -/
def batchPipeline (id : TxnId) (permissive : Bool) (tolerance : Int) :
    Program (Engine σ) (Except Error Pipeline) := do
  let fresh : WriteOptions := ⟨permissive, tolerance, some ("txn-" ++ toString id.val.toNat)⟩
  match ← takePipeline id with
  | none => writePipeline fresh
  | some p =>
    if accepts p permissive tolerance then return .ok p
    else
      onWrites p.retire
      writePipeline fresh

/-- The end of a batch (in `Engine::submit_write_batch`): one that was aborted fails the
transaction, and the pipeline waits for further batches if there can be any that it takes. A
pipeline that stopped out of range is let go. -/
def endBatch (t : Transaction) (permissive : Bool) (answer : Except Error BatchResult)
    (p : Pipeline) : Program (Engine σ) Transaction := do
  match answer with
  | .error .outOfRange =>
    onWrites p.discard
    return t
  | _ =>
    let t ←
      match answer with
      | .error (.writeAborted _ _) => do
        let (_, t) ← onManager (Manager.fail t)
        pure t
      | _ => pure t
    if permissive && t.isActive then keepPipeline t.id p
    else onWrites p.retire
    return t

/-- Writes a batch on behalf of a transaction (`Engine::submit_write_batch`). -/
def submitWriteBatch [Substrate σ] (t : Transaction) (rows : List Mutation)
    (permissive : Bool) (tolerance : Int) :
    Program (Engine σ) (Except Error BatchResult × Transaction) :=
  whenOpenFor t do
    match ← batchPipeline t.id permissive tolerance with
    | .error e => return (.error e, t)
    | .ok p =>
      let (answer, p) ← onWrites (p.submit t rows)
      let t ← endBatch t permissive answer p
      return (answer, t)

/-! ## The end -/

/-- Retires pipelines one after the other. -/
def retireAll : List Pipeline → Program (Engine σ) Unit
  | [] => return ()
  | p :: rest => do
    onWrites p.retire
    retireAll rest

/-- Retires all waiting pipelines, stops keeping transactions alive, and works off what was
submitted for stamping (`Engine::shutdown`). -/
def shutdown : Program (Engine σ) Unit := do
  if ← Program.read fun e => e.isOpen then
    let pipelines ← atomically fun e => (e.pipelines.map Prod.snd, { e with pipelines := [] })
    retireAll pipelines
    Program.modify fun e =>
      { e with manager := e.manager.shutdown, resolver := e.resolver.close }
    resolveAll
    Program.modify fun e => { e with isOpen := false }

/-- Shuts the engine down and opens it again over what `renew` makes of its stored log, with all it
was given as it is by then. If that fails, what is left is the engine that was shut down. -/
def reopen (renew : Store → Store) (e : Engine σ) : Except Error Unit × Engine σ :=
  let e := (shutdown.run e).2
  match openStore (renew e.manager.log.store) e.config e.collaborators with
  | (.ok opened, _) => (.ok (), opened)
  | (.error refusal, store) =>
    (.error refusal, { e with manager.log.store := store })

/-- The engine as it is shown in messages (`Debug` of `Engine`). -/
def text (e : Engine σ) : String :=
  "Engine \x7b is_open: " ++ (if e.isOpen then "true" else "false") ++ ", active: " ++
    toString e.manager.activeCount ++ ", .. \x7d"

end Engine

/-- Transaction management as it is shown in messages (`Debug` of `TransactionManager`). -/
def Manager.text (m : Manager) : String :=
  "TransactionManager \x7b timeout_ms: " ++ toString m.timeout.toNat ++ ", active: " ++
    toString m.activeCount ++ ", keep_alive: true \x7d"

/-- The log as it is shown in messages (`Debug` of `LogTxnStore`). -/
def Log.text (l : Log) : String :=
  "LogTxnStore \x7b records: " ++ toString l.length ++ " \x7d"

end TxnEngine
