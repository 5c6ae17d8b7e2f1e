import TxnEngine.CompletedCache
import TxnEngine.KeepAlive.Registry
import TxnEngine.Log
import TxnEngine.Metrics
import TxnEngine.Transaction

/-!
# The state of transaction management

What all clients of the transaction manager share: the log, the sources of time and order, the cache
of finished records, the ids of the running transactions and their keep-alive registrations. The
atomic actions on it are the building blocks of the operations.
-/

namespace TxnEngine

/-- The shared state of transaction management (`TransactionManager`). -/
structure Manager where
  log : Log
  oracle : Oracle
  clock : Clock
  stopwatch : Stopwatch
  cache : CompletedCache
  /-- The transactions begun here and not yet known to be finished. -/
  active : List TxnId
  keepAlive : KeepAlive
  metrics : Metrics
  /-- How long a record stays live without being kept alive. -/
  timeout : Millis
deriving Inhabited

namespace Manager

open Program

/-- Draws a timestamp. -/
def drawTimestamp : Program Manager (Except Error Timestamp) :=
  atomically fun m =>
    let (answer, oracle) := m.oracle.draw
    (answer, { m with oracle })

/-- Reads the wall clock. -/
def readClock : Program Manager Millis :=
  Program.read fun m => m.clock.now

/-- Adds the first image of a transaction to the log. -/
def createRecord (r : Record) : Program Manager (Except Error Unit) :=
  atomically fun m =>
    let (answer, log) := m.log.create r
    (answer, { m with log })

/-- Puts a request to a record. -/
def transition (id : TxnId) (t : Transition) : Program Manager (Except Error TransitionOutcome) :=
  atomically fun m =>
    let (answer, log) := m.log.transition id t
    (answer, { m with log })

/-- Reads the last image of a record. -/
def getRecord (id : TxnId) : Program Manager (Option Record) :=
  Program.read fun m => m.log.get? id

/-- Looks a finished record up in the cache. -/
def cached (id : TxnId) : Program Manager (Option Record) :=
  atomically fun m =>
    let (now, stopwatch) := m.stopwatch.read
    let (answer, cache) := m.cache.get id now
    (answer, { m with stopwatch, cache })

/-- Puts a record into the cache if it is finished. -/
def remember (r : Record) : Program Manager Unit :=
  Program.modify fun m =>
    let (now, stopwatch) := m.stopwatch.read
    { m with stopwatch, cache := (m.cache.insert r now).2 }

/-- Counts an event. -/
def count (event : Metrics.Event) : Program Manager Unit :=
  Program.modify fun m => { m with metrics := m.metrics.count event }

/-- Adds an id to the active ones. -/
def enter (id : TxnId) : Program Manager Unit :=
  Program.modify fun m => { m with active := if id ∈ m.active then m.active else id :: m.active }

/-- Takes an id out of the active ones. -/
def leave (id : TxnId) : Program Manager Unit :=
  Program.modify fun m => { m with active := m.active.filter (· ≠ id) }

/-- A program of the keep-alive registry. -/
def onKeepAlive {α : Type} (p : Program KeepAlive α) : Program Manager α :=
  p.focus (fun m => m.keepAlive) fun keepAlive m => { m with keepAlive }

/-- Makes an id active and has it kept alive (`TransactionManager::track`). -/
def track (id : TxnId) : Program Manager Unit := do
  enter id
  onKeepAlive (KeepAlive.register id)

/-- Takes an id out of the active ones and lets it go (`TransactionManager::untrack`). -/
def untrack (id : TxnId) : Program Manager Unit := do
  leave id
  onKeepAlive (KeepAlive.unregister id)

/-- The number of active transactions (`TransactionManager::active_count`). -/
def activeCount (m : Manager) : Nat :=
  m.active.length

/-- The smallest active id (`TransactionManager::oldest_active`): no running transaction reads at an
older snapshot. -/
def oldestActive (m : Manager) : Option TxnId :=
  m.active.foldl (fun best id =>
    match best with
    | none => some id
    | some b => some (if id < b then id else b)) none

/-- Stops keeping transactions alive (`TransactionManager::shutdown`). -/
def shutdown (m : Manager) : Manager :=
  { m with keepAlive := m.keepAlive.shutdown }

end Manager

end TxnEngine
