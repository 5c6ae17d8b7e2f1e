import TxnEngine.Capacity
import TxnEngine.History.Values
import TxnEngine.Resolver

/-!
# Histories of a resolver

A resolver over a settler that answers from a table. Behind a closed gate every worker holds the job
it took. Once the gate is open, whoever needs a worker waits until every accepted job was taken, and
by then all of them are worked off. Opening the gate waits only for the jobs in the queue: if there
are none, the workers still hold their jobs when the next step is done.
-/

namespace TxnEngine.History

open Json (nat)

/-- A resolver, the stamps it writes and the settler it asks. -/
structure Resolving where
  resolver : Resolver
  stamps : Stamps
  /-- What settling a writer answers. -/
  settled : Table TxnId (Option FinalStatus)
  isGateOpen : Bool
  metrics : Metrics

namespace Resolving

/-- Asks the settler. -/
def settle (id : TxnId) : Program Resolving (Except Error (Option FinalStatus)) :=
  Program.read fun s =>
    match s.settled.find? id with
    | some status => .ok status
    | none => .error (.transactionNotFound id)

/-- Stamps a version. -/
def stamp (loc : CellLocation) (id : TxnId) (status : FinalStatus) :
    Program Resolving (Except Error Unit) :=
  Program.atomically fun s =>
    let (stamped, stamps) := s.stamps.stamp loc id status
    (stamped, { s with stamps })

def count (event : Metrics.Event) (s : Resolving) : Resolving :=
  { s with metrics := s.metrics.count event }

/-- A worker does one job. -/
def work (s : Resolving) (job : ResolveJob) : Resolving :=
  match (Resolver.resolve settle stamp job).run s with
  | (.resolved, s) => s.count .resolve
  | (.left, s) => s
  | (.failed _, s) => s.count .resolveFailure

/-- Works off all accepted jobs. -/
def workAll (s : Resolving) : Resolving :=
  let (jobs, resolver) := s.resolver.drain
  jobs.foldl work { s with resolver }

/-- Opens the gate. -/
def openGate (s : Resolving) : Resolving :=
  let s := { s with isGateOpen := true }
  if s.resolver.queue.isEmpty then s else s.workAll

/-- An idle worker takes the submitted job, and does it unless the gate holds it back. -/
def accept (s : Resolving) : Resolving :=
  let s := { s with resolver := s.resolver.take }.count .submit
  if s.isGateOpen then s.workAll else s

def step (j : Json) : Step Resolving Json := do
  match stampStep TxnId.read j with
  | some step => doShared Resolving.stamps (fun stamps s => { s with stamps }) step
  | none =>
    match action j with
    | "submit" =>
      let job : ResolveJob := ⟨← j.field "loc" CellLocation.read, ← j.field "id" TxnId.read⟩
      match ← applyOn Resolving.resolver (fun resolver s => { s with resolver })
        fun r => r.submit job with
      | .accepted =>
        modify accept
        return .bool true
      | .dropped =>
        modify (count .drop)
        return .bool false
      | .closed => return .bool false
    | "open_gate" =>
      modify openGate
      return .okay
    | "shutdown" =>
      modify fun s => { s with isGateOpen := true, resolver := s.resolver.close }.workAll
      let s ← get
      return .object [("submitted", nat s.metrics.resolverSubmitted),
        ("resolved", nat s.metrics.resolverResolved), ("dropped", nat s.metrics.resolverDropped),
        ("failed", nat s.metrics.resolverFailed), ("stamps", nat s.stamps.length)]
    | "debug" => return .string (← get).resolver.text
    | _ => throw .unreadable

/-- The answers of a settler: under each id a final status, or `null` for a live writer. -/
def readSettled (j : Json) : Reply (Table TxnId (Option FinalStatus)) :=
  match j with
  | .object ms => ms.mapM fun (key, value) => do
    let id ← Json.wordOfDigits key
    let status ← if value.isNull then pure none else (FinalStatus.read value).map some
    return (⟨UInt64.ofNat id⟩, status)
  | _ => .error .unreadable

/-- The resolver that a request asks for. -/
def start (j : Json) : Reply Resolving := do
  let settled ← j.fieldD "settle" readSettled []
  let capacity ← j.wordAtD "capacity" 8
  let workers ← j.wordAtD "workers" 1
  let isGated ← j.flagAtD "gated" false
  unless Capacity.admitsResolver capacity workers do throw .outOfRange
  return ⟨.start capacity workers, .empty, settled, !isGated, .zero⟩

end Resolving

end TxnEngine.History
