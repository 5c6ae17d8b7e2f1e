import TxnEngine.Capacity
import TxnEngine.History.Step
import TxnEngine.KeepAlive.Renewal

/-!
# Histories of keep-alive renewals

A keep-alive registry over a log in memory. After every step the registry is given time until it
comes to rest, so that each answer shows what the registered transactions are renewed to.
-/

namespace TxnEngine.History

open Json (nat)

/-- A registry over its records, and every id that was ever registered. -/
structure Renewals where
  manager : Manager
  seen : List TxnId

namespace Renewals

def onManager {α : Type} (p : Program Manager α) : Step Renewals α :=
  runOn Renewals.manager (fun manager s => { s with manager }) p

/-- The registry that a request asks for. -/
def start (j : Json) : Reply Renewals := do
  let now ← j.millisAtD "start" 0
  let interval ← j.fieldD "interval" Json.readDuration (.ofMillis 1)
  let timeout ← j.field "timeout" Json.readDuration
  let workers ← j.wordAtD "workers" 2
  match KeepAlive.startChecked interval with
  | .error fault => throw (.engine (.invalidConfig fault))
  | .ok keepAlive =>
    unless Capacity.admitsKeepAlive workers do throw .outOfRange
    let manager : Manager :=
      { log := .empty
        oracle := .startingAt Oracle.firstTimestamp
        clock := ⟨now⟩
        stopwatch := ⟨0⟩
        cache := .new 0 .zero
        active := []
        keepAlive
        metrics := .zero
        timeout := timeout.millis }
    return ⟨manager, []⟩

/-- Moves the clock. -/
def move (j : Json) (f : Clock → Millis → Clock) : Step Renewals Json := do
  let ms ← j.field "ms" Json.readMillis
  modify fun s => { s with manager.clock := f s.manager.clock ms }
  return .null

/-- What a step does by itself. -/
def act (j : Json) : Step Renewals Json := do
  let id := j.field "id" TxnId.read
  match action j with
  | "register" =>
    let id ← id
    modify fun s => { s with seen := if id ∈ s.seen then s.seen else s.seen ++ [id] }
    onManager (Manager.onKeepAlive (KeepAlive.register id))
    return .null
  | "unregister" =>
    onManager (Manager.onKeepAlive (KeepAlive.unregister (← id)))
    return .null
  | "advance" => move j Clock.advance
  | "set" => move j Clock.set
  | "down" =>
    let isDown ← j.flagAtD "down" true
    modify fun s => { s with manager.keepAlive.isConnected := !isDown }
    return .null
  | "shutdown" =>
    modify fun s => { s with manager := s.manager.shutdown }
    return .null
  | "interval" => return (← get).manager.keepAlive.interval.toJson
  | "debug" => return .string (← get).manager.keepAlive.text
  | "wait" => return .null
  | "create" =>
    let r ← j.field "record" Record.read
    Reply.ofEngine (← onManager (Manager.createRecord r))
    return .okay
  | "get" => return .ofOption Record.toJson (← onManager (Manager.getRecord (← id)))
  | "transition" =>
    let t ← Transition.read j
    return (← Reply.ofEngine (← onManager (Manager.transition (← id) t))).toJson
  | _ => throw .unreadable

/-- Lets the registry come to rest: an id is renewed, or dropped, in its first round, and nothing
changes in the ones that follow. -/
def rest (m : Manager) : Manager :=
  if m.keepAlive.isRunning then m.round.round.round else m

/-- What has become of an id. -/
def member (m : Manager) (id : TxnId) : String × Json :=
  let r := m.log.get? id
  (toString id.val.toNat,
    .object [("registered", .bool (m.keepAlive.isRegistered id)),
      ("state", .ofOption (fun r => r.state.toJson) r),
      ("last_keep_alive", .ofOption (fun r => .ofMillis r.lastKeepAlive) r)])

def step (j : Json) : Step Renewals Json := do
  let result ← act j
  modify fun s => { s with manager := rest s.manager }
  let s ← get
  let m := s.manager
  return .object [("result", result), ("now", .ofMillis m.clock.now),
    ("count", nat m.keepAlive.registered.length), ("txns", .object (s.seen.map (member m))),
    ("any_renewed", .bool (0 < m.metrics.keepAliveRenewals)),
    ("any_failed", .bool (0 < m.metrics.keepAliveFailures))]

end Renewals

end TxnEngine.History
