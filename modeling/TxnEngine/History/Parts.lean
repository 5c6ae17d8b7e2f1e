import TxnEngine.History.World

/-!
# Steps on what an engine was given

The steps of an engine's history that script its substrate, make its locator and oracle refuse, move
its clock, look into its log behind its back and let storage fail.
-/

namespace TxnEngine.History.World

open Json (nat)

/-- Changes the substrate. -/
def changeSubstrate (f : ScriptedSubstrate → ScriptedSubstrate) : Act Json := do
  change fun e => { e with writes.substrate := f e.writes.substrate }
  return .okay

/-- The steps on the substrate. -/
def substrateStep (j : Json) : Option (Act Json) :=
  match action j with
  | "script" => some do
    let key ← j.bytesAt "key"
    let outcomes ← j.field "outcomes" (Json.readList Outcome.read)
    let times ← j.wordAtD "times" 1
    let queued := if outcomes.isEmpty then [] else (List.replicate times outcomes).flatten
    changeSubstrate fun s => s.script key queued
  | "fail_next_call" => some do
    let e ← j.field "error" Error.read
    changeSubstrate fun s => { s with callErrors := s.callErrors ++ [e] }
  | "answer_next_call" => some do
    let o ← j.field "outcome" Outcome.read
    changeSubstrate fun s => { s with overalls := s.overalls ++ [o] }
  | "respond_next" => some do
    let response : BatchResponse :=
      ⟨← j.field? "global" Outcome.read, ← j.fieldD "outcomes" (Json.readList Outcome.read) []⟩
    changeSubstrate fun s => { s with prepared := s.prepared ++ [response] }
  | "calls" => some do
    return .array ((← get).engine.writes.substrate.calls.reverse.map RecordedCall.toJson)
  | "row" => some do
    let key ← j.bytesAt "key"
    let s := (← get).engine.writes.substrate
    return .object [("attempts", nat (s.attemptsFor key)), ("writes", nat (s.writesOf key)),
      ("distinct", nat s.distinctRowsWritten)]
  | _ => none

/-- Moves the clock, and answers the time. -/
def moveClock (j : Json) (f : Clock → Millis → Clock) : Act Json := do
  let ms ← j.field "ms" Json.readMillis
  change fun e => { e with manager.clock := f e.manager.clock ms }
  return .ofMillis (← get).engine.manager.clock.now

/-- The steps on the locator, the oracle and the clock. -/
def sourceStep (j : Json) : Option (Act Json) :=
  match action j with
  | "locator_fail" => some do
    let refusal ← j.field "error" Error.read
    change fun e =>
      { e with writes.locator.refusals := e.writes.locator.refusals ++ [refusal] }
    return .okay
  | "invalidations" => some do return nat (← get).engine.writes.locator.invalidations
  | "oracle_fail" => some do
    let refusal ← j.field "error" Error.read
    change fun e =>
      { e with manager.oracle.refusals := e.manager.oracle.refusals ++ [refusal] }
    return .okay
  | "peek" => some do return (← get).engine.manager.oracle.next.toJson
  | "set" => some (moveClock j Clock.set)
  | "advance" => some (moveClock j Clock.advance)
  | _ => none

/-- An operation of the log, past transaction management. -/
def onLog {α : Type} (f : Log → α × Log) : Act α :=
  onManager (Program.atomically fun m =>
    let (a, log) := f m.log
    (a, { m with log }))

/-- A step on the log: reading, creating or changing a record, or else what the log holds. -/
def logStep (j : Json) : Act Json := do
  if (← get).logPlace ≠ .store then throw .unreadable
  requireEngine
  if !(j.get "get").isNull then
    let id ← id j "get"
    return .ofOption Record.toJson ((← get).engine.manager.log.get? id)
  else if !(j.get "create").isNull then
    let r ← j.field "create" Record.read
    Reply.ofEngine (← onLog fun l => l.create r)
    return .okay
  else if !(j.get "transition").isNull then
    let id ← id j "id"
    let t ← j.field "transition" Transition.read
    return (← Reply.ofEngine (← onLog fun l => l.transition id t)).toJson
  else
    let size ← Reply.ofEngine (← onLog Log.storedSize)
    return (← get).engine.manager.log.toJson size

/-- Lets coming calls of the log's store or of the status directory fail. -/
def faultStep (j : Json) : Act Json := do
  let times ← j.wordAtD "times" 1
  match ← j.textAtD "target" "log" with
  | "log" =>
    if (← get).logPlace ≠ .store then throw .unreadable
    let p ← j.field "on" (Primitive.named Primitive.ofStore)
    change fun e =>
      { e with manager.log.store.faults := e.manager.log.store.faults.add p times }
    return .okay
  | "dir" =>
    let p ← j.field "on" (Primitive.named Primitive.ofDirectory)
    change fun e =>
      { e with writes.directory.faults := e.writes.directory.faults.add p times }
    return .okay
  | _ => throw .unreadable

/-- The steps on storage. -/
def storageStep (j : Json) : Option (Act Json) :=
  match action j with
  | "log" => some do
    if (← get).logPlace = .memory then throw .unreadable
    return (← get).engine.manager.log.store.bytes.toJson
  | "store" => some (logStep j)
  | "fail" => some (faultStep j)
  | _ =>
    (directoryStep j).map (doShared (fun w : World => w.engine.writes.directory)
      fun directory w => { w with engine.writes.directory := directory })

/-- The steps on stamps. -/
def stampingStep (j : Json) : Option (Act Json) :=
  if (stampStep (fun _ => .ok default) j).isSome then some do
    let id ← if action j = "stamps" then pure default else id j "id"
    match stampStep (fun _ => .ok id) j with
    | some step =>
      doShared (fun w : World => w.engine.stamps)
        (fun stamps w => { w with engine.stamps := stamps }) step
    | none => throw .unreadable
  else none

end TxnEngine.History.World
