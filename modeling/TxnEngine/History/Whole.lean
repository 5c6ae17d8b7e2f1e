import TxnEngine.History.Parts
import TxnEngine.History.Pipelines
import TxnEngine.History.Transactions

/-!
# Histories of an engine

The steps on an engine as a whole, and the steps that hold the body of a transaction. Bodies can be
nested, so steps are done with a bound on their depth; the depth of the request is enough.
-/

namespace TxnEngine.History.World

/-- What becomes of the stored log when an engine is opened again. -/
def renewLog : LogPlace → Store → Store
  | .memory, _ => .memory []
  | _, s => s.reopened

/-- Opens the engine again. -/
def reopenStep : Act Json := do
  let w ← get
  let (opened, engine) := w.engine.reopen (renewLog w.logPlace)
  set { w with engine, isUp := opened.isOk, generation := w.generation + 1 }
  Reply.ofEngine opened
  return .okay

/-- The state of the engine in numbers, `null` if there is none. -/
def summary (w : World) : Json :=
  if w.isUp then w.engine.toJson else .null

/-- The steps on the engine as a whole. -/
def wholeStep (j : Json) : Option (Act Json) :=
  let shown (f : Engine ScriptedSubstrate → Json) : Act Json := do
    requireEngine
    return f (← get).engine
  match action j with
  | "shutdown" => some do
    onEngine Engine.shutdown
    return .okay
  | "manager_shutdown" => some do
    onManager (Program.modify Manager.shutdown)
    return .okay
  | "reopen" => some reopenStep
  | "state" => some do return (← get).summary
  | "metrics" => some (shown fun e => e.manager.metrics.toJson)
  | "config" => some (shown fun e => e.config.toJson)
  | "timeout_ms" => some (shown fun e => .ofMillis e.manager.timeout)
  | "debug" => some (shown fun e => .array [.string e.text, .string e.manager.text])
  | _ => none

/-- A step that holds no further steps. -/
def simpleStep (j : Json) : Act Json :=
  (endingStep j <|> readingStep j <|> pipelineStep j <|> recorderStep j <|> substrateStep j <|>
    sourceStep j <|> storageStep j <|> stampingStep j <|> wholeStep j).getD (throw .unreadable)

/-- The end of a transaction that was begun on the engine of the given generation. One that was begun
on an engine that has been opened again since finds its own engine shut down. -/
def concludeStep (generation : Nat) (t : Transaction) (result : Except Error TxnId) :
    Act (Except Error TxnId) := do
  if (← get).generation = generation then onEngine (Engine.conclude t result)
  else return result.bind fun _ => .error .shutdown

/-- A transaction whose body is a list of steps. Its result is the failure that the step asks for,
or else the transaction's id. -/
def transactionStep (step : Json → Act Json) (j : Json) : Act Json := do
  let steps ← j.field "steps" Json.readArray
  let failure ← j.field? "fail_with" Error.read
  match ← onEngine Engine.beginTransaction with
  | .error e => return .object [("inner", .array []), ("result", e.toJson)]
  | .ok begun =>
    let w ← get
    let outer := w.current
    modify fun w => { w with current := some begun }
    let inner ← modifyGet (answers step steps)
    let t := ((← get).current).getD begun
    modify fun w => { w with current := outer }
    let result := failure.elim (Except.ok t.id) Except.error
    let result ← concludeStep w.generation t result
    return .object [("inner", .array inner), ("result", .ofExcept TxnId.toJson result)]

/-- A step, of bodies nested at most `depth` deep. -/
def step : (depth : Nat) → Json → Act Json
  | 0, j => simpleStep j
  | depth + 1, j => if action j = "transaction" then transactionStep (step depth) j else simpleStep j

/-! ## From a request to its answer -/

def readLogPlace (j : Json) : Reply LogPlace := do
  match ← j.readText with
  | "store" => return .store
  | "memory" => return .memory
  | "dir" => return .dir
  | _ => throw .unreadable

/-- The stored log that an engine is opened over. -/
def storedLog : LogPlace → Bytes → Store
  | .store, bytes => .memory bytes
  | .memory, _ => .memory []
  | .dir, bytes => .file bytes

/-- The configuration that a history's engine differs from: renewals are so rare that none falls
into a history. -/
def quietConfig : Config :=
  { Config.default with
    keepAliveInterval := .ofMillis 9000000
    transactionTimeout := .ofMillis 10000000
    retry := .noDelay 3 }

/-- What the engine that a request asks for is given. -/
def collaborators (j : Json) : Reply (Collaborators ScriptedSubstrate) := do
  return {
    oracle := .startingAt (UInt64.ofNat (← j.wordAtD "first_ts" 1))
    clock := ⟨← j.millisAtD "clock" 1000⟩
    stopwatch := ⟨0⟩
    writes := ⟨.empty, .localDefault, .memory (← j.textAtD "label" "status/"), fun _ => 0⟩
    stamps := .empty }

/-- The engine that a request asks for. -/
def start (j : Json) : Reply World := do
  let logPlace ← j.fieldD "mode" readLogPlace .store
  let bytes ← j.bytesAtD "log" []
  if logPlace = .memory && bytes ≠ [] then throw .unreadable
  let config ← j.fieldD "config" (Config.readOver quietConfig) quietConfig
  let opened := (Engine.openStore (storedLog logPlace bytes) config (← collaborators j)).1
  return ⟨logPlace, ← Reply.ofEngine opened, true, 0, [], none, [], []⟩

/-- The answers to the steps of a request, and the state of the engine behind the last. -/
def history (j : Json) : Reply Json := do
  let w ← start j
  let steps ← j.field "steps" Json.readArray
  let (done, w) := answers (step j.depth) steps w
  return .object [("steps", .array done), ("end", w.summary)]

end TxnEngine.History.World
