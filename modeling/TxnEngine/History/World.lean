import TxnEngine.History.Recorders
import TxnEngine.History.Values

/-!
# The world of an engine's history

An engine over a scripted substrate, with the transactions, pipelines and recorders that the steps
have made. A transaction can also be the current one: the one whose body is being run.

An engine that could not be opened again is gone, but what it was given is still there.
-/

namespace TxnEngine.History

/-- Where the log of an engine lies, and with it what can be done to it. -/
inductive LogPlace where
  /-- In memory, within reach of the history, and with faults. -/
  | store
  /-- In memory, out of reach. It is lost when the engine is opened again. -/
  | memory
  /-- In a folder. -/
  | dir
deriving DecidableEq, Inhabited

/-- The engine of a history and what the steps have made. -/
structure World where
  logPlace : LogPlace
  engine : Engine ScriptedSubstrate
  /-- Whether there is an engine; if not, `engine` only keeps what it was given. -/
  isUp : Bool
  /-- How often the engine was opened again. -/
  generation : Nat
  txns : List Transaction
  current : Option Transaction
  pipelines : List (Option Pipeline)
  recorders : List (Option Recorder)

/-- A step on an engine's world. -/
abbrev Act := Step World

namespace World

/-! ## The engine -/

/-- Refuses a step that needs an engine if there is none. -/
def requireEngine : Act Unit := do
  unless (← get).isUp do throw .unreadable

/-- A program on what the engine was given, which is there without an engine, too. -/
def onParts {α : Type} (p : Program (Engine ScriptedSubstrate) α) : Act α :=
  runOn World.engine (fun engine w => { w with engine }) p

/-- A program of the engine. -/
def onEngine {α : Type} (p : Program (Engine ScriptedSubstrate) α) : Act α := do
  requireEngine
  onParts p

/-- A program of the engine's transaction management. -/
def onManager {α : Type} (p : Program Manager α) : Act α :=
  onEngine (Engine.onManager p)

/-- A program of the engine, or of its transaction management if the step asks for that. -/
def either {α : Type} (j : Json) (engine : Program (Engine ScriptedSubstrate) α)
    (manager : Program Manager α) : Act α :=
  if (j.get "via").string? = some "manager" then onManager manager else onEngine engine

/-- Changes what the engine was given. -/
def change (f : Engine ScriptedSubstrate → Engine ScriptedSubstrate) : Act Unit :=
  modify fun w => { w with engine := f w.engine }

/-- Where the bad-record files lie. -/
def place : Act Place := return (← get).engine.writes.directory.place

/-! ## Transactions -/

/-- Where a transaction is kept. -/
inductive Keeper where
  | slot (n : Nat)
  | current

/-- The keeper that a step names. -/
def readKeeper (j : Json) : Reply Keeper :=
  match j.get "t" with
  | .string "cur" => .ok .current
  | t => t.readWord.map .slot

/-- The transaction at a keeper. -/
def txnAt (k : Keeper) : Act Transaction := do
  match k with
  | .slot n => Reply.ofOption (← get).txns[n]?
  | .current => Reply.ofOption (← get).current

/-- The transaction that a step names. -/
def txn (j : Json) : Act Transaction := do
  txnAt (← readKeeper j)

/-- Sets the transaction at a keeper. -/
def putTxn (k : Keeper) (t : Transaction) : Act Unit :=
  match k with
  | .slot n => modify fun w => { w with txns := w.txns.set n t }
  | .current => modify fun w => { w with current := some t }

/-- Puts a transaction that has begun into a slot. -/
def addTxn (begun : Except Error Transaction) : Act Json := do
  let t ← Reply.ofEngine begun
  let w ← get
  set { w with txns := w.txns ++ [t] }
  return .object [("t", .nat w.txns.length), ("id", t.id.toJson)]

/-- An operation on the transaction that a step names. -/
def withTxn {α : Type} (j : Json) (f : Transaction → Act (Except Error α × Transaction)) :
    Act α := do
  let k ← readKeeper j
  let (done, t) ← f (← txnAt k)
  putTxn k t
  Reply.ofEngine done

/-- The id in a field of a step: a number, the id of a transaction that is named, or the id of the
step's own transaction. -/
def id (j : Json) (key : String) : Act TxnId := do
  match j.get key with
  | .string "own" => return (← txn j).id
  | .object ms => return (← txn (.object ms)).id
  | value => TxnId.read value

/-! ## Pipelines and recorders -/

/-- Puts a pipeline that was made into a slot. -/
def addPipeline (made : Except Error Pipeline) : Act Json := do
  let p ← Reply.ofEngine made
  let w ← get
  set { w with pipelines := w.pipelines ++ [some p] }
  return .object (("p", .nat w.pipelines.length) :: p.members (← place))

/-- The pipeline that a step names, with its slot. -/
def pipeline (j : Json) : Act (Nat × Pipeline) := do
  let n ← j.wordAt "p"
  return (n, ← slot (← get).pipelines n)

/-- Sets what is in a pipeline's slot. -/
def putPipeline (n : Nat) (p : Option Pipeline) : Act Unit :=
  modify fun w => { w with pipelines := w.pipelines.set n p }

/-- The recorder in the slot that a field names. -/
def recorder (j : Json) (key : String) : Act (Nat × Recorder) := do
  let n ← j.wordAt key
  return (n, ← slot (← get).recorders n)

/-- Puts a recorder, or none, into a slot, and answers its number. -/
def addRecorder (r : Option Recorder) : Act Nat := do
  let w ← get
  set { w with recorders := w.recorders ++ [r] }
  return w.recorders.length

end World

end TxnEngine.History
