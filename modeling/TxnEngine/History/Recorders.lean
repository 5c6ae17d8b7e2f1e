import TxnEngine.History.Storage

/-!
# Histories of bad-record recorders

Recorders of loads and of their workers over one directory, in slots.
-/

namespace TxnEngine.History

open Json (nat)

/-- The id of a worker: a text or a number. -/
def readWorker (j : Json) : Reply String :=
  match j with
  | .string s => .ok s
  | _ => j.readWord.map toString

/-- A directory and recorders in slots. -/
structure Recorders where
  directory : Directory
  slots : List (Option Recorder)
  /-- How many random worker ids were handed out. -/
  randomIds : Nat

namespace Recorders

/-- A program of the directory. -/
def onDirectory {α : Type} (p : Program Directory α) : Step Recorders α :=
  runOn Recorders.directory (fun directory s => { s with directory }) p

/-- The place of the directory. -/
def place : Step Recorders Place := return (← get).directory.place

/-- Puts a recorder that was made into a slot. -/
def add (made : Except Error Recorder) : Step Recorders Json := do
  let r ← Reply.ofEngine made
  let s ← get
  set { s with slots := s.slots ++ [some r] }
  return .object (("r", nat s.slots.length) :: r.members (← place))

/-- The recorder in the slot that a field names. -/
def take (j : Json) (key : String) : Step Recorders (Nat × Recorder) := do
  let n ← j.wordAt key
  return (n, ← slot (← get).slots n)

/-- Sets what is in a slot. -/
def put (n : Nat) (r : Option Recorder) : Step Recorders Unit :=
  modify fun s => { s with slots := s.slots.set n r }

/-- Adds to the count of a recorder, and answers the recorder. -/
def merge (n : Nat) (r : Recorder) (count : Nat) : Step Recorders Json := do
  let r ← Reply.inRange (r.mergeCount? count)
  put n (some r)
  return r.toJson (← place)

/-- Lets go of the recorder in a slot. -/
def drop (n : Nat) (r : Recorder) : Step Recorders Unit := do
  onDirectory r.discard
  put n none

/-- A step on the recorder `r` in slot `n`. -/
def recorderStep (j : Json) (n : Nat) (r : Recorder) : Step Recorders Json := do
  match action j with
  | "worker" =>
    let id ← j.field "id" readWorker
    add (← onDirectory (r.forWorker id))
  | "random_worker" =>
    let id := Recorder.freshWorkerId (← get).randomIds
    modify fun s => { s with randomIds := s.randomIds + 1 }
    add (← onDirectory (r.forWorker id))
  | "record" =>
    let text ← j.textAt "text"
    let code ← j.textAt "code"
    let (exceeded, r) ← onDirectory (r.record text code)
    put n (some r)
    return .bool (← Reply.ofEngine exceeded)
  | "merge" =>
    let (m, other) ← take j "other"
    if n = m then throw .unreadable
    if (r.mergeCount? other.count).isNone then drop m other
    merge n r other.count
  | "merge_summary" => merge n r (← j.field "summary" BadRecordSummary.read).count
  | "info" => return r.toJson (← place)
  | "close" =>
    let (closed, r) ← onDirectory r.close
    put n (some r)
    Reply.ofEngine closed
    return .okay
  | "drop" =>
    drop n r
    return .okay
  | "summary" =>
    let s := r.summary (← place)
    return .object [("json", s.toJson), ("text", .string s.text)]
  | "debug" => return .string r.text
  | "tolerance_error" => return (r.toleranceError (← place)).toJson
  | _ => throw .unreadable

def step (j : Json) : Step Recorders Json := do
  match directoryStep j with
  | some step => doShared Recorders.directory (fun directory s => { s with directory }) step
  | none =>
    match action j with
    | "new" =>
      let source ← j.textAt "source"
      let tolerance ← j.signedAtD "tolerance" 0
      add (← onDirectory (Recorder.new source tolerance))
    | "fail" =>
      let p ← j.field "on" (Primitive.named Primitive.ofDirectory)
      let times ← j.wordAtD "times" 1
      modify fun s => { s with directory.faults := s.directory.faults.add p times }
      return .okay
    | _ =>
      let (n, r) ← take j "r"
      recorderStep j n r

end Recorders

end TxnEngine.History
