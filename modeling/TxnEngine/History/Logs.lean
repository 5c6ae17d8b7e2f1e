import TxnEngine.History.Step

/-!
# Histories of a transaction log

A log that is written, closed, damaged behind its back and opened again. A log in a file that was
opened without faults meets them only after it was opened once more.
-/

namespace TxnEngine.History

open Json (nat)

/-- A stored log, open or not. -/
structure StoredLog where
  store : Store
  /-- The table of the open log. -/
  records : Option RecordTable
  /-- Faults that wait for the log to be opened once more. -/
  waiting : Option Faults

namespace StoredLog

/-- What the log lies in. -/
def readStore (j : Json) : Reply Store := do
  let bytes ← j.bytesAtD "log" []
  match ← j.textAtD "kind" "memory" with
  | "memory" => return .memory bytes
  | "file" => return .file bytes
  | _ => throw .unreadable

/-- The log that a request asks for. -/
def start (j : Json) : Reply StoredLog := do
  let store ← readStore j
  let isFaulty ← j.flagAtD "faulty" false
  if ← j.flagAtD "opened" true then
    let l ← Reply.ofEngine (Log.openStore store).1
    return ⟨l.store, some l.records, if isFaulty || store.handle = .shared then none else some .none⟩
  else return ⟨store, none, none⟩

/-- The open log. -/
def log (s : StoredLog) : Reply Log := do
  return ⟨s.store, ← Reply.ofOption s.records⟩

/-- An operation of the open log. -/
def onLog {α : Type} (f : Log → α × Log) : Step StoredLog α := do
  let s ← get
  let (a, l) := f (← s.log)
  set { s with store := l.store, records := some l.records }
  return a

/-- Changes the bytes behind the log's back, and answers how many there are. -/
def edit (f : Bytes → Bytes) : Step StoredLog Json := do
  modify fun s => { s with store.content := (f s.store.bytes).toArray }
  return nat (← get).store.content.size

/-- Opens the log anew. If that fails there is no open log. -/
def reopen : Step StoredLog Log := do
  let s ← get
  let store : Store := { s.store with faults := s.waiting.getD s.store.faults }
  let (opened, store) := Log.openStore store.reopened
  match opened with
  | .ok l =>
    set (StoredLog.mk l.store (some l.records) none)
    return l
  | .error e =>
    set (StoredLog.mk store none none)
    throw (.engine e)

/-- Adds faults, to those that wait if there are such. -/
def addFaults (p : Primitive) (times : Nat) (s : StoredLog) : StoredLog :=
  match s.waiting with
  | some faults => { s with waiting := some (faults.add p times) }
  | none => { s with store.faults := s.store.faults.add p times }

def step (j : Json) : Step StoredLog Json := do
  match action j with
  | "create" =>
    let r ← j.field "record" Record.read
    Reply.ofEngine (← onLog fun l => l.create r)
    return .okay
  | "get" =>
    let id ← j.field "id" TxnId.read
    return .ofOption Record.toJson ((← (← get).log).get? id)
  | "transition" =>
    let id ← j.field "id" TxnId.read
    let t ← Transition.read j
    return (← Reply.ofEngine (← onLog fun l => l.transition id t)).toJson
  | "info" =>
    let size ← Reply.ofEngine (← onLog Log.storedSize)
    return (← (← get).log).toJson size
  | "debug" => return .string (← (← get).log).text
  | "log" => return (← get).store.bytes.toJson
  | "open" =>
    let l ← reopen
    return .object [("len", nat l.length), ("active", .array (l.activeIds.map TxnId.toJson)),
      ("log_len", nat l.store.content.size)]
  | "append_raw" =>
    let bytes ← j.bytesAt "bytes"
    edit fun b => b ++ bytes
  | "cut_raw" =>
    let size ← j.wordAt "size"
    edit fun b => b.take size
  | "flip_raw" =>
    let position ← j.wordAt "at"
    let mask ← j.field "mask" (Json.readBelow 256)
    let byte ← Reply.ofOption (← get).store.content[position]?
    edit fun b => b.set position (byte ^^^ UInt8.ofNat mask)
  | "fail" =>
    let p ← j.field "on" (Primitive.named Primitive.ofStore)
    let times ← j.wordAtD "times" 1
    modify (addFaults p times)
    return .okay
  | _ => throw .unreadable

end StoredLog

end TxnEngine.History
