import TxnEngine.History.Step
import TxnEngine.Storage.FileTree

/-!
# Histories of stores and directories

A store in memory with several handles, files of a file tree, and a directory with open sinks.
-/

namespace TxnEngine.History

open Json (nat)

/-- The steps on a store. -/
def storeStep (j : Json) : Shared Store :=
  let unit (f : Store → Except StorageError Unit × Store) : Store → Reply Json × Store :=
    fun s => ((Reply.ofStorage (f s).1).map fun _ => .okay, (f s).2)
  match action j with
  | "append" => some do
    let bytes ← j.bytesAt "bytes"
    return fun s => ((Reply.ofStorage (s.append bytes).1).map nat, (s.append bytes).2)
  | "read" => some do
    let offset ← j.wordAt "offset"
    let len ← j.wordAt "len"
    return fun s =>
      let (read, s) := s.read offset len
      ((Reply.ofStorage read).map Bytes.toJson, s)
  | "size" => some (.ok fun s => ((Reply.ofStorage s.size.1).map nat, s.size.2))
  | "flush" => some (.ok (unit Store.flush))
  | "sync" => some (.ok (unit Store.sync))
  | "truncate" => some do
    let size ← j.wordAt "size"
    return unit fun s => s.truncate size
  | _ => none

/-! ## A store in memory -/

/-- A store in memory and the number of its handles. -/
structure SharedStore where
  store : Store
  handles : Nat

def SharedStore.step (j : Json) : Step SharedStore Json := do
  let h ← j.wordAtD "h" 0
  let s ← get
  if s.handles ≤ h then throw .unreadable
  match storeStep j with
  | some step => doShared SharedStore.store (fun store s => { s with store }) step
  | none =>
    match action j with
    | "data" => return s.store.bytes.toJson
    | "text" => return .string (Text.Lossy.decode s.store.bytes)
    | "clone" =>
      set { s with handles := s.handles + 1 }
      return nat s.handles
    | _ => throw .unreadable

/-! ## Files -/

/-- A file tree and open files in slots. -/
structure TreeFiles where
  tree : FileTree
  files : List (Option OpenFile)

namespace TreeFiles

/-- The folder that all paths start from. -/
def root : String := "root"

/-- The form in which that folder is shown. -/
def rootShown : String := "<root>"

/-- No file is open. -/
def start (hasRoot : Bool) : TreeFiles := ⟨.start root hasRoot, []⟩

/-- Puts a file that was opened into a slot. -/
def add (shown : String) (f : FileTree → Except StorageError OpenFile × FileTree) :
    Step TreeFiles Json := do
  let opened ← applyOn TreeFiles.tree (fun tree s => { s with tree }) f
  let file ← Reply.ofStorage opened
  let s ← get
  set { s with files := s.files ++ [some file] }
  return .object [("h", nat s.files.length), ("path", .string shown)]

/-- A step on the file at a path. -/
def step (path : String) (j : Json) : Step TreeFiles Json := do
  let shown := rootShown ++ "/" ++ path
  let h ← j.wordAtD "h" 0
  match storeStep j with
  | some step =>
    let s ← get
    let file ← slot s.files h
    let ((reply, file), tree) := FileTree.onFile (← step) s.tree file
    set (TreeFiles.mk tree (s.files.set h (some file)))
    reply
  | none =>
    match action j with
    | "data" =>
      return (← Reply.ofStorage ((← get).tree.contentsAt root path)).toJson
    | "open" => add shown fun t => t.openAt root path
    | "create_dirs" => add shown fun t => t.openWithFolders root path
    | "create_new" => add shown fun t => t.createAt root path shown
    | "close" =>
      let _ ← slot (← get).files h
      modify fun s => { s with files := s.files.set h none }
      return .okay
    | _ => throw .unreadable

end TreeFiles

/-! ## Directories -/

/-- The steps on a directory. -/
def directoryStep (j : Json) : Shared Directory :=
  match action j with
  | "touch" => some do
    let name ← j.textAt "name"
    return fun d =>
      let (opened, d) := d.openFile name
      ((Reply.ofStorage opened).map fun _ => .okay, d)
  | "contents" => some do
    let name ← j.textAt "name"
    return fun d =>
      (.ok (.ofOption (fun b => .string (Text.Lossy.decode b)) (d.contents? name)), d)
  | "names" => some (.ok fun d => (.ok (.array (d.shownNames.map .string)), d))
  | "is_reserved" => some do
    let name ← j.textAt "name"
    return fun d =>
      match d.place with
      | .memory _ => (.ok (.bool (d.isReserved name)), d)
      | .folder _ => (.error .unreadable, d)
  | _ => none

/-- The directory that a request asks for: in memory, or in the folder `status`. -/
def readDirectory (j : Json) : Reply Directory := do
  match ← j.textAtD "dir" "memory" with
  | "memory" => return .memory (← j.textAtD "label" Directory.defaultLabel)
  | "fs" => return .folder (TreeFiles.rootShown ++ "/status")
  | _ => throw .unreadable

/-- A directory and open sinks in slots. -/
structure Sinks where
  directory : Directory
  sinks : List Sink

namespace Sinks

/-- An operation of the directory. -/
def onDirectory {α : Type} (f : Directory → α × Directory) : Step Sinks α :=
  applyOn Sinks.directory (fun directory s => { s with directory }) f

/-- Puts a sink that was opened into a slot. -/
def add (opened : Except StorageError Sink) : Step Sinks Json := do
  let sink ← Reply.ofStorage opened
  let s ← get
  set { s with sinks := s.sinks ++ [sink] }
  return nat s.sinks.length

/-- An operation of the store behind an open sink. -/
def onStore (j : Json) (f : Store → Except StorageError Nat × Store) : Step Sinks Json := do
  let h ← j.wordAt "h"
  let sink ← Reply.ofOption (← get).sinks[h]?
  let (n, sink) ← onDirectory fun d => d.onSink f sink
  modify fun s => { s with sinks := s.sinks.set h sink }
  return nat (← Reply.ofStorage n)

/-- A step on the place of a name. -/
def namedStep (j : Json) (name : String) : Step Sinks Json := do
  match action j with
  | "exists" => return .bool (← Reply.ofStorage ((← get).directory.has name))
  | "reserve" => return .bool (← Reply.ofStorage (← onDirectory fun d => d.reserve name))
  | "release" =>
    onDirectory fun d => ((), d.release name)
    return .okay
  | "create" => add (← onDirectory fun d => d.create name)
  | "open" => add (← onDirectory fun d => d.openFile name)
  | "location" => return .string ((← get).directory.location name)
  | _ => throw .unreadable

def step (j : Json) : Step Sinks Json := do
  match directoryStep j with
  | some step => doShared Sinks.directory (fun directory s => { s with directory }) step
  | none =>
    match action j with
    | "append" =>
      let bytes ← j.bytesAt "bytes"
      onStore j fun s => s.append bytes
    | "size" => onStore j Store.size
    | "root" =>
      match (← get).directory.place with
      | .folder path => return .string path
      | .memory _ => throw .unreadable
    | _ => namedStep j (← j.textAt "name")

end Sinks

end TxnEngine.History
