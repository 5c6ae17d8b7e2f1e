import TxnEngine.Storage.Store
import TxnEngine.Table

/-!
# File trees

The part of a file system in which stores are kept: folders, and files with their bytes. A place in
the tree is the list of names that leads there from the top. A path is a text that is walked name by
name from a folder that may or may not be there; `.` stays and `..` goes back.

A path can be opened if its folder is there, and no folder is made for it; it can also be opened or
created after the folders on the way were made. Names and paths have a greatest length.
-/

namespace TxnEngine

/-- A place in a tree: the names that lead there from the top. -/
abbrev TreePlace := List String

/-- A file with its bytes, or a folder with what is in it. -/
inductive FileTree where
  | file (content : Content)
  | folder (entries : List (String × FileTree))

instance : Inhabited FileTree := ⟨.folder []⟩

/-- An open file. -/
structure OpenFile where
  place : TreePlace
  handle : Handle
deriving DecidableEq, Inhabited

namespace FileTree

/-! ## Places -/

/-- What a folder holds under a name. -/
def entry? (t : FileTree) (name : String) : Option FileTree :=
  match t with
  | file _ => none
  | folder entries => Table.find? entries name

/-- What is at a place. -/
def find? (t : FileTree) : TreePlace → Option FileTree
  | [] => some t
  | name :: rest =>
    match t.entry? name with
    | none => none
    | some t => t.find? rest

/-- The tree with `new` at a place. Folders that are missing on the way are made; a file on the way
leaves the tree as it is. -/
def put (new : FileTree) : TreePlace → FileTree → FileTree
  | [], _ => new
  | _ :: _, file content => file content
  | name :: rest, folder entries =>
    folder (Table.insert entries name (put new rest (Table.findD entries name (folder []))))

/-- Whether there is a folder at a place. -/
def hasFolder (t : FileTree) (place : TreePlace) : Bool :=
  match t.find? place with
  | some (folder _) => true
  | _ => false

/-- The bytes of the file at a place. -/
def contentAt? (t : FileTree) (place : TreePlace) : Option Content :=
  match t.find? place with
  | some (file content) => some content
  | _ => none

/-- The tree that holds nothing, or only the folder `root`. -/
def start (root : String) (hasRoot : Bool) : FileTree :=
  folder (if hasRoot then [(root, folder [])] else [])

/-! ## Paths -/

/-- The failures of the operating system that a path can meet. -/
inductive PathFailure where
  | notFound
  | notFolder
  | isFolder
  | nameTooLong
deriving DecidableEq

def PathFailure.failure : PathFailure → IoFailure
  | notFound => .system "No such file or directory (os error 2)"
  | notFolder => .system "Not a directory (os error 20)"
  | isFolder => .system "Is a directory (os error 21)"
  | nameTooLong => .system "File name too long (os error 36)"

/-- The failure of a text that cannot be a path. -/
def invalidPath : IoFailure :=
  .described "file name contained an unexpected NUL byte"

/-- The longest name in bytes. -/
def longestName : Nat := 255

/-- The longest path below the folder that paths start from, in bytes: a whole path has less than
4096, and 16 of them lead to that folder. -/
def longestPath : Nat := 4095 - 16

/-- The names and dots of a path. -/
def components (path : String) : List String :=
  (path.splitOn "/").filter (· ≠ "")

/-- Whether a path ends with a name and a separator, so that only a folder can be meant. -/
def demandsFolder (path : String) : Bool :=
  match (components path).getLast? with
  | none => true
  | some last => path.endsWith "/" && last ≠ "." && last ≠ ".."

/-- A path from its end, without the separators and single dots at its end. -/
def trimEnd : List Char → List Char
  | '/' :: rest => trimEnd rest
  | '.' :: '/' :: rest => trimEnd rest
  | path => path

/-- The path without its last component, as it is written. -/
def parentPath (path : String) : String :=
  let reversed := trimEnd (('/' :: path.toList).reverse)
  String.ofList (trimEnd (reversed.dropWhile (· ≠ '/'))).reverse

/-- Refuses a path that is too long. -/
def checkLength (path : String) : Except PathFailure Unit :=
  if longestPath < path.utf8ByteSize then .error .nameTooLong else .ok ()

/-- The place one component on from a folder. -/
def stepTo (here : TreePlace) (component : String) : TreePlace :=
  if component = "." then here
  else if component = ".." then here.dropLast
  else here ++ [component]

/-- One component of a walk: the place walked from has to be a folder. -/
def walkStep (t : FileTree) (here : TreePlace) (component : String) : Except PathFailure TreePlace :=
  match t.find? here with
  | some (folder _) =>
    if longestName < component.utf8ByteSize then .error .nameTooLong
    else .ok (stepTo here component)
  | some (file _) => .error .notFolder
  | none => .error .notFound

/-- The place that components lead to. It need not be there itself. -/
def walk (t : FileTree) (here : TreePlace) (cs : List String) : Except PathFailure TreePlace :=
  cs.foldlM t.walkStep here

/-- Makes the folders on the way along components. -/
def makeFolders (t : FileTree) (here : TreePlace) : List String → Except PathFailure FileTree
  | [] => .ok t
  | c :: rest =>
    match t.walkStep here c with
    | .error failure => .error failure
    | .ok next =>
      match t.find? next with
      | some (folder _) => makeFolders t next rest
      | some (file _) => .error .notFolder
      | none => makeFolders (put (folder []) next t) next rest

/-- Makes the folders that lead to a path below `root`, `root` among them. -/
def makeParents (t : FileTree) (root path : String) : Except IoFailure FileTree :=
  if (parentPath path).contains '\x00' then .error invalidPath
  else
    let made := do
      checkLength (parentPath path)
      t.makeFolders [] (root :: (components path).filter (· ≠ ".")).dropLast
    match made with
    | .error failure => .error failure.failure
    | .ok t => .ok t

/-- The place of a path below `root`. -/
def placeOf (t : FileTree) (root path : String) : Except IoFailure TreePlace :=
  if path.contains '\x00' then .error invalidPath
  else
    let reached := do
      checkLength path
      t.walk [root] (components path)
    match reached with
    | .error failure => .error failure.failure
    | .ok place => .ok place

/-! ## Files -/

/-- Opens a file, which is created if it is not there (`FileBackend::open`). -/
def openAt (t : FileTree) (root path : String) : Except StorageError OpenFile × FileTree :=
  match t.placeOf root path with
  | .error failure => (.error (.io failure), t)
  | .ok place =>
    if demandsFolder path || t.hasFolder place then (.error (.io PathFailure.isFolder.failure), t)
    else
      let content := (t.contentAt? place).getD #[]
      (.ok ⟨place, .sized content.size⟩, put (file content) place t)

/-- Opens a file after the folders that lead to it were made
(`FileBackend::open_with_create_dirs`). -/
def openWithFolders (t : FileTree) (root path : String) :
    Except StorageError OpenFile × FileTree :=
  match t.makeParents root path with
  | .error failure => (.error (.io failure), t)
  | .ok t => t.openAt root path

/-- Creates a file that must not be there yet, after the folders that lead to it were made
(`FileBackend::create_new`). `shown` is the path as it is named in the refusal. -/
def createAt (t : FileTree) (root path shown : String) :
    Except StorageError OpenFile × FileTree :=
  match t.makeParents root path with
  | .error failure => (.error (.io failure), t)
  | .ok t =>
    match t.placeOf root path with
    | .error failure => (.error (.io failure), t)
    | .ok place =>
      if demandsFolder path then (.error (.io PathFailure.isFolder.failure), t)
      else if (t.find? place).isSome then (.error (.alreadyExists shown), t)
      else (.ok ⟨place, .sized 0⟩, put (file #[]) place t)

/-- The bytes of the file at a path. -/
def contentsAt (t : FileTree) (root path : String) : Except StorageError Bytes :=
  match t.placeOf root path with
  | .error failure => .error (.io failure)
  | .ok place =>
    if demandsFolder path || t.hasFolder place then .error (.io PathFailure.isFolder.failure)
    else
      match t.contentAt? place with
      | some content => .ok content.toList
      | none => .error (.io PathFailure.notFound.failure)

/-- An operation of a store on an open file. -/
def onFile {α : Type} (f : Store → α × Store) (t : FileTree) (opened : OpenFile) :
    (α × OpenFile) × FileTree :=
  let (answer, store) := f ⟨(t.contentAt? opened.place).getD #[], opened.handle, .none⟩
  ((answer, { opened with handle := store.handle }), put (file store.content) opened.place t)

end FileTree

end TxnEngine
