import TxnEngine.Storage.Store
import TxnEngine.Table

/-!
# Sink directories

A directory holds named byte stores, and names that are reserved before there is a store. It lies in
memory, where a store's place is a label in front of its name, or in a folder, where it is a path.
A name is one component of a path.

Main statement: `reserve_eq_true_iff`, exactly the valid names that are neither present nor
reserved can be reserved.
-/

namespace TxnEngine

/-- Where a directory lies. -/
inductive Place where
  | memory (label : String)
  | folder (path : String)
deriving DecidableEq, Inhabited

/-- The text of a name's place. -/
def Place.location (p : Place) (name : String) : String :=
  match p with
  | memory label => label ++ name
  | folder path => if name.startsWith "/" then name else path ++ "/" ++ name

/-- The handle of a store that was just opened. -/
def Place.opening (p : Place) (content : Content) : Handle :=
  match p with
  | memory _ => .shared
  | folder _ => .sized content.size

/-- The longest file name in bytes. -/
def longestFileName : Nat := 255

/-- What the operating system has against a file of that name. -/
def Place.refusal? (p : Place) (name : String) : Option IoFailure :=
  match p with
  | memory _ => none
  | folder _ =>
    if name.contains '\x00' then
      some (.described "file name contained an unexpected NUL byte")
    else if longestFileName < name.utf8ByteSize then
      some (.system "File name too long (os error 36)")
    else none

/-- Named byte stores and reserved names (`MemoryDirectory` and `FsDirectory`). -/
structure Directory where
  place : Place
  files : Table String Content
  reserved : List String
  faults : Faults
deriving Inhabited

/-- An open store of a directory. -/
structure Sink where
  name : String
  handle : Handle
deriving DecidableEq, Inhabited

namespace Directory

/-- An empty directory in memory. -/
def memory (label : String) : Directory :=
  ⟨.memory label, [], [], .none⟩

/-- An empty directory in a folder. -/
def folder (path : String) : Directory :=
  ⟨.folder path, [], [], .none⟩

/-- The label of a directory in memory that is given none. -/
def defaultLabel : String := "mem:"

/-- Whether a text is a name: one component of a path, and not one that leads elsewhere. -/
def isName (name : String) : Bool :=
  name ≠ "" && name ≠ "." && name ≠ ".." && !name.toList.contains '/' && !name.toList.contains '\\'

/-- Refuses what is not a name (`validate_name`). -/
def checkName (name : String) : Except StorageError Unit :=
  if isName name then .ok () else .error (.invalidName name)

/-- Whether there is a store of that name. -/
def present (d : Directory) (name : String) : Bool :=
  d.files.has name

/-- Whether there is a store of that name, if it is a name (`SinkDirectory::exists`). -/
def has (d : Directory) (name : String) : Except StorageError Bool :=
  match checkName name with
  | .error e => .error e
  | .ok () => .ok (d.present name)

/-- Uses up the schedule's entry for one call of `p`. -/
def attempt (d : Directory) (p : Primitive) : Bool × Directory :=
  let (fails, faults) := d.faults.take p
  (fails, { d with faults })

/-- Reserves a name that is neither present nor reserved, and tells whether it did. -/
def reserveName (d : Directory) (name : String) : Except StorageError Bool × Directory :=
  match checkName name with
  | .error e => (.error e, d)
  | .ok () =>
    if name ∈ d.reserved || d.present name then (.ok false, d)
    else (.ok true, { d with reserved := name :: d.reserved })

/-- Reserves a name, unless that fails by schedule (`SinkDirectory::reserve`). -/
def reserve (d : Directory) (name : String) : Except StorageError Bool × Directory :=
  match d.attempt .reserve with
  | (true, d) => (.error Primitive.reserve.failure, d)
  | (false, d) => d.reserveName name

/-- Gives a reserved name back (`SinkDirectory::release`). -/
def release (d : Directory) (name : String) : Directory :=
  { d with reserved := d.reserved.filter (· ≠ name) }

/-- Creates a store that must not be there yet. -/
def createFile (d : Directory) (name : String) : Except StorageError Sink × Directory :=
  match checkName name with
  | .error e => (.error e, d)
  | .ok () =>
    match d.place.refusal? name with
    | some failure => (.error (.io failure), d)
    | none =>
      if d.present name then (.error (.alreadyExists (d.place.location name)), d)
      else (.ok ⟨name, d.place.opening #[]⟩, { d with files := d.files.insert name #[] })

/-- Creates a store, unless that fails by schedule (`SinkDirectory::create`). -/
def create (d : Directory) (name : String) : Except StorageError Sink × Directory :=
  match d.attempt .create with
  | (true, d) => (.error Primitive.create.failure, d)
  | (false, d) => d.createFile name

/-- Opens a store, which is created if it is not there (`SinkDirectory::open`). -/
def openFile (d : Directory) (name : String) : Except StorageError Sink × Directory :=
  match checkName name with
  | .error e => (.error e, d)
  | .ok () =>
    match d.place.refusal? name with
    | some failure => (.error (.io failure), d)
    | none =>
      let content := d.files.findD name #[]
      (.ok ⟨name, d.place.opening content⟩, { d with files := d.files.insert name content })

/-- The text of a name's place (`SinkDirectory::location`). -/
def location (d : Directory) (name : String) : String :=
  d.place.location name

/-- The bytes of the store of that name (`MemoryDirectory::contents`). -/
def contents? (d : Directory) (name : String) : Option Bytes :=
  (d.files.find? name).map Array.toList

/-- The names of the stores in ascending order (`MemoryDirectory::names`). -/
def names (d : Directory) : List String :=
  (d.files.map Prod.fst).mergeSort fun a b => !decide (b < a)

/-- Whether a name is reserved (`MemoryDirectory::is_reserved`). -/
def isReserved (d : Directory) (name : String) : Bool :=
  d.reserved.contains name

/-! ## Using an open store -/

/-- The store behind an open sink, with the directory's faults. -/
def storeOf (d : Directory) (s : Sink) : Store :=
  ⟨d.files.findD s.name #[], s.handle, d.faults⟩

/-- Puts a sink's store back into the directory. -/
def putStore (d : Directory) (s : Sink) (store : Store) : Sink × Directory :=
  ({ s with handle := store.handle },
    { d with files := d.files.insert s.name store.content, faults := store.faults })

/-- An operation of a store on an open sink. -/
def onSink {α : Type} (f : Store → α × Store) (d : Directory) (s : Sink) :
    (α × Sink) × Directory :=
  let (answer, store) := f (d.storeOf s)
  let (s, d) := d.putStore s store
  ((answer, s), d)

theorem reserve_eq_true_iff (d : Directory) (name : String) :
    (d.reserveName name).1 = .ok true ↔
      isName name = true ∧ name ∉ d.reserved ∧ d.present name = false := by
  unfold reserveName checkName
  by_cases hn : isName name = true
  · by_cases hr : name ∈ d.reserved <;> by_cases hp : d.present name = true <;>
      simp [hn, hr, hp]
  · simp [hn]

end Directory

end TxnEngine
