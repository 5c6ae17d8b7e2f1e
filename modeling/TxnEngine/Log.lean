import TxnEngine.Record.Codec
import TxnEngine.Record.Transition
import TxnEngine.Storage.Store
import TxnEngine.Table

/-!
# The transaction log

The log keeps every image of every transaction record, one envelope behind the other, and a table of
the last image of each. An image is appended and flushed, and synced if it is final, before it goes
into the table; a call whose storage fails on the way leaves the table as it was.

Opening a log reads it from the front (`Log.replay`). The first bytes that are no record are taken
for a damaged tail and cut off.
-/

namespace TxnEngine

/-- The last image of every transaction. -/
abbrev RecordTable := Table TxnId Record

/-- A transaction log and the table of last images (`LogTxnStore`). -/
structure Log where
  store : Store
  records : RecordTable
deriving Inhabited

namespace Log

/-! ## Opening -/

/-- Lifts a storage refusal to an error of the engine. -/
def ofStorage {α : Type} : Except StorageError α → Except Error α
  | .ok a => .ok a
  | .error e => .error (.storage e)

/-- Lifts a finding about bytes to an error of the engine. -/
def ofCorruption {α : Type} : Except Corruption α → Except Error α
  | .ok a => .ok a
  | .error e => .error (.corruption e)

/-- Reads the envelope at `offset` of a log of the given size (`read_one`): the record and the
envelope's length. -/
def readOne (s : Store) (offset size : Nat) : Except Error (Record × Nat) × Store :=
  let remaining := size - offset
  if remaining < Record.headerLength + Record.trailerLength then
    (.error (.corruption .truncatedHeader), s)
  else
    match s.read offset Record.headerLength with
    | (.error e, s) => (.error (.storage e), s)
    | (.ok header, s) =>
      match Record.decodeHeader header with
      | .error e => (.error (.corruption e), s)
      | .ok length =>
        let total := Record.headerLength + length + Record.trailerLength
        if remaining < total then (.error (.corruption .truncatedBody), s)
        else
          match s.read (offset + Record.headerLength) (length + Record.trailerLength) with
          | (.error e, s) => (.error (.storage e), s)
          | (.ok body, s) =>
            let payload := body.take length
            match Record.checkPayload payload (body.drop length) with
            | .error e => (.error (.corruption e), s)
            | .ok () =>
              match Record.decodePayload payload with
              | .error e => (.error (.corruption e), s)
              | .ok record => (.ok (record, total), s)

/-- Cuts a damaged tail off (in `replay`). -/
def cut (s : Store) (offset : Nat) (records : RecordTable) : Except Error RecordTable × Store :=
  match s.truncate offset with
  | (.error e, s) => (.error (.storage e), s)
  | (.ok (), s) =>
    match s.sync with
    | (.error e, s) => (.error (.storage e), s)
    | (.ok (), s) => (.ok records, s)

/-- Reads envelopes from `offset` on, at most `fuel` of them, into the table (the loop of
`replay`). -/
def replayFrom (size : Nat) :
    (fuel offset : Nat) → RecordTable → Store → Except Error RecordTable × Store
  | 0, _, records, s => (.ok records, s)
  | fuel + 1, offset, records, s =>
    if offset < size then
      match readOne s offset size with
      | (.ok (record, used), s) =>
        replayFrom size fuel (offset + used) (records.insert record.id record) s
      | (.error _, s) => cut s offset records
    else (.ok records, s)

/-- The table of a stored log (`replay`). Every envelope has bytes, so there are fewer envelopes
than bytes. -/
def replay (s : Store) : Except Error RecordTable × Store :=
  match s.size with
  | (.error e, s) => (.error (.storage e), s)
  | (.ok size, s) => replayFrom size (size + 1) 0 [] s

/-- Opens the log that a store holds (`LogTxnStore::with_backend`). The store is left behind if that
fails. -/
def openStore (s : Store) : Except Error Log × Store :=
  match replay s with
  | (.error e, s) => (.error e, s)
  | (.ok records, s) => (.ok ⟨s, records⟩, s)

/-- An empty log in memory (`LogTxnStore::in_memory`). -/
def empty : Log := ⟨.memory [], []⟩

/-! ## Reading the table -/

/-- The last image of a transaction (`LogTxnStore::get`). -/
def get? (l : Log) (id : TxnId) : Option Record :=
  l.records.find? id

/-- The number of transactions (`LogTxnStore::len`). -/
def length (l : Log) : Nat :=
  List.length l.records

/-- The ids of the unfinished records in ascending order (`LogTxnStore::active_ids`). -/
def activeIds (l : Log) : List TxnId :=
  ((List.map Prod.snd l.records).filter fun r => !r.isFinished).map Record.id
    |>.mergeSort fun a b => decide (a ≤ b)

/-! ## Writing -/

/-- Makes an image durable and puts it into the table (`Inner::persist`). -/
def persist (l : Log) (r : Record) : Except Error Unit × Log :=
  match l.store.append r.encode with
  | (.error e, s) => (.error (.storage e), { l with store := s })
  | (.ok _, s) =>
    match s.flush with
    | (.error e, s) => (.error (.storage e), { l with store := s })
    | (.ok (), s) =>
      if r.isFinished then
        match s.sync with
        | (.error e, s) => (.error (.storage e), { l with store := s })
        | (.ok (), s) => (.ok (), ⟨s, l.records.insert r.id r⟩)
      else (.ok (), ⟨s, l.records.insert r.id r⟩)

/-- Adds the first image of a transaction (`LogTxnStore::create`). -/
def create (l : Log) (r : Record) : Except Error Unit × Log :=
  if l.records.has r.id then (.error (.invalidOperation (.alreadyExists r.id)), l)
  else l.persist r

/-- Puts a request to a transaction's record (`LogTxnStore::transition`). What it is granted is
persisted, and so is an expiry found while it is rejected. -/
def transition (l : Log) (id : TxnId) (t : Transition) : Except Error TransitionOutcome × Log :=
  match l.get? id with
  | none => (.error (.transactionNotFound id), l)
  | some current =>
    let outcome := current.apply t
    let persists :=
      match outcome with
      | .applied _ => true
      | .rejected next => decide (next ≠ current)
      | .unchanged _ => false
    if persists then
      match l.persist outcome.record with
      | (.error e, l) => (.error e, l)
      | (.ok (), l) => (.ok outcome, l)
    else (.ok outcome, l)

/-- The size of the stored log (`LogTxnStore::log_size`). -/
def storedSize (l : Log) : Except Error Nat × Log :=
  let (answer, s) := l.store.size
  (ofStorage answer, { l with store := s })

end Log

end TxnEngine
