import TxnEngine.Bytes
import TxnEngine.Storage.Faults

/-!
# Byte stores

A byte store is an append-only byte string that can be cut back. It is used through handles. A
handle on memory always sees the present bytes; a handle on a file remembers the size it has seen
and counted itself, and answers by that size even if another handle has changed the file since.

A `Store` is a byte string with one handle on it and a schedule of faults.

Main statements: `Handle.read_of_size`, `Handle.append_of_size`, `Handle.truncate_of_size`, what a
handle does that knows the present size. A handle on memory always does, and one on a file does if it
is the only one on it (`Store.holding`).
-/

namespace TxnEngine

/-- The bytes of a store, in a form that is cheap to append to. -/
abbrev Content := Array UInt8

/-- A way to use a byte string (`InMemoryBackend` and `FileBackend`). -/
inductive Handle where
  /-- Sees the present bytes. -/
  | shared
  /-- Remembers a size of its own. -/
  | sized (known : Nat)
deriving DecidableEq, Inhabited

namespace Handle

/-- The size that the handle answers by (`StorageBackend::size`). -/
def size (h : Handle) (content : Content) : Nat :=
  match h with
  | shared => content.size
  | sized known => known

/-- The handle with another size. -/
def resized (h : Handle) (size : Nat) : Handle :=
  match h with
  | shared => shared
  | sized _ => sized size

/-- The `len` bytes at `offset` (`StorageBackend::read_at`). A handle that remembers more bytes than
there are fails where it should have found them. -/
def read (h : Handle) (content : Content) (offset len : Nat) : Except StorageError Bytes :=
  if h.size content < offset + len then .error (.readPastEnd offset len (h.size content))
  else if len = 0 then .ok []
  else if content.size < offset + len then
    .error (.io (.described "failed to fill whole buffer"))
  else .ok (content.extract offset (offset + len)).toList

/-- Puts `data` behind the present bytes (`StorageBackend::append`). The offset answered is the size
known before. -/
def append (h : Handle) (content : Content) (data : Bytes) : Nat × Handle × Content :=
  let size := h.size content
  if data = [] then (size, h, content)
  else (size, h.resized (size + data.length), content ++ data)

/-- The bytes cut or filled up with zeros to a length. -/
def setLength (content : Content) (length : Nat) : Content :=
  content.extract 0 length ++ List.replicate (length - content.size) (0 : UInt8)

/-- Sets the size to one that is not above the size known before (`StorageBackend::truncate`). -/
def truncate (h : Handle) (content : Content) (newSize : Nat) :
    Except StorageError (Handle × Content) :=
  if h.size content < newSize then .error (.invalidTruncate (h.size content) newSize)
  else .ok (h.resized newSize, setLength content newSize)

@[simp]
theorem size_shared (content : Content) : shared.size content = content.size := rfl

@[simp]
theorem resized_shared (size : Nat) : shared.resized size = shared := rfl

@[simp]
theorem toList_setLength (content : Content) (length : Nat) :
    (setLength content length).toList =
      content.toList.take length ++ List.replicate (length - content.toList.length) 0 := by
  simp [setLength]

@[simp]
theorem resized_resized (h : Handle) (m n : Nat) : (h.resized m).resized n = h.resized n := by
  cases h <;> rfl

/-- A handle whose size is set to that of the content knows it. -/
theorem size_resized (h : Handle) (content : Content) :
    (h.resized content.size).size content = content.size := by
  cases h <;> rfl

theorem read_of_size {h : Handle} {content : Content} (hs : h.size content = content.size)
    (offset len : Nat) :
    h.read content offset len =
      if content.toList.length < offset + len then
        .error (.readPastEnd offset len content.toList.length)
      else .ok ((content.toList.drop offset).take len) := by
  simp only [read, hs, Array.length_toList, Array.toList_extract,
    List.extract_eq_take_drop, Nat.add_sub_cancel_left]
  split
  · rfl
  · split
    · next h => simp [h]
    · rfl

theorem append_of_size {h : Handle} {content : Content} (hs : h.size content = content.size)
    (data : Bytes) :
    h.append content data =
      (content.size, h.resized (content.size + data.length), content ++ data) := by
  simp only [append, hs]
  split
  · next hnil =>
    cases h with
    | shared => simp [hnil]
    | sized known =>
      obtain rfl : known = content.size := hs
      simp [hnil, resized]
  · rfl

theorem truncate_of_size {h : Handle} {content : Content} (hs : h.size content = content.size)
    (newSize : Nat) :
    h.truncate content newSize =
      if content.size < newSize then .error (.invalidTruncate content.size newSize)
      else .ok (h.resized newSize, content.extract 0 newSize) := by
  by_cases hlt : content.size < newSize
  · simp [truncate, hs, hlt]
  · have : newSize - content.size = 0 := by omega
    simp [truncate, setLength, hs, hlt, this]

end Handle

/-- A byte string with one handle on it, whose calls can fail by schedule. -/
structure Store where
  content : Content
  handle : Handle
  faults : Faults
deriving Inhabited

namespace Store

/-- The bytes in the store. -/
def bytes (s : Store) : Bytes :=
  s.content.toList

/-- A store in memory. -/
def memory (bytes : Bytes) : Store :=
  ⟨bytes.toArray, .shared, .none⟩

/-- A file that holds the bytes, just opened. -/
def file (bytes : Bytes) : Store :=
  ⟨bytes.toArray, .sized bytes.length, .none⟩

/-- The same bytes with a handle that was just opened. -/
def reopened (s : Store) : Store :=
  { s with handle := s.handle.resized s.content.size }

/-- Uses up the schedule's entry for one call of `p`. -/
def attempt (s : Store) (p : Primitive) : Bool × Store :=
  let (fails, faults) := s.faults.take p
  (fails, { s with faults })

/-- The size the store answers by. -/
def size (s : Store) : Except StorageError Nat × Store :=
  match s.attempt .size with
  | (true, s) => (.error Primitive.size.failure, s)
  | (false, s) => (.ok (s.handle.size s.content), s)

/-- The `len` bytes at `offset`. -/
def read (s : Store) (offset len : Nat) : Except StorageError Bytes × Store :=
  match s.attempt .read with
  | (true, s) => (.error Primitive.read.failure, s)
  | (false, s) => (s.handle.read s.content offset len, s)

/-- Puts `data` behind the present bytes, as far as the faults let it. -/
def write (s : Store) (data : Bytes) : Nat × Store :=
  let (offset, handle, content) := s.handle.append s.content data
  (offset, { s with handle, content })

/-- Appends `data`. A torn append leaves the first half of it behind. -/
def append (s : Store) (data : Bytes) : Except StorageError Nat × Store :=
  match s.attempt .append with
  | (true, s) => (.error Primitive.append.failure, s)
  | (false, s) =>
    match s.attempt .tornAppend with
    | (true, s) => (.error Primitive.tornAppend.failure, (s.write (data.take (data.length / 2))).2)
    | (false, s) =>
      let (offset, s) := s.write data
      (.ok offset, s)

/-- Hands buffered bytes on (`StorageBackend::flush`). -/
def flush (s : Store) : Except StorageError Unit × Store :=
  match s.attempt .flush with
  | (true, s) => (.error Primitive.flush.failure, s)
  | (false, s) => (.ok (), s)

/-- Makes the bytes durable (`StorageBackend::sync`). -/
def sync (s : Store) : Except StorageError Unit × Store :=
  match s.attempt .sync with
  | (true, s) => (.error Primitive.sync.failure, s)
  | (false, s) => (.ok (), s)

/-- Cuts the store back to a size. -/
def truncate (s : Store) (newSize : Nat) : Except StorageError Unit × Store :=
  match s.attempt .truncate with
  | (true, s) => (.error Primitive.truncate.failure, s)
  | (false, s) =>
    match s.handle.truncate s.content newSize with
    | .error e => (.error e, s)
    | .ok (handle, content) => (.ok (), { s with handle, content })

/-! ## Stores whose handle is up to date -/

/-- A store that holds `bytes`, with a handle of the kind of `h` that knows how many they are. -/
def holding (h : Handle) (bytes : Bytes) (faults : Faults) : Store :=
  ⟨bytes.toArray, h.resized bytes.length, faults⟩

variable (h : Handle) (bytes : Bytes) (f : Faults)

theorem memory_eq_holding : memory bytes = holding .shared bytes .none := rfl

theorem file_eq_holding : file bytes = holding (.sized 0) bytes .none := rfl

@[simp]
theorem bytes_holding : (holding h bytes f).bytes = bytes := by
  simp [holding, Store.bytes]

@[simp]
theorem holding_resized (n : Nat) : holding (h.resized n) bytes f = holding h bytes f := by
  simp [holding]

/-- The handle knows the size. -/
theorem size_handle_holding :
    (h.resized bytes.length).size bytes.toArray = bytes.toArray.size := by
  simpa using Handle.size_resized h bytes.toArray

theorem attempt_holding (p : Primitive) :
    (holding h bytes f).attempt p = ((f.take p).1, holding h bytes (f.take p).2) := rfl

theorem write_holding (data : Bytes) :
    (holding h bytes f).write data = (bytes.length, holding h (bytes ++ data) f) := by
  simp [write, holding, Handle.append_of_size (size_handle_holding h bytes)]

theorem append_holding (data : Bytes) :
    (holding h bytes f).append data =
      let torn := (f.take .append).2.take .tornAppend
      if (f.take .append).1 then
        (.error Primitive.append.failure, holding h bytes (f.take .append).2)
      else if torn.1 then
        (.error Primitive.tornAppend.failure,
          holding h (bytes ++ data.take (data.length / 2)) torn.2)
      else (.ok bytes.length, holding h (bytes ++ data) torn.2) := by
  unfold append
  rw [attempt_holding]
  cases (f.take .append).1 with
  | true => rfl
  | false =>
    simp only [attempt_holding]
    cases ((f.take .append).2.take .tornAppend).1 <;> simp [write_holding]

/-! Without faults every call does its work. -/

theorem attempt_holding_none (p : Primitive) :
    (holding h bytes .none).attempt p = (false, holding h bytes .none) := by
  rw [attempt_holding, Faults.take_none]

theorem size_holding : (holding h bytes .none).size = (.ok bytes.length, holding h bytes .none) := by
  rw [size, attempt_holding_none]
  simp [holding, size_handle_holding]

theorem read_holding (offset len : Nat) :
    (holding h bytes .none).read offset len =
      (if bytes.length < offset + len then .error (.readPastEnd offset len bytes.length)
        else .ok ((bytes.drop offset).take len), holding h bytes .none) := by
  rw [read, attempt_holding_none]
  simp [holding, Handle.read_of_size (size_handle_holding h bytes)]

theorem flush_holding : (holding h bytes .none).flush = (.ok (), holding h bytes .none) := by
  rw [flush, attempt_holding_none]

theorem sync_holding : (holding h bytes .none).sync = (.ok (), holding h bytes .none) := by
  rw [sync, attempt_holding_none]

theorem truncate_holding {newSize : Nat} (hle : newSize ≤ bytes.length) :
    (holding h bytes .none).truncate newSize = (.ok (), holding h (bytes.take newSize) .none) := by
  have hmin : min newSize bytes.length = newSize := by omega
  rw [truncate, attempt_holding_none]
  simp [holding, Handle.truncate_of_size (size_handle_holding h bytes), Nat.not_lt.mpr hle, hmin]

end Store

end TxnEngine
