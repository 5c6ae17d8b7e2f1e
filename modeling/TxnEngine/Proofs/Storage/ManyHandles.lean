import Mathlib.Tactic.SplitIfs
import TxnEngine.History.Storage
import TxnEngine.Proofs.BadRecords.Names

/-!
# Stores that are used through many handles

The same calls are made on two directories with the same files, one in memory and one in a folder.
Stores are opened under their names, any number of times each, and used through the handles that were
opened. What a call on a plain byte string answers is `StoreCall.plain`; both kinds of directory
should answer so.

**Deviation.** A handle on a file answers by the size it remembers. It does not learn of what other
handles append or cut off, so its answer departs from the plain one if the remembered and the present
size decide differently (`StoreCall.strays`): it gives an offset at which the bytes are not, refuses
to read bytes that are there, or lengthens the file where it should refuse to cut it.

Results:
* `StoreCall.run_plain_iff`: a call answers as on a plain byte string iff it does not stray.
* `answers_alike_iff`: directories in memory and in a folder answer alike iff no call strays, which is
  so if every call goes through the handle that was opened last on its store.
* `not_forall_answers_alike`: two handles on one file that answer otherwise than in memory.
-/

namespace TxnEngine

open History (Sinks)

/-- What a call gives. -/
inductive StoreValue where
  | opened
  | number (n : Nat)
  | bytes (bytes : Bytes)
  | done
  /-- There is no handle of that number, so nothing was called. -/
  | nothing
deriving DecidableEq

/-- An answer with its error reduced to the kind. -/
def shownAnswer (answer : Except StorageError StoreValue) : Except String StoreValue :=
  answer.mapError StorageError.kind

/-! ## Calls on one store -/

/-- A call on an open store. -/
inductive StoreCall where
  | append (data : Bytes)
  | read (offset len : Nat)
  | size
  | truncate (newSize : Nat)
deriving DecidableEq

namespace StoreCall

/-- Makes the call on a store. -/
def run (c : StoreCall) (s : Store) : Except StorageError StoreValue × Store :=
  match c with
  | append data => ((s.append data).1.map .number, (s.append data).2)
  | read offset len => ((s.read offset len).1.map .bytes, (s.read offset len).2)
  | size => (s.size.1.map .number, s.size.2)
  | truncate newSize => ((s.truncate newSize).1.map fun _ => .done, (s.truncate newSize).2)

/-- What the call answers on a plain byte string, an error by its kind, and the bytes behind it. -/
def plain (c : StoreCall) (bytes : Bytes) : Except String StoreValue × Bytes :=
  match c with
  | append data => (.ok (.number bytes.length), bytes ++ data)
  | read offset len =>
    if bytes.length < offset + len then (.error "ReadPastEnd", bytes)
    else (.ok (.bytes ((bytes.drop offset).take len)), bytes)
  | size => (.ok (.number bytes.length), bytes)
  | truncate newSize =>
    if bytes.length < newSize then (.error "InvalidTruncate", bytes)
    else (.ok .done, bytes.take newSize)

/-- Whether the call turns out otherwise by the size known than by the size stored. -/
def strays (c : StoreCall) (known stored : Nat) : Bool :=
  match c with
  | append _ | size => known != stored
  | read offset len => decide (known < offset + len) != decide (stored < offset + len)
  | truncate newSize => decide (known < newSize) != decide (stored < newSize)

@[simp]
theorem strays_self (c : StoreCall) (n : Nat) : c.strays n n = false := by
  cases c <;> simp [strays]

variable {s : Store}

/-- On a store without faults a call does what its handle does. -/
theorem run_append (hfaults : s.faults = .none) (data : Bytes) :
    (append data).run s = (.ok (.number (s.handle.size s.content)),
      { s with
        handle := (s.handle.append s.content data).2.1
        content := s.content ++ data }) := by
  obtain ⟨content, handle, faults⟩ := s
  obtain rfl : faults = .none := hfaults
  by_cases hnil : data = [] <;>
    simp [run, Store.append, Store.attempt, Store.write, Handle.append, Except.map, hnil]

theorem run_read (hfaults : s.faults = .none) (offset len : Nat) :
    (read offset len).run s = ((s.handle.read s.content offset len).map .bytes, s) := by
  obtain ⟨content, handle, faults⟩ := s
  obtain rfl : faults = .none := hfaults
  simp [run, Store.read, Store.attempt]

theorem run_size (hfaults : s.faults = .none) :
    size.run s = (.ok (.number (s.handle.size s.content)), s) := by
  obtain ⟨content, handle, faults⟩ := s
  obtain rfl : faults = .none := hfaults
  simp [run, Store.size, Store.attempt, Except.map]

theorem run_truncate (hfaults : s.faults = .none) (newSize : Nat) :
    (truncate newSize).run s =
      if s.handle.size s.content < newSize then
        (.error (.invalidTruncate (s.handle.size s.content) newSize), s)
      else (.ok .done,
        { s with
          handle := s.handle.resized newSize
          content := Handle.setLength s.content newSize }) := by
  obtain ⟨content, handle, faults⟩ := s
  obtain rfl : faults = .none := hfaults
  by_cases hlt : handle.size content < newSize <;>
    simp [run, Store.truncate, Store.attempt, Handle.truncate, Except.map, hlt]

/-- What is shown of a read by a handle, whatever size it knows. -/
theorem shown_read (h : Handle) (content : Content) (offset len : Nat) :
    shownAnswer ((h.read content offset len).map .bytes) =
      if h.size content < offset + len then .error "ReadPastEnd"
      else if len ≠ 0 ∧ content.size < offset + len then .error "Io"
      else .ok (.bytes ((content.toList.drop offset).take len)) := by
  by_cases hlen : len = 0
  · subst hlen
    simp only [Handle.read]
    split_ifs <;> simp_all [shownAnswer, Except.map, Except.mapError, StorageError.kind]
  · simp only [Handle.read, hlen]
    split_ifs <;>
      simp_all [shownAnswer, Except.map, Except.mapError, StorageError.kind,
        List.extract_eq_take_drop]

/-- A call answers as on the plain bytes of the store iff it does not stray. -/
theorem run_plain_iff (hfaults : s.faults = .none) (c : StoreCall) :
    shownAnswer (c.run s).1 = (c.plain s.bytes).1 ↔
      c.strays (s.handle.size s.content) s.content.size = false := by
  have hlength : s.bytes.length = s.content.size := Array.length_toList
  cases c with
  | append data => simp [run_append hfaults, plain, strays, shownAnswer, Except.mapError, hlength]
  | size => simp [run_size hfaults, plain, strays, shownAnswer, Except.mapError, hlength]
  | truncate newSize =>
    rw [run_truncate hfaults, plain, strays, hlength]
    by_cases hk : s.handle.size s.content < newSize <;> by_cases hn : s.content.size < newSize <;>
      simp [hk, hn, shownAnswer, Except.mapError, StorageError.kind]
  | read offset len =>
    rw [run_read hfaults, shown_read, plain, strays, hlength, Store.bytes]
    generalize offset + len = last
    by_cases hk : s.handle.size s.content < last <;> by_cases hn : s.content.size < last <;>
      by_cases hlen : len = 0 <;> simp [hk, hn, hlen]

/-- A call that does not stray leaves what it leaves of the plain bytes. -/
theorem bytes_run (hfaults : s.faults = .none) {c : StoreCall}
    (hsteady : c.strays (s.handle.size s.content) s.content.size = false) :
    (c.run s).2.bytes = (c.plain s.bytes).2 := by
  have hlength : s.bytes.length = s.content.size := Array.length_toList
  cases c with
  | append data => simp [run_append hfaults, plain, Store.bytes]
  | size => rw [run_size hfaults, plain]
  | read offset len =>
    rw [run_read hfaults, plain]
    split <;> rfl
  | truncate newSize =>
    have hiff : s.handle.size s.content < newSize ↔ s.content.size < newSize := by
      simpa [strays] using hsteady
    rw [run_truncate hfaults, plain, hlength]
    by_cases hn : s.content.size < newSize
    · simp [hiff, hn]
    · have hzero : newSize - s.content.size = 0 := by omega
      simp [hiff, hn, hzero, Store.bytes]

theorem faults_run (hfaults : s.faults = .none) (c : StoreCall) : (c.run s).2.faults = .none := by
  cases c with
  | append data => rw [run_append hfaults]; exact hfaults
  | size => rw [run_size hfaults]; exact hfaults
  | read offset len => rw [run_read hfaults]; exact hfaults
  | truncate newSize =>
    rw [run_truncate hfaults]
    split <;> exact hfaults

/-- A handle that knows the size knows it behind its own call. -/
theorem knows_run (hfaults : s.faults = .none) (c : StoreCall)
    (hknows : s.handle.size s.content = s.content.size) :
    (c.run s).2.handle.size (c.run s).2.content = (c.run s).2.content.size := by
  have hresized (content : Content) (n : Nat) (hn : content.size = n) :
      (s.handle.resized n).size content = content.size := by
    subst hn
    exact Handle.size_resized s.handle content
  cases c with
  | size => rw [run_size hfaults]; exact hknows
  | read offset len => rw [run_read hfaults]; exact hknows
  | append data =>
    rw [run_append hfaults, Handle.append_of_size hknows]
    exact hresized _ _ (by simp [← Array.length_toList])
  | truncate newSize =>
    rw [run_truncate hfaults]
    split_ifs with hlt
    · exact hknows
    · exact hresized _ _ (by simp [← Array.length_toList]; omega)

theorem shared_run (hfaults : s.faults = .none) (c : StoreCall) (hshared : s.handle = .shared) :
    (c.run s).2.handle = .shared := by
  cases c with
  | size => rw [run_size hfaults]; exact hshared
  | read offset len => rw [run_read hfaults]; exact hshared
  | append data =>
    rw [run_append hfaults, hshared, Handle.append]
    split <;> rfl
  | truncate newSize =>
    rw [run_truncate hfaults, hshared]
    split <;> first | exact hshared | rfl

end StoreCall

/-! ## Calls on a directory -/

/-- A call on a directory, or on a store through a handle that was opened in it. The handles are
numbered in the order in which they were opened. -/
inductive DirectoryCall where
  | createStore (name : String)
  | openStore (name : String)
  | through (h : Nat) (call : StoreCall)
deriving DecidableEq

namespace DirectoryCall

/-- Keeps a handle that was opened. -/
def keep (s : Sinks) : Except StorageError Sink × Directory → Except StorageError StoreValue × Sinks
  | (.error e, d) => (.error e, ⟨d, s.sinks⟩)
  | (.ok sink, d) => (.ok .opened, ⟨d, s.sinks ++ [sink]⟩)

/-- Makes the call. -/
def run (c : DirectoryCall) (s : Sinks) : Except StorageError StoreValue × Sinks :=
  match c with
  | createStore name => keep s (s.directory.create name)
  | openStore name => keep s (s.directory.openFile name)
  | through h call =>
    match s.sinks[h]? with
    | none => (.ok .nothing, s)
    | some sink =>
      let ((answer, sink), d) := s.directory.onSink call.run sink
      (answer, ⟨d, s.sinks.set h sink⟩)

/-- Makes all calls in order. -/
def runAll : List DirectoryCall → Sinks → List (Except StorageError StoreValue) × Sinks
  | [], s => ([], s)
  | c :: rest, s =>
    let (answer, s) := c.run s
    let (answers, s) := runAll rest s
    (answer :: answers, s)

/-- Whether something holds of every call when its turn comes. -/
def Throughout (holds : DirectoryCall → Sinks → Prop) : List DirectoryCall → Sinks → Prop
  | [], _ => True
  | c :: rest, s => holds c s ∧ Throughout holds rest (c.run s).2

/-- Whether a name that the call opens is good in memory and in a folder. -/
def Valid (path : String) : DirectoryCall → Prop
  | createStore name | openStore name =>
    Directory.isName name = true ∧ (Place.folder path).refusal? name = none
  | through .. => True

/-- A call through a handle answers as on the bytes of its store and leaves them so, and leaves the
other stores alone. -/
def Plainly (c : DirectoryCall) (s : Sinks) : Prop :=
  ∀ h call sink, c = through h call → s.sinks[h]? = some sink →
    let truth := call.plain (s.directory.storeOf sink).bytes
    shownAnswer (c.run s).1 = truth.1 ∧
      (c.run s).2.directory.contents? sink.name = some truth.2 ∧
      ∀ other, other ≠ sink.name →
        (c.run s).2.directory.contents? other = s.directory.contents? other

/-- A call through a handle does not stray by the size that the handle knows. -/
def Steady (c : DirectoryCall) (s : Sinks) : Prop :=
  ∀ h call sink, c = through h call → s.sinks[h]? = some sink →
    let store := s.directory.storeOf sink
    call.strays (store.handle.size store.content) store.content.size = false

/-- No handle on the same store was opened later. -/
def IsLatest (s : Sinks) (h : Nat) (sink : Sink) : Prop :=
  ∀ later other, h < later → s.sinks[later]? = some other → other.name ≠ sink.name

/-- A call goes through the handle that was opened last on its store. -/
def ByLatest (c : DirectoryCall) (s : Sinks) : Prop :=
  ∀ h call sink, c = through h call → s.sinks[h]? = some sink → IsLatest s h sink

section Steps

variable {s : Sinks} {c : DirectoryCall} {h : Nat} {call : StoreCall} {sink : Sink}

/-- A call through a handle is a call on its store. -/
theorem run_through (hsink : s.sinks[h]? = some sink) :
    (through h call).run s =
      let called := call.run (s.directory.storeOf sink)
      (called.1, ⟨(s.directory.putStore sink called.2).2,
        s.sinks.set h (s.directory.putStore sink called.2).1⟩) := by
  simp only [run, hsink]
  rfl

theorem run_through_none (hsink : s.sinks[h]? = none) :
    (through h call).run s = (.ok .nothing, s) := by
  simp only [run, hsink]

theorem run_createStore (hfaults : s.directory.faults = .none) {name : String}
    (hname : Directory.isName name = true) (hplace : s.directory.place.refusal? name = none) :
    (createStore name).run s =
      if s.directory.present name then
        (.error (.alreadyExists (s.directory.place.location name)), s)
      else (.ok .opened,
        ⟨{ s.directory with files := s.directory.files.insert name #[] },
          s.sinks ++ [⟨name, s.directory.place.opening #[]⟩]⟩) := by
  obtain ⟨⟨place, files, reserved, faults⟩, sinks⟩ := s
  obtain rfl : faults = .none := hfaults
  by_cases hpresent : (Directory.mk place files reserved .none).present name = true <;>
    simp_all [run, keep, Directory.create, Directory.attempt, Directory.createFile,
      Directory.checkName]

theorem run_openStore {name : String} (hname : Directory.isName name = true)
    (hplace : s.directory.place.refusal? name = none) :
    (openStore name).run s =
      let content := s.directory.files.findD name #[]
      (.ok .opened, ⟨{ s.directory with files := s.directory.files.insert name content },
        s.sinks ++ [⟨name, s.directory.place.opening content⟩]⟩) := by
  simp [run, keep, Directory.openFile, Directory.checkName, hname, hplace]

/-- The bytes behind a handle once a call through it is over. -/
theorem storeOf_putStore (d : Directory) (sink : Sink) (store : Store) :
    (d.putStore sink store).2.storeOf (d.putStore sink store).1 = store := by
  simp [Directory.putStore, Directory.storeOf, Table.findD, Table.find?_insert_self]

theorem contents?_putStore_self (d : Directory) (sink : Sink) (store : Store) :
    (d.putStore sink store).2.contents? sink.name = some store.bytes := by
  simp [Directory.putStore, Directory.contents?, Table.find?_insert_self, Store.bytes]

theorem contents?_putStore_of_ne (d : Directory) {sink : Sink} (store : Store) {other : String}
    (hne : other ≠ sink.name) : (d.putStore sink store).2.contents? other = d.contents? other := by
  simp [Directory.putStore, Directory.contents?, Table.find?_insert_of_ne _ _ hne.symm]

/-- No call moves the directory or brings faults into it. -/
theorem kept_run (hfaults : s.directory.faults = .none) (c : DirectoryCall) :
    (c.run s).2.directory.place = s.directory.place ∧ (c.run s).2.directory.faults = .none := by
  have hkeep {opened : Except StorageError Sink × Directory}
      (h : opened.2.place = s.directory.place ∧ opened.2.faults = .none) :
      (keep s opened).2.directory.place = s.directory.place ∧
        (keep s opened).2.directory.faults = .none := by
    obtain ⟨e | sink, d⟩ := opened <;> exact h
  cases c with
  | createStore name =>
    refine hkeep ?_
    rw [Directory.create, Directory.attempt, hfaults, Faults.take_none]
    simp only [Directory.createFile]
    split
    · exact ⟨rfl, rfl⟩
    · split
      · exact ⟨rfl, rfl⟩
      · split <;> exact ⟨rfl, rfl⟩
  | openStore name =>
    refine hkeep ?_
    unfold Directory.openFile
    split
    · exact ⟨rfl, hfaults⟩
    · split <;> exact ⟨rfl, hfaults⟩
  | through h call =>
    cases hsink : s.sinks[h]? with
    | none => rw [run_through_none hsink]; exact ⟨rfl, hfaults⟩
    | some sink =>
      rw [run_through hsink]
      exact ⟨rfl, StoreCall.faults_run (s := s.directory.storeOf sink) hfaults call⟩

/-- A call answers plainly iff it does not stray. -/
theorem plainly_iff (hfaults : s.directory.faults = .none) (c : DirectoryCall) :
    Plainly c s ↔ Steady c s := by
  constructor
  · rintro hplain h call sink rfl hsink
    have hanswer := (hplain h call sink rfl hsink).1
    rw [run_through hsink] at hanswer
    exact (StoreCall.run_plain_iff (s := s.directory.storeOf sink) hfaults call).mp hanswer
  · rintro hsteady h call sink rfl hsink
    have hstore := hsteady h call sink rfl hsink
    rw [run_through hsink]
    refine ⟨(StoreCall.run_plain_iff (s := s.directory.storeOf sink) hfaults call).mpr hstore, ?_,
      fun other hne => contents?_putStore_of_ne _ _ hne⟩
    rw [← StoreCall.bytes_run (s := s.directory.storeOf sink) hfaults hstore]
    exact contents?_putStore_self _ _ _

/-- A property that all calls keep up turns what holds of each call into what holds throughout. -/
theorem Throughout.congr {upkept : Sinks → Prop} {holds holds' : DirectoryCall → Sinks → Prop}
    (hkeep : ∀ (c : DirectoryCall) (s : Sinks), upkept s → upkept (c.run s).2)
    (hiff : ∀ c s, upkept s → (holds c s ↔ holds' c s)) {calls : List DirectoryCall}
    (hs : upkept s) : Throughout holds calls s ↔ Throughout holds' calls s := by
  induction calls generalizing s with
  | nil => exact Iff.rfl
  | cons c rest ih => exact and_congr (hiff c s hs) (ih (hkeep c s hs))

theorem Throughout.of_upkept {upkept : Sinks → Prop} {holds : DirectoryCall → Sinks → Prop}
    (hkeep : ∀ (c : DirectoryCall) (s : Sinks), upkept s → upkept (c.run s).2)
    (hholds : ∀ c s, upkept s → holds c s) {calls : List DirectoryCall} (hs : upkept s) :
    Throughout holds calls s := by
  induction calls generalizing s with
  | nil => trivial
  | cons c rest ih => exact ⟨hholds c s hs, ih (hkeep c s hs)⟩

end Steps

/-! ## Handles that were opened last -/

/-- The handle that was opened last on its store knows its size. -/
def LatestKnow (s : Sinks) : Prop :=
  ∀ h sink, s.sinks[h]? = some sink → IsLatest s h sink →
    let store := s.directory.storeOf sink
    store.handle.size store.content = store.content.size

section Latest

variable {s : Sinks} {c : DirectoryCall}

theorem opening_knows (p : Place) (content : Content) :
    (p.opening content).size content = content.size := by
  cases p <;> rfl

/-- Behind an opening, with the file's bytes as they are now, the latest handles know their sizes. -/
theorem latestKnow_opened (hs : LatestKnow s) (name : String) (content : Content) :
    LatestKnow ⟨{ s.directory with files := s.directory.files.insert name content },
      s.sinks ++ [⟨name, s.directory.place.opening content⟩]⟩ := by
  intro h sink hsink hlatest
  rcases Nat.lt_trichotomy h s.sinks.length with hlt | rfl | hgt
  · -- An older handle that is still the latest is on another store.
    have hne : name ≠ sink.name :=
      hlatest s.sinks.length ⟨name, s.directory.place.opening content⟩ hlt (by simp)
    rw [List.getElem?_append_left hlt] at hsink
    have hknows := hs h sink hsink fun later other hlater hother =>
      hlatest later other hlater (by
        rw [List.getElem?_append_left (List.getElem?_eq_some_iff.mp hother).1]
        exact hother)
    simpa [Directory.storeOf, Table.findD, Table.find?_insert_of_ne _ _ hne] using hknows
  · have hnew : sink = ⟨name, s.directory.place.opening content⟩ := by simpa using hsink.symm
    subst hnew
    simpa [Directory.storeOf, Table.findD, Table.find?_insert_self] using
      opening_knows s.directory.place content
  · have := (List.getElem?_eq_some_iff.mp hsink).1
    simp at this
    omega

theorem names_set {h : Nat} {sink sink' : Sink} (hsink : s.sinks[h]? = some sink)
    (hname : sink'.name = sink.name) :
    ∀ (i : Nat) (other : Sink), s.sinks[i]? = some other →
      ∃ other', (s.sinks.set h sink')[i]? = some other' ∧ other'.name = other.name := by
  intro i other hother
  by_cases hi : h = i
  · subst hi
    have hlt := (List.getElem?_eq_some_iff.mp hsink).1
    rw [hsink] at hother
    cases hother
    exact ⟨sink', by simp [hlt], hname⟩
  · exact ⟨other, by rw [List.getElem?_set_ne hi]; exact hother, rfl⟩

theorem latestKnow_through (hfaults : s.directory.faults = .none) (hs : LatestKnow s) {h : Nat}
    {call : StoreCall} {sink : Sink} (hsink : s.sinks[h]? = some sink) (hlast : IsLatest s h sink) :
    LatestKnow ((through h call).run s).2 := by
  rw [run_through hsink]
  intro i other hother hlatest
  simp only at hother hlatest ⊢
  by_cases hi : h = i
  · subst hi
    have hlt := (List.getElem?_eq_some_iff.mp hsink).1
    have hsame : other = (s.directory.putStore sink (call.run (s.directory.storeOf sink)).2).1 := by
      simpa [hlt] using hother.symm
    rw [hsame, storeOf_putStore]
    exact StoreCall.knows_run (s := s.directory.storeOf sink) hfaults call (hs h sink hsink hlast)
  · rw [List.getElem?_set_ne hi] at hother
    have hstill : IsLatest s i other := by
      intro later third hlater hthird
      have hkept : (s.directory.putStore sink (call.run (s.directory.storeOf sink)).2).1.name =
          sink.name := rfl
      obtain ⟨third', hthird', hname⟩ := names_set hsink hkept later third hthird
      exact hname ▸ hlatest later third' hlater hthird'
    have hne : sink.name ≠ other.name := by
      rcases Nat.lt_or_gt_of_ne hi with hlt | hgt
      · exact (hlast i other hlt hother).symm
      · exact hstill h sink hgt hsink
    have hknows := hs i other hother hstill
    simpa [Directory.putStore, Directory.storeOf, Table.findD, Table.find?_insert_of_ne _ _ hne]
      using hknows

/-- Calls through the latest handles only do not stray. -/
theorem steady_of_latest {path : String} {calls : List DirectoryCall}
    (hplace : s.directory.place = .folder path) (hvalid : ∀ c ∈ calls, Valid path c)
    (hfaults : s.directory.faults = .none) (hs : LatestKnow s)
    (hcalls : Throughout ByLatest calls s) : Throughout Steady calls s := by
  induction calls generalizing s with
  | nil => trivial
  | cons c rest ih =>
    obtain ⟨hc, hrest⟩ := hcalls
    obtain ⟨hnow, hlater⟩ := List.forall_mem_cons.mp hvalid
    obtain ⟨hkept, hfaultless⟩ := kept_run hfaults c
    refine ⟨?_, ih (hkept.trans hplace) hlater hfaultless ?_ hrest⟩
    · rintro h call sink rfl hsink
      simp only [hs h sink hsink (hc h call sink rfl hsink), StoreCall.strays_self]
    · cases c with
      | createStore name =>
        rw [run_createStore hfaults hnow.1 (hplace ▸ hnow.2)]
        split
        · exact hs
        · exact latestKnow_opened hs name #[]
      | openStore name =>
        rw [run_openStore hnow.1 (hplace ▸ hnow.2)]
        exact latestKnow_opened hs name _
      | through h call =>
        cases hsink : s.sinks[h]? with
        | none => rw [run_through_none hsink]; exact hs
        | some sink => exact latestKnow_through hfaults hs hsink (hc h call sink rfl hsink)

end Latest

/-! ## In memory and in a folder -/

/-- A directory in memory without faults, with its open handles. -/
structure InMemory (label : String) (s : Sinks) : Prop where
  place : s.directory.place = .memory label
  faults : s.directory.faults = .none
  shared : ∀ sink ∈ s.sinks, sink.handle = .shared

/-- In memory an opened handle is one on the present bytes. -/
theorem shared_opened {d : Directory} {label : String} (hplace : d.place = .memory label)
    (name : String) (sink : Sink) :
    ((d.createFile name).1 = .ok sink → sink.handle = .shared) ∧
      ((d.openFile name).1 = .ok sink → sink.handle = .shared) := by
  have hopening (content : Content) : d.place.opening content = .shared := by
    rw [hplace]
    rfl
  have hrefusal : d.place.refusal? name = none := by
    rw [hplace]
    rfl
  constructor
  · intro hopened
    simp only [Directory.createFile, hrefusal, hopening] at hopened
    split at hopened
    · cases hopened
    · split at hopened <;> cases hopened
      rfl
  · intro hopened
    simp only [Directory.openFile, hrefusal, hopening] at hopened
    split at hopened <;> cases hopened
    rfl

theorem InMemory.run {label : String} {s : Sinks} (hs : InMemory label s) (c : DirectoryCall) :
    InMemory label (c.run s).2 := by
  obtain ⟨hplace, hfaults⟩ := kept_run hs.faults c
  refine ⟨hplace.trans hs.place, hfaults, ?_⟩
  have hkeep (opened : Except StorageError Sink × Directory)
      (hshared : ∀ sink, opened.1 = .ok sink → sink.handle = .shared) :
      ∀ sink ∈ (keep s opened).2.sinks, sink.handle = .shared := by
    obtain ⟨e | sink, d⟩ := opened
    · exact hs.shared
    · intro other hother
      rcases List.mem_append.mp hother with hold | hnew
      · exact hs.shared other hold
      · rw [List.mem_singleton.mp hnew]
        exact hshared sink rfl
  cases c with
  | createStore name =>
    refine hkeep _ fun sink hsink => ?_
    rw [Directory.create, Directory.attempt, hs.faults, Faults.take_none] at hsink
    exact (shared_opened (by exact hs.place) name sink).1 hsink
  | openStore name => exact hkeep _ fun sink => (shared_opened hs.place name sink).2
  | through h call =>
    cases hsink : s.sinks[h]? with
    | none => rw [run_through_none hsink]; exact hs.shared
    | some sink =>
      rw [run_through hsink]
      intro other hother
      rcases List.mem_or_eq_of_mem_set hother with hold | rfl
      · exact hs.shared other hold
      · exact StoreCall.shared_run (s := s.directory.storeOf sink) hs.faults call
          (hs.shared sink (List.mem_of_getElem? hsink))

/-- In memory no call strays. -/
theorem InMemory.steady {label : String} {s : Sinks} (hs : InMemory label s) (c : DirectoryCall) :
    Steady c s := by
  intro h call sink _ hsink
  have hshared := hs.shared sink (List.mem_of_getElem? hsink)
  simp only [Directory.storeOf, hshared, Handle.size_shared, StoreCall.strays_self]

/-- A directory in memory and one in a folder with the same files and handles on the same stores. -/
structure Mirrors (label path : String) (m f : Sinks) : Prop where
  memory : InMemory label m
  folder : f.directory.place = .folder path
  faults : f.directory.faults = .none
  files : f.directory.files = m.directory.files
  names : f.sinks.map Sink.name = m.sinks.map Sink.name

section Mirrors

variable {label path : String} {m f : Sinks}

theorem Mirrors.find_sink (hmirror : Mirrors label path m f) (h : Nat) :
    m.sinks[h]? = none ∧ f.sinks[h]? = none ∨
      ∃ sink sink', m.sinks[h]? = some sink ∧ f.sinks[h]? = some sink' ∧ sink'.name = sink.name := by
  have hname : (f.sinks.map Sink.name)[h]? = (m.sinks.map Sink.name)[h]? := by rw [hmirror.names]
  rw [List.getElem?_map, List.getElem?_map] at hname
  cases hm : m.sinks[h]? <;> cases hf : f.sinks[h]? <;> simp_all

/-- The directories mirror each other behind a call that leaves the same files and handles. -/
theorem Mirrors.again (hmirror : Mirrors label path m f) {c : DirectoryCall}
    (hfiles : (c.run f).2.directory.files = (c.run m).2.directory.files)
    (hnames : (c.run f).2.sinks.map Sink.name = (c.run m).2.sinks.map Sink.name) :
    Mirrors label path (c.run m).2 (c.run f).2 := by
  obtain ⟨hfolder, hfaults⟩ := kept_run hmirror.faults c
  exact ⟨hmirror.memory.run c, hfolder.trans hmirror.folder, hfaults, hfiles, hnames⟩

theorem steady_through_iff {s : Sinks} {h : Nat} {sink : Sink} (hsink : s.sinks[h]? = some sink)
    (call : StoreCall) : Steady (through h call) s ↔
      let store := s.directory.storeOf sink
      call.strays (store.handle.size store.content) store.content.size = false := by
  refine ⟨fun hall => hall h call sink rfl hsink, ?_⟩
  rintro hone h' call' other hcall hother
  cases hcall
  cases hsink.symm.trans hother
  exact hone

/-- A call through handles on the same store. -/
theorem Mirrors.runOn (hmirror : Mirrors label path m f) {h : Nat} {sink sink' : Sink}
    (hm : m.sinks[h]? = some sink) (hf : f.sinks[h]? = some sink') (hname : sink'.name = sink.name)
    (call : StoreCall) :
    (shownAnswer ((through h call).run m).1 = shownAnswer ((through h call).run f).1 ↔
        Steady (through h call) f) ∧
      (Steady (through h call) f →
        Mirrors label path ((through h call).run m).2 ((through h call).run f).2) := by
  have hagain := hmirror.again (c := through h call)
  have hcontent : (f.directory.storeOf sink').content = (m.directory.storeOf sink).content := by
    rw [Directory.storeOf, Directory.storeOf, hname, hmirror.files]
  have hsteadym := hmirror.memory.steady (through h call) h call sink rfl hm
  rw [run_through hm, run_through hf] at hagain ⊢
  rw [steady_through_iff hf]
  have hmfaults : (m.directory.storeOf sink).faults = .none := hmirror.memory.faults
  have hffaults : (f.directory.storeOf sink').faults = .none := hmirror.faults
  generalize m.directory.storeOf sink = store at hagain hcontent hsteadym hmfaults ⊢
  generalize f.directory.storeOf sink' = store' at hagain hcontent hffaults ⊢
  have hbytes : store'.bytes = store.bytes := by rw [Store.bytes, hcontent, Store.bytes]
  -- In memory the call answers as on the plain bytes, which are those of the file.
  have hplain := (StoreCall.run_plain_iff hmfaults call).mpr hsteadym
  refine ⟨?_, fun hone => hagain ?_ ?_⟩
  · rw [hplain, ← hbytes, eq_comm]
    exact StoreCall.run_plain_iff hffaults call
  · have hafter := StoreCall.bytes_run hffaults hone
    rw [hbytes, ← StoreCall.bytes_run hmfaults hsteadym] at hafter
    have hsame : (call.run store').2.content = (call.run store).2.content :=
      Array.toList_inj.mp hafter
    simp [Directory.putStore, hname, hmirror.files, hsame]
  · simp [Directory.putStore, List.map_set, hname, hmirror.names]

/-- A valid call is answered alike iff it does not stray in the folder, and then the directories
mirror each other again. -/
theorem Mirrors.run (hmirror : Mirrors label path m f) {c : DirectoryCall} (hvalid : Valid path c) :
    (shownAnswer (c.run m).1 = shownAnswer (c.run f).1 ↔ Steady c f) ∧
      (Steady c f → Mirrors label path (c.run m).2 (c.run f).2) := by
  have hagain := hmirror.again (c := c)
  have hrefusal (name : String) : m.directory.place.refusal? name = none := by
    rw [hmirror.memory.place]
    rfl
  cases c with
  | createStore name =>
    have hsteady : Steady (createStore name) f := nofun
    have hpresent : f.directory.present name = m.directory.present name := by
      rw [Directory.present, Directory.present, hmirror.files]
    rw [run_createStore hmirror.memory.faults hvalid.1 (hrefusal name),
      run_createStore hmirror.faults hvalid.1 (hmirror.folder ▸ hvalid.2), hpresent] at hagain ⊢
    refine ⟨iff_of_true ?_ hsteady, fun _ => hagain ?_ ?_⟩
    · split_ifs <;> rfl
    · split_ifs <;> simp [hmirror.files]
    · split_ifs <;> simp [hmirror.names]
  | openStore name =>
    have hsteady : Steady (openStore name) f := nofun
    rw [run_openStore hvalid.1 (hrefusal name),
      run_openStore hvalid.1 (hmirror.folder ▸ hvalid.2)] at hagain ⊢
    exact ⟨iff_of_true rfl hsteady,
      fun _ => hagain (by simp [hmirror.files]) (by simp [hmirror.names])⟩
  | through h call =>
    rcases hmirror.find_sink h with ⟨hm, hf⟩ | ⟨sink, sink', hm, hf, hname⟩
    · have hsteady : Steady (through h call) f := by
        rintro h' call' sink hcall hsink
        cases hcall
        cases hf.symm.trans hsink
      rw [run_through_none hm, run_through_none hf]
      exact ⟨iff_of_true rfl hsteady, fun _ => hmirror⟩
    · exact hmirror.runOn hm hf hname call

/-- The runs answer alike iff no call strays in the folder, and then the same files are left. -/
theorem Mirrors.runAll (hmirror : Mirrors label path m f) {calls : List DirectoryCall}
    (hvalid : ∀ c ∈ calls, Valid path c) :
    ((runAll calls m).1.map shownAnswer = (runAll calls f).1.map shownAnswer ↔
      Throughout Steady calls f) ∧
      (Throughout Steady calls f →
        (runAll calls f).2.directory.files = (runAll calls m).2.directory.files) := by
  induction calls generalizing m f with
  | nil => exact ⟨iff_of_true rfl trivial, fun _ => hmirror.files⟩
  | cons c rest ih =>
    obtain ⟨hnow, hlater⟩ := List.forall_mem_cons.mp hvalid
    obtain ⟨hone, hnext⟩ := hmirror.run hnow
    simp only [DirectoryCall.runAll, List.map_cons, List.cons.injEq, hone, Throughout]
    refine ⟨and_congr_right fun hsteady => (ih (hnext hsteady) hlater).1, fun hall => ?_⟩
    exact (ih (hnext hall.1) hlater).2 hall.2

/-- A directory with some files and no open handles. -/
def unopened (place : Place) (files : Table String Content) : Sinks :=
  ⟨⟨place, files, [], .none⟩, []⟩

/-- Stores in memory and files, used by the same calls through any number of handles. In memory every
call answers as on a plain byte string: an append with the offset of its bytes, a read with the bytes
that are there, and what is cut off was there. A call on a file answers so iff it does not stray by
the size that its handle remembers. The two answer alike iff no call strays, and then the same bytes
are left; no call strays if each goes through the handle that was opened last on its store. -/
theorem answers_alike_iff (label path : String) (files : Table String Content)
    {calls : List DirectoryCall} (hvalid : ∀ c ∈ calls, Valid path c) :
    let m := unopened (.memory label) files
    let f := unopened (.folder path) files
    Throughout Plainly calls m ∧
    (Throughout Plainly calls f ↔ Throughout Steady calls f) ∧
    ((runAll calls m).1.map shownAnswer = (runAll calls f).1.map shownAnswer ↔
      Throughout Steady calls f) ∧
    (Throughout Steady calls f →
      (runAll calls f).2.directory.files = (runAll calls m).2.directory.files) ∧
    (Throughout ByLatest calls f → Throughout Steady calls f) := by
  intro m f
  have hmirror : Mirrors label path m f := ⟨⟨rfl, rfl, nofun⟩, rfl, rfl, rfl, rfl⟩
  have hplain (s : Sinks) (hfaults : s.directory.faults = .none) :
      Throughout Plainly calls s ↔ Throughout Steady calls s :=
    Throughout.congr (fun c s h => (kept_run h c).2) (fun c s h => plainly_iff h c) hfaults
  have hmemory : Throughout Steady calls m :=
    Throughout.of_upkept (fun c s h => h.run c) (fun c s h => h.steady c) hmirror.memory
  obtain ⟨halike, hfiles⟩ := hmirror.runAll hvalid
  exact ⟨(hplain m rfl).mpr hmemory, hplain f rfl, halike, hfiles,
    steady_of_latest rfl hvalid rfl nofun⟩

/-- Behind two openings of one store there are two handles on it that know its size. -/
theorem runAll_openTwice {place : Place} {name : String} (hname : Directory.isName name = true)
    (hplace : place.refusal? name = none) (files : Table String Content)
    (rest : List DirectoryCall) :
    let content := files.findD name #[]
    let sink : Sink := ⟨name, place.opening content⟩
    let files' := (files.insert name content).insert name content
    let opened : Sinks := ⟨⟨place, files', [], .none⟩, [sink, sink]⟩
    runAll (openStore name :: openStore name :: rest) (unopened place files) =
      (.ok .opened :: .ok .opened :: (runAll rest opened).1, (runAll rest opened).2) := by
  have hagain (content : Content) : (files.insert name content).findD name #[] = content := by
    rw [Table.findD, Table.find?_insert_self]
    rfl
  have hrun (files : Table String Content) (sinks : List Sink) :
      (openStore name).run ⟨⟨place, files, [], .none⟩, sinks⟩ =
        (.ok .opened, ⟨⟨place, files.insert name (files.findD name #[]), [], .none⟩,
          sinks ++ [⟨name, place.opening (files.findD name #[])⟩]⟩) :=
    run_openStore hname hplace
  simp only [unopened, runAll, hrun, hagain, List.nil_append, List.cons_append]

/-- Two handles on one file. The second appends behind the first, and answers with the offset 0. -/
theorem answers_alike_iff_twoWriters :
    let calls := [openStore "a.bad", openStore "a.bad", through 0 (.append [97, 98]),
      through 1 (.append [99])]
    let f := unopened (.folder "status") []
    (∀ c ∈ calls, Valid "status" c) ∧
      (runAll calls f).1.map shownAnswer =
        [.ok .opened, .ok .opened, .ok (.number 0), .ok (.number 0)] ∧
      (runAll calls f).2.directory.files = [("a.bad", #[97, 98, 99])] ∧
      ¬Throughout Plainly calls f ∧ ¬Throughout ByLatest calls f := by
  intro calls f
  have hname : Directory.isName "a.bad" = true := by decide
  have hplace (place : Place) : place.refusal? "a.bad" = none :=
    place.refusal?_of_short (by decide) (by decide)
  have hvalid : ∀ c ∈ calls, Valid "status" c := by
    simp only [calls, List.forall_mem_cons]
    exact ⟨⟨hname, hplace _⟩, ⟨hname, hplace _⟩, trivial, trivial, nofun⟩
  obtain ⟨-, hplain, halike, -, hlatest⟩ := answers_alike_iff "mem:" "status" [] hvalid
  have hopened (place : Place) := runAll_openTwice hname (hplace place) []
    [through 0 (.append [97, 98]), through 1 (.append [99])]
  have hanswers : (runAll calls f).1.map shownAnswer =
      [.ok .opened, .ok .opened, .ok (.number 0), .ok (.number 0)] := by
    rw [hopened]
    rfl
  have hstrays : ¬Throughout Steady calls f := by
    have hmemory : (runAll calls (unopened (.memory "mem:") [])).1.map shownAnswer =
        [.ok .opened, .ok .opened, .ok (.number 0), .ok (.number 2)] := by
      rw [hopened]
      rfl
    rw [← halike, hmemory, hanswers]
    simp
  refine ⟨hvalid, hanswers, ?_, fun h => hstrays (hplain.mp h), fun h => hstrays (hlatest h)⟩
  rw [hopened]
  rfl

/-- It is not true that stores in memory and files answer alike through any number of handles: a
handle lengthens a file where it refuses to cut what is in memory. -/
theorem not_forall_answers_alike : ¬ ∀ (label path : String) (files : Table String Content)
    (calls : List DirectoryCall), (∀ c ∈ calls, Valid path c) →
      (runAll calls (unopened (.memory label) files)).1.map shownAnswer =
        (runAll calls (unopened (.folder path) files)).1.map shownAnswer := by
  intro hall
  have hname : Directory.isName "a.bad" = true := by decide
  have hplace (place : Place) : place.refusal? "a.bad" = none :=
    place.refusal?_of_short (by decide) (by decide)
  let cuts := [through 0 (.truncate 0), through 1 (.truncate 1)]
  have halike := hall "mem:" "status" [("a.bad", #[97, 98])]
    (openStore "a.bad" :: openStore "a.bad" :: cuts) (by
      simp only [cuts, List.forall_mem_cons]
      exact ⟨⟨hname, hplace _⟩, ⟨hname, hplace _⟩, trivial, trivial, nofun⟩)
  rw [runAll_openTwice hname (hplace _), runAll_openTwice hname (hplace _)] at halike
  have hmemory : Except.error "InvalidTruncate" = Except.ok StoreValue.done :=
    List.cons.inj (List.cons.inj (List.cons.inj (List.cons.inj halike).2).2).2 |>.1
  cases hmemory

end Mirrors

end DirectoryCall

end TxnEngine
