import Mathlib.Tactic.SplitIfs
import TxnEngine.BadRecords

/-!
# The file of a recorder

Over a directory without faults the file of a recorder is in step with it: there is none before the
first row, every row adds one line, and once the tolerance is exceeded the file is left as it is.

Results:
* `count_newline_line`: a line has one newline byte, at its end, whatever the text of the row.
* `Recorder.Holds`: the file of a recorder is in step with it.
* `Recorder.run_record`: what is recorded.
* `Recorder.Fresh.holds`: a recorder that was just made has no file.
-/

namespace TxnEngine

/-! ## Newlines in UTF-8 -/

/-- The newline byte. -/
def Bytes.newline : UInt8 := 10

theorem Bytes.toList_loop (bytes : ByteArray) (i : Nat) (front : List UInt8) :
    ByteArray.toList.loop bytes i front = front.reverse ++ bytes.data.toList.drop i := by
  fun_induction ByteArray.toList.loop bytes i front with
  | case1 i front hi ih =>
    have hi : i < bytes.data.toList.length := by simpa using hi
    have hget : bytes.get! i = bytes.data.toList[i] := by
      simpa [ByteArray.get!] using getElem!_pos bytes.data i hi
    rw [ih, List.drop_eq_getElem_cons hi, hget]
    simp
  | case2 i front hi =>
    have hi : bytes.data.toList.length ≤ i := by simpa using hi
    rw [List.drop_eq_nil_of_le hi, List.append_nil]

theorem Bytes.ofText_eq_flatMap (text : String) :
    ofText text = text.toList.flatMap String.utf8EncodeChar := by
  rw [ofText, ByteArray.toList, toList_loop, String.toUTF8, ← String.utf8Encode_toList]
  simp [List.utf8Encode]

/-- Bytes that carry on a character, or start one outside of ASCII, have their highest bit set. -/
theorem Bytes.newline_notMem_utf8EncodeChar {c : Char} (hc : c ≠ '\n') :
    newline ∉ String.utf8EncodeChar c := by
  have hval : c.val.toNat ≠ 10 := fun h => hc (Char.ext (UInt32.toNat_inj.mp h))
  have hhigh {n : Nat} (hn : n % 256 ≠ 10) : newline ≠ UInt8.ofNat n := by
    intro heq
    have htoNat := congrArg UInt8.toNat heq
    rw [UInt8.toNat_ofNat'] at htoNat
    exact hn htoNat.symm
  unfold String.utf8EncodeChar
  simp only
  split_ifs <;> simp only [List.mem_cons, List.not_mem_nil, or_false, not_or]
  · exact hhigh (by omega)
  · exact ⟨hhigh (by omega), hhigh (by omega)⟩
  · exact ⟨hhigh (by omega), hhigh (by omega), hhigh (by omega)⟩
  · exact ⟨hhigh (by omega), hhigh (by omega), hhigh (by omega), hhigh (by omega)⟩

/-- A text has as many newline bytes as newlines. -/
theorem Bytes.count_newline_ofText (text : String) :
    (ofText text).count newline = text.toList.count '\n' := by
  rw [ofText_eq_flatMap]
  induction text.toList with
  | nil => rfl
  | cons c rest ih =>
    rw [List.flatMap_cons, List.count_append, ih, List.count_cons]
    by_cases hc : c = '\n'
    · subst hc
      rw [if_pos (by decide), Nat.add_comm]
      rfl
    · rw [List.count_eq_zero.mpr (newline_notMem_utf8EncodeChar hc), if_neg (by simpa using hc),
        Nat.zero_add, Nat.add_zero]

theorem OutcomeCode.newline_notMem_errorCode (code : OutcomeCode) :
    '\n' ∉ code.errorCode.toList := by
  cases code with
  | constraint kind => cases kind <;> decide
  | _ => decide

namespace Directory

/-! ## Open stores -/

/-- A store of the directory holds the bytes, and is open through a handle that knows them, whatever
calls are going to fail. -/
structure HoldsOpen (d : Directory) (s : Sink) (bytes : Bytes) : Prop where
  contents : d.contents? s.name = some bytes
  store : d.storeOf s = .holding s.handle bytes d.faults

/-- A store of the directory holds the bytes, and is open through a handle that knows them. No call
of the directory fails. -/
structure Opens (d : Directory) (s : Sink) (bytes : Bytes) : Prop where
  contents : d.contents? s.name = some bytes
  store : d.storeOf s = .holding s.handle bytes .none

variable {d : Directory} {s : Sink} {bytes bytes' : Bytes}

theorem Opens.faultless (h : d.Opens s bytes) : d.faults = .none :=
  congrArg Store.faults h.store

theorem Opens.holdsOpen (h : d.Opens s bytes) : d.HoldsOpen s bytes :=
  ⟨h.contents, by rw [h.faultless]; exact h.store⟩

theorem HoldsOpen.opens (h : d.HoldsOpen s bytes) (hfaults : d.faults = .none) : d.Opens s bytes :=
  ⟨h.contents, by rw [← hfaults]; exact h.store⟩

/-- What an operation of a store does to an open one. -/
theorem onSink_of_holdsOpen {α : Type} {f : Store → α × Store} {answer : α} {faults : Faults}
    (h : d.HoldsOpen s bytes)
    (hf : f (.holding s.handle bytes d.faults) = (answer, .holding s.handle bytes' faults)) :
    ∃ s' d', d.onSink f s = ((answer, s'), d') ∧ s'.name = s.name ∧ d'.place = d.place ∧
      d'.faults = faults ∧ d'.HoldsOpen s' bytes' := by
  have hrun : d.onSink f s = ((answer, (d.putStore s (.holding s.handle bytes' faults)).1),
      (d.putStore s (.holding s.handle bytes' faults)).2) := by
    rw [onSink, h.store, hf]
  refine ⟨_, _, hrun, rfl, rfl, rfl, ?_, ?_⟩
  · simp [contents?, putStore, Store.holding, Table.find?_insert_self]
  · simp [storeOf, putStore, Store.holding, Table.findD, Table.find?_insert_self]

/-- What it does to an open one if no call fails. -/
theorem onSink_of_opens {α : Type} {f : Store → α × Store} {answer : α} (h : d.Opens s bytes)
    (hf : f (.holding s.handle bytes .none) = (answer, .holding s.handle bytes' .none)) :
    ∃ s' d', d.onSink f s = ((answer, s'), d') ∧ s'.name = s.name ∧ d'.place = d.place ∧
      d'.Opens s' bytes' := by
  rw [← h.faultless] at hf
  obtain ⟨s', d', hrun, hname, hplace, hfaults, hopen⟩ := onSink_of_holdsOpen h.holdsOpen hf
  exact ⟨s', d', hrun, hname, hplace, hopen.opens (hfaults.trans h.faultless)⟩

/-- What it is to create a store that is not there. -/
theorem create_of_absent {name : String} (hfaults : d.faults = .none) (hname : isName name = true)
    (haccepted : d.place.refusal? name = none) (habsent : d.contents? name = none) :
    ∃ s d', d.create name = (.ok s, d') ∧ s.name = name ∧ d'.place = d.place ∧ d'.Opens s [] := by
  have habsent : d.present name = false := by
    simpa [present, Table.has, contents?] using habsent
  have hcreate : d.create name = (.ok ⟨name, d.place.opening #[]⟩,
      { d with files := d.files.insert name #[], faults := .none }) := by
    rw [create, attempt, hfaults, Faults.take_none]
    simp only [createFile, checkName, hname, if_true]
    rw [haccepted]
    simp only
    rw [present] at habsent
    rw [present, habsent]
    simp
  refine ⟨_, _, hcreate, rfl, rfl, ?_, ?_⟩
  · simp [contents?, Table.find?_insert_self]
  · simp only [storeOf, Table.findD, Table.find?_insert_self]
    cases d.place <;> rfl

/-- A name is refused, is taken, or is reserved and nothing else is changed. -/
theorem reserveName_cases (d : Directory) (name : String) :
    (∃ e, d.reserveName name = (.error e, d)) ∨ d.reserveName name = (.ok false, d) ∨
      (isName name = true ∧ d.contents? name = none ∧
        d.reserveName name = (.ok true, { d with reserved := name :: d.reserved })) := by
  unfold reserveName checkName
  by_cases hname : isName name = true
  · by_cases htaken : name ∈ d.reserved || d.present name
    · exact .inr (.inl (by simp only [hname, if_true, htaken]))
    · refine .inr (.inr ⟨hname, ?_, by simp only [hname, if_true, htaken]; rfl⟩)
      have habsent : d.present name = false := by
        simp only [Bool.or_eq_true, not_or] at htaken
        simpa using htaken.2
      simpa [present, Table.has, contents?] using habsent
  · exact .inl ⟨.invalidName name, by simp [hname]⟩

theorem reserve_of_faultless (hfaults : d.faults = .none) (name : String) :
    d.reserve name = d.reserveName name := by
  have hsame : ({ d with faults := .none } : Directory) = d := by rw [← hfaults]
  rw [reserve, attempt, hfaults, Faults.take_none]
  simp only
  rw [hsame]

end Directory

namespace Recorder

open Program

/-! ## Lines -/

theorem newline_notMem_oneLine (text : String) : '\n' ∉ (oneLine text).toList := by
  rw [oneLine, String.toList_ofList, List.mem_flatMap]
  rintro ⟨c, -, hc⟩
  split_ifs at hc with hnew
  · simp at hc
  · exact hnew (List.mem_singleton.mp hc).symm

/-- A line is a single one, whatever the text of its row. -/
theorem count_newline_line (text : String) (code : OutcomeCode) :
    (Bytes.ofText (line text code.errorCode)).count Bytes.newline = 1 := by
  rw [Bytes.count_newline_ofText, line]
  simp only [String.toList_append, List.count_append]
  rw [List.count_eq_zero.mpr code.newline_notMem_errorCode,
    List.count_eq_zero.mpr (newline_notMem_oneLine text)]
  rfl

/-! ## The file -/

/-- The recorder's file has these bytes, or is not there, and the recorder can go on. No call of the
directory fails, and the file's name is one that the directory takes. -/
structure Holds (r : Recorder) (d : Directory) (file : Option Bytes) : Prop where
  faultless : d.faults = .none
  isName : Directory.isName r.physicalName = true
  accepted : d.place.refusal? r.physicalName = none
  contents : d.contents? r.physicalName = file
  unopened : r.sink = none → r.isClosed = false → file = none
  opened : ∀ s, r.sink = some s → r.isClosed = false ∧ s.name = r.physicalName ∧
    ∃ bytes, file = some bytes ∧ d.Opens s bytes

variable {r : Recorder} {d : Directory} {file : Option Bytes}

/-- The number of rows has nothing to do with the file. -/
theorem Holds.counted (h : r.Holds d file) (count : Nat) :
    ({ r with count } : Recorder).Holds d file :=
  ⟨h.faultless, h.isName, h.accepted, h.contents, h.unopened, h.opened⟩

/-- A recorder whose file was just written to. -/
theorem Holds.written (h : r.Holds d file) (hopen : r.isClosed = false) {s : Sink} {d' : Directory}
    {bytes : Bytes} (hname : s.name = r.physicalName) (hplace : d'.place = d.place)
    (hopens : d'.Opens s bytes) : ({ r with sink := some s } : Recorder).Holds d' (some bytes) := by
  refine ⟨hopens.faultless, h.isName, hplace ▸ h.accepted, hname ▸ hopens.contents, nofun, ?_⟩
  rintro _ ⟨⟩
  exact ⟨hopen, hname, bytes, rfl, hopens⟩

/-- A row is written to the file, which is created for the first one. -/
theorem run_writeLine (h : r.Holds d file) (hopen : r.isClosed = false) (line : String) :
    ∃ s d', (r.writeLine line).run d = ((.ok (), { r with sink := some s }), d') ∧
      d'.place = d.place ∧
      ({ r with sink := some s } : Recorder).Holds d'
        (some (file.getD [] ++ Bytes.ofText line)) := by
  have happend (handle : Handle) (bytes : Bytes) :
      (Store.holding handle bytes .none).append (Bytes.ofText line) =
        (.ok bytes.length, .holding handle (bytes ++ Bytes.ofText line) .none) := by
    rw [Store.append_holding]
    simp
  unfold writeLine onSink
  cases hsink : r.sink with
  | some s =>
    obtain ⟨-, hname, bytes, rfl, hopens⟩ := h.opened s hsink
    obtain ⟨s', d', hrun, hname', hplace, hopens'⟩ :=
      Directory.onSink_of_opens (f := fun store => store.append (Bytes.ofText line)) hopens
        (happend s.handle bytes)
    refine ⟨s', d', ?_, hplace, h.written hopen (hname'.trans hname) hplace hopens'⟩
    simp [hrun]
  | none =>
    obtain rfl := h.unopened hsink hopen
    obtain ⟨s, d₁, hcreate, hname, hplace, hopens⟩ :=
      Directory.create_of_absent h.faultless h.isName h.accepted h.contents
    obtain ⟨s', d', hrun, hname', hplace', hopens'⟩ :=
      Directory.onSink_of_opens (f := fun store => store.append (Bytes.ofText line)) hopens
        (happend s.handle [])
    refine ⟨s', d', ?_, hplace'.trans hplace,
      h.written hopen (hname'.trans hname) (hplace'.trans hplace) hopens'⟩
    simp [hcreate, hrun]

/-- A file that is closed keeps its bytes. -/
theorem run_close (h : r.Holds d file) :
    ∃ d', r.close.run d = ((.ok (), { r with isClosed := true, sink := none }), d') ∧
      d'.place = d.place ∧
      ({ r with isClosed := true, sink := none } : Recorder).Holds d' file := by
  unfold close onSink
  cases hsink : r.sink with
  | none =>
    exact ⟨d, rfl, rfl, h.faultless, h.isName, h.accepted, h.contents, nofun, nofun⟩
  | some s =>
    obtain ⟨-, hname, bytes, rfl, hopens⟩ := h.opened s hsink
    obtain ⟨s₁, d₁, hflush, hname₁, hplace₁, hopens₁⟩ :=
      Directory.onSink_of_opens hopens (Store.flush_holding s.handle bytes)
    obtain ⟨s₂, d₂, hsync, hname₂, hplace₂, hopens₂⟩ :=
      Directory.onSink_of_opens hopens₁ (Store.sync_holding s₁.handle bytes)
    have hname₂ : s₂.name = r.physicalName := hname₂.trans (hname₁.trans hname)
    have hplace₂ : d₂.place = d.place := hplace₂.trans hplace₁
    refine ⟨d₂, ?_, hplace₂, hopens₂.faultless, h.isName, hplace₂ ▸ h.accepted,
      hname₂ ▸ hopens₂.contents, nofun, nofun⟩
    simp [hflush, hsync]

/-- The report of a row that was counted: it is written unless the file is closed already. The row
that exceeds the tolerance is the last one in the file. -/
theorem run_report (h : r.Holds d file) (text code : String) :
    ∃ r' d', (r.report text code).run d = ((.ok r.isExceeded, r'), d') ∧
      (∃ sink, r' = { r with sink, isClosed := r.isClosed || r.isExceeded }) ∧
      d'.place = d.place ∧
      r'.Holds d' (if r.isClosed then file
        else some (file.getD [] ++ Bytes.ofText (line text code))) := by
  unfold report
  by_cases hclosed : r.isClosed = true
  · refine ⟨r, d, ?_, ⟨r.sink, ?_⟩, rfl, ?_⟩
    · simp [hclosed]
    · rw [hclosed, Bool.true_or, ← hclosed]
    · rwa [if_pos hclosed]
  rw [if_neg hclosed, if_neg hclosed, run_bind]
  rw [Bool.not_eq_true] at hclosed
  obtain ⟨s, d₁, hwrite, hplace₁, hholds₁⟩ := run_writeLine h hclosed (line text code)
  obtain ⟨r₁, hr₁⟩ : ∃ r₁ : Recorder, r₁ = { r with sink := some s } := ⟨_, rfl⟩
  have hclosed₁ : r₁.isClosed = false := hr₁ ▸ hclosed
  have hsame : r₁.isExceeded = r.isExceeded := hr₁ ▸ rfl
  rw [← hr₁] at hwrite hholds₁
  rw [hwrite]
  cases hexceeded : r.isExceeded with
  | false =>
    refine ⟨r₁, d₁, ?_, ⟨some s, ?_⟩, hplace₁, hholds₁⟩
    · simp [hsame, hexceeded]
    · simp [hr₁]
  | true =>
    obtain ⟨d₂, hclose, hplace₂, hholds₂⟩ := run_close hholds₁
    refine ⟨_, d₂, ?_, ⟨none, ?_⟩, hplace₂.trans hplace₁, hholds₂⟩
    · simp [hsame, hexceeded, hclose, hclosed₁]
    · simp [hr₁]

/-- What is recorded of a row: it is counted and reported. -/
theorem run_record (h : r.Holds d file) (hroom : r.count + 1 < UInt64.size) (text code : String) :
    ∃ r' d', (r.record text code).run d =
        ((.ok (exceedsTolerance (r.count + 1) r.tolerance), r'), d') ∧
      (∃ sink, r' = { r with
        count := r.count + 1, sink,
        isClosed := r.isClosed || exceedsTolerance (r.count + 1) r.tolerance }) ∧
      d'.place = d.place ∧
      r'.Holds d' (if r.isClosed then file
        else some (file.getD [] ++ Bytes.ofText (line text code))) := by
  have hrecord : r.record text code =
      ({ r with count := r.count + 1 } : Recorder).report text code := by
    rw [record, mergeCount?, if_pos hroom]
  rw [hrecord]
  exact run_report (h.counted (r.count + 1)) text code

/-! ## Fresh recorders -/

/-- A recorder that was just made for a load, or for a worker of one, in a directory whose calls do
not fail. -/
inductive Fresh (r : Recorder) (d : Directory) : Prop where
  | ofLoad {d₀ : Directory} {source : String} {tolerance : Int} (hfaults : d₀.faults = .none)
    (hrun : (Recorder.new source tolerance).run d₀ = (.ok r, d))
  | ofWorker {d₀ : Directory} {parent : Recorder} {worker : String} (hfaults : d₀.faults = .none)
    (hrun : (parent.forWorker worker).run d₀ = (.ok r, d))

/-- A name that was reserved is one, and there is no store of that name. -/
theorem run_reserveFrom {candidate : Nat → String} {d d' : Directory} {name : String}
    (hfaults : d.faults = .none) {fuel n : Nat}
    (hrun : (reserveFrom candidate fuel n).run d = (.ok name, d')) :
    Directory.isName name = true ∧ d'.contents? name = none ∧ d'.faults = .none := by
  induction fuel generalizing n with
  | zero => cases hrun
  | succ fuel ih =>
    rw [reserveFrom, run_bind, run_atomically, Directory.reserve_of_faultless hfaults] at hrun
    obtain ⟨e, he⟩ | hfalse | ⟨hname, habsent, htrue⟩ :=
      Directory.reserveName_cases d (candidate n)
    · rw [he] at hrun
      cases hrun
    · rw [hfalse] at hrun
      exact ih hrun
    · rw [htrue] at hrun
      cases hrun
      exact ⟨hname, habsent, hfaults⟩

/-- A recorder that was just made has no file, and has counted nothing. -/
theorem Fresh.holds (h : r.Fresh d) (haccepted : d.place.refusal? r.physicalName = none) :
    r.Holds d none ∧ r.count = 0 ∧ r.isClosed = false := by
  have hnew {candidate : Nat → String} {d₀ : Directory} {name logical : String} {tolerance : Int}
      (hfaults : d₀.faults = .none)
      (hrun : (reserveFrom candidate candidateLimit 0).run d₀ = (.ok name, d))
      (hr : r = ⟨logical, name, tolerance, 0, none, false⟩) :
      r.Holds d none ∧ r.count = 0 ∧ r.isClosed = false := by
    obtain ⟨hname, habsent, hfaultless⟩ := run_reserveFrom hfaults hrun
    subst hr
    exact ⟨⟨hfaultless, hname, haccepted, habsent, fun _ _ => rfl, nofun⟩, rfl, rfl⟩
  cases h with
  | ofLoad hfaults hrun =>
    rw [Recorder.new, run_bind] at hrun
    generalize hreserved : (reserveFrom _ candidateLimit 0).run _ = reserved at hrun
    obtain ⟨e | name, d'⟩ := reserved
    · cases hrun
    · cases hrun
      exact hnew hfaults hreserved rfl
  | ofWorker hfaults hrun =>
    rw [Recorder.forWorker, run_bind] at hrun
    generalize hreserved : (reserveFrom _ candidateLimit 0).run _ = reserved at hrun
    obtain ⟨e | name, d'⟩ := reserved
    · cases hrun
    · cases hrun
      exact hnew hfaults hreserved rfl

end Recorder

end TxnEngine
