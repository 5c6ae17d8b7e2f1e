import TxnEngine.Proofs.BadRecords.Sink

/-!
# Recording while calls fail

A recorder with a negative tolerance counts every row, and then tries to report it. If the file cannot
be made, or the line cannot be appended, the row is counted all the same; and if the append is torn,
the half line stays in the file, where the next line that is written continues it.

Results:
* `Recorder.run_record_left`: what becomes of a row, by the answer that it gets.
* `Recorder.lines_flatMap_left`: the lines of a file that holds what rows have left.
* `Recorder.completed_eq_reported_iff`: when these are the lines of the rows that were reported.
* `Recorder.count_eq_lines_iff`: the count is that of the lines exactly if no row was refused.
* `Recorder.not_forall_count_eq_lines`: a row that is refused is counted, and can spoil the next one.
-/

namespace TxnEngine

/-! ## Complete lines -/

namespace Bytes

/-- The complete lines of a byte string, each with its newline. What stands behind the last newline
is not a complete line. -/
def lines : Bytes → List Bytes
  | [] => []
  | b :: rest =>
    if b = newline then [b] :: lines rest
    else
      match lines rest with
      | [] => []
      | first :: others => (b :: first) :: others

theorem lines_of_newline_notMem {bytes : Bytes} (h : newline ∉ bytes) : lines bytes = [] := by
  induction bytes with
  | nil => rfl
  | cons b rest ih =>
    obtain ⟨hb, hrest⟩ := not_or.mp (mt List.mem_cons.mpr h)
    rw [lines, if_neg (Ne.symm hb), ih hrest]

theorem lines_append_newline {front : Bytes} (h : newline ∉ front) (rest : Bytes) :
    lines (front ++ newline :: rest) = (front ++ [newline]) :: lines rest := by
  induction front with
  | nil => rw [List.nil_append, lines, if_pos rfl, List.nil_append]
  | cons b front ih =>
    obtain ⟨hb, hfront⟩ := not_or.mp (mt List.mem_cons.mpr h)
    rw [List.cons_append, lines, if_neg (Ne.symm hb), ih hfront, List.cons_append]

/-- What is written behind the last newline does not complete a line. -/
theorem lines_append_of_newline_notMem (bytes : Bytes) {rest : Bytes} (h : newline ∉ rest) :
    lines (bytes ++ rest) = lines bytes := by
  induction bytes with
  | nil => exact lines_of_newline_notMem h
  | cons b bytes ih => rw [List.cons_append, lines, lines, ih]

theorem newline_mem_ofText_iff (text : String) : newline ∈ ofText text ↔ '\n' ∈ text.toList := by
  rw [← List.count_pos_iff, count_newline_ofText, List.count_pos_iff]

theorem ofText_append (a b : String) : ofText (a ++ b) = ofText a ++ ofText b := by
  rw [ofText_eq_flatMap, ofText_eq_flatMap, ofText_eq_flatMap, String.toList_append,
    List.flatMap_append]

end Bytes

namespace Recorder

open Program

/-! ## Rows and what they leave -/

/-- A row that is recorded: its text and its error code. -/
structure Row where
  text : String
  code : String
deriving DecidableEq

namespace Row

/-- The code has no newline in it. That of an outcome never has
(`OutcomeCode.newline_notMem_errorCode`). -/
def IsLine (x : Row) : Prop := '\n' ∉ x.code.toList

instance : DecidablePred IsLine := fun x => inferInstanceAs (Decidable ('\n' ∉ x.code.toList))

/-- The line that reports the row. -/
def line (x : Row) : Bytes := Bytes.ofText (Recorder.line x.text x.code)

/-- The half of it that a torn append leaves. -/
def half (x : Row) : Bytes := x.line.take (x.line.length / 2)

/-- A line is some bytes in front of its only newline, and the half of it is in front too. -/
theorem line_eq {x : Row} (h : x.IsLine) :
    ∃ body, x.line = body ++ [Bytes.newline] ∧ Bytes.newline ∉ body ∧
      x.half ≠ [] ∧ Bytes.newline ∉ x.half := by
  obtain ⟨body, hbody⟩ : ∃ body, body = Bytes.ofText (x.code ++ " " ++ oneLine x.text) := ⟨_, rfl⟩
  have hline : x.line = body ++ [Bytes.newline] := by
    rw [line, Recorder.line, Bytes.ofText_append, ← hbody, Bytes.ofText_eq_flatMap]
    rfl
  have hnewline : Bytes.newline ∉ body := by
    rw [hbody, Bytes.newline_mem_ofText_iff]
    simp only [String.toList_append, List.mem_append, not_or]
    exact ⟨⟨h, by decide⟩, newline_notMem_oneLine x.text⟩
  have hpos : 0 < body.length := by
    have hspace : (Bytes.ofText " ").length = 1 := by
      rw [Bytes.ofText_eq_flatMap]
      rfl
    rw [hbody, Bytes.ofText_append, Bytes.ofText_append, List.length_append, List.length_append]
    omega
  have hlength : x.line.length = body.length + 1 := by rw [hline, List.length_append]; rfl
  have hhalf : x.half = body.take ((body.length + 1) / 2) := by
    rw [half, hlength, hline, List.take_append_of_le_length (by omega)]
  refine ⟨body, hline, hnewline, ?_, fun hmem => hnewline ?_⟩
  · rw [hhalf, ne_eq, List.take_eq_nil_iff]
    rintro (hzero | hnil)
    · omega
    · rw [hnil] at hpos
      exact absurd hpos (by decide)
  · rw [hhalf] at hmem
    exact List.mem_of_mem_take hmem

end Row

/-- The failure of a torn append. -/
def torn : Error := .storage Primitive.tornAppend.failure

/-- Whether a row was reported, by the answer that it got. -/
def isReported {α : Type} : Except Error α → Bool
  | .ok _ => true
  | .error _ => false

/-- The bytes that a row leaves in the file, by the answer that it got. -/
def left {α : Type} (x : Row) : Except Error α → Bytes
  | .ok _ => x.line
  | .error e => if e = torn then x.half else []

/-- A row that was refused has not completed a line. -/
theorem newline_notMem_left {α : Type} {x : Row} (hx : x.IsLine) {answer : Except Error α}
    (hrefused : isReported answer = false) : Bytes.newline ∉ left x answer := by
  cases answer with
  | ok done => cases hrefused
  | error e =>
    obtain ⟨-, -, -, -, hhalf⟩ := Row.line_eq hx
    rw [left]
    split_ifs
    · exact hhalf
    · exact List.not_mem_nil

/-- The lines that rows with their answers complete, when `carried` bytes of a line are there. -/
def completed (carried : Bytes) : List (Row × Except Error Bool) → List Bytes
  | [] => []
  | (x, .ok _) :: rest => (carried ++ x.line) :: completed [] rest
  | (x, .error e) :: rest => completed (carried ++ if e = torn then x.half else []) rest

/-- The lines of the rows that were reported. -/
def reported : List (Row × Except Error Bool) → List Bytes
  | [] => []
  | (x, .ok _) :: rest => x.line :: reported rest
  | (_, .error _) :: rest => reported rest

section Answers

variable {rows : List (Row × Except Error Bool)}

theorem lines_flatMap_left (hrows : ∀ x ∈ rows, x.1.IsLine) {carried : Bytes}
    (hcarried : Bytes.newline ∉ carried) :
    Bytes.lines (carried ++ rows.flatMap fun x => left x.1 x.2) = completed carried rows := by
  induction rows generalizing carried with
  | nil => simpa [completed] using Bytes.lines_of_newline_notMem hcarried
  | cons head rest ih =>
    obtain ⟨hhead, hrest⟩ := List.forall_mem_cons.mp hrows
    obtain ⟨x, answer⟩ := head
    obtain ⟨body, hline, hbody, -⟩ := Row.line_eq hhead
    rw [List.flatMap_cons]
    cases answer with
    | ok exceeded =>
      have hnext := ih hrest (show Bytes.newline ∉ [] from List.not_mem_nil)
      rw [List.nil_append] at hnext
      rw [completed, left, hline, ← hnext, List.append_assoc body, List.singleton_append,
        ← List.append_assoc, Bytes.lines_append_newline (by simp [hcarried, hbody]),
        List.append_assoc]
    | error e =>
      have hleft : Bytes.newline ∉ left x (.error e : Except Error Bool) :=
        newline_notMem_left hhead rfl
      rw [← List.append_assoc]
      exact ih hrest (by simp [hcarried, hleft])

theorem length_completed (carried : Bytes) (rows : List (Row × Except Error Bool)) :
    (completed carried rows).length = rows.countP fun x => isReported x.2 := by
  induction rows generalizing carried with
  | nil => rfl
  | cons head rest ih =>
    obtain ⟨x, answer⟩ := head
    cases answer with
    | ok exceeded => rw [completed, List.length_cons, ih, List.countP_cons_of_pos rfl]
    | error e => rw [completed, ih, List.countP_cons_of_neg (by simp [isReported])]

/-- The completed lines are those of the rows reported exactly if no half line was continued. -/
theorem completed_eq_reported_iff (hrows : ∀ x ∈ rows, x.1.IsLine) (carried : Bytes) :
    completed carried rows = reported rows ↔
      (carried = [] ∨ ∀ x ∈ rows, isReported x.2 = false) ∧
        rows.Pairwise fun x y => x.2 = .error torn → isReported y.2 = false := by
  induction rows generalizing carried with
  | nil => simp [completed, reported]
  | cons head rest ih =>
    obtain ⟨hhead, hrest⟩ := List.forall_mem_cons.mp hrows
    obtain ⟨x, answer⟩ := head
    obtain ⟨-, -, -, hhalf, -⟩ := Row.line_eq hhead
    rw [List.pairwise_cons]
    cases answer with
    | ok exceeded =>
      rw [completed, reported, List.cons_eq_cons, ih hrest]
      simp [isReported]
    | error e =>
      rw [completed, reported, ih hrest]
      by_cases htorn : e = torn
      · simp only [htorn, if_true, List.append_eq_nil_iff, hhalf, and_false, false_or,
          forall_const, List.mem_cons, forall_eq_or_imp, isReported, true_and]
        exact ⟨fun ⟨hnone, hrest⟩ => ⟨.inr hnone, hnone, hrest⟩, fun ⟨_, hboth⟩ => hboth⟩
      · simp [htorn, isReported]

end Answers

/-! ## Recording a row -/

/-- A recorder that was just made, for a load or for a worker of one: it has counted nothing, and has
no file. -/
structure Unused (r : Recorder) : Prop where
  count : r.count = 0
  sink : r.sink = none
  isOpen : r.isClosed = false

/-- The recorder is not closed, and its file, if it has one, holds these bytes. -/
structure Writing (r : Recorder) (d : Directory) (bytes : Bytes) : Prop where
  isOpen : r.isClosed = false
  unopened : r.sink = none → bytes = []
  opened : ∀ s, r.sink = some s → d.HoldsOpen s bytes

/-- The bytes of the recorder's file, if it has one. -/
def sinkBytes (r : Recorder) (d : Directory) : Bytes :=
  match r.sink with
  | none => []
  | some s => (d.contents? s.name).getD []

variable {r : Recorder} {d : Directory} {bytes : Bytes}

theorem unused_of_new {source : String} {tolerance : Int}
    (h : ((Recorder.new source tolerance).run d).1 = .ok r) : r.Unused := by
  rw [Recorder.new, run_bind] at h
  generalize (reserveFrom _ candidateLimit 0).run d = reserved at h
  obtain ⟨e | name, d'⟩ := reserved <;> cases h
  exact ⟨rfl, rfl, rfl⟩

theorem unused_of_forWorker {parent : Recorder} {worker : String}
    (h : ((parent.forWorker worker).run d).1 = .ok r) : r.Unused := by
  rw [forWorker, run_bind] at h
  generalize (reserveFrom _ candidateLimit 0).run d = reserved at h
  obtain ⟨e | name, d'⟩ := reserved <;> cases h
  exact ⟨rfl, rfl, rfl⟩

theorem Unused.writing (h : r.Unused) (d : Directory) : r.Writing d [] :=
  ⟨h.isOpen, fun _ => rfl, fun s hs => by rw [h.sink] at hs; cases hs⟩

theorem Writing.sinkBytes (h : r.Writing d bytes) : r.sinkBytes d = bytes := by
  unfold Recorder.sinkBytes
  cases hs : r.sink with
  | none => exact (h.unopened hs).symm
  | some s => simp [(h.opened s hs).contents]

/-- A file is made, or it is not, but not because of a torn append. -/
theorem create_made_or_refused (d : Directory) (name : String) :
    (∃ e d', d.create name = (.error e, d') ∧ Error.storage e ≠ torn) ∨
      ∃ s d', d.create name = (.ok s, d') ∧ d'.HoldsOpen s [] := by
  have hrefusal {failure : IoFailure} (h : d.place.refusal? name = some failure) :
      failure ≠ .described ("injected " ++ Primitive.tornAppend.text ++ " failure") := by
    rintro rfl
    generalize d.place = place at h
    cases place with
    | memory label => cases h
    | folder path =>
      rw [Place.refusal?] at h
      split_ifs at h
      · exact absurd (Option.some.inj h) (by decide)
      · cases h
  have hattempt : d.attempt .create =
      ((d.faults.take .create).1, { d with faults := (d.faults.take .create).2 }) := rfl
  rw [Directory.create, hattempt]
  cases (d.faults.take .create).1 with
  | true => exact .inl ⟨_, _, rfl, by decide⟩
  | false =>
    simp only [Directory.createFile, Directory.checkName]
    cases hname : Directory.isName name with
    | false => exact .inl ⟨_, _, rfl, by simp [torn, Primitive.failure]⟩
    | true =>
      simp only [if_true]
      cases hfailure : d.place.refusal? name with
      | some failure =>
        exact .inl ⟨_, _, rfl, by simpa [torn, Primitive.failure] using hrefusal hfailure⟩
      | none =>
        simp only
        split_ifs
        · exact .inl ⟨_, _, rfl, by simp [torn, Primitive.failure]⟩
        · refine .inr ⟨_, _, rfl, ?_, ?_⟩
          · simp [Directory.contents?, Table.find?_insert_self]
          · simp only [Directory.storeOf, Table.findD, Table.find?_insert_self]
            cases d.place <;> rfl

/-- A line is appended to an open file, or half of it is, or nothing. -/
theorem onSink_append_cases {s : Sink} (h : d.HoldsOpen s bytes) (x : Row) :
    (∃ n s' d', d.onSink (fun store => store.append x.line) s = ((.ok n, s'), d') ∧
      d'.HoldsOpen s' (bytes ++ x.line)) ∨
    ∃ e s' d', d.onSink (fun store => store.append x.line) s = ((.error e, s'), d') ∧
      d'.HoldsOpen s' (bytes ++ if Error.storage e = torn then x.half else []) := by
  have happend := Store.append_holding s.handle bytes d.faults x.line
  have htorn : Error.storage Primitive.append.failure ≠ torn := by decide
  simp only at happend
  split_ifs at happend with hfails htears
  · obtain ⟨s', d', hrun, -, -, -, h'⟩ :=
      Directory.onSink_of_holdsOpen (f := fun store => store.append x.line) h happend
    refine .inr ⟨_, s', d', hrun, ?_⟩
    rw [if_neg htorn, List.append_nil]
    exact h'
  · obtain ⟨s', d', hrun, -, -, -, h'⟩ :=
      Directory.onSink_of_holdsOpen (f := fun store => store.append x.line) h happend
    exact .inr ⟨_, s', d', hrun, h'⟩
  · obtain ⟨s', d', hrun, -, -, -, h'⟩ :=
      Directory.onSink_of_holdsOpen (f := fun store => store.append x.line) h happend
    exact .inl ⟨_, s', d', hrun, h'⟩

/-- The line of a row is written, to a file that is made for the first one, as far as the faults let
it. -/
theorem run_writeLine_left (h : r.Writing d bytes) (x : Row) :
    ∃ answer sink d', (r.writeLine (Recorder.line x.text x.code)).run d =
        ((answer, { r with sink }), d') ∧
      ({ r with sink } : Recorder).Writing d' (bytes ++ left x answer) := by
  have hwriting {s : Sink} {d' : Directory} {written : Bytes} (hopen : d'.HoldsOpen s written) :
      ({ r with sink := some s } : Recorder).Writing d' written := by
    refine ⟨h.isOpen, nofun, ?_⟩
    rintro _ ⟨⟩
    exact hopen
  unfold writeLine onSink
  cases hsink : r.sink with
  | some s =>
    obtain ⟨n, s', d', hrun, h'⟩ | ⟨e, s', d', hrun, h'⟩ :=
      onSink_append_cases (h.opened s hsink) x <;> rw [Row.line] at hrun
    · exact ⟨.ok (), some s', d', by simp [hrun], hwriting h'⟩
    · exact ⟨.error (.storage e), some s', d', by simp [hrun], hwriting h'⟩
  | none =>
    obtain rfl := h.unopened hsink
    obtain ⟨e, d₁, hcreate, htorn⟩ | ⟨s, d₁, hcreate, hopen⟩ := create_made_or_refused d r.physicalName
    · refine ⟨.error (.storage e), none, d₁, by simp [hcreate, ← hsink], h.isOpen, ?_, nofun⟩
      intro _
      simp [left, htorn]
    · obtain ⟨n, s', d', hrun, h'⟩ | ⟨e, s', d', hrun, h'⟩ :=
        onSink_append_cases hopen x <;> rw [Row.line] at hrun
      · exact ⟨.ok (), some s', d', by simp [hcreate, hrun], hwriting h'⟩
      · exact ⟨.error (.storage e), some s', d', by simp [hcreate, hrun], hwriting h'⟩

/-- What becomes of a row, if no number of rows exceeds the tolerance: it is counted if there is room
for it, and what is left of it in the file is told by the answer. -/
theorem run_record_left (h : r.Writing d bytes) (hneg : r.tolerance < 0) (x : Row) :
    ∃ answer r' d', (r.record x.text x.code).run d = ((answer, r'), d') ∧
      r'.tolerance = r.tolerance ∧
      r'.count = (if r.count + 1 < UInt64.size then r.count + 1 else r.count) ∧
      r'.Writing d' (bytes ++ left x answer) := by
  rw [record, mergeCount?]
  split_ifs with hroom
  · obtain ⟨counted, hcounted⟩ : ∃ r₁ : Recorder, r₁ = { r with count := r.count + 1 } := ⟨_, rfl⟩
    have hwriting : counted.Writing d bytes := hcounted ▸ ⟨h.isOpen, h.unopened, h.opened⟩
    have htolerance : counted.tolerance = r.tolerance := hcounted ▸ rfl
    have hcount : counted.count = r.count + 1 := hcounted ▸ rfl
    obtain ⟨answer, sink, d', hrun, h'⟩ := run_writeLine_left hwriting x
    obtain ⟨written, hwritten⟩ : ∃ r₂ : Recorder, r₂ = { counted with sink } := ⟨_, rfl⟩
    have hwithin : written.isExceeded = false := by
      have hsign : ¬ 0 ≤ written.tolerance := by
        rw [hwritten, htolerance]
        omega
      simp [isExceeded, exceedsTolerance, hsign]
    rw [← hwritten] at hrun h'
    refine ⟨answer.map fun _ => false, written, d', ?_, hwritten ▸ htolerance, hwritten ▸ hcount, ?_⟩
    · rw [← hcounted]
      unfold report
      cases answer <;> simp [hwriting.isOpen, hrun, hwithin, Except.map]
    · cases answer <;> exact h'
  · refine ⟨.error .outOfRange, r, d, rfl, rfl, rfl, ?_⟩
    have hwhole : Error.outOfRange ≠ torn := by decide
    rw [left, if_neg hwhole, List.append_nil]
    exact h

/-! ## Recording rows -/

/-- Records rows one after the other. -/
def recordAll (r : Recorder) : List Row → Program Directory (List (Except Error Bool) × Recorder)
  | [] => return ([], r)
  | x :: rest => do
    let (answer, r) ← r.record x.text x.code
    let (answers, r) ← r.recordAll rest
    return (answer :: answers, r)

/-- Behind any rows the file holds what they have left. -/
theorem run_recordAll_left (h : r.Writing d bytes) (hneg : r.tolerance < 0)
    (hroom : r.count < UInt64.size) (rows : List Row) :
    ∃ answers r' d', (r.recordAll rows).run d = ((answers, r'), d') ∧
      answers.length = rows.length ∧
      r'.count = min (r.count + rows.length) (UInt64.size - 1) ∧
      r'.tolerance = r.tolerance ∧
      r'.Writing d' (bytes ++ (rows.zip answers).flatMap fun x => left x.1 x.2) := by
  generalize hlimit : UInt64.size = limit at hroom ⊢
  induction rows generalizing r d bytes with
  | nil =>
    refine ⟨[], r, d, rfl, rfl, ?_, rfl, by simpa using h⟩
    rw [List.length_nil]
    omega
  | cons x rest ih =>
    obtain ⟨answer, r₁, d₁, hrun, htolerance, hcount, h₁⟩ := run_record_left h hneg x
    rw [hlimit] at hcount
    have hroom₁ : r₁.count < limit := by
      rw [hcount]
      split_ifs <;> omega
    obtain ⟨answers, r₂, d₂, hrest, hlength, hcount₂, htolerance₂, h₂⟩ :=
      ih h₁ (by rw [htolerance]; exact hneg) hroom₁
    refine ⟨answer :: answers, r₂, d₂, ?_, by rw [List.length_cons, List.length_cons, hlength],
      ?_, htolerance₂.trans htolerance, ?_⟩
    · rw [recordAll]
      simp only [run_bind, hrun, hrest, run_pure]
    · rw [hcount₂, hcount, List.length_cons]
      split_ifs <;> omega
    · rw [List.zip_cons_cons, List.flatMap_cons, ← List.append_assoc]
      exact h₂

/-- If no call fails and the name is free, all rows are reported. -/
theorem run_recordAll_of_holds {file : Option Bytes} (h : r.Holds d file) {rows : List Row}
    (hroom : r.count + rows.length < UInt64.size) :
    ∀ answer ∈ ((r.recordAll rows).run d).1.1, isReported answer = true := by
  generalize hlimit : UInt64.size = limit at hroom
  induction rows generalizing r d file with
  | nil => exact fun _ hmem => absurd hmem List.not_mem_nil
  | cons x rest ih =>
    rw [List.length_cons] at hroom
    obtain ⟨r', d', hrun, ⟨sink, hr'⟩, -, h'⟩ :=
      run_record h (by rw [hlimit]; omega) x.text x.code
    have hrest := ih h' (by rw [hr']; simp only; omega)
    rw [recordAll]
    simp only [run_bind, hrun, run_pure, List.forall_mem_cons]
    exact ⟨rfl, hrest⟩

/-- Behind any rows that are recorded while the directory and its stores fail at will:
* every row is counted, as far as 64 bits go, but there are only as many lines in the file as rows
  were reported;
* the lines are those of the rows reported, in their order, exactly if none was reported behind a
  torn append;
* so the count is that of the lines exactly if no row was refused;
* a row that is refused next leaves the lines as they are, and is counted;
* none is refused if no call fails and the file's name is free. -/
theorem count_eq_lines_iff {r : Recorder} (hunused : r.Unused) (hneg : r.tolerance < 0)
    (d : Directory) {rows : List Row} (hlines : ∀ x ∈ rows, x.IsLine) :
    let done := (r.recordAll rows).run d
    let answers := done.1.1
    let lines := Bytes.lines (done.1.2.sinkBytes done.2)
    answers.length = rows.length ∧
      done.1.2.count = min rows.length (UInt64.size - 1) ∧
      lines.length = answers.countP isReported ∧
      (lines = reported (rows.zip answers) ↔
        (rows.zip answers).Pairwise fun x y => x.2 = .error torn → isReported y.2 = false) ∧
      (rows.length < UInt64.size →
        (done.1.2.count = lines.length ↔ ∀ answer ∈ answers, isReported answer = true)) ∧
      (∀ x : Row, x.IsLine →
        let next := (done.1.2.record x.text x.code).run done.2
        isReported next.1.1 = false → Bytes.lines (next.1.2.sinkBytes next.2) = lines ∧
          next.1.2.count = min (rows.length + 1) (UInt64.size - 1)) ∧
      (r.Holds d none → rows.length < UInt64.size →
        ∀ answer ∈ answers, isReported answer = true) := by
  intro done answers lines
  obtain ⟨answers', r', d', hrun, hlength, hcount, htolerance, hwriting⟩ :=
    run_recordAll_left (hunused.writing d) hneg (by rw [hunused.count]; decide) rows
  obtain rfl : answers' = answers := by simp only [answers, done, hrun]
  have hr' : done.1.2 = r' := by simp only [done, hrun]
  have hd' : done.2 = d' := by simp only [done, hrun]
  rw [List.nil_append] at hwriting
  rw [hunused.count, Nat.zero_add] at hcount
  have hzip : ∀ x ∈ rows.zip answers, x.1.IsLine := fun x hx =>
    hlines x.1 (List.of_mem_zip hx).1
  have hcompleted : lines = completed [] (rows.zip answers) := by
    have h := lines_flatMap_left hzip (show Bytes.newline ∉ [] from List.not_mem_nil)
    rw [List.nil_append] at h
    rw [← h]
    simp only [lines, hr', hd', hwriting.sinkBytes]
  have hnumber : lines.length = answers.countP isReported := by
    calc
      lines.length = (rows.zip answers).countP fun x => isReported x.2 := by
        rw [hcompleted, length_completed]
      _ = ((rows.zip answers).map Prod.snd).countP isReported := by
        rw [List.countP_map]
        rfl
      _ = answers.countP isReported := by rw [List.map_snd_zip (Nat.le_of_eq hlength)]
  refine ⟨hlength, hr' ▸ hcount, hnumber, ?_, fun hroom => ?_, ?_, fun hholds hroom => ?_⟩
  · rw [hcompleted, completed_eq_reported_iff hzip []]
    simp
  · rw [hr', hcount, hnumber, Nat.min_eq_left (by omega), ← hlength, eq_comm,
      List.countP_eq_length]
  · intro x hx next hrefused
    obtain ⟨answer, r₁, d₁, hnext, -, hcount₁, hwriting₁⟩ :=
      run_record_left hwriting (by rw [htolerance]; exact hneg) x
    simp only [next, hr', hd', hnext] at hrefused ⊢
    constructor
    · simp only [lines, hr', hd', hwriting.sinkBytes, hwriting₁.sinkBytes]
      exact Bytes.lines_append_of_newline_notMem _ (newline_notMem_left hx hrefused)
    · rw [hcount₁, hcount]
      generalize UInt64.size = limit
      split_ifs <;> omega
  · exact run_recordAll_of_holds hholds (by rw [hunused.count, Nat.zero_add]; exact hroom)

/-! The file cannot be made for the first row, and the append of the second one is torn. -/

def faultyDirectory : Directory :=
  { Directory.memory "mem:" with faults := (Faults.none.add .create 1).add .tornAppend 1 }

def ordersRecorder : Recorder := ⟨"orders.bad", "orders.bad", -1, 0, none, false⟩

def orderRows : List Row := [⟨"1,a", "UNIQUE"⟩, ⟨"2,b", "CHECK"⟩, ⟨"3,c", "NOT_NULL"⟩]

/-- All three rows are counted, and one of them makes a line. -/
theorem count_eq_lines_iff_orderRows :
    ((Recorder.new "orders.csv" (-1)).run faultyDirectory).1 = .ok ordersRecorder ∧
      (∀ x ∈ orderRows, x.IsLine) ∧
      let done := (ordersRecorder.recordAll orderRows).run faultyDirectory
      done.1.2.count = 3 ∧ (Bytes.lines (done.1.2.sinkBytes done.2)).length = 1 := by
  have hmade : ((Recorder.new "orders.csv" (-1)).run faultyDirectory).1 = .ok ordersRecorder :=
    rfl
  have hlines : ∀ x ∈ orderRows, x.IsLine := by decide
  obtain ⟨-, hcount, hnumber, -⟩ :=
    count_eq_lines_iff (unused_of_new hmade) (by decide) faultyDirectory hlines
  exact ⟨hmade, hlines, hcount.trans (by decide +kernel), hnumber.trans (by decide +kernel)⟩

/-- The count is not always that of the lines, and these are not always those of the rows that were
reported. -/
theorem not_forall_count_eq_lines :
    (¬∀ (r : Recorder) (d : Directory) (rows : List Row), r.Unused → r.tolerance < 0 →
      (∀ x ∈ rows, x.IsLine) →
      let done := (r.recordAll rows).run d
      done.1.2.count = (Bytes.lines (done.1.2.sinkBytes done.2)).length) ∧
    ¬∀ (r : Recorder) (d : Directory) (rows : List Row), r.Unused → r.tolerance < 0 →
      (∀ x ∈ rows, x.IsLine) →
      let done := (r.recordAll rows).run d
      Bytes.lines (done.1.2.sinkBytes done.2) = reported (rows.zip done.1.1) := by
  have hunused : ordersRecorder.Unused := ⟨rfl, rfl, rfl⟩
  constructor
  · intro hall
    exact absurd (hall ordersRecorder faultyDirectory orderRows hunused (by decide) (by decide))
      (by decide +kernel)
  · intro hall
    exact absurd (hall ordersRecorder faultyDirectory orderRows hunused (by decide) (by decide))
      (by decide +kernel)

end Recorder

end TxnEngine
