import Mathlib.Algebra.Ring.Nat
import TxnEngine.Proofs.BadRecords.Sink
import TxnEngine.Proofs.Pipeline.Accounting
import TxnEngine.Proofs.Pipeline.Pauses

/-!
# What becomes of a row

A substrate that answers every call row by row has a script for each row. What becomes of a row
should depend on its own script only: attempts are made at it until one meets an outcome that is not
worth another. Here this is shown of a whole batch of rows with different keys, which shares its
calls, its pending rows and its counts.

Results:
* `Script.tries`, `Script.fate`, `Script.busy`: a row on its own.
* `ScriptedSubstrate.answerRows_of_nodup`: a call answers each row by the head of its script.
* `run_attempt_of_error`, `run_attempt_of_cancel`, `run_attempt_of_answers`: an attempt by the answer
  to its call.
* `Reached.attempt`: what one attempt at the pending rows does to every row.
* `run_of_unhindered`: what a batch does to every row.
-/

namespace TxnEngine

/-! ## A row on its own -/

namespace Script

/-- The outcome that attempt number `k` at a row meets: an entry of its script, and success from the
end of the script on. -/
def reply (script : List Outcome) (k : Nat) : Outcome :=
  script.getD k .success

/-- The first of `limit` attempts whose outcome is not worth another one. -/
def decisive? (limit : Nat) (script : List Outcome) : Option Nat :=
  (List.range limit).find? fun k => !(reply script k).canRetry

/-- How many attempts are made at a row, of at most `limit`. -/
def tries (limit : Nat) (script : List Outcome) : Nat :=
  match decisive? limit script with
  | some k => k + 1
  | none => limit

/-- The last outcome of a row. -/
def fate (limit : Nat) (script : List Outcome) : Outcome :=
  reply script (tries limit script - 1)

/-- How many entries of the script that the attempts met say that the receiving side was
overloaded. -/
def busy (limit : Nat) (script : List Outcome) : Nat :=
  (script.take (tries limit script)).countP Outcome.isBusy

/-- How many attempts are made at rows with the given scripts that are sent together, if at most
`limit` are made at each. -/
def rounds (limit : Nat) (scripts : List (List Outcome)) : Nat :=
  (scripts.map (tries limit)).foldr max 0

/-- Whether the row is still pending behind a number of attempts. -/
def isOpen (made : Nat) (script : List Outcome) : Bool :=
  (decisive? made script).isNone

variable {m n : Nat} {script : List Outcome}

theorem decisive?_succ (m : Nat) (script : List Outcome) :
    decisive? (m + 1) script =
      (decisive? m script).or (if (reply script m).canRetry then none else some m) := by
  rw [decisive?, List.range_succ, List.find?_append]
  cases h : (reply script m).canRetry <;> simp [decisive?, h]

theorem isOpen_succ (m : Nat) (script : List Outcome) :
    isOpen (m + 1) script = (isOpen m script && (reply script m).canRetry) := by
  rw [isOpen, isOpen, decisive?_succ]
  cases decisive? m script <;> cases (reply script m).canRetry <;> rfl

theorem tries_of_isOpen (h : isOpen m script = true) : tries m script = m := by
  rw [tries, Option.isNone_iff_eq_none.mp h]

/-- One more attempt is made at a row that is open, whatever it meets. -/
theorem tries_succ_of_isOpen (h : isOpen m script = true) : tries (m + 1) script = m + 1 := by
  rw [tries, decisive?_succ, Option.isNone_iff_eq_none.mp h]
  cases (reply script m).canRetry <;> rfl

/-- What decided a row decides it for good. -/
theorem decisive?_of_some {k : Nat} (h : decisive? m script = some k) (hle : m ≤ n) :
    decisive? n script = some k := by
  induction hle with
  | refl => exact h
  | step _ ih => rw [decisive?_succ, ih, Option.some_or]

/-- No more attempts are made at a row that is not open. -/
theorem of_not_isOpen (h : isOpen m script = false) (hle : m ≤ n) :
    decisive? n script = decisive? m script ∧ tries n script = tries m script := by
  obtain ⟨k, hk⟩ : ∃ k, decisive? m script = some k :=
    Option.isSome_iff_exists.mp (by simpa [isOpen] using h)
  have hn := decisive?_of_some hk hle
  rw [tries, tries, hk, hn]
  exact ⟨rfl, rfl⟩

theorem isOpen_of_le (h : isOpen n script = true) (hle : m ≤ n) : isOpen m script = true := by
  by_contra hm
  rw [Bool.not_eq_true] at hm
  rw [isOpen, (of_not_isOpen hm hle).1] at h
  exact Bool.false_ne_true (hm.symm.trans h)

theorem tries_le (n : Nat) (script : List Outcome) : tries n script ≤ n := by
  rw [tries]
  cases h : decisive? n script with
  | none => exact Nat.le_refl n
  | some k => exact List.mem_range.mp (List.mem_of_find?_eq_some h)

theorem tries_mono (script : List Outcome) (hle : m ≤ n) : tries m script ≤ tries n script := by
  induction hle with
  | refl => exact Nat.le_refl _
  | @step n _ ih =>
    refine Nat.le_trans ih ?_
    cases hopen : isOpen n script with
    | true =>
      rw [tries_of_isOpen hopen, tries_succ_of_isOpen hopen]
      exact Nat.le_succ n
    | false => exact Nat.le_of_eq (of_not_isOpen hopen (Nat.le_succ n)).2.symm

theorem lt_rounds_iff {limit k : Nat} {scripts : List (List Outcome)} :
    k < rounds limit scripts ↔ ∃ script ∈ scripts, k < tries limit script := by
  induction scripts with
  | nil => simp [rounds]
  | cons script rest ih =>
    rw [List.exists_mem_cons_iff, ← ih]
    change k < max (tries limit script) (rounds limit rest) ↔ _
    omega

/-- An attempt is made at a row that is open. -/
theorem lt_tries_of_isOpen (h : isOpen m script = true) (hlt : m < n) : m < tries n script := by
  have hmono := tries_mono script (Nat.succ_le_of_lt hlt)
  rw [tries_succ_of_isOpen h] at hmono
  exact hmono

theorem fate_succ_of_isOpen (h : isOpen m script = true) :
    fate (m + 1) script = reply script m := by
  rw [fate, tries_succ_of_isOpen h, Nat.add_sub_cancel]

theorem reply_drop (m : Nat) (script : List Outcome) :
    reply (script.drop m) 0 = reply script m := by
  simp [reply, List.getD_eq_getElem?_getD]

theorem shouldCancel_reply (h : ∀ o ∈ script, o.shouldCancel = false) (k : Nat) :
    (reply script k).shouldCancel = false := by
  rw [reply, List.getD_eq_getElem?_getD]
  cases hk : script[k]? with
  | none => rfl
  | some o => exact h o (List.mem_of_getElem? hk)

theorem busy_succ_of_isOpen (h : isOpen m script = true) :
    busy (m + 1) script = busy m script + if (reply script m).isBusy then 1 else 0 := by
  rw [busy, busy, tries_succ_of_isOpen h, tries_of_isOpen h, List.take_add_one, List.countP_append,
    reply, List.getD_eq_getElem?_getD]
  cases script[m]? with
  | none => rfl
  | some o => simp

end Script

/-! ## Calls that are answered row by row -/

namespace ScriptedSubstrate

/-- What is left of a row's script. -/
def scriptOf (s : ScriptedSubstrate) (rowKey : Bytes) : List Outcome :=
  s.scripts.findD rowKey []

/-- Nothing but the scripts of the rows decides the next calls. -/
structure FollowsScripts (s : ScriptedSubstrate) : Prop where
  prepared : s.prepared = []
  callErrors : s.callErrors = []
  overalls : s.overalls = []

/-- The substrate `s'` is what a call of rows with the given keys leaves of `s`: one entry of their
scripts is gone, and nothing else that decides later calls has changed. -/
structure Consumes (s : ScriptedSubstrate) (keys : List Bytes) (s' : ScriptedSubstrate) : Prop where
  called : ∀ key ∈ keys, s'.scriptOf key = (s.scriptOf key).drop 1
  others : ∀ key, key ∉ keys → s'.scriptOf key = s.scriptOf key
  follows : s.FollowsScripts → s'.FollowsScripts

theorem answerRow_of_nil {s : ScriptedSubstrate} {key : Bytes} (h : s.scriptOf key = []) :
    s.answerRow key = (.success, s.markWritten key) := by
  rw [scriptOf, Table.findD] at h
  unfold answerRow
  cases hfind : s.scripts.find? key with
  | none => rfl
  | some script =>
    rw [hfind] at h
    obtain rfl : script = [] := h
    rfl

theorem answerRow_of_cons {s : ScriptedSubstrate} {key : Bytes} {o : Outcome}
    {rest : List Outcome} (h : s.scriptOf key = o :: rest) :
    ∃ s', s.answerRow key = (o, s') ∧ s'.scripts = s.scripts.insert key rest ∧
      (s.FollowsScripts → s'.FollowsScripts) := by
  rw [scriptOf, Table.findD] at h
  unfold answerRow
  cases hfind : s.scripts.find? key with
  | none =>
    rw [hfind] at h
    cases h
  | some script =>
    rw [hfind] at h
    obtain rfl : script = o :: rest := h
    refine ⟨_, rfl, ?_, fun h => ?_⟩ <;> split_ifs
    · rfl
    · rfl
    · exact ⟨h.1, h.2, h.3⟩
    · exact ⟨h.1, h.2, h.3⟩

/-- A row is answered by the head of its script. -/
theorem answerRow_eq (s : ScriptedSubstrate) (key : Bytes) :
    ∃ s', s.answerRow key = (Script.reply (s.scriptOf key) 0, s') ∧ s.Consumes [key] s' := by
  cases hscript : s.scriptOf key with
  | nil =>
    refine ⟨_, answerRow_of_nil hscript, ?_, fun _ _ => rfl, fun h => ⟨h.1, h.2, h.3⟩⟩
    intro other hother
    rw [List.mem_singleton.mp hother, hscript]
    exact hscript
  | cons o rest =>
    obtain ⟨s', hanswer, hscripts, hfollows⟩ := answerRow_of_cons hscript
    refine ⟨s', hanswer, fun other hother => ?_, fun other hother => ?_, hfollows⟩
    · rw [List.mem_singleton.mp hother, hscript, scriptOf, hscripts, Table.findD,
        Table.find?_insert_self]
      rfl
    · have hne : key ≠ other := fun h => hother (List.mem_singleton.mpr h.symm)
      rw [scriptOf, hscripts, Table.findD, Table.find?_insert_of_ne _ _ hne]
      rfl

/-- Rows with different keys are answered by the heads of their scripts. -/
theorem answerRows_of_nodup {keys : List Bytes} (hkeys : keys.Nodup) (s : ScriptedSubstrate) :
    ∃ s', s.answerRows keys = (keys.map fun key => Script.reply (s.scriptOf key) 0, s') ∧
      s.Consumes keys s' := by
  induction keys generalizing s with
  | nil => exact ⟨s, rfl, nofun, fun _ _ => rfl, id⟩
  | cons key rest ih =>
    obtain ⟨hkey, hrest⟩ := List.nodup_cons.mp hkeys
    obtain ⟨s₁, hanswer, hfirst⟩ := s.answerRow_eq key
    obtain ⟨s', hanswers, hlater⟩ := ih hrest s₁
    have hsame {other : Bytes} (hne : other ≠ key) : s₁.scriptOf other = s.scriptOf other :=
      hfirst.others other fun h => hne (List.mem_singleton.mp h)
    have hrest_ne {other : Bytes} (hother : other ∈ rest) : other ≠ key := fun h =>
      hkey (h ▸ hother)
    refine ⟨s', ?_, fun other hother => ?_, fun other hother => ?_, fun h =>
      hlater.follows (hfirst.follows h)⟩
    · simp only [answerRows, hanswer, hanswers, List.map_cons]
      congr 2
      exact List.map_congr_left fun other hother => by rw [hsame (hrest_ne hother)]
    · rcases List.mem_cons.mp hother with rfl | hother
      · rw [hlater.others other hkey, hfirst.called other (List.mem_singleton.mpr rfl)]
      · rw [hlater.called other hother, hsame (hrest_ne hother)]
    · rw [List.mem_cons, not_or] at hother
      rw [hlater.others other hother.2, hsame hother.1]

/-- The answer to a call of rows with different keys. -/
theorem answer_of_followsScripts {s : ScriptedSubstrate} (hs : s.FollowsScripts)
    (address : PartitionAddress) (txn : TxnId) {rows : List Mutation}
    (hkeys : (rows.map Mutation.rowKey).Nodup) :
    ∃ s', s.answer address txn rows =
        (.ok ⟨none, rows.map fun row => Script.reply (s.scriptOf row.rowKey) 0⟩, s') ∧
      s.Consumes (rows.map Mutation.rowKey) s' := by
  obtain ⟨prepared, callErrors, overalls, scripts, calls, written⟩ := s
  obtain ⟨rfl, rfl, rfl⟩ := hs
  obtain ⟨s', hanswers, hconsumes⟩ := answerRows_of_nodup hkeys
    ⟨[], [], [], scripts, ⟨address, txn, rows.map Mutation.rowKey⟩ :: calls, written⟩
  refine ⟨s', ?_, hconsumes.called, hconsumes.others, fun h => hconsumes.follows ⟨h.1, h.2, h.3⟩⟩
  rw [List.map_map] at hanswers
  simp only [answer, hanswers]
  rfl

end ScriptedSubstrate

/-! ## One attempt at a batch -/

theorem exceedsTolerance_of_neg {tolerance : Int} (h : tolerance < 0) (count : Nat) :
    exceedsTolerance count tolerance = false := by
  rw [exceedsTolerance, decide_eq_false (Int.not_le.mpr h), Bool.false_and]

theorem Outcome.isBusy_of_not_canRetry {o : Outcome} (h : o.canRetry = false) :
    o.isBusy = false := by
  cases o <;> first | rfl | cases h

namespace Pipeline

open Program

/-- Nothing but the scripts decides what becomes of the next `n` rows: a row that is reported never
ends its batch, the route is found, and every call is answered row by row. -/
structure Unhindered (recorder : Option Recorder) (w : WriteSide ScriptedSubstrate) (n : Nat) :
    Prop where
  reports : ∃ r file, recorder = some r ∧ r.tolerance < 0 ∧ r.Holds w.directory file ∧
    r.count + n < UInt64.size
  located : w.locator.refusals = []
  answered : w.substrate.FollowsScripts

theorem Unhindered.mono {recorder : Option Recorder} {w : WriteSide ScriptedSubstrate} {m n : Nat}
    (h : Unhindered recorder w n) (hle : m ≤ n) : Unhindered recorder w m := by
  obtain ⟨r, file, hr, htolerance, hholds, hroom⟩ := h.reports
  exact ⟨⟨r, file, hr, htolerance, hholds, by omega⟩, h.located, h.answered⟩

/-- A program whose first part stops out of range stops out of range, if what follows passes that
on. -/
theorem stops_bind {τ α β γ δ : Type} {p : Program τ (Except Error α × β)}
    {q : Except Error α × β → Program τ (Except Error γ × δ)} {w : τ}
    (hstop : (p.run w).1.1 = .error .outOfRange)
    (hq : ∀ b w, ((q (.error .outOfRange, b)).run w).1.1 = .error .outOfRange) :
    ((p >>= q).run w).1.1 = .error .outOfRange := by
  rw [run_bind]
  generalize p.run w = ran at hstop ⊢
  obtain ⟨⟨answer, b⟩, w'⟩ := ran
  obtain rfl := hstop
  exact hq b w'

theorem run_onDirectory {σ α : Type} (p : Program Directory α) (w : WriteSide σ) :
    (onDirectory p).run w =
      ((p.run w.directory).1, { w with directory := (p.run w.directory).2 }) := by
  unfold onDirectory
  refine run_focus (fun _ _ => ?_) (fun _ => ?_) (fun _ _ _ => ?_) p w <;> rfl

/-- The last outcomes behind a call. -/
def noted (outcomes : List (BatchRow × Outcome)) (latest : Array (Option Outcome)) :
    Array (Option Outcome) :=
  outcomes.foldl (fun latest x => latest.setIfInBounds x.1.index (some x.2)) latest

/-- The rows of a call that are worth another attempt. -/
def deferred (outcomes : List (BatchRow × Outcome)) : List BatchRow :=
  (outcomes.filter fun x => x.2.canRetry).map Prod.fst

theorem deferred_cons (row : BatchRow) (o : Outcome) (rest : List (BatchRow × Outcome)) :
    deferred ((row, o) :: rest) = if o.canRetry then row :: deferred rest else deferred rest := by
  rw [deferred, List.filter_cons]
  split_ifs <;> rfl

/-- A batch whose recorder has taken in a row that is refused for good. -/
def counted (mixed : Bool) (r : Recorder) (b : BatchRun) : BatchRun :=
  { b with
    recorder := some r
    counts.ignored := b.counts.ignored + 1
    counts.partialIgnored := b.counts.partialIgnored + if mixed then 1 else 0 }

/-- A row that is refused for good and was recorded ends the batch if it exceeds the tolerance. -/
theorem run_rejectRow_of_record {σ : Type} (mixed : Bool) (row : BatchRow) (o : Outcome)
    {b : BatchRun} {w : WriteSide σ} {r r' : Recorder} {exceeded : Bool} {d : Directory}
    (hr : b.recorder = some r)
    (hrun : (r.record row.mutation.reportText o.code.errorCode).run w.directory =
      ((.ok exceeded, r'), d)) :
    (rejectRow true mixed row o b).run w =
      (if exceeded then
        (.error (r'.toleranceError d.place), { counted mixed r' b with state := .rejected })
        else (.ok (), (counted mixed r' b).note row.index o), { w with directory := d }) := by
  cases exceeded <;> simp [-bind_pure_comp, rejectRow, hr, run_onDirectory, hrun, place, counted]

/-- A row that is refused for good is reported, and the batch goes on. -/
theorem run_rejectRow (mixed : Bool) (row : BatchRow) (o : Outcome) {b : BatchRun}
    {w : WriteSide ScriptedSubstrate} {n : Nat} (h : Unhindered b.recorder w (n + 1)) :
    ∃ b' w', (rejectRow true mixed row o b).run w = ((.ok (), b'), w') ∧
      b'.latest = b.latest.setIfInBounds row.index (some o) ∧
      b'.counts.regionTooBusy = b.counts.regionTooBusy ∧
      b'.counts.retried = b.counts.retried ∧ w'.substrate = w.substrate ∧
      Unhindered b'.recorder w' n := by
  obtain ⟨r, file, hr, htolerance, hholds, hroom⟩ := h.reports
  obtain ⟨r', d', hrun, ⟨sink, hr'⟩, -, hholds'⟩ :=
    Recorder.run_record hholds (by omega) row.mutation.reportText o.code.errorCode
  rw [exceedsTolerance_of_neg htolerance] at hrun
  refine ⟨_, _, run_rejectRow_of_record mixed row o hr hrun, rfl, rfl, rfl, rfl,
    ⟨r', _, rfl, ?_, hholds', ?_⟩, h.located, h.answered⟩
  · rw [hr']
    exact htolerance
  · rw [hr']
    simp only
    omega

/-- What the outcomes of a call do to a batch, in the order of the rows. -/
theorem run_sortRows (mixed : Bool) {outcomes : List (BatchRow × Outcome)} {b : BatchRun}
    {w : WriteSide ScriptedSubstrate} {n : Nat}
    (h : Unhindered b.recorder w (n + outcomes.length)) :
    ∃ b' w', (sortRows true mixed outcomes b).run w =
        ((.ok (deferred outcomes), b'), w') ∧
      b'.latest = noted outcomes b.latest ∧
      b'.counts.regionTooBusy = b.counts.regionTooBusy + outcomes.countP (fun x => x.2.isBusy) ∧
      b'.counts.retried = b.counts.retried ∧ w'.substrate = w.substrate ∧
      Unhindered b'.recorder w' (n + (deferred outcomes).length) := by
  induction outcomes generalizing b w n with
  | nil => exact ⟨b, w, rfl, rfl, rfl, rfl, rfl, h⟩
  | cons x rest ih =>
    obtain ⟨row, o⟩ := x
    rw [List.length_cons] at h
    simp only [sortRows]
    have hbusy_cons : (((row, o) :: rest).countP fun x => x.2.isBusy) =
        (rest.countP fun x => x.2.isBusy) + if o.isBusy then 1 else 0 :=
      List.countP_cons
    have hidle (hretry : ¬ o.canRetry = true) : ¬ o.isBusy = true := by
      simp [Outcome.isBusy_of_not_canRetry (Bool.not_eq_true _ |>.mp hretry)]
    split_ifs with hsuccess hretry
    · have hretry : ¬ o.canRetry = true := by
        simp [(Outcome.isTerminalReject_of_isSuccess hsuccess).2.1]
      obtain ⟨b', w', hrun, hlatest, hbusy, hretried, hsubstrate, hleft⟩ :=
        ih (b := acceptRow mixed row o b) (n := n) (h.mono (by omega))
      refine ⟨b', w', ?_, hlatest, ?_, hretried, hsubstrate, ?_⟩
      · rw [hrun, deferred_cons, if_neg hretry]
      · rw [hbusy, hbusy_cons, if_neg (hidle hretry)]
        rfl
      · rwa [deferred_cons, if_neg hretry]
    · obtain ⟨b', w', hrun, hlatest, hbusy, hretried, hsubstrate, hleft⟩ :=
        ih (b := deferRow mixed row o b) (n := n + 1) (by rwa [Nat.add_right_comm])
      refine ⟨b', w', ?_, hlatest, ?_, hretried, hsubstrate, ?_⟩
      · rw [run_bind, hrun, deferred_cons, if_pos hretry]
        rfl
      · rw [hbusy, hbusy_cons, ← Nat.add_assoc, Nat.add_right_comm]
        rfl
      · rwa [deferred_cons, if_pos hretry, List.length_cons, ← Nat.add_assoc, Nat.add_right_comm]
    · obtain ⟨b₁, w₁, hreject, hlatest₁, hbusy₁, hretried₁, hsubstrate₁, hleft₁⟩ :=
        run_rejectRow mixed row o (w := w) (b := b) (n := n + rest.length) h
      obtain ⟨b', w', hrun, hlatest, hbusy, hretried, hsubstrate, hleft⟩ := ih hleft₁
      refine ⟨b', w', ?_, ?_, ?_, hretried.trans hretried₁, hsubstrate.trans hsubstrate₁, ?_⟩
      · rw [run_bind, hreject, deferred_cons, if_neg hretry]
        exact hrun
      · rw [hlatest, hlatest₁]
        rfl
      · rw [hbusy, hbusy₁, hbusy_cons, if_neg (hidle hretry), Nat.add_zero]
      · rwa [deferred_cons, if_neg hretry]

theorem noted_cons (x : BatchRow × Outcome) (rest : List (BatchRow × Outcome))
    (latest : Array (Option Outcome)) :
    noted (x :: rest) latest = noted rest (latest.setIfInBounds x.1.index (some x.2)) := rfl

theorem size_noted (outcomes : List (BatchRow × Outcome)) (latest : Array (Option Outcome)) :
    (noted outcomes latest).size = latest.size := by
  induction outcomes generalizing latest with
  | nil => rfl
  | cons x rest ih => rw [noted_cons, ih, Array.size_setIfInBounds]

theorem getElem?_noted_of_notMem {outcomes : List (BatchRow × Outcome)} {i : Nat}
    (h : i ∉ outcomes.map fun x => x.1.index) (latest : Array (Option Outcome)) :
    (noted outcomes latest)[i]? = latest[i]? := by
  induction outcomes generalizing latest with
  | nil => rfl
  | cons x rest ih =>
    rw [List.map_cons, List.mem_cons, not_or] at h
    rw [noted_cons, ih h.2, Array.getElem?_setIfInBounds_ne (Ne.symm h.1)]

/-- The outcome of a row is noted in its place. -/
theorem getElem?_noted_of_mem {outcomes : List (BatchRow × Outcome)}
    (hindices : (outcomes.map fun x => x.1.index).Nodup) {x : BatchRow × Outcome}
    (hx : x ∈ outcomes) {latest : Array (Option Outcome)} (hlt : x.1.index < latest.size) :
    (noted outcomes latest)[x.1.index]? = some (some x.2) := by
  induction outcomes generalizing latest with
  | nil => cases hx
  | cons other rest ih =>
    rw [List.map_cons, List.nodup_cons] at hindices
    rw [noted_cons]
    rcases List.mem_cons.mp hx with rfl | hx
    · rw [getElem?_noted_of_notMem hindices.1, Array.getElem?_setIfInBounds_self_of_lt hlt]
    · exact ih hindices.2 hx (by simpa using hlt)

theorem deferred_map (outcome : BatchRow → Outcome) (rows : List BatchRow) :
    deferred (rows.map fun row => (row, outcome row)) =
      rows.filter fun row => (outcome row).canRetry := by
  rw [deferred, List.filter_map, List.map_map]
  exact List.map_id _

/-- The answers to a call, one for each row. -/
theorem answered_eq_map (outcome : BatchRow → Outcome) (rows : List BatchRow) :
    answered ⟨none, rows.map outcome⟩ rows = rows.map fun row => (row, outcome row) := by
  refine List.ext_getElem (by simp [answered]) fun i hi hi' => ?_
  have hlt : i < rows.length := by simpa using hi'
  simp [answered, BatchResponse.outcomeFor, hlt]

/-- The route, when the locator refuses nothing. -/
theorem run_locate {σ : Type} {w : WriteSide σ} (h : w.locator.refusals = []) :
    locate.run w = (.ok ⟨w.locator.partition, w.locator.server, w.locator.generation⟩, w) := by
  simp [locate, Locator.locate, h]

/-- An attempt that finds no route makes no call. -/
theorem run_attempt_of_refusal {σ : Type} [Substrate σ] {w : WriteSide σ} {e : Error}
    {rest : List Error} (hroutes : w.locator.refusals = e :: rest) (permissive : Bool) (txn : TxnId)
    (pending : List BatchRow) (b : BatchRun) : (attempt permissive txn pending b).run w =
      ((.error e, b), { w with locator.refusals := rest }) := by
  simp [attempt, locate, Locator.locate, hroutes]

section Calls

variable {σ : Type} [Substrate σ] {w : WriteSide σ} {address : PartitionAddress} {txn : TxnId}
  {pending : List BatchRow} {s : σ} (hlocate : locate.run w = (.ok address, w))
include hlocate

/-- An attempt whose call fails. -/
theorem run_attempt_of_error {e : Error}
    (hcall : Substrate.write address txn (pending.map BatchRow.mutation) w.substrate =
      (.error e, s)) (permissive : Bool) (b : BatchRun) :
    (attempt permissive txn pending b).run w =
      (if e.isRetryable then (.ok pending, b.noteAll pending (.notRun (some e.message)))
        else (.error e, { b with state := .aborted }), { w with substrate := s }) := by
  rw [attempt, run_bind, hlocate]
  simp only [run_bind, write, run_atomically, hcall]
  split_ifs <;> rfl

/-- An attempt whose call ends the batch. -/
theorem run_attempt_of_cancel {response : BatchResponse}
    (hcall : Substrate.write address txn (pending.map BatchRow.mutation) w.substrate =
      (.ok response, s)) {found : BatchRow × Outcome}
    (hfound : (answered response pending).find? (fun x => x.2.shouldCancel) = some found)
    (permissive : Bool) (b : BatchRun) :
    (attempt permissive txn pending b).run w =
      ((.error (.writeAborted found.1.index found.2), { b with state := .aborted }),
        { w with substrate := s }) := by
  rw [attempt, run_bind, hlocate]
  simp only [run_bind, write, run_atomically, hcall, hfound]
  rfl

/-- An attempt whose call is answered: the outcomes are sorted, and a stale route is dropped. -/
theorem run_attempt_of_answers {response : BatchResponse}
    (hcall : Substrate.write address txn (pending.map BatchRow.mutation) w.substrate =
      (.ok response, s)) {outcomes : List (BatchRow × Outcome)}
    (houtcomes : answered response pending = outcomes)
    (hcancel : ∀ x ∈ outcomes, x.2.shouldCancel = false) {permissive : Bool} {b b' : BatchRun}
    {answer : Except Error (List BatchRow)} {w' : WriteSide σ}
    (hsort : (sortRows permissive (isMixed outcomes) outcomes b).run { w with substrate := s } =
      ((answer, b'), w')) :
    (attempt permissive txn pending b).run w = ((answer, b'),
      if answer.isOk && needsRefresh outcomes then
        { w' with locator := w'.locator.invalidate } else w') := by
  have hfind : outcomes.find? (fun x => x.2.shouldCancel) = none := by simpa using hcancel
  rw [attempt, run_bind, hlocate]
  simp only [run_bind, write, run_atomically, hcall, houtcomes, hfind, hsort]
  cases answer with
  | error e => rfl
  | ok pending' =>
    simp only [Except.isOk, Except.toBool, Bool.true_and]
    split_ifs <;> rfl

end Calls

/-- One attempt at rows with different keys whose scripts are known. -/
theorem run_attempt {pending : List BatchRow} {outcome : BatchRow → Outcome} {b : BatchRun}
    {w : WriteSide ScriptedSubstrate} {extra : Nat}
    (h : Unhindered b.recorder w (extra + pending.length))
    (hkeys : (pending.map fun row => row.mutation.rowKey).Nodup)
    (hreply : ∀ row ∈ pending,
      Script.reply (w.substrate.scriptOf row.mutation.rowKey) 0 = outcome row)
    (hcancel : ∀ row ∈ pending, (outcome row).shouldCancel = false) (txn : TxnId) :
    ∃ b' w', (attempt true txn pending b).run w =
        ((.ok (pending.filter fun row => (outcome row).canRetry), b'), w') ∧
      b'.latest = noted (pending.map fun row => (row, outcome row)) b.latest ∧
      b'.counts.regionTooBusy =
        b.counts.regionTooBusy + pending.countP (fun row => (outcome row).isBusy) ∧
      b'.counts.retried = b.counts.retried ∧
      w.substrate.Consumes (pending.map fun row => row.mutation.rowKey) w'.substrate ∧
      Unhindered b'.recorder w'
        (extra + (pending.filter fun row => (outcome row).canRetry).length) := by
  have hkeys' : ((pending.map BatchRow.mutation).map Mutation.rowKey).Nodup := by
    rwa [List.map_map]
  obtain ⟨s', hanswer, hconsumes⟩ := ScriptedSubstrate.answer_of_followsScripts h.answered
    ⟨w.locator.partition, w.locator.server, w.locator.generation⟩ txn hkeys'
  rw [List.map_map] at hanswer hconsumes
  have houtcomes : (pending.map BatchRow.mutation).map
      (fun row => Script.reply (w.substrate.scriptOf row.rowKey) 0) = pending.map outcome := by
    rw [List.map_map]
    exact List.map_congr_left hreply
  have hcall : Substrate.write ⟨w.locator.partition, w.locator.server, w.locator.generation⟩ txn
      (pending.map BatchRow.mutation) w.substrate = (.ok ⟨none, pending.map outcome⟩, s') := by
    rw [← houtcomes]
    simp only [Substrate.write, hanswer, List.map_map]
  have hcalled : Unhindered b.recorder { w with substrate := s' }
      (extra + (pending.map fun row => (row, outcome row)).length) :=
    ⟨by simpa using h.reports, h.located, hconsumes.follows h.answered⟩
  obtain ⟨b', w', hsort, hlatest, hbusy, hretried, hsubstrate, hleft⟩ :=
    run_sortRows (isMixed (pending.map fun row => (row, outcome row))) hcalled
  rw [deferred_map] at hsort hleft
  have hconsumes' : w.substrate.Consumes (pending.map fun row => row.mutation.rowKey)
      w'.substrate := hsubstrate ▸ hconsumes
  have hrun := run_attempt_of_answers (run_locate h.located) hcall (answered_eq_map outcome pending)
    (by simpa using hcancel) hsort
  rw [List.countP_map] at hbusy
  refine ⟨b', _, hrun, hlatest, hbusy, hretried, ?_, ?_⟩ <;> split_ifs
  · exact hconsumes'
  · exact hconsumes'
  · exact ⟨hleft.reports, hleft.located, hleft.answered⟩
  · exact hleft

/-- What a change of some entries does to a sum. -/
theorem sum_map_of_step {α : Type} {f f' : α → Nat} {p q : α → Bool} {l : List α}
    (hstep : ∀ x, p x = true → f' x = f x + if q x then 1 else 0)
    (hkeep : ∀ x, p x = false → f' x = f x) :
    (l.map f').sum = (l.map f).sum + (l.filter p).countP q := by
  induction l with
  | nil => rfl
  | cons x rest ih =>
    rw [List.map_cons, List.sum_cons, List.map_cons, List.sum_cons, ih, List.filter_cons]
    cases hp : p x with
    | true =>
      rw [hstep x hp, if_pos rfl, List.countP_cons]
      omega
    | false =>
      rw [hkeep x hp, if_neg Bool.false_ne_true]
      omega

/-- The rows that are still pending behind a number of attempts. -/
def openRows (all : List BatchRow) (script : Bytes → List Outcome) (made : Nat) : List BatchRow :=
  all.filter fun row => Script.isOpen made (script row.mutation.rowKey)

/-- How far a batch with the rows `all` has come after a number of attempts, when `script` tells the
scripts at its start. There is room to report all pending rows, and `extra` more. -/
structure Reached (all : List BatchRow) (script : Bytes → List Outcome) (extra made : Nat)
    (b : BatchRun) (w : WriteSide ScriptedSubstrate) : Prop where
  latest : ∀ row ∈ all, b.latest[row.index]? =
    some (if made = 0 then none else some (Script.fate made (script row.mutation.rowKey)))
  busy : b.counts.regionTooBusy =
    (all.map fun row => Script.busy made (script row.mutation.rowKey)).sum
  retried : b.counts.retried =
    (all.map fun row => Script.tries made (script row.mutation.rowKey) - 1).sum
  consumed : ∀ row ∈ all, w.substrate.scriptOf row.mutation.rowKey =
    (script row.mutation.rowKey).drop (Script.tries made (script row.mutation.rowKey))
  others : ∀ key, key ∉ all.map (fun row => row.mutation.rowKey) →
    w.substrate.scriptOf key = script key
  unhindered : Unhindered b.recorder w (extra + (openRows all script made).length)

variable {all : List BatchRow} {script : Bytes → List Outcome} {extra made : Nat} {b : BatchRun}
  {w : WriteSide ScriptedSubstrate}

theorem mem_openRows {row : BatchRow} : row ∈ openRows all script made ↔
    row ∈ all ∧ Script.isOpen made (script row.mutation.rowKey) = true :=
  List.mem_filter

/-- Behind one more attempt those rows are pending that were, and met an outcome that is worth
another attempt. -/
theorem openRows_succ : openRows all script (made + 1) =
    (openRows all script made).filter fun row =>
      (Script.reply (script row.mutation.rowKey) made).canRetry := by
  rw [openRows, openRows, List.filter_filter]
  refine List.filter_congr fun row _ => ?_
  rw [Script.isOpen_succ, Bool.and_comm]

theorem nodup_map_openRows {α : Type} {f : BatchRow → α} (hf : (all.map f).Nodup) :
    ((openRows all script made).map f).Nodup :=
  hf.sublist (List.filter_sublist.map f)

/-- A property that tells rows apart is not shared by a row that is decided with a pending one. -/
theorem notMem_map_openRows {α : Type} {f : BatchRow → α} (hf : (all.map f).Nodup) {row : BatchRow}
    (hrow : row ∈ all) (hclosed : Script.isOpen made (script row.mutation.rowKey) = false) :
    f row ∉ (openRows all script made).map f := by
  rw [List.mem_map]
  rintro ⟨other, hother, heq⟩
  obtain ⟨hother, hopen⟩ := mem_openRows.mp hother
  obtain rfl := List.inj_on_of_nodup_map hf hother hrow heq
  exact Bool.false_ne_true (hclosed.symm.trans hopen)

/-- The last outcomes behind one more attempt: a row that was pending has met the next outcome of its
script, and a decided row keeps its last one. -/
theorem Reached.latest_succ (h : Reached all script extra made b w)
    (hindices : (all.map BatchRow.index).Nodup) {row : BatchRow} (hrow : row ∈ all) :
    (noted ((openRows all script made).map fun row =>
      (row, Script.reply (script row.mutation.rowKey) made)) b.latest)[row.index]? =
        some (some (Script.fate (made + 1) (script row.mutation.rowKey))) := by
  cases hopen : Script.isOpen made (script row.mutation.rowKey) with
  | true =>
    have hlt : row.index < b.latest.size := (Array.getElem?_eq_some_iff.mp (h.latest row hrow)).1
    have hnoted := List.mem_map_of_mem
      (f := fun row => (row, Script.reply (script row.mutation.rowKey) made))
      (mem_openRows.mpr ⟨hrow, hopen⟩)
    have hnodup : ((openRows all script made).map BatchRow.index).Nodup :=
      nodup_map_openRows hindices
    rw [getElem?_noted_of_mem (by rwa [List.map_map]) hnoted hlt, Script.fate_succ_of_isOpen hopen]
  | false =>
    -- A decided row has been sent before.
    have hmade : made ≠ 0 := by
      rintro rfl
      cases hopen
    have hnot := notMem_map_openRows hindices hrow hopen
    rw [getElem?_noted_of_notMem (by rwa [List.map_map]), h.latest row hrow, if_neg hmade,
      Script.fate, Script.fate, (Script.of_not_isOpen hopen (Nat.le_succ made)).2]

/-- A row that was pending has used up one more outcome of its script. -/
theorem Reached.consumed_succ (h : Reached all script extra made b w)
    (hkeys : (all.map fun row => row.mutation.rowKey).Nodup) {s : ScriptedSubstrate}
    (hconsumes : w.substrate.Consumes
      ((openRows all script made).map fun row => row.mutation.rowKey) s)
    {row : BatchRow} (hrow : row ∈ all) : s.scriptOf row.mutation.rowKey =
      (script row.mutation.rowKey).drop
        (Script.tries (made + 1) (script row.mutation.rowKey)) := by
  cases hopen : Script.isOpen made (script row.mutation.rowKey) with
  | true =>
    have hcalled := List.mem_map_of_mem (f := fun row => row.mutation.rowKey)
      (mem_openRows.mpr ⟨hrow, hopen⟩)
    rw [hconsumes.called _ hcalled, h.consumed row hrow, List.drop_drop,
      Script.tries_of_isOpen hopen, Script.tries_succ_of_isOpen hopen]
  | false =>
    rw [hconsumes.others _ (notMem_map_openRows hkeys hrow hopen), h.consumed row hrow,
      (Script.of_not_isOpen hopen (Nat.le_succ made)).2]

theorem sum_busy_succ (all : List BatchRow) (script : Bytes → List Outcome) (made : Nat) :
    (all.map fun row => Script.busy (made + 1) (script row.mutation.rowKey)).sum =
      (all.map fun row => Script.busy made (script row.mutation.rowKey)).sum +
        (openRows all script made).countP fun row =>
          (Script.reply (script row.mutation.rowKey) made).isBusy := by
  refine sum_map_of_step (fun row hopen => ?_) fun row hclosed => ?_
  · exact Script.busy_succ_of_isOpen hopen
  · rw [Script.busy, Script.busy, (Script.of_not_isOpen hclosed (Nat.le_succ made)).2]

theorem sum_tries_succ (all : List BatchRow) (script : Bytes → List Outcome) (made : Nat) :
    (all.map fun row => Script.tries (made + 1) (script row.mutation.rowKey) - 1).sum =
      (all.map fun row => Script.tries made (script row.mutation.rowKey) - 1).sum +
        if made = 0 then 0 else (openRows all script made).length := by
  have hcount : (if made = 0 then 0 else (openRows all script made).length) =
      (openRows all script made).countP fun _ => decide (made ≠ 0) := by
    split_ifs with hmade <;> simp [hmade]
  rw [hcount]
  refine sum_map_of_step (fun row hopen => ?_) fun row hclosed => ?_
  · rw [Script.tries_succ_of_isOpen hopen, Script.tries_of_isOpen hopen]
    simp only [decide_eq_true_eq]
    split_ifs <;> omega
  · rw [(Script.of_not_isOpen hclosed (Nat.le_succ made)).2]

/-- What one attempt at the pending rows does to every row. -/
theorem Reached.attempt (h : Reached all script extra made b w)
    (hindices : (all.map BatchRow.index).Nodup)
    (hkeys : (all.map fun row => row.mutation.rowKey).Nodup)
    (hcancel : ∀ row ∈ all, ∀ o ∈ script row.mutation.rowKey, o.shouldCancel = false)
    (txn : TxnId) :
    ∃ b' w', (attempt true txn (openRows all script made)
        (startAttempt made (openRows all script made) b)).run w =
          ((.ok (openRows all script (made + 1)), b'), w') ∧
      Reached all script extra (made + 1) b' w' := by
  have hunhindered := h.unhindered
  rw [← startAttempt_recorder made (openRows all script made) b] at hunhindered
  have hreply : ∀ row ∈ openRows all script made,
      Script.reply (w.substrate.scriptOf row.mutation.rowKey) 0 =
        Script.reply (script row.mutation.rowKey) made := by
    intro row hrow
    obtain ⟨hrow, hopen⟩ := mem_openRows.mp hrow
    rw [h.consumed row hrow, Script.tries_of_isOpen hopen, Script.reply_drop]
  have hgoes : ∀ row ∈ openRows all script made,
      (Script.reply (script row.mutation.rowKey) made).shouldCancel = false := fun row hrow =>
    Script.shouldCancel_reply (hcancel row (mem_openRows.mp hrow).1) made
  obtain ⟨b', w', hrun, hlatest, hbusy, hretried, hconsumes, hleft⟩ :=
    run_attempt hunhindered (nodup_map_openRows hkeys) hreply hgoes txn
  rw [← openRows_succ] at hrun hleft
  rw [startAttempt_latest] at hlatest
  rw [startAttempt_counts] at hbusy hretried
  refine ⟨b', w', hrun, fun row hrow => ?_, ?_, ?_, fun row => h.consumed_succ hkeys hconsumes,
    fun key hkey => ?_, hleft⟩
  · rw [hlatest, if_neg (Nat.succ_ne_zero made)]
    exact h.latest_succ hindices hrow
  · rw [hbusy, h.busy, sum_busy_succ]
  · rw [hretried, h.retried, sum_tries_succ]
  · rw [hconsumes.others key fun hmem => hkey ((List.filter_sublist.map _).subset hmem),
      h.others key hkey]

theorem openRows_eq_nil_iff : openRows all script made = [] ↔
    ∀ row ∈ all, Script.isOpen made (script row.mutation.rowKey) = false := by
  simp only [openRows, List.filter_eq_nil_iff, Bool.not_eq_true]

theorem openRows_eq_nil_of_le (hnone : openRows all script made = []) {later : Nat}
    (hle : made ≤ later) : openRows all script later = [] := by
  rw [openRows_eq_nil_iff] at hnone ⊢
  intro row hrow
  by_contra hopen
  rw [Bool.not_eq_false] at hopen
  exact Bool.false_ne_true ((hnone row hrow).symm.trans (Script.isOpen_of_le hopen hle))

/-- Nothing more happens to rows that are all decided. -/
theorem Reached.settled (h : Reached all script extra made b w)
    (hnone : openRows all script made = []) {later : Nat} (hle : made ≤ later) :
    Reached all script extra later b w := by
  have hclosed := openRows_eq_nil_iff.mp hnone
  have htries {row : BatchRow} (hrow : row ∈ all) :
      Script.tries later (script row.mutation.rowKey) =
        Script.tries made (script row.mutation.rowKey) :=
    (Script.of_not_isOpen (hclosed row hrow) hle).2
  refine ⟨fun row hrow => ?_, ?_, ?_, fun row hrow => ?_, h.others, h.unhindered.mono ?_⟩
  · have hmade : made ≠ 0 := by
      rintro rfl
      cases hclosed row hrow
    rw [h.latest row hrow, if_neg hmade, if_neg (by omega), Script.fate, Script.fate, htries hrow]
  · rw [h.busy]
    refine congrArg List.sum (List.map_congr_left fun row hrow => ?_)
    rw [Script.busy, Script.busy, htries hrow]
  · rw [h.retried]
    refine congrArg List.sum (List.map_congr_left fun row hrow => ?_)
    rw [htries hrow]
  · rw [h.consumed row hrow, htries hrow]
  · exact Nat.le_of_eq (by rw [openRows_eq_nil_of_le hnone hle, hnone])

/-! ## A batch -/

/-- How many attempts are made at the rows of a batch, if at most `limit` are allowed. -/
def roundsOf (all : List BatchRow) (script : Bytes → List Outcome) (limit : Nat) : Nat :=
  Script.rounds limit (all.map fun row => script row.mutation.rowKey)

theorem lt_roundsOf_iff {limit k : Nat} : k < roundsOf all script limit ↔
    ∃ row ∈ all, k < Script.tries limit (script row.mutation.rowKey) := by
  rw [roundsOf, Script.lt_rounds_iff]
  simp only [List.mem_map, exists_exists_and_eq_and]

theorem roundsOf_le (all : List BatchRow) (script : Bytes → List Outcome) (limit : Nat) :
    roundsOf all script limit ≤ limit := by
  by_contra hlt
  obtain ⟨row, -, hrow⟩ := lt_roundsOf_iff.mp (Nat.lt_of_not_le hlt)
  exact Nat.not_le_of_lt hrow (Script.tries_le _ _)

/-- No more attempts are made at rows that are all decided. -/
theorem roundsOf_le_of_settled (hnone : openRows all script made = []) {later : Nat}
    (hle : made ≤ later) : roundsOf all script later ≤ made := by
  by_contra hlt
  obtain ⟨row, hmem, hrow⟩ := lt_roundsOf_iff.mp (Nat.lt_of_not_le hlt)
  rw [(Script.of_not_isOpen (openRows_eq_nil_iff.mp hnone row hmem) hle).2] at hrow
  exact Nat.not_le_of_lt hrow (Script.tries_le _ _)

/-- An attempt is made if some row is open. -/
theorem lt_roundsOf_of_ne_nil (hsome : openRows all script made ≠ []) {later : Nat}
    (hlt : made < later) : made < roundsOf all script later := by
  obtain ⟨row, hrow⟩ := List.exists_mem_of_ne_nil _ hsome
  obtain ⟨hmem, hopen⟩ := mem_openRows.mp hrow
  exact lt_roundsOf_iff.mpr ⟨row, hmem, Script.lt_tries_of_isOpen hopen hlt⟩

/-- The delay in front of an attempt does nothing to the rows. -/
theorem Reached.paused (h : Reached all script extra made b w) (retry : RetryConfig) :
    Reached all script extra made b (paused retry made w) :=
  ⟨h.latest, h.busy, h.retried, h.consumed, h.others,
    ⟨h.unhindered.reports, h.unhindered.located, h.unhindered.answered⟩⟩

/-- All attempts at a batch. They stop early only where the delay in front of one of them is out of
range. -/
theorem Reached.attempts (h : Reached all script extra made b w)
    (hindices : (all.map BatchRow.index).Nodup)
    (hkeys : (all.map fun row => row.mutation.rowKey).Nodup)
    (hcancel : ∀ row ∈ all, ∀ o ∈ script row.mutation.rowKey, o.shouldCancel = false)
    (txn : TxnId) {retry : RetryConfig} {random : Nat → Float} (hdrawn : Drawn retry random made w)
    (left : Nat) :
    ((∃ k, made ≤ k ∧ k < roundsOf all script (made + left) ∧ ¬ retry.Fits random k) ∧
      ((attempts retry true txn left made (openRows all script made) b).run w).1.1 =
        .error .outOfRange) ∨
    ((∀ k, made ≤ k → k < roundsOf all script (made + left) → retry.Fits random k) ∧
      ∃ b' w', (attempts retry true txn left made (openRows all script made) b).run w =
          ((.ok (openRows all script (made + left),
            max made (roundsOf all script (made + left))), b'), w') ∧
        Reached all script extra (made + left) b' w' ∧
        Drawn retry random (max made (roundsOf all script (made + left))) w') := by
  induction left generalizing made b w with
  | zero =>
    have hover : roundsOf all script (made + 0) ≤ made := roundsOf_le all script made
    rw [Nat.max_eq_left hover]
    exact .inr ⟨fun k hle hlt => absurd hlt (Nat.not_lt.mpr (Nat.le_trans hover hle)), b, w, rfl, h,
      hdrawn⟩
  | succ left ih =>
    have hsum : made + 1 + left = made + (left + 1) := by omega
    have hlater : made ≤ made + (left + 1) := Nat.le_add_right made (left + 1)
    rw [attempts]
    by_cases hnone : openRows all script made = []
    · have hover := roundsOf_le_of_settled hnone hlater
      rw [Nat.max_eq_left hover, hnone, openRows_eq_nil_of_le hnone hlater]
      exact .inr ⟨fun k hle hlt => absurd hlt (Nat.not_lt.mpr (Nat.le_trans hover hle)), b, w, rfl,
        h.settled hnone hlater, hdrawn⟩
    · rw [if_neg (by simpa using hnone)]
      simp only
      have hnow : made < roundsOf all script (made + (left + 1)) :=
        lt_roundsOf_of_ne_nil hnone (by omega)
      rw [run_bind, run_pause, hdrawn.head]
      cases hdelay : retry.drawnDelay? (random (retry.draws made)) made with
      | none => exact .inl ⟨⟨made, Nat.le_refl made, hnow, not_not_intro hdelay⟩, rfl⟩
      | some delay =>
        obtain ⟨b', w', hrun, hreached⟩ := (h.paused retry).attempt hindices hkeys hcancel txn
        have hdrawn' : Drawn retry random (made + 1) w' := by
          refine hdrawn.pause.congr ?_
          rw [← random_attempt true txn _ _ (Pipeline.paused retry made w), hrun]
        have hmax : max (made + 1) (roundsOf all script (made + (left + 1))) =
            max made (roundsOf all script (made + (left + 1))) := by omega
        simp only
        rw [run_bind, hrun]
        have hrest := ih hreached hdrawn'
        rw [hsum, hmax] at hrest
        rcases hrest with ⟨⟨k, hle, hlt, hout⟩, hstop⟩ | ⟨hfits, hgo⟩
        · exact .inl ⟨⟨k, Nat.le_of_succ_le hle, hlt, hout⟩, hstop⟩
        · refine .inr ⟨fun k hle hlt => ?_, hgo⟩
          rcases Nat.eq_or_lt_of_le hle with rfl | hlater
          · exact Option.ne_none_iff_exists'.mpr ⟨delay, hdelay⟩
          · exact hfits k hlater hlt

theorem mutation_batchRows (rows : List Mutation) :
    (batchRows rows).map BatchRow.mutation = rows := by
  rw [batchRows, List.map_map]
  exact List.zipIdx_map_fst 0 rows

theorem mem_batchRows {rows : List Mutation} {row : BatchRow} (h : row ∈ batchRows rows) :
    rows[row.index]? = some row.mutation := by
  obtain ⟨x, hx, rfl⟩ := List.mem_map.mp h
  exact List.mem_zipIdx_iff_getElem?.mp hx

theorem mem_batchRows_of_getElem? {rows : List Mutation} {i : Nat} {mutation : Mutation}
    (h : rows[i]? = some mutation) : ⟨i, mutation⟩ ∈ batchRows rows :=
  List.mem_map.mpr ⟨(mutation, i), List.mem_zipIdx_iff_getElem?.mpr h, rfl⟩

/-- A batch before its first attempt. -/
theorem reached_start (p : Pipeline) (rows : List Mutation)
    (h : Unhindered p.recorder w (extra + rows.length)) :
    Reached (batchRows rows) w.substrate.scriptOf extra 0
      ⟨p.state, p.recorder, .zero, Array.replicate rows.length none⟩ w := by
  refine ⟨fun row hrow => ?_, ?_, ?_, fun row _ => rfl, fun key _ => rfl, ?_⟩
  · have hlt := (List.getElem?_eq_some_iff.mp (mem_batchRows hrow)).1
    simp [hlt]
  · simp [Script.busy, Script.tries, Script.decisive?, WriteStats.zero]
  · simp [Script.tries, Script.decisive?, WriteStats.zero]
  · refine h.mono (Nat.add_le_add_left ?_ extra)
    refine Nat.le_trans List.filter_sublist.length_le (Nat.le_of_eq ?_)
    simp [batchRows]

/-- What a batch does to its rows, when it is carried on behind `w` and ends in `b` and `w'`. -/
structure Treats (limit : Nat) (rows : List Mutation) (w : WriteSide ScriptedSubstrate)
    (b : BatchRun) (w' : WriteSide ScriptedSubstrate) : Prop where
  outcomes : b.outcomes =
    rows.map fun row => Script.fate limit (w.substrate.scriptOf row.rowKey)
  busy : b.counts.regionTooBusy =
    (rows.map fun row => Script.busy limit (w.substrate.scriptOf row.rowKey)).sum
  retried : b.counts.retried =
    (rows.map fun row => Script.tries limit (w.substrate.scriptOf row.rowKey) - 1).sum
  consumed : ∀ row ∈ rows, w'.substrate.scriptOf row.rowKey =
    (w.substrate.scriptOf row.rowKey).drop
      (Script.tries limit (w.substrate.scriptOf row.rowKey))
  others : ∀ key, key ∉ rows.map Mutation.rowKey →
    w'.substrate.scriptOf key = w.substrate.scriptOf key

/-- What is reached behind the last attempt. -/
theorem Reached.treats {rows : List Mutation} {w₀ : WriteSide ScriptedSubstrate} {limit : Nat}
    (h : Reached (batchRows rows) w₀.substrate.scriptOf extra limit b w) (hlimit : 0 < limit)
    (hlength : b.outcomes.length = rows.length) : Treats limit rows w₀ b w := by
  have hmap {α : Type} (f : Mutation → α) :
      (batchRows rows).map (fun row => f row.mutation) = rows.map f := by
    conv_rhs => rw [← mutation_batchRows rows, List.map_map]
    rfl
  refine ⟨?_, ?_, ?_, fun row hrow => ?_, fun key hkey => h.others key ?_⟩
  · refine List.ext_getElem (by simpa using hlength) fun i hi hi' => ?_
    have hlt : i < rows.length := by simpa using hi'
    have hlatest := h.latest _ (mem_batchRows_of_getElem? (List.getElem?_eq_getElem hlt))
    rw [if_neg (Nat.ne_of_gt hlimit)] at hlatest
    obtain ⟨hsize, hlatest⟩ := Array.getElem?_eq_some_iff.mp hlatest
    simp only [BatchRun.outcomes, List.getElem_map, Array.getElem_toList, hlatest]
    rfl
  · rw [h.busy, ← hmap]
  · rw [h.retried, ← hmap]
  · obtain ⟨i, hi⟩ := List.getElem?_of_mem hrow
    exact h.consumed _ (mem_batchRows_of_getElem? hi)
  · rwa [hmap Mutation.rowKey]

theorem conclude_permissive (pending : List BatchRow) (made : Nat) (place : Place) (b : BatchRun) :
    conclude true pending made place b =
      completed place { b with counts.thrown := b.counts.thrown + pending.length } := by
  cases pending <;> rfl

/-- What becomes of a batch of rows with different keys: the rows are treated by their own scripts,
unless the delay in front of one of its attempts is out of range. -/
theorem run_of_unhindered {p : Pipeline} (hpermissive : p.options.isPermissive = true)
    (hattempts : 0 < p.retry.maxAttempts) {rows : List Mutation}
    (h : Unhindered p.recorder w (extra + rows.length))
    (hkeys : (rows.map Mutation.rowKey).Nodup)
    (hcancel : ∀ row ∈ rows, ∀ o ∈ w.substrate.scriptOf row.rowKey, o.shouldCancel = false)
    (txn : TxnId) :
    let rounds := Script.rounds p.retry.maxAttempts
      (rows.map fun row => w.substrate.scriptOf row.rowKey)
    ((∃ k < rounds, ¬ p.retry.Fits w.random k) ∧
      ((p.run txn rows).run w).1.1 = .error .outOfRange) ∨
    ((∀ k < rounds, p.retry.Fits w.random k) ∧
      ∃ r b' w', (p.run txn rows).run w = ((.ok r, b'), w') ∧ r.outcomes = b'.outcomes ∧
        Treats p.retry.maxAttempts rows w b' w' ∧ Drawn p.retry w.random rounds w' ∧
        Unhindered b'.recorder w' extra) := by
  intro rounds
  have hindices : ((batchRows rows).map BatchRow.index).Nodup :=
    index_batchRows rows ▸ List.nodup_range
  have hkeys' : ((batchRows rows).map fun row => row.mutation.rowKey).Nodup := by
    rw [← mutation_batchRows rows, List.map_map] at hkeys
    exact hkeys
  have hmem {row : BatchRow} (hrow : row ∈ batchRows rows) : row.mutation ∈ rows :=
    List.mem_of_getElem? (mem_batchRows hrow)
  have hall : openRows (batchRows rows) w.substrate.scriptOf 0 = batchRows rows :=
    List.filter_eq_self.mpr fun _ _ => rfl
  have hrounds : roundsOf (batchRows rows) w.substrate.scriptOf p.retry.maxAttempts = rounds := by
    unfold rounds
    conv_rhs => rw [← mutation_batchRows rows, List.map_map]
    rfl
  have hreached := (reached_start p rows h).attempts hindices hkeys'
    (fun row hrow => hcancel row.mutation (hmem hrow)) txn (drawn_start p.retry w)
    p.retry.maxAttempts
  rw [Nat.zero_add, hall, hrounds, Nat.zero_max] at hreached
  have haccounts := (accounts_run p txn rows).run w
  rw [run, hpermissive] at haccounts ⊢
  rcases hreached with ⟨⟨k, -, hlt, hout⟩, hstop⟩ | ⟨hfits, b, w', hgo, hreached, hdrawn⟩
  · exact .inl ⟨⟨k, hlt, hout⟩, stops_bind hstop fun _ _ => rfl⟩
  · refine .inr ⟨fun k hlt => hfits k (Nat.zero_le k) hlt, ?_⟩
    rw [run_bind, hgo] at haccounts ⊢
    simp only [run_bind, place, run_read, conclude_permissive] at haccounts ⊢
    have hlength : b.outcomes.length = rows.length := haccounts.1.length
    have htreats := hreached.treats hattempts hlength
    exact ⟨_, _, _, rfl, rfl, ⟨htreats.outcomes, htreats.busy, htreats.retried,
      htreats.consumed, htreats.others⟩, hdrawn, hreached.unhindered.mono (Nat.le_add_right _ _)⟩

end Pipeline

end TxnEngine
