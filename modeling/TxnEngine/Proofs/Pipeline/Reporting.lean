import TxnEngine.Proofs.BadRecords.Reports
import TxnEngine.Proofs.Pipeline.Observed

/-!
# Counts, the bad-record file and the tolerance agree

A permissive pipeline counts the rows that are refused for good, its recorder counts and reports
them, and the row that exceeds the tolerance ends its batch. To say which rows these are, the calls
of the substrate are observed: the rejects in the answers so far determine the statistics, the
count, the file, and which batches end with an error about the tolerance.

Results:
* `Exchange.rejects`, `rejectsOf`: the rows refused in the calls so far.
* `reports_sortRows`, `reports_attempt`, `reports_attempts`: the reports behind every row, every
  attempt and all attempts.
* `reports_submit`: the reports behind a batch, however it ends.
* `submits_report`: the reports of a whole load.
-/

namespace TxnEngine

/-! ## Refused rows -/

/-- The rows that a call refuses for good, in order. A call that fails or that ends its batch refuses
none. -/
def Exchange.rejects (x : Exchange) : List BadRecord :=
  match x.answer with
  | .error _ => []
  | .ok response =>
    let outcomes := x.rows.zipIdx.map fun (row, i) => BadRecord.mk row (response.outcomeFor i)
    if outcomes.any fun y => y.outcome.shouldCancel then []
    else outcomes.filter fun y => y.outcome.isTerminalReject

/-- The rejects of a call that are processed when `count` rows were refused before: a batch ends at
the first one that leaves the count above the tolerance. -/
def processed (tolerance : Int) : (count : Nat) → List BadRecord → List BadRecord
  | _, [] => []
  | count, x :: rest =>
    if exceedsTolerance (count + 1) tolerance then [x]
    else x :: processed tolerance (count + 1) rest

/-- The rows refused in a sequence of calls, in order. -/
def rejectsOf (tolerance : Int) (exchanges : List Exchange) : List BadRecord :=
  exchanges.foldl (fun before x => before ++ processed tolerance before.length x.rejects) []

theorem rejectsOf_concat (tolerance : Int) (exchanges : List Exchange) (x : Exchange) :
    rejectsOf tolerance (exchanges ++ [x]) = rejectsOf tolerance exchanges ++
      processed tolerance (rejectsOf tolerance exchanges).length x.rejects := by
  rw [rejectsOf, List.foldl_append]
  rfl

theorem rejectsOf_concat_of_nil {x : Exchange} (h : x.rejects = []) (tolerance : Int)
    (exchanges : List Exchange) :
    rejectsOf tolerance (exchanges ++ [x]) = rejectsOf tolerance exchanges := by
  rw [rejectsOf_concat, h, processed, List.append_nil]

/-- A row is refused that leaves the count above the tolerance. -/
def Breaches (tolerance : Int) (before after : Nat) : Prop :=
  ∃ i, before < i ∧ i ≤ after ∧ exceedsTolerance i tolerance = true

theorem not_breaches_self {tolerance : Int} {n : Nat} : ¬ Breaches tolerance n n := by
  rintro ⟨i, hlt, hle, -⟩
  omega

/-- Whether an error says that the tolerance is exceeded. -/
def Error.isBreach : Error → Bool
  | .toleranceExceeded _ _ _ => true
  | _ => false

namespace Pipeline

open Program

variable {σ : Type}

/-- The recorder of a pipeline has counted and reported these rejects, and so have its
statistics. -/
structure Reporting (tolerance : Int) (name : String) (rejects : List BadRecord)
    (recorder : Option Recorder) (ignored : Nat) (d : Directory) : Prop where
  recorder : ∃ r, recorder = some r ∧ r.tolerance = tolerance ∧ r.physicalName = name ∧
    r.Reports d rejects
  ignored : ignored = rejects.length

/-- What an answer says of the tolerance, when the count of refused rows has gone from `before` to
`after`: it is an error about the tolerance if a row has left the count above it, and only then. The
latter is known of parts that raise no such error themselves. -/
structure Tells (tolerance : Int) (before after : Nat) {α : Type} (answer : Except Error α)
    (honest : Prop) : Prop where
  le : before ≤ after
  told : Breaches tolerance before after → ∃ e, answer = .error e ∧ e.isBreach = true
  only : ∀ e, answer = .error e → e.isBreach = true → honest → Breaches tolerance before after

theorem Tells.same {tolerance : Int} {n : Nat} {α : Type} {answer : Except Error α} {honest : Prop}
    (h : ∀ e, answer = .error e → e.isBreach = true → ¬ honest) :
    Tells tolerance n n answer honest :=
  ⟨Nat.le_refl n, fun hbreach => absurd hbreach not_breaches_self,
    fun e he hbreach hhonest => absurd hhonest (h e he hbreach)⟩

theorem Tells.ok {tolerance : Int} {n : Nat} {α : Type} {a : α} {honest : Prop} :
    Tells tolerance n n (.ok a : Except Error α) honest :=
  .same fun e he => by cases he

/-- The next refused row leaves the count above the tolerance, and the answer says so. -/
theorem Tells.exceeds {tolerance : Int} {n : Nat} {α : Type} {e : Error} {honest : Prop}
    (hexceeds : exceedsTolerance (n + 1) tolerance = true) (hbreach : e.isBreach = true) :
    Tells tolerance n (n + 1) (.error e : Except Error α) honest :=
  ⟨Nat.le_succ n, fun _ => ⟨e, rfl, hbreach⟩,
    fun _ _ _ _ => ⟨n + 1, Nat.lt_succ_self n, Nat.le_refl _, hexceeds⟩⟩

/-- The next refused row is within the tolerance. -/
theorem Tells.next {tolerance : Int} {n : Nat} {α : Type} {a : α} {honest : Prop}
    (hwithin : ¬ exceedsTolerance (n + 1) tolerance = true) :
    Tells tolerance n (n + 1) (.ok a : Except Error α) honest := by
  refine ⟨Nat.le_succ n, ?_, fun e he => by cases he⟩
  rintro ⟨i, hlt, hle, hi⟩
  obtain rfl : i = n + 1 := by omega
  exact absurd hi hwithin

/-- A part that goes on has not left the count above the tolerance. -/
theorem Tells.trans {tolerance : Int} {l m n : Nat} {α β : Type} {a : α} {answer : Except Error β}
    {honest honest' : Prop} (h : Tells tolerance l m (.ok a : Except Error α) honest)
    (h' : Tells tolerance m n answer honest') : Tells tolerance l n answer honest' := by
  refine ⟨Nat.le_trans h.le h'.le, ?_, fun e he hbreach hhonest => ?_⟩
  · rintro ⟨i, hlt, hle, hexceeds⟩
    rcases Nat.lt_or_ge m i with hlater | hearlier
    · exact h'.told ⟨i, hlater, hle, hexceeds⟩
    · obtain ⟨e, he, -⟩ := h.told ⟨i, hlt, hearlier, hexceeds⟩
      cases he
  · obtain ⟨i, hlt, hle, hexceeds⟩ := h'.only e he hbreach hhonest
    exact ⟨i, Nat.lt_of_le_of_lt h.le hlt, hle, hexceeds⟩

/-- The same with another answer that says the same about the tolerance. -/
theorem Tells.map {tolerance : Int} {m n : Nat} {α β : Type} {answer : Except Error α}
    {answer' : Except Error β} {honest : Prop} (h : Tells tolerance m n answer honest)
    (hsame : ∀ e, e.isBreach = true → (answer = .error e ↔ answer' = .error e)) :
    Tells tolerance m n answer' honest := by
  refine ⟨h.le, fun hbreach => ?_, fun e he hbreach => h.only e ((hsame e hbreach).mpr he) hbreach⟩
  obtain ⟨e, he, hbreaches⟩ := h.told hbreach
  exact ⟨e, (hsame e hbreaches).mp he, hbreaches⟩

/-- Neither of two answers that go on is an error. -/
theorem Tells.map_ok {tolerance : Int} {m n : Nat} {α β : Type} {a : α} {a' : β} {honest : Prop}
    (h : Tells tolerance m n (.ok a : Except Error α) honest) :
    Tells tolerance m n (.ok a' : Except Error β) honest :=
  h.map fun e _ => by simp

theorem Tells.mono {tolerance : Int} {m n : Nat} {α : Type} {answer : Except Error α}
    {honest honest' : Prop} (h : Tells tolerance m n answer honest) (himp : honest' → honest) :
    Tells tolerance m n answer honest' :=
  ⟨h.le, h.told, fun e he hbreach hhonest => h.only e he hbreach (himp hhonest)⟩

/-! ## One attempt -/

variable {tolerance : Int} {name : String} {base : Nat} {rejects : List BadRecord} {b : BatchRun}
  {w : WriteSide (Observed σ)}

/-- A row that is refused for good is counted and reported. Where it leaves the count above the
tolerance, it ends the batch. -/
theorem reports_rejectRow (mixed : Bool) (row : BatchRow) (o : Outcome)
    (h : Reporting tolerance name rejects b.recorder (base + b.counts.ignored) w.directory) :
    ((rejectRow true mixed row o b).run w).1.1 = .error .outOfRange ∨
    ∃ answer b' w', (rejectRow true mixed row o b).run w = ((answer, b'), w') ∧
      Reporting tolerance name (rejects ++ [⟨row.mutation, o⟩]) b'.recorder
        (base + b'.counts.ignored) w'.directory ∧
      w'.substrate = w.substrate ∧ w'.locator = w.locator ∧
      if exceedsTolerance (rejects.length + 1) tolerance then
        ∃ e, answer = .error e ∧ e.isBreach = true
      else answer = .ok () := by
  obtain ⟨⟨r, hr, htolerance, hname, hreports⟩, hignored⟩ := h
  rcases hreports.record ⟨row.mutation, o⟩ with
    hstop | ⟨r', d', hrun, htolerance', hname', hreports'⟩
  · refine .inl ?_
    simp [rejectRow, hr, run_onDirectory, hstop]
  · rw [htolerance] at hrun
    have hreporting : Reporting tolerance name (rejects ++ [⟨row.mutation, o⟩]) (some r')
        (base + (b.counts.ignored + 1)) d' := by
      refine ⟨⟨r', rfl, htolerance'.trans htolerance, hname'.trans hname, hreports'⟩, ?_⟩
      rw [List.length_append, List.length_singleton, ← hignored, Nat.add_assoc]
    have hreject := run_rejectRow_of_record mixed row o hr hrun
    split_ifs with hexceeds
    · rw [hexceeds] at hreject
      exact .inr ⟨_, _, _, hreject, hreporting, rfl, rfl, _, rfl, rfl⟩
    · rw [Bool.eq_false_iff.mpr hexceeds] at hreject
      exact .inr ⟨_, _, _, hreject, hreporting, rfl, rfl, rfl⟩

/-- The rows of a call that are refused for good. -/
def rejectsIn (outcomes : List (BatchRow × Outcome)) : List BadRecord :=
  (outcomes.filter fun x => x.2.isTerminalReject).map fun x => ⟨x.1.mutation, x.2⟩

theorem rejectsIn_cons (row : BatchRow) (o : Outcome) (rest : List (BatchRow × Outcome)) :
    rejectsIn ((row, o) :: rest) =
      if o.isTerminalReject then ⟨row.mutation, o⟩ :: rejectsIn rest else rejectsIn rest := by
  rw [rejectsIn, List.filter_cons]
  split_ifs <;> rfl

/-- What the outcomes of a call that does not end its batch do to the reports. -/
theorem reports_sortRows (mixed : Bool) {outcomes : List (BatchRow × Outcome)}
    (hcancel : ∀ x ∈ outcomes, x.2.shouldCancel = false)
    (h : Reporting tolerance name rejects b.recorder (base + b.counts.ignored) w.directory) :
    ((sortRows true mixed outcomes b).run w).1.1 = .error .outOfRange ∨
    ∃ answer b' w', (sortRows true mixed outcomes b).run w = ((answer, b'), w') ∧
      Reporting tolerance name
        (rejects ++ processed tolerance rejects.length (rejectsIn outcomes)) b'.recorder
        (base + b'.counts.ignored) w'.directory ∧
      w'.substrate = w.substrate ∧ w'.locator = w.locator ∧
      Tells tolerance rejects.length
        (rejects ++ processed tolerance rejects.length (rejectsIn outcomes)).length answer True := by
  induction outcomes generalizing b w rejects with
  | nil =>
    refine .inr ⟨.ok [], b, w, rfl, ?_, rfl, rfl, ?_⟩
    · simpa [rejectsIn, processed] using h
    · simpa [rejectsIn, processed] using Tells.ok
  | cons x rest ih =>
    obtain ⟨row, o⟩ := x
    obtain ⟨hnow, hlater⟩ := List.forall_mem_cons.mp hcancel
    simp only [sortRows]
    by_cases hsuccess : o.isSuccess = true
    · have hreject : ¬ o.isTerminalReject = true := by
        simp [(Outcome.isTerminalReject_of_isSuccess hsuccess).1]
      rw [if_pos hsuccess, rejectsIn_cons, if_neg hreject]
      exact ih hlater h
    rw [if_neg hsuccess]
    by_cases hretry : o.canRetry = true
    · have hreject : ¬ o.isTerminalReject = true := by
        simp [(Outcome.class_of_canRetry hretry).2.1]
      rw [if_pos hretry, rejectsIn_cons, if_neg hreject]
      rcases ih (b := deferRow mixed row o b) hlater h with
        hstop | ⟨answer, b', w', hrun, hreporting, hsubstrate, hlocator, htells⟩
      · exact .inl (stops_bind hstop fun _ _ => rfl)
      · rw [run_bind, hrun]
        cases answer with
        | error e => exact .inr ⟨.error e, b', w', rfl, hreporting, hsubstrate, hlocator, htells⟩
        | ok pending =>
          exact .inr ⟨.ok (row :: pending), b', w', rfl, hreporting, hsubstrate, hlocator,
            htells.map_ok⟩
    · have hreject := Outcome.isTerminalReject_of_decided (by simpa using hsuccess)
        (by simpa using hretry) hnow
      rw [if_neg hretry, rejectsIn_cons, if_pos hreject, processed]
      rcases reports_rejectRow mixed row o h with
        hstop | ⟨answer, b₁, w₁, hrun, hreporting, hsubstrate, hlocator, hanswer⟩
      · exact .inl (stops_bind hstop fun _ _ => rfl)
      rw [run_bind, hrun]
      have hlength : (rejects ++ [BadRecord.mk row.mutation o]).length = rejects.length + 1 := by
        rw [List.length_append, List.length_singleton]
      split_ifs with hexceeds
      · rw [if_pos hexceeds] at hanswer
        obtain ⟨e, rfl, hbreach⟩ := hanswer
        refine .inr ⟨.error e, b₁, w₁, rfl, hreporting, hsubstrate, hlocator, ?_⟩
        rw [hlength]
        exact .exceeds hexceeds hbreach
      · rw [if_neg hexceeds] at hanswer
        subst hanswer
        have hstep : Tells tolerance rejects.length (rejects.length + 1)
            (.ok () : Except Error Unit) True := .next hexceeds
        rcases ih hlater hreporting with
          hstop | ⟨answer, b', w', hrun', hreporting', hsubstrate', hlocator', htells⟩
        · exact .inl hstop
        · rw [hlength, List.append_assoc] at hreporting' htells
          exact .inr ⟨answer, b', w', hrun', hreporting', hsubstrate'.trans hsubstrate,
            hlocator'.trans hlocator, hstep.trans htells⟩

/-- Neither the locator nor the substrate itself raises an error about the tolerance. -/
def Honest (w w' : WriteSide (Observed σ)) : Prop :=
  (∀ e ∈ w.locator.refusals, e.isBreach = false) ∧
    ∀ x ∈ w'.substrate.exchanges, ∀ e, x.answer = .error e → e.isBreach = false

theorem honest_of_answered {w w' : WriteSide (Observed σ)} (hroutes : w.locator.refusals = [])
    (hanswered : ∀ x ∈ w'.substrate.exchanges, x.answer.isOk = true) : Honest w w' := by
  refine ⟨fun e he => ?_, fun x hx e he => ?_⟩
  · rw [hroutes] at he
    cases he
  · have hok := hanswered x hx
    rw [he] at hok
    cases hok

/-- Behind a part that started behind `w` the rows refused in all calls are counted and reported, and
its answer tells whether one of them has left the count above the tolerance. -/
structure Carries (tolerance : Int) (name : String) (w : WriteSide (Observed σ)) {α : Type}
    (answer : Except Error α) (recorder : Option Recorder) (ignored : Nat)
    (w' : WriteSide (Observed σ)) : Prop where
  reporting : Reporting tolerance name (rejectsOf tolerance w'.substrate.exchanges) recorder ignored
    w'.directory
  routes : w'.locator.refusals ⊆ w.locator.refusals
  tells : Tells tolerance (rejectsOf tolerance w.substrate.exchanges).length
    (rejectsOf tolerance w'.substrate.exchanges).length answer (Honest w w')

theorem Carries.trans {α β : Type} {a : α} {answer : Except Error β}
    {recorder recorder' : Option Recorder} {ignored ignored' : Nat}
    {w₁ w' : WriteSide (Observed σ)}
    (h : Carries tolerance name w (.ok a : Except Error α) recorder ignored w₁)
    (h' : Carries tolerance name w₁ answer recorder' ignored' w') :
    Carries tolerance name w answer recorder' ignored' w' :=
  ⟨h'.reporting, fun _ he => h.routes (h'.routes he), (h.tells.trans h'.tells).mono
    fun hhonest => ⟨fun e he => hhonest.1 e (h.routes he), hhonest.2⟩⟩

theorem Carries.error {α β : Type} {e : Error} {recorder : Option Recorder} {ignored : Nat}
    {w' : WriteSide (Observed σ)}
    (h : Carries tolerance name w (.error e : Except Error α) recorder ignored w') :
    Carries tolerance name w (.error e : Except Error β) recorder ignored w' := by
  refine ⟨h.reporting, h.routes, h.tells.map fun e' _ => ?_⟩
  rw [Except.error.injEq, Except.error.injEq]

theorem noteAll_recorder (b : BatchRun) (rows : List BatchRow) (o : Outcome) :
    (b.noteAll rows o).recorder = b.recorder ∧ (b.noteAll rows o).counts = b.counts := by
  induction rows generalizing b with
  | nil => exact ⟨rfl, rfl⟩
  | cons row rest ih => exact ih (b.note row.index o)

/-- The outcomes that a batch reads from an answer. -/
theorem outcomes_of_answered (pending : List BatchRow) (response : BatchResponse) :
    (pending.map BatchRow.mutation).zipIdx.map
        (fun x => BadRecord.mk x.1 (response.outcomeFor x.2)) =
      (answered response pending).map fun x => BadRecord.mk x.1.mutation x.2 := by
  rw [answered, List.zipIdx_map, List.map_map, List.map_map]
  rfl

/-- The rows that an answer refuses, when it does not end the batch. -/
theorem rejects_of_answered {pending : List BatchRow} {response : BatchResponse}
    (hcancel : ∀ x ∈ answered response pending, x.2.shouldCancel = false) :
    (Exchange.mk (pending.map BatchRow.mutation) (.ok response)).rejects =
      rejectsIn (answered response pending) := by
  have hnone : ¬ ((answered response pending).map fun x => BadRecord.mk x.1.mutation x.2).any
      (fun x => x.outcome.shouldCancel) = true := by
    simpa using hcancel
  simp only [Exchange.rejects, outcomes_of_answered]
  rw [if_neg hnone, List.filter_map]
  rfl

theorem rejects_of_cancelled {pending : List BatchRow} {response : BatchResponse}
    {found : BatchRow × Outcome}
    (hfound : (answered response pending).find? (fun x => x.2.shouldCancel) = some found) :
    (Exchange.mk (pending.map BatchRow.mutation) (.ok response)).rejects = [] := by
  have hany : ((answered response pending).map fun x => BadRecord.mk x.1.mutation x.2).any
      (fun x => x.outcome.shouldCancel) = true := by
    rw [List.any_map, List.any_eq_true]
    exact ⟨found, List.mem_of_find?_eq_some hfound, List.find?_some hfound⟩
  simp only [Exchange.rejects, outcomes_of_answered]
  rw [if_pos hany]

/-- A call that refuses no row leaves the reports as they are. -/
theorem Carries.of_no_rejects {x : Exchange} (hx : x.rejects = []) {recorder : Option Recorder}
    {ignored : Nat}
    (h : Reporting tolerance name (rejectsOf tolerance w.substrate.exchanges) recorder ignored
      w.directory) (inner : σ) {α : Type} {answer : Except Error α}
    (hanswer : ∀ e, answer = .error e → e.isBreach = true →
      ¬ Honest w { w with substrate := ⟨inner, w.substrate.exchanges ++ [x]⟩ }) :
    Carries tolerance name w answer recorder ignored
      { w with substrate := ⟨inner, w.substrate.exchanges ++ [x]⟩ } := by
  have hsame := rejectsOf_concat_of_nil hx tolerance w.substrate.exchanges
  refine ⟨?_, List.Subset.refl _, ?_⟩ <;> rw [hsame]
  · exact h
  · exact .same hanswer

/-- The outcomes of a call that does not end its batch are carried. -/
theorem Carries.of_sorted {pending : List BatchRow} {response : BatchResponse}
    (hcancel : ∀ x ∈ answered response pending, x.2.shouldCancel = false) (inner : σ)
    (h : Reporting tolerance name (rejectsOf tolerance w.substrate.exchanges) b.recorder
      (base + b.counts.ignored) w.directory) :
    let w₁ : WriteSide (Observed σ) := { w with
      substrate := ⟨inner, w.substrate.exchanges ++
        [⟨pending.map BatchRow.mutation, .ok response⟩]⟩ }
    let sorted := (sortRows true (isMixed (answered response pending))
      (answered response pending) b).run w₁
    sorted.1.1 = .error .outOfRange ∨
    ∃ answer b' w', sorted = ((answer, b'), w') ∧
      Carries tolerance name w answer b'.recorder (base + b'.counts.ignored) w' := by
  intro w₁ sorted
  have hrejects := rejectsOf_concat tolerance w.substrate.exchanges
    ⟨pending.map BatchRow.mutation, .ok response⟩
  rw [rejects_of_answered hcancel] at hrejects
  rcases reports_sortRows (isMixed (answered response pending)) hcancel (w := w₁) h with
    hstop | ⟨answer, b', w', hrun, hreporting, hsubstrate, hlocator, htells⟩
  · exact .inl hstop
  · have hexchanges : rejectsOf tolerance w'.substrate.exchanges = _ :=
      (congrArg (fun s => rejectsOf tolerance s.exchanges) hsubstrate).trans hrejects
    rw [← hexchanges] at hreporting htells
    exact .inr ⟨answer, b', w', hrun, hreporting, hlocator ▸ List.Subset.refl _,
      htells.mono fun _ => trivial⟩

variable [Substrate σ]

/-- What one attempt does to the reports. -/
theorem reports_attempt (txn : TxnId) (pending : List BatchRow)
    (h : Reporting tolerance name (rejectsOf tolerance w.substrate.exchanges) b.recorder
      (base + b.counts.ignored) w.directory) :
    ((attempt true txn pending b).run w).1.1 = .error .outOfRange ∨
    ∃ answer b' w', (attempt true txn pending b).run w = ((answer, b'), w') ∧
      Carries tolerance name w answer b'.recorder (base + b'.counts.ignored) w' := by
  cases hroutes : w.locator.refusals with
  | cons e rest =>
    refine .inr ⟨.error e, b, _, run_attempt_of_refusal hroutes true txn pending b, h, ?_,
      Tells.same ?_⟩
    · rw [hroutes]
      exact List.subset_cons_self e rest
    · rintro _ ⟨⟩ hbreach ⟨hhonest, -⟩
      have := hhonest e (hroutes ▸ List.mem_cons_self)
      rw [hbreach] at this
      cases this
  | nil =>
    have hlocate := run_locate hroutes
    obtain ⟨answer, inner, hcall⟩ : ∃ answer inner,
        Substrate.write ⟨w.locator.partition, w.locator.server, w.locator.generation⟩ txn
          (pending.map BatchRow.mutation) w.substrate =
        (answer, ⟨inner, w.substrate.exchanges ++ [⟨pending.map BatchRow.mutation, answer⟩]⟩) :=
      ⟨_, _, rfl⟩
    cases answer with
    | error e =>
      rw [run_attempt_of_error hlocate hcall]
      split_ifs with hretryable
      · obtain ⟨hrecorder, hcounts⟩ := noteAll_recorder b pending (.notRun (some e.message))
        refine .inr ⟨.ok pending, _, _, rfl, ?_⟩
        rw [hrecorder, hcounts]
        exact .of_no_rejects rfl h inner fun e he => by cases he
      · refine .inr ⟨.error e, _, _, rfl, .of_no_rejects rfl h inner ?_⟩
        rintro _ ⟨⟩ hbreach ⟨-, hhonest⟩
        have := hhonest ⟨_, .error e⟩ (List.mem_append_right _ List.mem_cons_self) e rfl
        rw [hbreach] at this
        cases this
    | ok response =>
      cases hfind : (answered response pending).find? fun x => x.2.shouldCancel with
      | some found =>
        refine .inr ⟨_, _, _, run_attempt_of_cancel hlocate hcall hfind true b,
          .of_no_rejects (rejects_of_cancelled hfind) h inner ?_⟩
        rintro _ ⟨⟩ ⟨⟩
      | none =>
        have hcancel : ∀ x ∈ answered response pending, x.2.shouldCancel = false := by
          simpa using hfind
        rcases Carries.of_sorted hcancel inner h with hstop | ⟨answer, b', w', hsort, hcarries⟩
        · rw [run_attempt_of_answers hlocate hcall rfl hcancel rfl]
          exact .inl hstop
        · refine .inr ⟨answer, b', _, run_attempt_of_answers hlocate hcall rfl hcancel hsort, ?_⟩
          split_ifs
          · exact ⟨hcarries.reporting, hcarries.routes, hcarries.tells⟩
          · exact hcarries

/-! ## A batch -/

/-- What all attempts do to the reports. -/
theorem reports_attempts (retry : RetryConfig) (txn : TxnId) (left made : Nat)
    (pending : List BatchRow)
    (h : Reporting tolerance name (rejectsOf tolerance w.substrate.exchanges) b.recorder
      (base + b.counts.ignored) w.directory) :
    ((attempts retry true txn left made pending b).run w).1.1 = .error .outOfRange ∨
    ∃ answer b' w', (attempts retry true txn left made pending b).run w = ((answer, b'), w') ∧
      Carries tolerance name w answer b'.recorder (base + b'.counts.ignored) w' := by
  have hidle (a : List BatchRow × Nat) {b : BatchRun} {w : WriteSide (Observed σ)}
      (h : Reporting tolerance name (rejectsOf tolerance w.substrate.exchanges) b.recorder
        (base + b.counts.ignored) w.directory) :
      Carries tolerance name w (.ok a : Except Error _) b.recorder (base + b.counts.ignored) w :=
    ⟨h, List.Subset.refl _, Tells.ok⟩
  induction left generalizing made pending b w with
  | zero => exact .inr ⟨_, b, w, rfl, hidle _ h⟩
  | succ left ih =>
    rw [attempts]
    split_ifs
    · exact .inr ⟨_, b, w, rfl, hidle _ h⟩
    simp only
    rw [run_bind, run_pause]
    cases retry.drawnDelay? (w.random 0) made with
    | none => exact .inl rfl
    | some delay =>
      have hignored : (startAttempt made pending b).counts.ignored = b.counts.ignored := by
        rw [startAttempt_counts]
      rw [← startAttempt_recorder made pending b, ← hignored] at h
      simp only
      rcases reports_attempt (w := paused retry made w) txn pending h with
        hstop | ⟨answer, b₁, w₁, hrun, hcarries⟩
      · exact .inl (stops_bind hstop fun _ _ => rfl)
      · have hcarries : Carries tolerance name w answer b₁.recorder (base + b₁.counts.ignored) w₁ :=
          ⟨hcarries.reporting, hcarries.routes, hcarries.tells⟩
        rw [run_bind, hrun]
        cases answer with
        | error e => exact .inr ⟨.error e, b₁, w₁, rfl, hcarries.error⟩
        | ok pending' =>
          rcases ih (made + 1) pending' hcarries.reporting with
            hstop | ⟨answer, b', w', hrun', hcarries'⟩
          · exact .inl hstop
          · exact .inr ⟨answer, b', w', hrun', hcarries.trans hcarries'⟩

/-- What a batch does to the reports. -/
theorem reports_run {p : Pipeline} (hpermissive : p.options.isPermissive = true) (txn : TxnId)
    (rows : List Mutation)
    (h : Reporting tolerance name (rejectsOf tolerance w.substrate.exchanges) p.recorder base
      w.directory) :
    ((p.run txn rows).run w).1.1 = .error .outOfRange ∨
    ∃ answer b' w', (p.run txn rows).run w = ((answer, b'), w') ∧
      Carries tolerance name w answer b'.recorder (base + b'.counts.ignored) w' := by
  rw [run, hpermissive]
  rcases reports_attempts (b := ⟨p.state, p.recorder, .zero, Array.replicate rows.length none⟩)
      p.retry txn p.retry.maxAttempts 0 (batchRows rows) h with
    hstop | ⟨answer, b', w', hrun, hcarries⟩
  · exact .inl (stops_bind hstop fun _ _ => rfl)
  · rw [run_bind, hrun]
    cases answer with
    | error e => exact .inr ⟨.error e, b', w', rfl, hcarries.error⟩
    | ok a =>
      obtain ⟨pending, made⟩ := a
      simp only [run_bind, place, run_read, conclude_permissive]
      refine .inr ⟨_, _, w', rfl, hcarries.reporting, hcarries.routes, ?_⟩
      exact hcarries.tells.map_ok

/-! ## A load -/

/-- The rows refused in all calls so far are in the pipeline's statistics, and its recorder has
counted and reported them. -/
def InStep (tolerance : Int) (name : String) (p : Pipeline) (w : WriteSide (Observed σ)) : Prop :=
  Reporting tolerance name (rejectsOf tolerance w.substrate.exchanges) p.recorder p.stats.ignored
    w.directory

theorem absorb_of_returns (p : Pipeline) {answer : Except Error BatchResult}
    (hreturns : answer ≠ .error .outOfRange) (b : BatchRun) :
    (p.absorb answer b).recorder = b.recorder ∧
      (p.absorb answer b).stats = p.stats + b.counts ∧
      (p.absorb answer b).options = p.options := by
  unfold absorb
  split
  · exact absurd rfl hreturns
  · exact ⟨rfl, rfl, rfl⟩
  · exact ⟨rfl, rfl, rfl⟩

/-- What a call of the pipeline does to the reports, however it ends. -/
theorem reports_submit {p : Pipeline} (hpermissive : p.options.isPermissive = true)
    (h : InStep tolerance name p w) (t : Transaction) (rows : List Mutation)
    (hreturns : ((p.submit t rows).run w).1.1 ≠ .error .outOfRange) :
    ∃ answer p' w', (p.submit t rows).run w = ((answer, p'), w') ∧
      InStep tolerance name p' w' ∧ p'.options = p.options ∧
      w'.locator.refusals ⊆ w.locator.refusals ∧
      Tells tolerance p.stats.ignored p'.stats.ignored answer (Honest w w') := by
  have hrefused (cause : Misuse)
      (hrun : (p.submit t rows).run w = ((.error (.invalidOperation cause), p), w)) :
      ∃ answer p' w', (p.submit t rows).run w = ((answer, p'), w') ∧
        InStep tolerance name p' w' ∧ p'.options = p.options ∧
        w'.locator.refusals ⊆ w.locator.refusals ∧
        Tells tolerance p.stats.ignored p'.stats.ignored answer (Honest w w') := by
    refine ⟨_, p, w, hrun, h, rfl, List.Subset.refl _, Tells.same ?_⟩
    rintro _ ⟨⟩ ⟨⟩
  by_cases hactive : t.isActive = true
  · by_cases hwrites : t.readOnly = false
    · rw [run_submit p hactive hwrites] at hreturns ⊢
      rcases reports_run hpermissive t.id rows h with hstop | ⟨answer, b, w', hrun, hcarries⟩
      · exact absurd hstop hreturns
      · rw [hrun] at hreturns ⊢
        obtain ⟨hrecorder, hstats, hoptions⟩ := p.absorb_of_returns hreturns b
        have hignored : (p.absorb answer b).stats.ignored = p.stats.ignored + b.counts.ignored :=
          congrArg WriteStats.ignored hstats
        have htells := hcarries.tells
        rw [← h.ignored, ← hcarries.reporting.ignored, ← hignored] at htells
        refine ⟨answer, _, w', rfl, ?_, hoptions, hcarries.routes, htells⟩
        rw [InStep, hrecorder, hignored]
        exact hcarries.reporting
    · exact hrefused .readOnly (by simp [submit, hactive, hwrites])
  · exact hrefused .notActive (by simp [submit, hactive])

/-- What any number of calls do to the reports. -/
theorem inStep_submitAll {p : Pipeline} (hpermissive : p.options.isPermissive = true)
    (h : InStep tolerance name p w) (parts : List (Transaction × List Mutation))
    (hreturns : .error .outOfRange ∉ ((p.submitAll parts).run w).1.1) :
    InStep tolerance name ((p.submitAll parts).run w).1.2 ((p.submitAll parts).run w).2 ∧
      ((p.submitAll parts).run w).1.2.options = p.options ∧
      ((p.submitAll parts).run w).2.locator.refusals ⊆ w.locator.refusals := by
  induction parts generalizing p w with
  | nil => exact ⟨h, rfl, List.Subset.refl _⟩
  | cons part rest ih =>
    obtain ⟨t, rows⟩ := part
    have hcons := run_submitAll_cons p t rows rest (w := w) rfl
    rw [hcons] at hreturns ⊢
    simp only [List.mem_cons, not_or] at hreturns
    obtain ⟨answer, p', w', hrun, hinStep, hoptions, hroutes, -⟩ :=
      reports_submit hpermissive h t rows fun heq => hreturns.1 heq.symm
    rw [hrun] at hreturns ⊢
    obtain ⟨hinStep', hoptions', hroutes'⟩ :=
      ih (hoptions ▸ hpermissive) hinStep hreturns.2
    exact ⟨hinStep', hoptions'.trans hoptions, fun _ he => hroutes (hroutes' he)⟩

theorem count_newline_lines (rejects : List BadRecord) :
    (rejects.flatMap BadRecord.line).count Bytes.newline = rejects.length := by
  induction rejects with
  | nil => rfl
  | cons x rest ih =>
    rw [List.flatMap_cons, List.count_append, x.count_newline_line, ih, List.length_cons,
      Nat.add_comm]

/-- Over a whole load the statistics, the recorder, its file and the errors about the tolerance
agree. A pipeline starts with a fresh recorder, in a directory without faults, as a new one does,
and then carries batches, none of which stops out of range. Behind any number of them the recorder
has counted the rows refused so far, which are the ignored rows of the statistics; its file has one
line for each of them in order, up to the first that exceeds the tolerance, and is not there before
the first one; and the file is closed once the tolerance is exceeded. The next batch ends with an
error about the tolerance exactly if it refuses a row that leaves the count above the tolerance,
provided that the substrate and the locator keep to errors of their own. -/
theorem submits_report {r : Recorder} (hfresh : r.Fresh w.directory)
    (haccepted : w.directory.place.refusal? r.physicalName = none) {p : Pipeline}
    (hpermissive : p.options.isPermissive = true) (hrecorder : p.recorder = some r)
    (hstats : p.stats = .zero) (hunused : w.substrate.exchanges = [])
    (parts : List (Transaction × List Mutation)) (t : Transaction) (rows : List Mutation) :
    let before := (p.submitAll parts).run w
    let after := (before.1.2.submit t rows).run before.2
    let rejects := rejectsOf r.tolerance before.2.substrate.exchanges
    let lines := (BadRecord.kept r.tolerance rejects).flatMap BadRecord.line
    .error .outOfRange ∉ before.1.1 →
    (∃ r', before.1.2.recorder = some r' ∧ r'.count = before.1.2.stats.ignored ∧
      (r'.isClosed = true ↔ 0 ≤ r.tolerance ∧ r.tolerance < before.1.2.stats.ignored)) ∧
    before.1.2.stats.ignored = rejects.length ∧
    before.2.directory.contents? r.physicalName = (if rejects = [] then none else some lines) ∧
    lines.count Bytes.newline = (BadRecord.kept r.tolerance rejects).length ∧
    (after.1.1 ≠ .error .outOfRange → Honest w after.2 →
      ((∃ e, after.1.1 = .error e ∧ e.isBreach = true) ↔
        Breaches r.tolerance before.1.2.stats.ignored after.1.2.stats.ignored)) := by
  intro before after rejects lines hreturns
  have hstart : InStep r.tolerance r.physicalName p w := by
    refine ⟨⟨r, hrecorder, rfl, rfl, ?_⟩, ?_⟩ <;> rw [hunused]
    · exact hfresh.reports haccepted
    · rw [hstats]
      rfl
  obtain ⟨hinStep, hoptions, hroutes⟩ := inStep_submitAll hpermissive hstart parts hreturns
  have hsubmit := reports_submit (hoptions ▸ hpermissive) hinStep t rows
  obtain ⟨⟨r', hr', htolerance, hname, hreports⟩, hignored⟩ := hinStep
  refine ⟨⟨r', hr', hreports.count.trans hignored.symm, ?_⟩, hignored, ?_, count_newline_lines _,
    fun hreturns' hhonest => ?_⟩
  · rw [hreports.closed, htolerance, hignored]
    exact exceedsTolerance_iff
  · rw [← hname, hreports.holds.contents, htolerance]
    rfl
  · obtain ⟨answer, p', w', hrun, -, -, -, htells⟩ := hsubmit hreturns'
    have hafter : after = ((answer, p'), w') := hrun
    rw [hafter] at hhonest ⊢
    have hhonest' : Honest before.2 w' := ⟨fun e he => hhonest.1 e (hroutes he), hhonest.2⟩
    exact ⟨fun ⟨e, he, hbreach⟩ => htells.only e he hbreach hhonest', htells.told⟩

/-- With a tolerance of one, a load of two batches whose rows all meet a busy region, are sent again
and are then refused: the first row is reported, and the second ends its batch, so that the third is
not counted. -/
theorem submits_report_third_row :
    let made := (Recorder.new "rows.csv" 1).run (.memory "bad/")
    let r : Recorder := ⟨"rows.bad", "rows.bad", 1, 0, none, false⟩
    let p : Pipeline := ⟨.noDelay 2, .permissive "rows.csv" 1, some r, .zero, .succeeded⟩
    let t : Transaction := .new ⟨7⟩ false
    let w : WriteSide (Observed ScriptedSubstrate) :=
      ⟨⟨{ ScriptedSubstrate.empty with
          overalls := [.regionTooBusy none, .indexNotSetup none, .regionTooBusy none,
            .indexNotSetup none] }, []⟩, .localDefault, made.2, fun _ => 0⟩
    ∃ before after, (p.submitAll [(t, [.insert [1] [97]])]).run w = before ∧
      (before.1.2.submit t [.insert [2] [98], .insert [3] [99]]).run before.2 = after ∧
      before.2.directory.contents? r.physicalName =
        some (BadRecord.line ⟨.insert [1] [97], .indexNotSetup none⟩) ∧
      before.1.2.stats.ignored = 1 ∧ after.1.2.stats.ignored = 2 ∧ after.1.2.stats.retried = 3 ∧
      ∃ e, after.1.1 = .error e ∧ e.isBreach = true := by
  intro made r p t w
  have hmade : made = (.ok r, w.directory) := Prod.ext (by decide +kernel) rfl
  have hload := submits_report (.ofLoad rfl hmade) rfl (p := p) rfl rfl rfl rfl
    [(t, [.insert [1] [97]])] t [.insert [2] [98], .insert [3] [99]] (by decide +kernel)
  obtain ⟨before, hbefore⟩ : ∃ before, (p.submitAll [(t, [.insert [1] [97]])]).run w = before :=
    ⟨_, rfl⟩
  obtain ⟨after, hafter⟩ : ∃ after,
      (before.1.2.submit t [.insert [2] [98], .insert [3] [99]]).run before.2 = after := ⟨_, rfl⟩
  have hrejects : rejectsOf r.tolerance before.2.substrate.exchanges =
      [⟨.insert [1] [97], .indexNotSetup none⟩] := by
    rw [← hbefore]
    decide +kernel
  have hends : after.1.1 ≠ .error .outOfRange ∧ after.1.2.stats.ignored = 2 ∧
      after.1.2.stats.retried = 3 ∧ ∀ x ∈ after.2.substrate.exchanges, x.answer.isOk = true := by
    rw [← hafter, ← hbefore]
    decide +kernel
  obtain ⟨hreturns, hignored', hretried, hanswered⟩ := hends
  simp only [hbefore, hafter, hrejects] at hload
  obtain ⟨-, hignored, hfile, -, hbreach⟩ := hload
  rw [hignored', hignored] at hbreach
  exact ⟨before, after, hbefore, hafter, hfile.trans (by decide +kernel), hignored, hignored',
    hretried, (hbreach hreturns (honest_of_answered rfl hanswered)).mpr ⟨2, by decide⟩⟩

end Pipeline

end TxnEngine
