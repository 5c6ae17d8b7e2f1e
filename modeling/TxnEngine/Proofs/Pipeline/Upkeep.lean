import TxnEngine.Proofs.BadRecords.OtherFiles
import TxnEngine.Proofs.Pipeline.Reporting

/-!
# What a batch keeps up

What holds of the recorder of a pipeline and of the write side holds behind every batch if each
action of a batch keeps it up. Two things are kept up: the pipeline touches no file but its own, and
everyone who observes the calls that it makes observes the same ones.

Results:
* `Upkept.submit`: what every action keeps up is kept up by a batch.
* `upkept_minds`, `run_discard`, `run_retire_spares`: a pipeline touches no file but its own.
* `contents_retire`: a pipeline that is retired leaves its own file as it is.
* `run_submit_behind`, `reports_submit_behind`: a batch in a series of its own, among the calls of
  other pipelines.
-/

namespace TxnEngine

namespace Pipeline

open Program Directory

variable {σ : Type} [Substrate σ]

/-- What each action of a batch keeps up of its recorder and of the write side. -/
structure Upkept (holds : Option Recorder → WriteSide σ → Prop) : Prop where
  locate : ∀ {r w}, holds r w → locate.Yields (fun _ w' => holds r w') w
  write : ∀ {r w}, holds r w → ∀ address txn rows,
    (write address txn rows).Yields (fun _ w' => holds r w') w
  invalidate : ∀ {r w}, holds r w → invalidate.Yields (fun _ w' => holds r w') w
  pause : ∀ {r w}, holds r w → ∀ retry made, holds r (paused retry made w)
  record : ∀ {r : Recorder} {w}, holds (some r) w → ∀ text code,
    (r.record text code).Yields (fun answer d => holds (some answer.2) { w with directory := d })
      w.directory

omit [Substrate σ] in
theorem conclude_recorder (permissive : Bool) (pending : List BatchRow) (made : Nat) (p : Place)
    (b : BatchRun) : (conclude permissive pending made p b).2.recorder = b.recorder := by
  unfold conclude
  cases pending with
  | nil => rfl
  | cons first rest =>
    simp only
    split_ifs <;> rfl

omit [Substrate σ] in
theorem absorb_recorder (p : Pipeline) (answer : Except Error BatchResult) (b : BatchRun) :
    (p.absorb answer b).recorder = b.recorder ∧ (p.absorb answer b).options = p.options := by
  unfold absorb
  split <;> exact ⟨rfl, rfl⟩

namespace Upkept

variable {holds : Option Recorder → WriteSide σ → Prop} (hkept : Upkept holds) {b : BatchRun}
  {w : WriteSide σ}

include hkept

theorem rejectRow (h : holds b.recorder w) (permissive mixed : Bool) (row : BatchRow)
    (o : Outcome) : (rejectRow permissive mixed row o b).Yields
      (fun done w' => holds done.2.recorder w') w := by
  unfold Pipeline.rejectRow
  cases hrecorder : (if permissive = true then b.recorder else none) with
  | none => exact .pure h
  | some r =>
    have hr : b.recorder = some r := by
      split_ifs at hrecorder
      exact hrecorder
    have hrecorded : (onDirectory (r.record row.mutation.reportText o.code.errorCode)).Yields
        (fun answer w' => holds (some answer.2) w') w := by
      have hyields := hkept.record (hr ▸ h) row.mutation.reportText o.code.errorCode
      unfold Yields at hyields ⊢
      rw [run_onDirectory]
      exact hyields
    refine .seq hrecorded fun recorded w₁ h₁ => ?_
    obtain ⟨exceeded, r'⟩ := recorded
    rcases exceeded with e | _ | _
    · exact .pure h₁
    · exact .pure h₁
    · exact .atomically_bind (.pure h₁)

theorem sortRows (permissive mixed : Bool) (outcomes : List (BatchRow × Outcome))
    (h : holds b.recorder w) :
    (sortRows permissive mixed outcomes b).Yields (fun done w' => holds done.2.recorder w') w := by
  induction outcomes generalizing b w with
  | nil => exact .pure h
  | cons x rest ih =>
    obtain ⟨row, o⟩ := x
    simp only [Pipeline.sortRows]
    split_ifs
    · exact ih h
    · refine .seq (ih (b := deferRow mixed row o b) h) fun done w₁ h₁ => ?_
      obtain ⟨answer, b₁⟩ := done
      cases answer <;> exact .pure h₁
    · refine .seq (hkept.rejectRow h permissive mixed row o) fun done w₁ h₁ => ?_
      obtain ⟨answer, b₁⟩ := done
      cases answer with
      | error e => exact .pure h₁
      | ok _ => exact ih h₁

theorem attempt (permissive : Bool) (txn : TxnId) (pending : List BatchRow)
    (h : holds b.recorder w) :
    (attempt permissive txn pending b).Yields (fun done w' => holds done.2.recorder w') w := by
  unfold Pipeline.attempt
  refine .seq (hkept.locate h) fun route w₁ h₁ => ?_
  cases route with
  | error e => exact .pure h₁
  | ok address =>
    refine .seq (hkept.write h₁ address txn _) fun answer w₂ h₂ => ?_
    cases answer with
    | error e =>
      simp only
      split_ifs
      · refine .pure ?_
        rw [(noteAll_recorder b pending _).1]
        exact h₂
      · exact .pure h₂
    | ok response =>
      simp only
      split
      · exact .pure h₂
      · refine .seq (hkept.sortRows permissive _ _ h₂) fun done w₃ h₃ => ?_
        obtain ⟨answer, b₁⟩ := done
        cases answer with
        | error e => exact .pure h₃
        | ok pending =>
          simp only
          split_ifs
          · exact .seq (hkept.invalidate h₃) fun _ w₄ h₄ => .pure h₄
          · exact .pure h₃

theorem attempts (retry : RetryConfig) (permissive : Bool) (txn : TxnId) (left made : Nat)
    (pending : List BatchRow) (h : holds b.recorder w) :
    (attempts retry permissive txn left made pending b).Yields
      (fun done w' => holds done.2.recorder w') w := by
  induction left generalizing made pending b w with
  | zero => exact .pure h
  | succ left ih =>
    have hstart : holds (startAttempt made pending b).recorder w := by
      rw [startAttempt_recorder]
      exact h
    simp only [Pipeline.attempts]
    split_ifs
    · exact .pure h
    · refine yields_pause_bind ?_
      cases retry.drawnDelay? (w.random 0) made with
      | none => exact .pure (hkept.pause hstart retry made)
      | some delay =>
        have hpaused := hkept.pause hstart retry made
        refine .seq (hkept.attempt permissive txn pending hpaused) fun done w₁ h₁ => ?_
        obtain ⟨answer, b₁⟩ := done
        cases answer with
        | error e => exact .pure h₁
        | ok pending' => exact ih _ _ h₁

theorem run (p : Pipeline) (txn : TxnId) (rows : List Mutation) (h : holds p.recorder w) :
    (p.run txn rows).Yields (fun done w' => holds done.2.recorder w') w := by
  unfold Pipeline.run
  refine .seq (hkept.attempts _ _ _ _ _ _ h) fun done w₁ h₁ => ?_
  obtain ⟨answer, b₁⟩ := done
  cases answer with
  | error e => exact .pure h₁
  | ok pending =>
    refine .atomically_bind (.pure ?_)
    rw [conclude_recorder]
    exact h₁

theorem submit (p : Pipeline) (t : Transaction) (rows : List Mutation) (h : holds p.recorder w) :
    (p.submit t rows).Yields (fun done w' => holds done.2.recorder w') w := by
  unfold Pipeline.submit
  split_ifs
  · exact .pure h
  · exact .pure h
  · refine .seq (hkept.run p t.id rows h) fun done w₁ h₁ => ?_
    refine .pure ?_
    rw [(absorb_recorder p done.1 done.2).1]
    exact h₁

end Upkept

/-! ## Files of others -/

/-- The name of the file that a pipeline reports to. -/
def fileName? (p : Pipeline) : Option String :=
  p.recorder.map Recorder.physicalName

/-- The file that a pipeline has open is its own. -/
def Confined (p : Pipeline) : Prop :=
  ∀ r, p.recorder = some r → r.Confined

/-- A recorder that reports under the name, if there is one, has touched no other file since the
directory was `d₀`. -/
structure Minds (name? : Option String) (d₀ : Directory) (recorder : Option Recorder)
    (d : Directory) : Prop where
  named : recorder.map Recorder.physicalName = name?
  confined : ∀ r, recorder = some r → r.Confined
  spares : ∀ other, name? ≠ some other → Spares other d₀ d
  reserved : d.reserved = d₀.reserved

omit [Substrate σ] in
theorem Minds.refl {p : Pipeline} (hconfined : p.Confined) (d : Directory) :
    Minds p.fileName? d p.recorder d :=
  ⟨rfl, hconfined, fun other _ => .refl other d, rfl⟩

/-- A batch touches no file but that of its pipeline. -/
theorem upkept_minds (name? : Option String) (d₀ : Directory) :
    Upkept (σ := σ) fun recorder w => Minds name? d₀ recorder w.directory := by
  refine ⟨fun h => ?_, fun h address txn rows => h, fun h => h, fun h _ _ => h,
    fun {r w} h text code => ?_⟩
  · unfold Yields locate
    rw [run_atomically]
    exact h
  · have hname : some r.physicalName = name? := h.named
    have hkeeps : r.KeepsTo r.physicalName d₀ w.directory :=
      ⟨rfl, h.confined r rfl, fun other hother => h.spares other (by simp [← hname, hother.symm]),
        h.reserved⟩
    obtain ⟨hnamed, hconfined, hspares, hreserved⟩ := hkeeps.record text code
    refine ⟨(congrArg some hnamed).trans hname, ?_, fun other hother => ?_, hreserved⟩
    · rintro _ ⟨⟩
      exact hconfined
    · exact hspares other fun heq => hother (by rw [← hname, heq])

theorem submit_options {p p' : Pipeline} {t : Transaction} {rows : List Mutation}
    {answer : Except Error BatchResult} {w w' : WriteSide σ}
    (hrun : (p.submit t rows).run w = ((answer, p'), w')) : p'.options = p.options := by
  have hoptions : ((p.submit t rows).run w).1.2.options = p.options := by
    unfold submit
    split_ifs
    · rfl
    · rfl
    · rw [run_bind]
      exact (absorb_recorder p _ _).2
  rwa [hrun] at hoptions

omit [Substrate σ] in
/-- A pipeline is let go without touching the file of another one, and its own file is left as it
is. -/
theorem run_discard {p : Pipeline} (hconfined : p.Confined) (w : WriteSide σ) :
    ∃ d, p.discard.run w = ((), { w with directory := d }) ∧
      ∀ other, p.fileName? ≠ some other → Spares other w.directory d := by
  unfold discard fileName?
  cases hr : p.recorder with
  | none => exact ⟨w.directory, rfl, fun other _ => .refl other _⟩
  | some r =>
    refine ⟨_, run_onDirectory r.discard w, fun other hother => ?_⟩
    exact Recorder.yields_discard (hconfined r hr) w.directory other fun heq =>
      hother (by rw [heq]; rfl)

omit [Substrate σ] in
/-- A pipeline that is retired closes its file and lets go of it. -/
theorem run_retire (p : Pipeline) {r : Recorder} (hr : p.recorder = some r) (w : WriteSide σ) :
    p.retire.run w =
      let closed := r.close.run w.directory
      ((), { w with directory := (closed.1.2.discard.run closed.2).2 }) := by
  unfold retire finish
  obtain ⟨answer, r', d', hclose⟩ : ∃ answer r' d', r.close.run w.directory = ((answer, r'), d') :=
    ⟨_, _, _, rfl⟩
  cases answer <;> simp [hr, run_onDirectory, hclose]

omit [Substrate σ] in
theorem run_retire_spares {p : Pipeline} (hconfined : p.Confined) (w : WriteSide σ) :
    ∃ d, p.retire.run w = ((), { w with directory := d }) ∧
      ∀ other, p.fileName? ≠ some other → Spares other w.directory d := by
  cases hr : p.recorder with
  | none => exact ⟨w.directory, by simp [retire, finish, hr], fun other _ => .refl other _⟩
  | some r =>
    refine ⟨_, p.run_retire hr w, fun other hother => ?_⟩
    have hkeeps := (Recorder.KeepsTo.refl (hconfined r hr) w.directory).close
    have hne : other ≠ r.physicalName := fun heq => hother (by rw [heq, fileName?, hr]; rfl)
    refine (hkeeps.spares other hne).trans ?_
    exact Recorder.yields_discard hkeeps.confined _ other (by rw [hkeeps.named]; exact hne)

omit [Substrate σ] in
/-- The file of a pipeline that is retired stays as it is. -/
theorem contents_retire {p : Pipeline} {r : Recorder} (hr : p.recorder = some r)
    {w : WriteSide σ} {file : Option Bytes} (h : r.Holds w.directory file) :
    (p.retire.run w).2.directory.contents? r.physicalName = file := by
  obtain ⟨d', hclose, -, hholds⟩ := Recorder.run_close h
  rw [p.run_retire hr, hclose]
  exact Recorder.contents_discard hholds

/-! ## A series of its own -/

end Pipeline

/-- The same write side, with its calls observed anew behind the `calls` of an earlier series. -/
def WriteSide.behind {σ : Type} (w : WriteSide σ) (calls : List Exchange) :
    WriteSide (Observed σ) :=
  { w with substrate := ⟨w.substrate, calls⟩ }

namespace Pipeline

open Program

variable {σ : Type} [Substrate σ]

/-- Everyone who observes the calls of a batch observes the same ones. -/
theorem upkept_observed (exchanges calls : List Exchange) :
    Upkept (σ := Observed (Observed σ)) fun _ w => ∃ made,
      w.substrate.inner.exchanges = exchanges ++ made ∧ w.substrate.exchanges = calls ++ made := by
  refine ⟨fun h => ?_, ?_, fun h => h, fun h _ _ => h, fun h text code => h⟩
  · unfold Yields locate
    rw [run_atomically]
    exact h
  · rintro r w ⟨made, hinner, houter⟩ address txn rows
    refine ⟨made ++ [⟨rows, (Substrate.write address txn rows w.substrate.inner.inner).1⟩], ?_, ?_⟩
    · rw [← List.append_assoc, ← hinner]
      rfl
    · rw [← List.append_assoc, ← houter]
      rfl

/-- A batch does the same in a series of its own as among all calls. -/
theorem run_submit_behind (p : Pipeline) (t : Transaction) (rows : List Mutation)
    (w : WriteSide (Observed σ)) (calls : List Exchange) :
    ∃ made, ((p.submit t rows).run w).2.substrate.exchanges = w.substrate.exchanges ++ made ∧
      (p.submit t rows).run (w.behind calls) =
        (((p.submit t rows).run w).1, ((p.submit t rows).run w).2.behind (calls ++ made)) := by
  have hmirrors := submit_mirrors Observed.fronts p t rows (w.behind calls)
  obtain ⟨made, hinner, houter⟩ :=
    (upkept_observed w.substrate.exchanges calls).submit p t rows (w := w.behind calls)
      ⟨[], by rw [List.append_nil]; rfl, by rw [List.append_nil]; rfl⟩
  have hrun : (p.submit t rows).run w = _ := hmirrors
  refine ⟨made, ?_, ?_⟩
  · rw [hrun]
    exact hinner
  · rw [hrun, ← houter]
    rfl

/-- What a batch does to the reports of a series. -/
theorem reports_submit_behind {tolerance : Int} {name : String} {p : Pipeline}
    (hpermissive : p.options.isPermissive = true) {w : WriteSide (Observed σ)}
    {calls : List Exchange} (h : InStep tolerance name p (w.behind calls)) (t : Transaction)
    (rows : List Mutation) {answer : Except Error BatchResult} {p' : Pipeline}
    {w' : WriteSide (Observed σ)} (hrun : (p.submit t rows).run w = ((answer, p'), w'))
    (hreturns : answer ≠ .error .outOfRange) :
    ∃ made, w'.substrate.exchanges = w.substrate.exchanges ++ made ∧
      InStep tolerance name p' (w'.behind (calls ++ made)) ∧
      Tells tolerance (rejectsOf tolerance calls).length
        (rejectsOf tolerance (calls ++ made)).length answer
        (Honest (w.behind calls) (w'.behind (calls ++ made))) := by
  obtain ⟨made, hmade, hbehind⟩ := run_submit_behind p t rows w calls
  rw [hrun] at hmade hbehind
  obtain ⟨answer', p₁, w₁, hrun₁, hinStep, -, -, htells⟩ :=
    reports_submit hpermissive h t rows (by rw [hbehind]; exact hreturns)
  rw [hbehind] at hrun₁
  cases hrun₁
  refine ⟨made, hmade, hinStep, ?_⟩
  rw [h.ignored, hinStep.ignored] at htells
  exact htells

end Pipeline

end TxnEngine
