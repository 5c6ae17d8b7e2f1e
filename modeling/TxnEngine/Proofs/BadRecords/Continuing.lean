import TxnEngine.Proofs.BadRecords.FirstFree
import TxnEngine.Proofs.BadRecords.OtherFiles

/-!
# What a recorder keeps

Whatever a recorder does, its names stay the same, every file that was there is still there, and a
file that it has open is there. The name that a new recorder gets was free.

Results:
* `Recorder.yields_close`, `Recorder.yields_record`: a recorder goes on.
* `Recorder.run_new_eq`, `Recorder.run_forWorker_eq`: a new recorder reserves a free name, or nothing
  is changed.
-/

namespace TxnEngine

namespace Recorder

open Program Directory

/-! ## What a recorder keeps -/

/-- A recorder that goes on in another directory: its names are the same, every file that was there
is still there, and so is its own if it is open. -/
structure Continues (r : Recorder) (d : Directory) (r' : Recorder) (d' : Directory) : Prop where
  logicalName : r'.logicalName = r.logicalName
  physicalName : r'.physicalName = r.physicalName
  stays : ∀ name, d.present name = true → d'.present name = true
  opened : (r.sink.isSome = true → d.present r.physicalName = true) →
    r'.sink.isSome = true → d'.present r.physicalName = true

namespace Continues

variable {r r' r'' : Recorder} {d d' d'' : Directory}

theorem refl (r : Recorder) (d : Directory) : r.Continues d r d :=
  ⟨rfl, rfl, fun _ => id, id⟩

theorem trans (h : r.Continues d r' d') (h' : r'.Continues d' r'' d'') : r.Continues d r'' d'' := by
  refine ⟨h'.logicalName.trans h.logicalName, h'.physicalName.trans h.physicalName,
    fun name hname => h'.stays name (h.stays name hname), fun hopened hsome => ?_⟩
  rw [← h.physicalName]
  exact h'.opened (fun hsome' => h.physicalName ▸ h.opened hopened hsome') hsome

end Continues

end Recorder

namespace Directory

variable {d : Directory}

theorem present_insert (d : Directory) (name other : String) (content : Content) (faults : Faults) :
    ({ d with files := d.files.insert name content, faults } : Directory).present other =
      (decide (name = other) || d.present other) := by
  unfold present Table.has
  by_cases hname : name = other
  · subst hname
    simp [Table.find?_insert_self]
  · simp [hname, Table.find?_insert_of_ne]

theorem contents?_eq_none_iff (name : String) :
    d.contents? name = none ↔ d.present name = false := by
  simp [contents?, present, Table.has]

end Directory

namespace Recorder

open Program Directory

variable {r : Recorder} {d : Directory}

/-- No step of a recorder ends it. -/
theorem upkept_continues (r : Recorder) (d : Directory) :
    Upkept fun r' d' => r.Continues d r' d' ∧ r'.Confined where
  confined h := h.2
  counted h _ := ⟨⟨h.1.logicalName, h.1.physicalName, h.1.stays, h.1.opened⟩, h.2⟩
  closed h := ⟨⟨h.1.logicalName, h.1.physicalName, h.1.stays, nofun⟩, nofun⟩
  tried h _ _ := ⟨⟨h.1.logicalName, h.1.physicalName, h.1.stays, h.1.opened⟩, h.2⟩
  created {r' d'} h faults _ := by
    refine ⟨h.1.trans ⟨rfl, rfl, ?_, ?_⟩, h.2⟩
    · intro name hname
      rw [present_insert, hname, Bool.or_true]
    · intro hopened hsome
      rw [present_insert, hopened hsome, Bool.or_true]
  onSink {r' d'} h _ f s hname _ := by
    refine ⟨h.1.trans ⟨rfl, rfl, ?_, ?_⟩, ?_⟩
    · intro name hpresent
      refine (present_insert d' s.name name _ _).trans ?_
      rw [hpresent, Bool.or_true]
    · intro _ _
      refine (present_insert d' s.name r'.physicalName _ _).trans ?_
      rw [hname, decide_eq_true rfl, Bool.true_or]
    · rintro _ ⟨⟩
      exact hname

/-- A file is closed. -/
theorem yields_close (hconfined : r.Confined) (d : Directory) :
    r.close.Yields (fun answer d' => r.Continues d answer.2 d') d :=
  ((upkept_continues r d).close ⟨.refl r d, hconfined⟩).1

/-- A row is recorded. -/
theorem yields_record (hconfined : r.Confined) (d : Directory) (text code : String) :
    (r.record text code).Yields (fun answer d' => r.Continues d answer.2 d') d :=
  ((upkept_continues r d).record ⟨.refl r d, hconfined⟩ text code).1

/-! ## The names that are given out -/

/-- A free name is reserved, or nothing is changed. -/
theorem run_reserveFrom_eq (hfaults : d.faults = .none) (candidate : Nat → String) (fuel n : Nat) :
    (∃ e, (reserveFrom candidate fuel n).run d = (.error e, d)) ∨
      ∃ name, d.Free name ∧ (reserveFrom candidate fuel n).run d =
        (.ok name, { d with reserved := name :: d.reserved }) := by
  obtain ⟨e, hrun, -⟩ | ⟨m, -, hunreserved, hrun⟩ := reserveFrom_cases candidate hfaults fuel n
  · exact .inl ⟨e, hrun⟩
  · have habsent := (run_reserveFrom hfaults hrun).2.1
    exact .inr ⟨candidate m, ⟨hunreserved, (Directory.contents?_eq_none_iff _).mp habsent⟩, hrun⟩

theorem run_new_eq (hfaults : d.faults = .none) (source : String) (tolerance : Int) :
    (∃ e, (Recorder.new source tolerance).run d = (.error e, d)) ∨
      ∃ name, d.Free name ∧ (Recorder.new source tolerance).run d =
        (.ok ⟨name, name, tolerance, 0, none, false⟩,
          { d with reserved := name :: d.reserved }) := by
  unfold Recorder.new
  rw [run_bind]
  obtain ⟨e, hrun⟩ | ⟨name, hfree, hrun⟩ :=
    run_reserveFrom_eq hfaults (logicalCandidate (sourceStem source)) candidateLimit 0
  · exact .inl ⟨e, by rw [hrun]; rfl⟩
  · exact .inr ⟨name, hfree, by rw [hrun]; rfl⟩

theorem run_forWorker_eq (hfaults : d.faults = .none) (r : Recorder) (worker : String) :
    (∃ e, (r.forWorker worker).run d = (.error e, d)) ∨
      ∃ name, d.Free name ∧ (r.forWorker worker).run d =
        (.ok ⟨r.logicalName, name, r.tolerance, 0, none, false⟩,
          { d with reserved := name :: d.reserved }) := by
  unfold Recorder.forWorker
  rw [run_bind]
  obtain ⟨e, hrun⟩ | ⟨name, hfree, hrun⟩ :=
    run_reserveFrom_eq hfaults (workerCandidate (r.logicalName ++ "." ++ worker)) candidateLimit 0
  · exact .inl ⟨e, by rw [hrun]; rfl⟩
  · exact .inr ⟨name, hfree, by rw [hrun]; rfl⟩

end Recorder

end TxnEngine
