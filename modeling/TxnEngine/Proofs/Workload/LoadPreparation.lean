import TxnEngine.Proofs.BadRecords.FirstFree
import TxnEngine.Proofs.Engine.Aborts
import TxnEngine.Workload.Load

/-!
# The names of a load

A load gives every worker a file of its own and rows of its own: no two workers can be given the
same file, whichever of its candidates each is given, and no two send rows with the same key. As
long as the names in the directory are not too many, all workers are given a file.

Results:
* `Workload.rowKey_loadRow_inj`: the keys of all rows of a load differ.
* `Recorder.workerCandidate_inj`: the candidates of all workers of a load differ.
* `Workload.run_prepareLoad`: the recorders of a load.
-/

namespace TxnEngine

/-! ## Numbers in texts -/

theorem Bytes.ofText_injective : Function.Injective Bytes.ofText := by
  intro a b hab
  rw [ofText, ofText, ByteArray.toList, ByteArray.toList, toList_loop, toList_loop] at hab
  exact String.toByteArray_inj.mp (ByteArray.ext (by simpa using hab))

/-- A number can be read off in front of what does not begin with a digit. -/
theorem toString_append_inj {m n : Nat} {s t : List Char} (hs : ∀ c ∈ s.head?, c.isDigit = false)
    (ht : ∀ c ∈ t.head?, c.isDigit = false)
    (h : (toString m).toList ++ s = (toString n).toList ++ t) : m = n ∧ s = t := by
  have hdigits {k : Nat} {r : List Char} (hr : ∀ c ∈ r.head?, c.isDigit = false) :
      ((toString k).toList ++ r).takeWhile Char.isDigit = (toString k).toList := by
    have hnil : r.takeWhile Char.isDigit = [] := by
      cases r with
      | nil => rfl
      | cons c r => exact List.takeWhile_cons_of_neg (by simp [hr c rfl])
    rw [List.takeWhile_append_of_pos, hnil, List.append_nil]
    intro c hc
    rw [Nat.toString_eq_repr, Nat.toList_repr] at hc
    exact Nat.isDigit_of_mem_toDigits (by decide) (by decide) hc
  have hmn : m = n := by
    refine Recorder.toString_injective (String.toList_inj.mp ?_)
    rw [← hdigits hs, h, hdigits ht]
  subst hmn
  exact ⟨rfl, List.append_cancel_left h⟩

namespace Workload

/-- The keys of all rows of all workers differ. -/
theorem rowKey_loadRow_inj {v w i j : Nat} (h : (loadRow v i).rowKey = (loadRow w j).rowKey) :
    v = w ∧ i = j := by
  have hchars := congrArg String.toList (Bytes.ofText_injective h)
  have hdash : "-row-".toList = '-' :: "row-".toList := rfl
  simp only [String.toList_append, hdash, List.append_assoc, List.cons_append] at hchars
  obtain ⟨hvw, hrest⟩ := toString_append_inj (by simp) (by simp)
    (List.append_cancel_left hchars)
  have hij := List.append_cancel_left (List.cons.inj hrest).2
  exact ⟨hvw, Recorder.toString_injective (String.toList_inj.mp hij)⟩

end Workload

namespace Recorder

open Program Directory

/-! ## The candidates of the workers -/

/-- The candidates of a worker of the load with the given logical name. -/
def candidateOf (logicalName : String) (worker : Nat) : Nat → String :=
  workerCandidate (logicalName ++ "." ++ toString worker)

/-- What stands in a candidate behind the number of the worker. -/
def candidateTail : Nat → List Char
  | 0 => []
  | n + 1 => '_' :: (toString (n + 1)).toList

theorem toList_candidateOf (logicalName : String) (worker n : Nat) :
    (candidateOf logicalName worker n).toList =
      logicalName.toList ++ '.' :: ((toString worker).toList ++ candidateTail n) := by
  have hpoint : ".".toList = ['.'] := rfl
  have hscore : "_".toList = ['_'] := rfl
  cases n <;> simp [candidateOf, workerCandidate, candidateTail, hpoint, hscore]

theorem candidateTail_injective : Function.Injective candidateTail := by
  intro m n h
  cases m <;> cases n
  · rfl
  · cases h
  · cases h
  · exact toString_injective (String.toList_inj.mp (List.cons.inj h).2)

/-- No two candidates of the workers of a load are the same. -/
theorem candidateOf_inj {logicalName : String} {v w m n : Nat}
    (h : candidateOf logicalName v m = candidateOf logicalName w n) : v = w ∧ m = n := by
  have htail (k : Nat) : ∀ c ∈ (candidateTail k).head?, c.isDigit = false := by
    cases k with
    | zero => nofun
    | succ k =>
      rintro c ⟨⟩
      decide
  have hchars := congrArg String.toList h
  rw [toList_candidateOf, toList_candidateOf] at hchars
  obtain ⟨hvw, hmn⟩ := toString_append_inj (htail m) (htail n)
    (List.cons.inj (List.append_cancel_left hchars)).2
  exact ⟨hvw, candidateTail_injective hmn⟩

/-- No candidate of a worker is the logical name itself. -/
theorem candidateOf_ne (logicalName : String) (worker n : Nat) :
    candidateOf logicalName worker n ≠ logicalName := by
  intro h
  have hlength := congrArg List.length (congrArg String.toList h)
  rw [toList_candidateOf] at hlength
  simp at hlength

/-- The candidates of a worker are names if the logical name is one. -/
theorem isName_candidateOf {logicalName : String} (h : isName logicalName = true)
    (worker n : Nat) : isName (candidateOf logicalName worker n) = true := by
  simp only [isName, Bool.and_eq_true, decide_eq_true_eq, Bool.not_eq_true',
    List.contains_eq_mem, decide_eq_false_iff_not] at h
  obtain ⟨⟨⟨⟨hne, -⟩, -⟩, hslash⟩, hbackslash⟩ := h
  have hnumber {k : Nat} {c : Char} (hc : c ∈ (toString k).toList) : ¬ IsSeparator c := by
    obtain ⟨-, hslash, hbackslash, -⟩ := isPlain_of_mem_toString hc
    exact not_or.mpr ⟨hslash, hbackslash⟩
  refine isName_of_length ?_ fun c hc => ?_
  · have hfront : 0 < logicalName.toList.length :=
      List.length_pos_iff.mpr (by simpa using hne)
    have hdigits : 0 < (toString worker).toList.length := by
      rw [Nat.toString_eq_repr, Nat.toList_repr]
      exact Nat.length_toDigits_pos
    rw [← String.length_toList, toList_candidateOf]
    simp only [List.length_append, List.length_cons]
    omega
  · rw [toList_candidateOf, List.mem_append, List.mem_cons, List.mem_append] at hc
    rcases hc with hc | rfl | hc | hc
    · exact not_or.mpr ⟨fun heq => hslash (heq ▸ hc), fun heq => hbackslash (heq ▸ hc)⟩
    · exact not_or.mpr ⟨by decide, by decide⟩
    · exact hnumber hc
    · cases n with
      | zero => cases hc
      | succ n =>
        rcases List.mem_cons.mp hc with rfl | hc
        · exact not_or.mpr ⟨by decide, by decide⟩
        · exact hnumber hc

/-! ## Room for names -/

/-- Fewer of the candidates are taken than are tried. -/
def Roomy (d : Directory) (candidate : Nat → String) : Prop :=
  {name | name ∈ Set.range candidate ∧ ¬ d.Free name}.ncard < candidateLimit

variable {d : Directory} {candidate : Nat → String}

/-- There is room for every name if there are fewer names than are tried. -/
theorem roomy_of_length (h : d.files.length + d.reserved.length < candidateLimit)
    (candidate : Nat → String) : Roomy d candidate := by
  have hsubset : {name | name ∈ Set.range candidate ∧ ¬ d.Free name} ⊆
      ((d.reserved ++ d.files.map Prod.fst).toFinset : Set String) := by
    rintro name ⟨-, htaken⟩
    rw [Free, not_and_or, not_not, Bool.not_eq_false] at htaken
    simpa using htaken.imp_right fun hfile => List.mem_map.mp (Table.mem_map_fst_of_has hfile)
  refine Nat.lt_of_le_of_lt (Set.ncard_le_ncard hsubset (Finset.finite_toSet _)) ?_
  rw [Set.ncard_coe_finset]
  refine Nat.lt_of_le_of_lt (List.toFinset_card_le _) ?_
  rw [List.length_append, List.length_map]
  omega

/-- A name that is none of the candidates takes no room from them. -/
theorem roomy_reserve {name : String} (h : Roomy d candidate) (hname : ∀ n, candidate n ≠ name) :
    Roomy { d with reserved := name :: d.reserved } candidate := by
  have hsame : {other | other ∈ Set.range candidate ∧
      ¬ Free { d with reserved := name :: d.reserved } other} =
        {other | other ∈ Set.range candidate ∧ ¬ d.Free other} := by
    ext other
    refine and_congr_right fun hother => not_congr (and_congr_left' ?_)
    obtain ⟨n, rfl⟩ := hother
    simp [hname n]
  rw [Roomy, hsame]
  exact h

/-- A worker is given one of its candidates. -/
theorem run_forWorker {r : Recorder} (hfaults : d.faults = .none)
    (hname : isName r.logicalName = true) {worker : Nat}
    (hroom : Roomy d (candidateOf r.logicalName worker)) :
    ∃ n, (r.forWorker (toString worker)).run d =
      (.ok ⟨r.logicalName, candidateOf r.logicalName worker n, r.tolerance, 0, none, false⟩,
        { d with reserved := candidateOf r.logicalName worker n :: d.reserved }) := by
  obtain ⟨n, hn, hfirst⟩ := exists_firstFree (fun m n h => (candidateOf_inj h).2) hroom
  have hreserve : (reserveFrom (workerCandidate (r.logicalName ++ "." ++ toString worker))
      candidateLimit 0).run d = _ :=
    run_reserveFrom_of_free (isName_candidateOf hname worker) hfaults (Nat.zero_le n) (by omega)
      hfirst
  refine ⟨n, ?_⟩
  unfold forWorker
  rw [run_bind, hreserve]
  rfl

end Recorder

namespace Workload

open Program Recorder

/-- The recorder of a worker that was given its `n`-th candidate. -/
def workerRecorder (coordinator : Recorder) (worker n : Nat) : Recorder :=
  ⟨coordinator.logicalName, candidateOf coordinator.logicalName worker n, coordinator.tolerance, 0,
    none, false⟩

/-- The recorders of the workers, each of which was given one of its candidates. -/
def workersRecorders (coordinator : Recorder) (workers : Nat) (numbers : Nat → Nat) :
    List Recorder :=
  (List.range workers).map fun worker => workerRecorder coordinator worker (numbers worker)

theorem mem_zipIdx_workersRecorders {coordinator : Recorder} {workers : Nat} {numbers : Nat → Nat}
    {x : Recorder × Nat} (hx : x ∈ (workersRecorders coordinator workers numbers).zipIdx) :
    x.2 < workers ∧ x.1 = workerRecorder coordinator x.2 (numbers x.2) := by
  obtain ⟨i, hi⟩ := List.mem_iff_getElem?.mp hx
  rw [List.getElem?_zipIdx, workersRecorders, List.getElem?_map] at hi
  obtain ⟨r, hr, rfl⟩ := Option.map_eq_some_iff.mp hi
  obtain ⟨j, hj, rfl⟩ := Option.map_eq_some_iff.mp hr
  obtain ⟨hlt, rfl⟩ := List.getElem?_eq_some_iff.mp hj
  simpa using hlt

variable {σ : Type}

/-- The engine with other names reserved in its directory. -/
def reserving (e : Engine σ) (reserved : List String) : Engine σ :=
  { e with writes.directory.reserved := reserved }

theorem run_onSinks {α : Type} (p : Program Directory α) (e : Engine σ) :
    (onSinks p).run e = ((p.run e.writes.directory).1,
      { e with writes.directory := (p.run e.writes.directory).2 }) := by
  rw [onSinks, Engine.run_onWrites, Pipeline.run_onDirectory]

/-- A worker is given one of its candidates, and nothing else changes. -/
theorem run_onSinks_forWorker {coordinator : Recorder}
    (hname : Directory.isName coordinator.logicalName = true) {e : Engine σ}
    (hfaults : e.writes.directory.faults = .none) {worker : Nat}
    (hroom : Roomy e.writes.directory (candidateOf coordinator.logicalName worker)) :
    ∃ n, (onSinks (coordinator.forWorker (toString worker))).run e =
      (.ok (workerRecorder coordinator worker n),
        reserving e (candidateOf coordinator.logicalName worker n ::
          e.writes.directory.reserved)) := by
  obtain ⟨n, hrun⟩ := run_forWorker hfaults hname hroom
  refine ⟨n, ?_⟩
  rw [run_onSinks, hrun]
  rfl

/-- Every worker is given one of its candidates. -/
theorem run_workerRecorders (coordinator : Recorder)
    (hname : Directory.isName coordinator.logicalName = true) (count first : Nat) {e : Engine σ}
    (hfaults : e.writes.directory.faults = .none)
    (hroom : ∀ v, first ≤ v →
      Roomy e.writes.directory (candidateOf coordinator.logicalName v)) :
    ∃ (numbers : Nat → Nat) (reserved : List String),
      (workerRecorders coordinator count first).run e =
        (.ok ((List.range' first count).map fun v => workerRecorder coordinator v (numbers v)),
          reserving e reserved) := by
  induction count generalizing first e with
  | zero => exact ⟨fun _ => 0, e.writes.directory.reserved, rfl⟩
  | succ count ih =>
    obtain ⟨n, hfirst⟩ := run_onSinks_forWorker hname hfaults (hroom first (Nat.le_refl _))
    obtain ⟨e₁, he₁⟩ : ∃ e₁, e₁ = reserving e (candidateOf coordinator.logicalName first n ::
      e.writes.directory.reserved) := ⟨_, rfl⟩
    have hroom' (v : Nat) (hv : first + 1 ≤ v) :
        Roomy e₁.writes.directory (candidateOf coordinator.logicalName v) := by
      rw [he₁]
      refine roomy_reserve (hroom v (by omega)) fun m hm => ?_
      exact absurd (candidateOf_inj hm).1 (by omega)
    obtain ⟨numbers, reserved, hrest⟩ := ih (first + 1) (he₁ ▸ hfaults) hroom'
    refine ⟨Function.update numbers first n, reserved, ?_⟩
    have hlater : (List.range' (first + 1) count).map
        (fun v => workerRecorder coordinator v (numbers v)) =
          (List.range' (first + 1) count).map
            fun v => workerRecorder coordinator v (Function.update numbers first n v) := by
      refine List.map_congr_left fun v hv => ?_
      have hle := (List.mem_range'_1.mp hv).1
      rw [Function.update_of_ne (by omega)]
    rw [workerRecorders, run_bind, hfirst, ← he₁]
    simp only [run_bind, hrest]
    rw [List.range'_succ, List.map_cons, Function.update_self, hlater, he₁]
    rfl

/-- The coordinator of a load is given the first of its candidates that is free, and every worker
one of its own. -/
theorem run_prepareLoad (plan : LoadPlan) {e : Engine σ}
    (hfaults : e.writes.directory.faults = .none)
    (hroom : e.writes.directory.files.length + e.writes.directory.reserved.length <
      candidateLimit) :
    ∃ (name : String) (numbers : Nat → Nat) (reserved : List String),
      Directory.isName name = true ∧ (prepareLoad plan).run e =
        (.ok (⟨name, name, plan.tolerance, 0, none, false⟩,
          workersRecorders ⟨name, name, plan.tolerance, 0, none, false⟩ plan.workers numbers),
          reserving e reserved) := by
  obtain ⟨n, hn, hfirst⟩ := exists_firstFree
    (logicalCandidate_injective (sourceStem plan.source))
    (roomy_of_length hroom (logicalCandidate (sourceStem plan.source)))
  obtain ⟨name, hname⟩ : ∃ name, name = logicalCandidate (sourceStem plan.source) n := ⟨_, rfl⟩
  have hvalid : Directory.isName name = true := hname ▸ isName_logicalCandidate plan.source n
  have hnew : (Engine.newRecorder plan.source plan.tolerance).run e =
      (.ok ⟨name, name, plan.tolerance, 0, none, false⟩,
        reserving e (name :: e.writes.directory.reserved)) := by
    rw [Engine.newRecorder, Engine.run_onWrites, Pipeline.run_onDirectory,
      run_new_of_free hfaults hfirst hn, hname]
    rfl
  have hroom' (v : Nat) (_ : 0 ≤ v) :
      Roomy (reserving e (name :: e.writes.directory.reserved)).writes.directory
        (candidateOf name v) :=
    roomy_reserve (roomy_of_length hroom _) fun m => candidateOf_ne name v m
  obtain ⟨numbers, reserved, hworkers⟩ := run_workerRecorders
    ⟨name, name, plan.tolerance, 0, none, false⟩ hvalid plan.workers 0
    (e := reserving e (name :: e.writes.directory.reserved)) hfaults hroom'
  refine ⟨name, numbers, reserved, hvalid, ?_⟩
  rw [prepareLoad, run_bind, hnew]
  simp only [run_bind, hworkers, workersRecorders, List.range_eq_range']
  rfl

end Workload

end TxnEngine
