import TxnEngine.Proofs.BadRecords.DividedFiles
import TxnEngine.Proofs.Stats.Rollups
import TxnEngine.Proofs.Workload.LoadPreparation

/-!
# What a load reports

A load adds up what its workers did in the order of their numbers, whatever each of them came to.
The coordinator has then counted the rows that were ignored, and every worker has a file of its own.

A sum that does not fit into 64 bits is left out of what is said about sums.

Results:
* `Workload.loadReport_eq`: the report on the runs of a load.
* `Workload.workerFiles_of_owned`: no two workers have the same file.
-/

namespace TxnEngine

/-- The places of different names differ. -/
theorem Place.location_injOn (p : Place) {a b : String} (ha : Directory.isName a = true)
    (hb : Directory.isName b = true) (h : p.location a = p.location b) : a = b := by
  have hfront {name : String} (hname : Directory.isName name = true) :
      name.startsWith "/" = false := by
    rw [String.startsWith_string_eq_false_iff]
    intro hprefix
    have hslash : '/' ∈ name.toList := hprefix.subset (by simp)
    simp [Directory.isName, hslash] at hname
  cases p with
  | memory label => exact (String.append_right_inj label).mp h
  | folder path =>
    simp only [location, hfront ha, hfront hb, Bool.false_eq_true, if_false] at h
    exact (String.append_right_inj _).mp h

namespace Workload

open Program

/-! ## Adding up -/

/-- Each worker has a recorder that has counted the rows that it ignored. -/
def Counted (run : WorkerRun) : Prop :=
  ∃ r, run.recorder = some r ∧ r.count = run.stats.ignored

/-- The coordinator has counted the rows that the workers ignored so far. -/
def Collected.Balanced (c : Collected) : Prop :=
  c.coordinator.count = c.tally.total.ignored

variable (p : Place) {c : Collected} {run : WorkerRun} {runs : List WorkerRun}

/-- A run whose numbers fit is taken in completely. -/
theorem Collected.add_of_fits (hbalanced : c.Balanced) (hcounted : Counted run)
    (hfits : (c.tally.total + run.stats).fits = true)
    (hroom : c.tally.contributions + 1 < UInt64.size) :
    (c.add p run).tally = ⟨c.tally.total + run.stats, c.tally.contributions + 1⟩ ∧
      (c.add p run).coordinator =
        { c.coordinator with count := (c.tally.total + run.stats).ignored } := by
  obtain ⟨r, hr, hrcount⟩ := hcounted
  have hsum : c.coordinator.count + r.count = (c.tally.total + run.stats).ignored := by
    rw [hbalanced, hrcount]
    rfl
  have hmerged : mergeRecorder c.coordinator r =
      { c.coordinator with count := (c.tally.total + run.stats).ignored } := by
    have hlt := WriteStats.ignored_lt_of_fits hfits
    rw [mergeRecorder, Recorder.mergeCount?, hsum, if_pos hlt, Option.getD_some]
  constructor
  · rw [add, Tally.add, Tally.takeIn_of_fits hfits hroom]
  · simp only [add, hr, Option.map_some, Option.getD_some, hmerged]

/-- Runs whose sums fit are taken in completely. -/
theorem Collected.foldl_add_of_fits (hbalanced : c.Balanced) (hcounted : ∀ run ∈ runs, Counted run)
    (hfits : ((runs.map WorkerRun.stats).foldl (· + ·) c.tally.total).fits = true)
    (hroom : c.tally.contributions + runs.length < UInt64.size) :
    (runs.foldl (fun c run => c.add p run) c).tally =
        ⟨(runs.map WorkerRun.stats).foldl (· + ·) c.tally.total,
          c.tally.contributions + runs.length⟩ ∧
      (runs.foldl (fun c run => c.add p run) c).coordinator =
        { c.coordinator with
          count := ((runs.map WorkerRun.stats).foldl (· + ·) c.tally.total).ignored } := by
  induction runs generalizing c with
  | nil =>
    refine ⟨rfl, ?_⟩
    rw [List.map_nil, List.foldl_nil, List.foldl_nil, ← hbalanced]
  | cons run rest ih =>
    rw [List.map_cons, List.foldl_cons] at hfits
    rw [List.length_cons] at hroom
    obtain ⟨htally, hcoordinator⟩ := add_of_fits p hbalanced (hcounted run List.mem_cons_self)
      (WriteStats.fits_of_fits_foldl hfits) (by omega)
    obtain ⟨hall, hlast⟩ := ih (c := c.add p run) (by rw [Balanced, htally, hcoordinator])
      (fun other hother => hcounted other (List.mem_cons_of_mem _ hother))
      (by rwa [htally]) (by rw [htally]; simp only; omega)
    rw [htally] at hall
    rw [htally, hcoordinator] at hlast
    rw [List.foldl_cons, List.map_cons, List.foldl_cons, List.length_cons]
    refine ⟨?_, hlast⟩
    rw [hall, Nat.add_assoc, Nat.add_comm 1]

theorem Collected.workerFiles_foldl (runs : List WorkerRun) (c : Collected) :
    (runs.foldl (fun c run => c.add p run) c).workerFiles =
      c.workerFiles ++ runs.filterMap fun run => run.recorder.map fun r => r.physicalFile p := by
  induction runs generalizing c with
  | nil => simp
  | cons run rest ih =>
    rw [List.foldl_cons, ih, List.filterMap_cons]
    cases hrecorder : run.recorder <;> simp [add, hrecorder]

/-! ## The report -/

theorem mapM_id_ok (runs : List WorkerRun) :
    (runs.map Except.ok : List (Except Error WorkerRun)).mapM id = .ok runs := by
  induction runs with
  | nil => rfl
  | cons run rest ih =>
    rw [List.map_cons, List.mapM_cons, ih]
    rfl

/-- The report on the runs of a load, and what it says if the sums fit. -/
theorem loadReport_eq {coordinator : Recorder} (hfresh : coordinator.count = 0)
    (hcounted : ∀ run ∈ runs, Counted run) (hroom : runs.length < UInt64.size) :
    ∃ report, loadReport p coordinator (runs.map .ok) = .ok report ∧
      report.workerFiles =
        runs.filterMap (fun run => run.recorder.map fun r => r.physicalFile p) ∧
      ((WriteStats.total (runs.map WorkerRun.stats)).fits = true →
        report.stats = WriteStats.total (runs.map WorkerRun.stats) ∧
        report.workers = runs.length ∧ report.badRecords.count = report.stats.ignored ∧
        report.badRecords.exceeded = exceedsTolerance report.stats.ignored
          coordinator.tolerance) := by
  refine ⟨_, by rw [loadReport, mapM_id_ok]; rfl, ?_, fun hfits => ?_⟩
  · rw [Collected.workerFiles_foldl, List.nil_append]
  · obtain ⟨htally, hcoordinator⟩ := Collected.foldl_add_of_fits p
      (c := ⟨coordinator, .empty, [], []⟩) hfresh hcounted hfits
      (by rwa [Tally.empty, Nat.zero_add])
    simp only [htally, hcoordinator]
    refine ⟨rfl, ?_, rfl, rfl⟩
    rw [Tally.empty, Nat.zero_add]

theorem run_reportLoad {σ : Type} (coordinator : Recorder) (runs : List (Except Error WorkerRun))
    (e : Engine σ) :
    ((reportLoad coordinator runs).run e).1 =
      loadReport e.writes.directory.place coordinator runs := by
  simp [reportLoad, run_map, Engine.run_onWrites, Pipeline.place]

/-- The workers of a load have a file each, whichever of their candidates they were given. -/
theorem workerFiles_of_owned {logicalName : String}
    (hname : Directory.isName logicalName = true) (workers : Nat) (numbers : Nat → Nat)
    {runOf : Nat → WorkerRun}
    (hruns : ∀ worker < workers, ∃ r, (runOf worker).recorder = some r ∧
      r.OwnedBy (Recorder.candidateOf logicalName worker (numbers worker))
        (runOf worker).stats.ignored) {files : List String}
    (hfiles : files = ((List.range workers).map runOf).filterMap
      fun run => run.recorder.map fun r => r.physicalFile p) :
    files.length = workers ∧ files.Nodup := by
  have hplaces : files = (List.range workers).map
      fun worker => p.location (Recorder.candidateOf logicalName worker (numbers worker)) := by
    rw [hfiles, List.filterMap_map, ← List.filterMap_eq_map]
    refine List.filterMap_congr fun worker hworker => ?_
    obtain ⟨r, hr, howned⟩ := hruns worker (List.mem_range.mp hworker)
    simp only [Function.comp_apply, hr, Option.map_some, Recorder.physicalFile, howned.named]
  rw [hplaces]
  refine ⟨by simp, List.Nodup.map_on (fun v _ w _ hvw => ?_) List.nodup_range⟩
  exact (Recorder.candidateOf_inj (p.location_injOn (Recorder.isName_candidateOf hname _ _)
    (Recorder.isName_candidateOf hname _ _) hvw)).1

end Workload

end TxnEngine
