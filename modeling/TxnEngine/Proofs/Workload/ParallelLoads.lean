import TxnEngine.Proofs.Workload.LoadReports
import TxnEngine.Proofs.Workload.LoadWorkers

/-!
# Loads report the same under every schedule

The workers of a load share the oracle, the log, the scripts of the substrate and the status
directory, and take their actions in any order. What the load reports does not depend on it: the
statistics are the sum over all workers, those that breached the tolerance or were aborted among
them, the coordinator has counted the rows that were ignored, and every worker has a file of its own.

Results:
* `Workload.scheduledLoad`: a load whose workers take turns.
* `Workload.ready_trialEngine`: a new engine is ready for a load.
* `Workload.exists_runs`: what every worker does is decided before the load begins.
* `Workload.scheduledLoad_alike`: the report is the same under every schedule, and what it says.
-/

namespace TxnEngine

namespace Workload

open Program

/-! ## A schedule -/

section

variable {σ : Type} [Substrate σ]

/-- The workers of a load on the engine that they share. -/
def loadTeam (plan : LoadPlan) (recorders : List Recorder) (e : Engine σ) :
    Team (Engine σ) (Except Error WorkerRun) :=
  ⟨recorders.zipIdx.map fun (recorder, worker) => loadWorker plan worker recorder, e⟩

/-- What came of a load: what every worker did, and what is reported. -/
structure LoadOutcome where
  runs : List (Except Error WorkerRun)
  report : Except Error LoadReport

/-- A load whose workers take turns once it is prepared, and what came of it if all of them have come
to their end. -/
def scheduledLoad (plan : LoadPlan) (turns : List Nat) (e : Engine σ) : Option LoadOutcome :=
  match (prepareLoad plan).run e with
  | (.error refusal, _) => some ⟨[], .error refusal⟩
  | (.ok (coordinator, recorders), e) =>
    let team := (loadTeam plan recorders e).play turns
    team.answers?.map fun runs => ⟨runs, ((reportLoad coordinator runs).run team.shared).1⟩

end

/-! ## Engines that are ready for a load -/

/-- An engine on which nothing keeps a load from being carried out: the log and the status directory
do not fail, the oracle and the locator refuse nothing, the substrate answers by its scripts, no
delay is out of range, and the numbers and names that the load takes are there to be had. -/
structure Ready (plan : LoadPlan) (e : Engine ScriptedSubstrate) : Prop where
  isOpen : e.isOpen = true
  sound : e.manager.log.Sound
  unrefused : e.manager.oracle.refusals = []
  timestamps : e.manager.oracle.next.val.toNat + 2 * plan.workers < UInt64.size
  unborn : ∀ id : TxnId, e.manager.oracle.next.val.toNat ≤ id.val.toNat →
    e.manager.log.get? id = none ∧ e.pipelines.find? id = none
  scripted : e.writes.substrate.FollowsScripts
  located : e.writes.locator.refusals = []
  faultless : e.writes.directory.faults = .none
  names : e.writes.directory.files.length + e.writes.directory.reserved.length <
    Recorder.candidateLimit
  retry : e.config.retry.validate = .ok ()
  suits : e.config.retry.Suits e.writes.random
  rows : plan.rowsPerWorker < UInt64.size

/-! ## Trial engines -/

/-- A new trial engine over the given substrate. -/
def trialEngine (logKind : LogKind) (substrate : ScriptedSubstrate) : Engine ScriptedSubstrate :=
  { Engine.new ⟨Fixture.emptyStore logKind, []⟩ trialConfig
      (ownCollaborators clockStart statusLabel) with
    writes.substrate := substrate }

/-- A new log is one that does not fail. -/
theorem Fixture.emptyStore_eq (logKind : LogKind) :
    ∃ h, emptyStore logKind = .holding h [] .none := by
  cases logKind with
  | memory => exact ⟨.shared, Store.memory_eq_holding []⟩
  | file => exact ⟨.sized 0, Store.file_eq_holding []⟩

theorem Fixture.start_eq (logKind : LogKind) :
    Fixture.start logKind = .ok ⟨trialEngine logKind .empty, logKind⟩ := by
  obtain ⟨h, hstore⟩ := emptyStore_eq logKind
  have hopen : Log.openStore (emptyStore logKind) =
      (.ok ⟨emptyStore logKind, []⟩, emptyStore logKind) := by
    rw [hstore, Log.openStore_holding]
    simp [Log.opened]
  rw [start, Engine.openStore, hopen]
  rfl

/-- A new trial engine is ready for every load that it can number, whatever becomes of the rows. -/
theorem ready_trialEngine {plan : LoadPlan} (logKind : LogKind) {substrate : ScriptedSubstrate}
    (hscripts : substrate.FollowsScripts) (hworkers : 2 * plan.workers + 1 < UInt64.size)
    (hrows : plan.rowsPerWorker < UInt64.size) : Ready plan (trialEngine logKind substrate) where
  isOpen := rfl
  sound := by
    obtain ⟨h, hstore⟩ := Fixture.emptyStore_eq logKind
    exact ⟨h, [], hstore⟩
  unrefused := rfl
  timestamps := by
    change 1 + 2 * plan.workers < _
    omega
  unborn _ _ := ⟨rfl, rfl⟩
  scripted := hscripts
  located := rfl
  faultless := rfl
  names := by
    change 0 < Recorder.candidateLimit
    decide
  retry := by
    change (RetryConfig.noDelay 5).validate = .ok ()
    rfl
  suits := by
    have hdelays : ∀ n < (RetryConfig.noDelay 5).maxAttempts,
        (RetryConfig.noDelay 5).delay? n ≠ none := by decide +kernel
    exact RetryConfig.suits_of_steady rfl hdelays _
  rows := hrows

/-- A trial engine that was prepared with scripts of rows is ready. -/
theorem Fixture.ready_prepared {plan : LoadPlan} {logKind : LogKind} {f f' : Fixture}
    (hstart : Fixture.start logKind = .ok f) {scripts : List (Bytes × List Outcome)}
    (hprepared : f.prepared scripts [] = .ok f')
    (hworkers : 2 * plan.workers + 1 < UInt64.size) (hrows : plan.rowsPerWorker < UInt64.size) :
    Ready plan f'.engine := by
  rw [Fixture.start_eq] at hstart
  cases hstart
  cases hprepared
  refine ready_trialEngine logKind ?_ hworkers hrows
  exact List.foldlRecOn scripts _ ⟨rfl, rfl, rfl⟩ fun _ hs _ _ =>
    ⟨hs.prepared, hs.callErrors, hs.overalls⟩

/-! ## What is whose -/

/-- How the keys and the files of a load are divided among its workers, each of which was given one
of its candidates. -/
def loadDivision (plan : LoadPlan) (logicalName : String) (numbers : Nat → Nat) : Division where
  keys worker := (loadRows plan worker).map Mutation.rowKey
  file worker := Recorder.candidateOf logicalName worker (numbers worker)
  keys_disjoint := by
    intro v w key hv hw
    simp only [loadRows, List.map_map, List.mem_map, Function.comp_apply] at hv hw
    obtain ⟨i, -, rfl⟩ := hv
    obtain ⟨j, -, hkey⟩ := hw
    exact (rowKey_loadRow_inj hkey).1.symm
  file_injective _ _ h := (Recorder.candidateOf_inj h).1

/-- What the workers have of an engine before any of them begins. -/
def standing (D : Division) (e : Engine ScriptedSubstrate) (worker : Nat) : Custody × Portion :=
  (.waiting, ⟨e.writes.substrate.scriptOf, e.writes.directory.files.find? (D.file worker)⟩)

/-- An engine that is ready is staffed with the workers, also once it has reserved their names. -/
theorem staffed_of_ready {plan : LoadPlan} {e : Engine ScriptedSubstrate} (h : Ready plan e)
    (D : Division) (reserved : List String) :
    Staffed plan.workers e.manager.oracle.next.val.toNat e.manager.clock.now e.config D
      e.writes.directory.place (standing D e) (reserving e reserved) := by
  refine ⟨h.isOpen, rfl, fun id hid => (h.unborn id hid).2, ?_, h.scripted, fun _ _ _ => rfl,
    h.located, h.suits, rfl, h.faultless, fun _ => rfl⟩
  refine ⟨rfl, h.sound, h.unrefused, ?_, Nat.le_refl _, fun id hid => (h.unborn id hid).1,
    nofun, nofun, nofun⟩
  have hsum : ∑ j ∈ Finset.range plan.workers, (standing D e j).1.draws = 2 * plan.workers := by
    simp [standing, Custody.draws, Nat.mul_comm]
  rw [hsum]
  exact h.timestamps

/-! ## The runs -/

section

variable {plan : LoadPlan} {members first : Nat} {now : Millis} {config : Config} {D : Division}
  {place : Place} {runOf : Nat → WorkerRun}

/-- Workers that run one after the other do what they would do in any other order. -/
theorem run_runWorkers {K : Nat → Custody × Portion} {e : Engine ScriptedSubstrate}
    (he : Staffed members first now config D place K e) {crew : List (Recorder × Nat)}
    (hdistinct : (crew.map Prod.snd).Nodup)
    (hruns : ∀ x ∈ crew, (loadWorker plan x.2 x.1).Abides
      (Staffed members first now config D place) x.2 (fun answer _ => answer = .ok (runOf x.2))
      (K x.2)) :
    ((runWorkers plan crew).run e).1 = crew.map (fun x => .ok (runOf x.2)) ∧
      ∃ K', Staffed members first now config D place K' ((runWorkers plan crew).run e).2 := by
  induction crew generalizing K e with
  | nil => exact ⟨rfl, K, he⟩
  | cons x rest ih =>
    obtain ⟨recorder, worker⟩ := x
    obtain ⟨hworker, hrest⟩ := List.nodup_cons.mp hdistinct
    obtain ⟨k, he₁, hanswer⟩ := (hruns _ List.mem_cons_self).run he rfl
    obtain ⟨hanswers, hlast⟩ := ih he₁ hrest fun y hy => by
      have hmem : y.2 ∈ rest.map Prod.snd := List.mem_map_of_mem hy
      have hne : y.2 ≠ worker := fun heq => hworker (heq ▸ hmem)
      rw [Function.update_of_ne hne]
      exact hruns y (List.mem_cons_of_mem _ hy)
    simp only [runWorkers, run_bind, run_pure, List.map_cons]
    exact ⟨by rw [hanswer, hanswers], hlast⟩

/-- Workers that take turns do what was decided before they began. -/
theorem answers_loadTeam {recorders : List Recorder} {e : Engine ScriptedSubstrate}
    {K : Nat → Custody × Portion} (he : Staffed members first now config D place K e)
    (hruns : ∀ x ∈ recorders.zipIdx, (loadWorker plan x.2 x.1).Abides
      (Staffed members first now config D place) x.2 (fun answer _ => answer = .ok (runOf x.2))
      (K x.2)) {turns : List Nat} {answers : List (Except Error WorkerRun)}
    (hanswers : ((loadTeam plan recorders e).play turns).answers? = some answers) :
    answers = (List.range recorders.length).map (fun worker => .ok (runOf worker)) ∧
      ∃ K', Staffed members first now config D place K'
        ((loadTeam plan recorders e).play turns).shared := by
  have hkept : (loadTeam plan recorders e).Kept (Staffed members first now config D place)
      fun worker answer _ => answer = .ok (runOf worker) := by
    refine ⟨K, he, fun worker program hprogram => ?_⟩
    rw [loadTeam, List.getElem?_map] at hprogram
    obtain ⟨x, hx, rfl⟩ := Option.map_eq_some_iff.mp hprogram
    have hindex : x.2 = worker := by
      rw [List.getElem?_zipIdx] at hx
      obtain ⟨r, -, rfl⟩ := Option.map_eq_some_iff.mp hx
      exact Nat.zero_add worker
    subst hindex
    exact hruns x (List.mem_of_getElem? hx)
  obtain ⟨K', he', hall⟩ := Team.answers_of_kept (Team.kept_play hkept turns) hanswers
  refine ⟨?_, K', he'⟩
  have hlength : answers.length = recorders.length := by
    have hmembers := congrArg List.length (Team.members_of_answers? hanswers)
    rw [Team.length_members_play, List.length_map] at hmembers
    simpa [loadTeam] using hmembers.symm
  refine List.ext_getElem (by simp [hlength]) fun worker hworker _ => ?_
  simpa using hall worker _ (List.getElem?_eq_getElem hworker)

end

/-- What the workers of a prepared load do is decided before they begin, in whatever order they take
their actions. -/
theorem exists_runs {plan : LoadPlan} {e : Engine ScriptedSubstrate} (h : Ready plan e)
    (coordinator : Recorder) (numbers : Nat → Nat) (reserved : List String) :
    let recorders := workersRecorders coordinator plan.workers numbers
    let prepared := reserving e reserved
    ∃ runOf : Nat → WorkerRun,
      (∀ worker < plan.workers, ∃ r, (runOf worker).recorder = some r ∧
        r.OwnedBy (Recorder.candidateOf coordinator.logicalName worker (numbers worker))
          (runOf worker).stats.ignored) ∧
      (∀ turns answers, ((loadTeam plan recorders prepared).play turns).answers? = some answers →
        answers = (List.range plan.workers).map (fun worker => .ok (runOf worker)) ∧
          ((loadTeam plan recorders prepared).play turns).shared.writes.directory.place =
            e.writes.directory.place) ∧
      ((runWorkers plan recorders.zipIdx).run prepared).1 =
          (List.range plan.workers).map (fun worker => .ok (runOf worker)) ∧
        ((runWorkers plan recorders.zipIdx).run prepared).2.writes.directory.place =
          e.writes.directory.place := by
  intro recorders prepared
  let D := loadDivision plan coordinator.logicalName numbers
  have hone (worker : Nat) (hworker : worker < plan.workers) : ∃ run : WorkerRun,
      (∃ r, run.recorder = some r ∧ r.OwnedBy (D.file worker) run.stats.ignored) ∧
        (loadWorker plan worker (workerRecorder coordinator worker (numbers worker))).Abides
          (Staffed plan.workers e.manager.oracle.next.val.toNat e.manager.clock.now e.config D
            e.writes.directory.place) worker (fun answer _ => answer = .ok run)
          (standing D e worker) :=
    exists_run plan hworker h.retry h.rows (List.Subset.refl _) ⟨rfl, nofun, rfl⟩ rfl
  choose! runOf hruns using hone
  have he := staffed_of_ready h D reserved
  -- the recorder that stands at a worker's place is its own
  have hcrew := fun x (hx : x ∈ recorders.zipIdx) => by
    obtain ⟨hworker, hrecorder⟩ := mem_zipIdx_workersRecorders hx
    exact hrecorder ▸ (hruns x.2 hworker).2
  refine ⟨runOf, fun worker hworker => (hruns worker hworker).1,
    fun turns answers hanswers => ?_, ?_⟩
  · obtain ⟨hanswers, K, hlast⟩ := answers_loadTeam he hcrew hanswers
    refine ⟨?_, hlast.writes.divided.place⟩
    rw [hanswers]
    simp [recorders, workersRecorders]
  · have hdistinct : (recorders.zipIdx.map Prod.snd).Nodup := by
      rw [List.zipIdx_map_snd]
      exact List.nodup_range'
    obtain ⟨hanswers, K, hlast⟩ := run_runWorkers he hdistinct hcrew
    refine ⟨?_, hlast.writes.divided.place⟩
    have hworkers : recorders.zipIdx.map Prod.snd = List.range plan.workers := by
      rw [List.zipIdx_map_snd, List.range_eq_range']
      simp [recorders, workersRecorders]
    rw [hanswers, ← hworkers, List.map_map]
    rfl

/-! ## Loads that are prepared -/

section

variable {σ : Type} [Substrate σ] {plan : LoadPlan} {e prepared : Engine σ}
  {coordinator : Recorder} {recorders : List Recorder}

theorem scheduledLoad_of_prepared
    (h : (prepareLoad plan).run e = (.ok (coordinator, recorders), prepared)) (turns : List Nat) :
    let team := (loadTeam plan recorders prepared).play turns
    scheduledLoad plan turns e = team.answers?.map fun runs =>
      ⟨runs, loadReport team.shared.writes.directory.place coordinator runs⟩ := by
  simp only [scheduledLoad, h, run_reportLoad]

theorem run_parallelLoad_of_prepared
    (h : (prepareLoad plan).run e = (.ok (coordinator, recorders), prepared)) :
    let last := (runWorkers plan recorders.zipIdx).run prepared
    ((parallelLoad plan).run e).1 =
      loadReport last.2.writes.directory.place coordinator last.1 := by
  simp only [parallelLoad, run_bind, h, run_reportLoad]

end

/-- The report of a load and what every worker does are the same under every schedule, and the same
as of workers that run one after the other; every load can be brought to its end. The report adds up
what all workers did. -/
theorem scheduledLoad_alike {plan : LoadPlan} {e : Engine ScriptedSubstrate} (h : Ready plan e) :
    ∃ (runs : List WorkerRun) (report : LoadReport),
      (∀ turns outcome, scheduledLoad plan turns e = some outcome →
        outcome = ⟨runs.map .ok, .ok report⟩) ∧
      (∃ turns, scheduledLoad plan turns e = some ⟨runs.map .ok, .ok report⟩) ∧
      ((parallelLoad plan).run e).1 = .ok report ∧
      runs.length = plan.workers ∧
      report.workerFiles.length = plan.workers ∧ report.workerFiles.Nodup ∧
      ((WriteStats.total (runs.map WorkerRun.stats)).fits = true →
        report.stats = WriteStats.total (runs.map WorkerRun.stats) ∧
        report.workers = plan.workers ∧
        report.badRecords.count = report.stats.ignored ∧
        (report.badRecords.exceeded = true ↔
          0 ≤ plan.tolerance ∧ plan.tolerance < report.stats.ignored)) := by
  obtain ⟨name, numbers, reserved, hname, hprepare⟩ := run_prepareLoad plan h.faultless h.names
  let coordinator : Recorder := ⟨name, name, plan.tolerance, 0, none, false⟩
  obtain ⟨runOf, hruns, hscheduled, halone, hplace⟩ := exists_runs h coordinator numbers reserved
  obtain ⟨runs, hrunsOf⟩ : ∃ runs, runs = (List.range plan.workers).map runOf := ⟨_, rfl⟩
  have hlength : runs.length = plan.workers := by simp [hrunsOf]
  have hanswers : (List.range plan.workers).map (fun worker => .ok (runOf worker)) =
      (runs.map .ok : List (Except Error WorkerRun)) := by
    rw [hrunsOf, List.map_map]
    rfl
  have hcounted : ∀ run ∈ runs, Counted run := by
    intro run hrun
    obtain ⟨worker, hworker, rfl⟩ := List.mem_map.mp (hrunsOf ▸ hrun)
    obtain ⟨r, hr, howned⟩ := hruns worker (List.mem_range.mp hworker)
    exact ⟨r, hr, howned.count⟩
  have hroom : runs.length < UInt64.size := by
    have := h.timestamps
    omega
  obtain ⟨report, hreport, hfiles, hsums⟩ :=
    loadReport_eq e.writes.directory.place (rfl : coordinator.count = 0) hcounted hroom
  have hall (turns : List Nat) (outcome : LoadOutcome)
      (houtcome : scheduledLoad plan turns e = some outcome) :
      outcome = ⟨runs.map .ok, .ok report⟩ := by
    rw [scheduledLoad_of_prepared hprepare] at houtcome
    obtain ⟨answers, hdone, rfl⟩ := Option.map_eq_some_iff.mp houtcome
    obtain ⟨rfl, hlast⟩ := hscheduled turns answers hdone
    rw [hanswers, ← hreport]
    exact congrArg (fun p => LoadOutcome.mk (runs.map .ok) (loadReport p coordinator _)) hlast
  refine ⟨runs, report, hall, ?_, ?_, hlength, ?_⟩
  · -- every end is that one, so it is enough that there is one
    obtain ⟨turns, answers, hdone⟩ := (loadTeam plan
      (workersRecorders coordinator plan.workers numbers) (reserving e reserved)).exists_complete
    obtain ⟨outcome, houtcome⟩ : ∃ outcome, scheduledLoad plan turns e = some outcome :=
      ⟨_, (scheduledLoad_of_prepared hprepare turns).trans (congrArg (Option.map _) hdone)⟩
    exact ⟨turns, hall turns outcome houtcome ▸ houtcome⟩
  · rw [run_parallelLoad_of_prepared hprepare, ← hreport, ← hanswers, ← halone, ← hplace]
  · obtain ⟨hcount, hnodup⟩ := workerFiles_of_owned _ hname plan.workers numbers hruns
      (hrunsOf ▸ hfiles)
    refine ⟨hcount, hnodup, fun hfits => ?_⟩
    obtain ⟨hstats, hworkers, hbad, hexceeded⟩ := hsums hfits
    refine ⟨hstats, hworkers.trans hlength, hbad, ?_⟩
    rw [hexceeded, exceedsTolerance_iff]

/-! A load of three workers: the first breaches the tolerance, the second is interrupted, and the
third sends a row again. -/

def strayLoad : LoadPlan := ⟨"/data/orders.csv", 3, 2, 0⟩

def strayEngine : Engine ScriptedSubstrate :=
  trialEngine .memory
    { ScriptedSubstrate.empty with
      scripts := [(.ofText "w0-row-0", [.constraint ⟨.unique, none, none⟩]),
        (.ofText "w1-row-1", [.interrupted none]),
        (.ofText "w2-row-0", [.regionTooBusy none])] }

def strayStats : List WriteStats :=
  [⟨0, 0, 0, 0, 0, 0, 1, 1⟩, .zero, ⟨2, 1, 0, 1, 1, 1, 0, 0⟩]

def strayReport : LoadReport where
  stats := ⟨2, 1, 0, 1, 1, 1, 1, 1⟩
  workers := 3
  badRecords := ⟨"status/orders.bad", 1, 0, true⟩
  workerFiles := ["status/orders.bad.0", "status/orders.bad.1", "status/orders.bad.2"]
  errors := ["1 bad record(s) exceed tolerance 0, see status/orders.bad",
    "batch aborted at row 1: INTERRUPTED"]

/-- Turn by turn around the workers. -/
def strayTurns : List Nat := (List.replicate 40 [2, 0, 1]).flatten

theorem scheduledLoad_alike_strayLoad :
    Ready strayLoad strayEngine ∧ (WriteStats.total strayStats).fits = true ∧
      strayReport.stats = WriteStats.total strayStats ∧
      ∀ turns outcome, scheduledLoad strayLoad turns strayEngine = some outcome →
        outcome.runs.map (Except.map WorkerRun.stats) = strayStats.map .ok ∧
          outcome.report = .ok strayReport := by
  have hready : Ready strayLoad strayEngine :=
    ready_trialEngine .memory ⟨rfl, rfl, rfl⟩ (by decide) (by decide)
  obtain ⟨runs, report, hall, -, halone, -, -, -, hsums⟩ := scheduledLoad_alike hready
  have hreport : report = strayReport := by
    have hstray : ((parallelLoad strayLoad).run strayEngine).1 = .ok strayReport := by
      decide +kernel
    exact Except.ok.inj (halone.symm.trans hstray)
  have hstats : runs.map WorkerRun.stats = strayStats := by
    have hturns : (scheduledLoad strayLoad strayTurns strayEngine).map
        (fun outcome => outcome.runs.map (Except.map WorkerRun.stats)) =
          some (strayStats.map .ok) := by
      decide +kernel
    obtain ⟨outcome, houtcome, hruns⟩ := Option.map_eq_some_iff.mp hturns
    obtain rfl := hall _ _ houtcome
    rw [List.map_map] at hruns
    exact List.map_injective_iff.mpr (fun _ _ => Except.ok.inj) ((List.map_map ..).trans hruns)
  subst hreport
  have hfits : (WriteStats.total strayStats).fits = true := by decide
  refine ⟨hready, hfits, (hsums (hstats ▸ hfits)).1.trans (by rw [hstats]), ?_⟩
  intro turns outcome houtcome
  obtain rfl := hall turns outcome houtcome
  refine ⟨?_, rfl⟩
  rw [List.map_map, ← hstats, List.map_map]
  rfl

end Workload

end TxnEngine
