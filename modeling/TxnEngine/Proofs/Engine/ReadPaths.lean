import TxnEngine.Proofs.Engine.Sessions
import TxnEngine.Proofs.Manager.Lookup

/-!
# Three ways to read

Whether a reader sees a version can be asked of transaction management by the writer's id, of the
version while it carries no final status, or of the stamp that a worker has put on it. The first way
passes over writers that are not older than the reader, the last one believes a stamp that somebody
else has written earlier. All three tell the same: whether the writer's record has a commit
timestamp up to the reader's snapshot.

Results:
* `run_versionVisible`: what is answered about a version whose stamp is true.
* `sound_run`: in a session stamps are true, and a transaction commits behind its beginning.
* `read_paths_agree`: the three answers are the same.
-/

namespace TxnEngine

namespace Engine

open Program

variable {σ : Type}

/-! ## Answers about a version -/

/-- A final status shows the writer to a reader iff the record has a commit timestamp up to the
reader's snapshot. A record without a final status has none. -/
theorem any_visibleUnder_iff {r : Record} (hc : r.Consistent) (now timeout : Millis)
    (snapshot : Timestamp) :
    ((r.status now timeout).final?.any fun final => visibleUnder final snapshot) = true ↔
      ∃ ts, r.commitTs = some ts ∧ ts ≤ snapshot := by
  have hcommitted (ts : Timestamp) : r.commitTs = some ts ↔ r.status now timeout = .committed ts :=
    (Manager.status_eq_committed_iff hc).symm
  simp only [hcommitted]
  cases r.status now timeout <;> simp [TxnStatus.final?, visibleUnder]

variable {e : Engine σ} {loc : CellLocation} {candidate : TxnId} {r : Record}

theorem run_versionVisible_own (submits : Bool) {reader : Transaction} (loc : CellLocation)
    {s : CellStamp} (hown : s.txnId = reader.id) (e : Engine σ) :
    ((versionVisible submits reader loc s).run e).1 = .ok true := by
  rw [versionVisible, if_pos hown]
  rfl

/-- A version without a final status is judged by the record of its writer. -/
theorem run_versionVisible_unresolved (he : e.Truthful)
    (hr : e.manager.log.get? candidate = some r) (submits : Bool) {reader : Transaction}
    (hother : candidate ≠ reader.id) :
    ((versionVisible submits reader loc (.unresolved candidate)).run e).1 =
      .ok ((r.status e.manager.clock.now e.manager.timeout).final?.any fun final =>
        visibleUnder final reader.snapshot) := by
  have hstatus : ((Manager.status candidate).run e.manager).1 =
      .ok (r.status e.manager.clock.now e.manager.timeout) := by
    rw [Manager.run_status he.coherent, Manager.retrieve, hr]
    rfl
  rw [versionVisible, if_neg (by exact hother)]
  simp only [CellStamp.unresolved, run_bind, run_onManager, hstatus]
  cases (r.status e.manager.clock.now e.manager.timeout).final? with
  | none => rfl
  | some final =>
    simp only [Option.any_some]
    split_ifs
    · rw [run_bind, run_pure]
    · rfl

/-- A stamp is believed. -/
theorem run_versionVisible_resolved (submits : Bool) {reader : Transaction} (loc : CellLocation)
    (hother : candidate ≠ reader.id) (status : FinalStatus) (e : Engine σ) :
    ((versionVisible submits reader loc (.resolved candidate status)).run e).1 =
      .ok (visibleUnder status reader.snapshot) := by
  rw [versionVisible, if_neg (by exact hother)]
  rfl

/-- What is answered about a version whose stamp is true, if it carries one: whether the reader is
the writer, or sees it by the record in the log. -/
theorem run_versionVisible (he : e.Truthful) (hr : e.manager.log.get? candidate = some r)
    (reader : Transaction) (loc : CellLocation) {s : CellStamp} (hid : s.txnId = candidate)
    (htrue : ∀ status, s.status = some status → Manager.Ends candidate status e.manager) :
    ∃ b, (∀ submits, ((versionVisible submits reader loc s).run e).1 = .ok b) ∧
      (b = true ↔ candidate = reader.id ∨ Manager.Sees reader.snapshot candidate e.manager) := by
  obtain ⟨id, status?⟩ := s
  obtain rfl : id = candidate := hid
  have hsees : Manager.Sees reader.snapshot id e.manager ↔
      ∃ ts, r.commitTs = some ts ∧ ts ≤ reader.snapshot := by
    rw [Manager.Sees, Log.commitTs?, hr, Option.bind_some]
  have hc : r.Consistent := (he.coherent.valid id r hr).2
  by_cases hown : id = reader.id
  · exact ⟨true, fun submits => run_versionVisible_own submits loc hown e, by simp [hown]⟩
  cases status? with
  | none =>
    refine ⟨_, fun submits => run_versionVisible_unresolved he hr submits hown, ?_⟩
    rw [any_visibleUnder_iff hc, hsees]
    simp [hown]
  | some status =>
    refine ⟨_, fun submits => run_versionVisible_resolved submits loc hown status e, ?_⟩
    obtain ⟨r', hr', -, hfinal⟩ := htrue status rfl
    obtain rfl := Option.some.inj (hr.symm.trans hr')
    have hany := any_visibleUnder_iff hc e.manager.clock.now e.manager.timeout reader.snapshot
    rw [hfinal, Option.any_some] at hany
    rw [hany, hsees]
    simp [hown]

/-! ## Along a session -/

namespace Session

variable [Substrate σ] {s : Session σ}

/-- The oracle does not wrap around. -/
def NeverWraps (s : Session σ) : List Request → Prop
  | [] => True
  | request :: requests =>
    s.engine.manager.oracle.next ≤ (s.step request).engine.manager.oracle.next ∧
      (s.step request).NeverWraps requests

/-- What holds in a session: the stamps are true, the transactions that are held were drawn one
behind the other, and each one that commits does so behind its beginning. -/
structure Sound (s : Session σ) : Prop where
  truthful : s.engine.Truthful
  distinct : s.management.Distinct
  late : ∀ id ts, s.engine.manager.log.commitTs? id = some ts → id.beginTs < ts

theorem sound_step (hs : s.Sound) (request : Request)
    (hcount : s.engine.manager.oracle.next ≤ (s.step request).engine.manager.oracle.next) :
    (s.step request).Sound := by
  obtain ⟨⟨inner, reply, hstep⟩, htruthful, -⟩ := serves_step hs.truthful request
  refine ⟨htruthful, Manager.Session.distinct_of_step hs.distinct hstep hcount, fun id ts hts => ?_⟩
  rcases hstep.commitTs?_cases hts with hbefore | ⟨rfl, -, k, t, -, -, ht, rfl, -⟩
  · exact hs.late id ts hbefore
  · -- the commit drew its timestamp behind the beginning of its transaction
    exact hs.distinct.drawn t.id (List.mem_map_of_mem (List.mem_of_getElem? ht))

theorem sound_run (hs : s.Sound) {requests : List Request} (hcount : s.NeverWraps requests) :
    (s.run requests).Sound := by
  induction requests generalizing s with
  | nil => exact hs
  | cons request requests ih => exact ih (sound_step hs request hcount.1) hcount.2

/-- A session of an engine over an empty log, on storage that is going to fail, with no stamps. -/
def opening {σ : Type} (h : Handle) (f : Faults) (config : Config) (c : Collaborators σ) :
    Session σ :=
  ⟨.new (Log.openedFaulty h [] f) config { c with stamps := .empty }, []⟩

omit [Substrate σ] in
theorem sound_opening (h : Handle) (f : Faults) (config : Config) (c : Collaborators σ) :
    (opening h f config c).Sound := by
  refine ⟨truthful_new (Log.valid_openedFaulty h [] f) config c, ⟨List.nodup_nil, ?_⟩, ?_⟩
  · intro id hid
    cases hid
  · intro id ts hts
    rw [opening, Log.openedFaulty_nil] at hts
    cases hts

/-- The three read paths agree. Whatever an engine was asked for in a session, whatever the clock
did, whichever submissions were worked off or lost, and whatever the storage did: about a writer
that has a record every reader gets the same answer from transaction management, from a version that
carries no final status, and from the stamp that the version at any place carries, whether the
question submits the version or not. The answer is yes iff the reader is the writer, or the record
has a commit timestamp up to the reader's snapshot. -/
theorem read_paths_agree (h : Handle) (f : Faults) (config : Config) (c : Collaborators σ)
    (requests : List Request) (hcount : (opening h f config c).NeverWraps requests)
    (reader : Transaction) (loc : CellLocation) {candidate : TxnId}
    (hrecord : ((opening h f config c).run requests).engine.manager.log.get? candidate ≠ none) :
    let e := ((opening h f config c).run requests).engine
    ∃ b, ((onManager (Manager.isVisible reader candidate)).run e).1 = .ok b ∧
      (∀ submits,
        ((versionVisible submits reader loc (.unresolved candidate)).run e).1 = .ok b) ∧
      (∀ submits,
        ((versionVisible submits reader loc (e.stamps.cell loc candidate)).run e).1 = .ok b) ∧
      (b = true ↔ candidate = reader.id ∨ Manager.Sees reader.snapshot candidate e.manager) := by
  intro e
  have hsound : ((opening h f config c).run requests).Sound :=
    sound_run (sound_opening h f config c) hcount
  have he : e.Truthful := hsound.truthful
  obtain ⟨r, hr⟩ := Option.ne_none_iff_exists'.mp hrecord
  obtain ⟨b, hb, hiff⟩ := Manager.run_isVisible_iff he.coherent reader hr
  obtain ⟨b₁, hb₁, hiff₁⟩ := run_versionVisible he hr reader loc (s := .unresolved candidate) rfl
    nofun
  obtain ⟨b₂, hb₂, hiff₂⟩ := run_versionVisible he hr reader loc (s := e.stamps.cell loc candidate)
    rfl (he.stamps loc candidate)
  -- who is seen has committed behind its beginning, so it is older than the reader
  have hold : Manager.Sees reader.snapshot candidate e.manager →
      candidate.beginTs < reader.snapshot := fun ⟨ts, hts, hle⟩ =>
    UInt64.lt_of_lt_of_le (hsound.late candidate ts hts) hle
  have hiff' : b = true ↔
      candidate = reader.id ∨ Manager.Sees reader.snapshot candidate e.manager := by
    rw [hiff]
    exact or_congr_right ⟨And.right, fun hsees => ⟨hold hsees, hsees⟩⟩
  obtain rfl : b₁ = b := Bool.eq_iff_iff.mpr (hiff₁.trans hiff'.symm)
  obtain rfl : b₂ = b₁ := Bool.eq_iff_iff.mpr (hiff₂.trans hiff'.symm)
  exact ⟨b₂, by rw [run_onManager, hb], hb₁, hb₂, hiff'⟩

/-! Two writers. The first one commits, a reader begins, and a worker stamps a version of the first
writer; then the second writer commits, behind the reader's beginning. -/

def stampedSession : Session ScriptedSubstrate :=
  opening .shared .none .default (Workload.ownCollaborators 0 Directory.defaultLabel)

def stampedRequests : List Request :=
  [.begin, .begin, .commit 0, .beginReadOnly, .read 2 ⟨⟨1⟩, []⟩ (.unresolved ⟨1⟩), .resolve,
    .manage (.setClock 1000), .commit 1]

/-- The reader sees the first writer, by its record and by its stamp. -/
theorem read_paths_agree_stampedRequests :
    let e := (stampedSession.run stampedRequests).engine
    stampedSession.NeverWraps stampedRequests ∧ e.manager.log.get? ⟨1⟩ ≠ none ∧
      e.stamps.cell ⟨⟨1⟩, []⟩ ⟨1⟩ = .resolved ⟨1⟩ (.committed ⟨3⟩) ∧
      ((onManager (Manager.isVisible (.new ⟨4⟩ true) ⟨1⟩)).run e).1 = .ok true ∧
      ((versionVisible true (.new ⟨4⟩ true) ⟨⟨1⟩, []⟩ (e.stamps.cell ⟨⟨1⟩, []⟩ ⟨1⟩)).run e).1 =
        .ok true := by
  intro e
  have hcount : stampedSession.NeverWraps stampedRequests := by
    rw [stampedSession, opening, Log.openedFaulty_nil]
    simp only [NeverWraps, stampedRequests]
    decide +kernel
  have hrecord : (stampedSession.run stampedRequests).engine.manager.log.get? ⟨1⟩ ≠ none := by
    rw [stampedSession, opening, Log.openedFaulty_nil]
    decide +kernel
  have hstamp : e.stamps.cell ⟨⟨1⟩, []⟩ ⟨1⟩ = .resolved ⟨1⟩ (.committed ⟨3⟩) := by
    simp only [e, stampedSession, opening, Log.openedFaulty_nil]
    decide +kernel
  have hcommitted : e.manager.log.commitTs? ⟨1⟩ = some ⟨3⟩ := by
    simp only [e, stampedSession, opening, Log.openedFaulty_nil]
    decide +kernel
  obtain ⟨b, hb, -, hstamped, hiff⟩ := read_paths_agree .shared .none .default
    (Workload.ownCollaborators 0 Directory.defaultLabel) stampedRequests hcount (.new ⟨4⟩ true)
    ⟨⟨1⟩, []⟩ hrecord
  obtain rfl : b = true := hiff.mpr (.inr ⟨⟨3⟩, hcommitted, by decide⟩)
  exact ⟨hcount, hrecord, hstamp, hb, hstamped true⟩

end Session

end Engine

end TxnEngine
