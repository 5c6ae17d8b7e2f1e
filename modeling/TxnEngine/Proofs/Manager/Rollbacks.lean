import TxnEngine.Proofs.Manager.ActiveSet
import TxnEngine.Proofs.Manager.LettingGo

/-!
# How rollbacks are answered

A rollback asks the record only if the owner takes its transaction to be active. Otherwise it
answers by the handle: with a conflict if the owner has committed, and with success if the
transaction was ended in any other way. For a transaction that was rolled back, or that was found
rolled back, this is what the record would answer as well. For one that was marked as failed it is
not: the record refuses to be rolled back, and the rollback says that it was.

Results:
* `sound_run`: storage that works goes on working.
* `run_rollback_of_agrees`: the answer that a handle and its record lead to together.
* `rollback_answers`: what every rollback is answered, told by the record alone.
* `not_forall_rollback_answers`: the rollback of a failed transaction is answered with success.
-/

namespace TxnEngine

namespace Log

theorem sound_create {l : Log} (hs : l.Sound) (r : Record) : (l.create r).2.Sound := by
  rw [create]
  split_ifs
  · exact hs
  · exact (persist_of_sound hs r).choose_spec.2

end Log

namespace Manager

open Program

/-! ## Storage that works -/

/-- No operation makes storage fail that works. -/
theorem tracking_sound : Tracking fun _ p => p.Alone (.ofInvariant fun m => m.log.Sound) where
  pure := .pure
  bind := .bind
  read := fun _ => alone_ofInvariant fun _ h => h
  drawTimestamp := alone_ofInvariant fun _ h => h
  transition := fun id t => alone_ofInvariant fun _ h => Log.sound_after h (.transition id t)
  cached := fun _ => alone_ofInvariant fun _ h => h
  remember := fun _ => alone_ofInvariant fun _ h => h
  count := fun _ => alone_ofInvariant fun _ h => h
  leave := fun _ => alone_ofInvariant fun _ h => h
  unregister := fun _ => alone_ofInvariant fun _ h => h
  takeWork := alone_ofInvariant fun _ h => h
  createRecord := fun r => alone_ofInvariant fun _ h => Log.sound_create h r
  enter := fun _ => alone_ofInvariant fun _ h => h
  register := fun id => by
    unfold onKeepAlive
    refine .focus (fun _ m h => ⟨?_, trivial⟩) _
    exact h

theorem sound_program (op : Op) : op.program.Alone (.ofInvariant fun m => m.log.Sound) := by
  refine tracking_sound.program fun hplain => ?_
  cases op with
  | receive | dispatch | shutdown | setClock now | wait d =>
    exact tracking_sound.map _ (alone_ofInvariant fun _ h => h)
  | _ => cases hplain

namespace Session

theorem sound_step {s : Session} (hs : s.manager.log.Sound) (request : Request) :
    (s.step request).2.manager.log.Sound := by
  unfold step
  cases hp : request.program s.held with
  | none => exact hs
  | some p =>
    rcases request.program_cases hp with ⟨op, rfl⟩ | ⟨id, rfl⟩
    · exact (sound_program op s.manager hs).1
    · exact (tracking_sound.map _ (tracking_sound.renew id) s.manager hs).1

theorem sound_run {s : Session} (hs : s.manager.log.Sound) (requests : List Request) :
    (s.run requests).manager.log.Sound := by
  induction requests generalizing s with
  | nil => exact hs
  | cons request requests ih => exact ih (sound_step hs request)

/-! ## The answer to a rollback -/

theorem abort_of_aborted {t : Transaction} (h : t.phase = .aborted) : t.abort = t := by
  rw [Transaction.abort, ← h]

/-- Only an owner marks a record as failed, and then takes its transaction to be aborted. -/
theorem Agrees.phase_of_error {lapsed : Prop} {t : Transaction} {r : Record}
    (h : Agrees lapsed t r) (hs : r.state = .error) : t.phase = .aborted := by
  cases h with
  | aborted phase => exact phase
  | running _ state | lapsed _ state | committed _ _ state => rw [hs] at state; cases state

/-- A record that is live or rolled back grants the rollback. -/
theorem run_rollback_of_grant {m : Manager} (hs : m.log.Sound) (hv : Log.Valid m.log.records)
    {t : Transaction} {r : Record} (hphase : t.phase = .active) (hpersisted : t.isPersisted = true)
    (hr : m.log.get? t.id = some r) (hgrants : (r.apply .rollback).isAccepted = true) :
    (rollback t).Yields (fun answer m' => answer = (.ok (), t.abort) ∧
      m'.log.get? t.id = some (r.apply .rollback).record) m := by
  have hanswer := Log.answer_of_sound hs hr .rollback
  rcases Log.transition_cases hv t.id .rollback with ⟨e, herror, -⟩ | ⟨r', hr', -, hid, hputs⟩
  · rw [herror] at hanswer
    cases hanswer
  obtain rfl := Option.some.inj (hr.symm.trans hr')
  -- what comes behind the answer of the record leaves the log alone
  have hrecord {m' : Manager} (hlog : m'.log = (m.log.transition t.id .rollback).2) :
      m'.log.get? t.id = some (r.apply .rollback).record := by
    rw [hlog, hputs, if_pos hid.symm]
  unfold rollback transition
  simp only [hphase, hpersisted, Bool.not_true, Bool.false_eq_true, if_false]
  refine .atomically_bind ?_
  simp only [hanswer]
  refine yields_untrack fun u hu => yields_quiet (quiet_remember _) fun _ v hv => ?_
  have hcore := hv.trans hu
  cases ha : r.apply .rollback with
  | applied made =>
    refine yields_quiet (quiet_count _) fun _ w hw => .pure ⟨rfl, ?_⟩
    rw [← ha]
    exact hrecord (congrArg Core.log (hw.trans hcore))
  | unchanged made =>
    refine .pure ⟨rfl, ?_⟩
    rw [← ha]
    exact hrecord (congrArg Core.log hcore)
  | rejected made =>
    rw [ha] at hgrants
    cases hgrants

/-- The answer that a handle and its record lead to together. -/
theorem run_rollback_of_agrees {lapsed : Prop} {m : Manager} (hs : m.log.Sound)
    (hv : Log.Valid m.log.records) {t : Transaction} {r : Record}
    (hpersisted : t.isPersisted = true) (hr : m.log.get? t.id = some r)
    (hagrees : Agrees lapsed t r) :
    (rollback t).Yields (fun answer m' =>
      answer = (if r.state = .committed then (.error (.conflict t.id .committed), t)
        else (.ok (), t.abort)) ∧
      m'.log.get? t.id =
        some (if r.state = .active then { r with state := .rolledBack } else r)) m := by
  cases hagrees with
  | running phase state =>
    simpa [state, Record.apply, TransitionOutcome.record, TransitionOutcome.isAccepted] using
      run_rollback_of_grant hs hv phase hpersisted hr
  | lapsed phase state =>
    simpa [state, Record.apply, TransitionOutcome.record, TransitionOutcome.isAccepted] using
      run_rollback_of_grant hs hv phase hpersisted hr
  | committed ts phase state =>
    unfold rollback
    simp only [phase, state, if_true]
    exact .pure ⟨rfl, by simpa using hr⟩
  | aborted phase state =>
    unfold rollback
    simp only [phase]
    refine .pure ?_
    rcases state with state | state <;> simp [state, abort_of_aborted phase, hr]

theorem answer_rollback {s : Session} {k : Nat} {t : Transaction} (hk : s.held[k]? = some t) :
    s.step (.rollback k) = (some (.ended ((rollback t).run s.manager).1),
      ⟨((rollback t).run s.manager).2, s.held.set k ((rollback t).run s.manager).1.2⟩) := by
  simp only [step, Request.program, hk, Option.map_some, Op.program, run_map, keep, Request.owned?,
    Reply.transaction?]

/-- How rollbacks are answered, in every state that requests lead to on storage that works. A live
or rolled back record is rolled back afterwards, and the answer says so. A committed one stays
committed, and the answer is a conflict. The record of a transaction that its owner has marked as
failed stays that way as well; but the rollback does not ask it, and answers with success. -/
theorem rollback_answers {σ : Type} (h : Handle) (bytes : Bytes) (config : Config)
    (c : Collaborators σ) (requests : List Request) :
    let s := (onLog (Log.opened h bytes) config c).run requests
    ∀ (k : Nat) (t : Transaction), s.held[k]? = some t → t.isPersisted = true →
      ∃ r, s.manager.log.get? t.id = some r ∧
        let reply := (s.step (.rollback k)).1
        let after := (s.step (.rollback k)).2.manager.log.get? t.id
        (r.state = .active ∨ r.state = .rolledBack → reply = some (.ended (.ok (), t.abort)) ∧
          after = some { r with state := .rolledBack }) ∧
        (r.state = .committed → reply = some (.ended (.error (.conflict t.id .committed), t)) ∧
          after = some r) ∧
        (r.state = .error → t.phase = .aborted ∧ reply = some (.ended (.ok (), t)) ∧
          after = some r) := by
  intro s k t hk hpersisted
  have hcoherent : (onLog (Log.opened h bytes) config c).manager.Coherent :=
    coherent_newManager (Log.valid_opened h bytes) config c
  have hsound : s.manager.log.Sound := sound_run (Log.sound_opened h bytes) requests
  have haccord := accord_run hcoherent rfl requests
  obtain ⟨r, hr, hagrees⟩ := haccord.agrees t (List.mem_of_getElem? hk) hpersisted
  have hvalid := (stays_coherent hcoherent requests).valid
  obtain ⟨hanswer, hafter⟩ := run_rollback_of_agrees hsound hvalid hpersisted hr hagrees
  refine ⟨r, hr, ?_⟩
  rw [answer_rollback hk, hanswer, hafter]
  refine ⟨?_, fun hs => ?_, fun hs => ?_⟩
  · rintro (hs | hs)
    · simp [hs]
    · have hsame : { r with state := .rolledBack } = r := by rw [← hs]
      simp [hs, hsame]
  · simp [hs]
  · have hphase := hagrees.phase_of_error hs
    simp [hs, hphase, abort_of_aborted]

/-- A transaction that is found expired and rolled back, one that commits, and one that fails. -/
def threeEndings : List Request :=
  [.begin, .begin, .begin, .commit 1, .fail 2, .setClock 600000, .settle ⟨1⟩]

theorem faultlessSession_opened :
    faultlessSession = onLog (Log.opened .shared []) .default
      (Workload.ownCollaborators 0 Directory.defaultLabel) := rfl

theorem held_threeEndings :
    let s := faultlessSession.run threeEndings
    s.held = [.new ⟨1⟩ false, (Transaction.new ⟨2⟩ false).committedAt ⟨4⟩,
        (Transaction.new ⟨3⟩ false).abort] ∧
      s.manager.log.get? ⟨1⟩ = some ⟨⟨1⟩, .rolledBack, ⟨1⟩, none, 0, false⟩ ∧
      s.manager.log.get? ⟨2⟩ = some ⟨⟨2⟩, .committed, ⟨2⟩, some ⟨4⟩, 0, false⟩ ∧
      s.manager.log.get? ⟨3⟩ = some ⟨⟨3⟩, .error, ⟨3⟩, none, 0, false⟩ := by
  rw [faultlessSession_eq]
  decide +kernel

/-- The three transactions are rolled back by their owners: with success, with a conflict, and with
success although the record stays marked as failed. -/
theorem rollback_answers_threeEndings :
    let s := faultlessSession.run threeEndings
    (s.step (.rollback 0)).1 = some (.ended (.ok (), (Transaction.new ⟨1⟩ false).abort)) ∧
      (s.step (.rollback 1)).1 = some (.ended (.error (.conflict ⟨2⟩ .committed),
        (Transaction.new ⟨2⟩ false).committedAt ⟨4⟩)) ∧
      (s.step (.rollback 2)).1 = some (.ended (.ok (), (Transaction.new ⟨3⟩ false).abort)) ∧
      (s.step (.rollback 2)).2.manager.log.get? ⟨3⟩ =
        some ⟨⟨3⟩, .error, ⟨3⟩, none, 0, false⟩ := by
  intro s
  obtain ⟨hheld, hlapsed, hcommitted, hfailed⟩ := held_threeEndings
  have hanswers := rollback_answers .shared [] .default
    (Workload.ownCollaborators 0 Directory.defaultLabel) threeEndings
  rw [← faultlessSession_opened] at hanswers
  obtain ⟨r₁, hr₁, hrolledBack, -⟩ := hanswers 0 (.new ⟨1⟩ false) (by rw [hheld]; rfl) rfl
  obtain ⟨r₂, hr₂, -, hconflict, -⟩ :=
    hanswers 1 ((Transaction.new ⟨2⟩ false).committedAt ⟨4⟩) (by rw [hheld]; rfl) rfl
  obtain ⟨r₃, hr₃, -, -, hstays⟩ :=
    hanswers 2 (Transaction.new ⟨3⟩ false).abort (by rw [hheld]; rfl) rfl
  obtain rfl := Option.some.inj (hlapsed.symm.trans hr₁)
  obtain rfl := Option.some.inj (hcommitted.symm.trans hr₂)
  obtain rfl := Option.some.inj (hfailed.symm.trans hr₃)
  exact ⟨(hrolledBack (.inr rfl)).1, (hconflict rfl).1, (hstays rfl).2.1, (hstays rfl).2.2⟩

/-- Success does not mean that the record was live or rolled back. -/
theorem not_forall_rollback_answers :
    ¬∀ (requests : List Request) (k : Nat) (t : Transaction) (r : Record),
      (faultlessSession.run requests).held[k]? = some t → t.isPersisted = true →
      (faultlessSession.run requests).manager.log.get? t.id = some r →
      ((∃ t', ((faultlessSession.run requests).step (.rollback k)).1 = some (.ended (.ok (), t'))) ↔
        r.state = .active ∨ r.state = .rolledBack) := by
  intro hall
  obtain ⟨hheld, -, -, hfailed⟩ := held_threeEndings
  have hiff := hall threeEndings 2 (Transaction.new ⟨3⟩ false).abort _ (by rw [hheld]; rfl) rfl
    hfailed
  refine absurd (hiff.mp ⟨(Transaction.new ⟨3⟩ false).abort, ?_⟩) (by decide)
  rw [answer_rollback (by rw [hheld]; rfl)]
  rfl

end Session

end Manager

end TxnEngine
