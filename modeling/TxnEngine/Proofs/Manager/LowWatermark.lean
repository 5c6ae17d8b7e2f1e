import TxnEngine.Proofs.Manager.ActiveSet
import TxnEngine.Proofs.Manager.Composition

/-!
# The oldest snapshot in use

Who asks for the oldest active transaction wants to know which snapshots nobody reads at any longer.
But a transaction that begins draws its timestamp with its first action and becomes active with a
later one. One that is late, with a smaller id than the oldest active one and not active yet, is not
reported.

Results:
* `composed_narrows`: the operations that make no transaction active.
* `contract_active`: which transactions an operation makes active, among any others.
* `oldestActive_bound_iff`: the oldest active transaction bounds all that are active from then on,
  unless a beginning is late.
-/

namespace TxnEngine

namespace Manager

open Program

/-! ## Who becomes active -/

/-- No transaction becomes active. -/
def Narrows (m m' : Manager) : Prop :=
  ∀ id ∈ m'.active, id ∈ m.active

theorem narrow_of_quiet {α : Type} {p : Program Manager α} (hp : Quiet p) : p.Acts Narrows :=
  hp.mono fun m m' hcore => by
    have hactive : m'.active = m.active := congrArg Core.active hcore
    rw [Narrows, hactive]
    exact fun _ h => h

/-- No operation makes a transaction active but those that begin one or elevate it. -/
theorem composed_narrows : Composed fun _ p => p.Acts Narrows where
  pure := .pure
  bind := .bind
  read := fun _ => narrow_of_quiet (quiet_read _)
  drawTimestamp := .atomically fun _ _ h => h
  transition := fun _ _ => .atomically fun _ _ h => h
  cached := fun _ => .atomically fun _ _ h => h
  remember := fun _ => narrow_of_quiet (quiet_remember _)
  count := fun _ => narrow_of_quiet (quiet_count _)
  leave := fun _ => .atomically fun _ _ h => (List.mem_filter.mp h).1
  unregister := fun _ => narrow_of_quiet (quiet_onKeepAlive _)
  takeWork := narrow_of_quiet (quiet_onKeepAlive _)

/-- Anything may be done that makes none but the given transactions active. -/
def MayEnter (enters : TxnId → Prop) (m m' : Manager) : Prop :=
  ∀ id ∈ m'.active, id ∈ m.active ∨ enters id

/-- The transactions that an operation can make active that begins in the state `m`: the one whose
timestamp it draws with its first action, or the one that it elevates. -/
def Op.enters : Op → Manager → TxnId → Prop
  | .begin, m, id | .beginReadOnly, m, id => m.oracle.draw.1 = .ok id.beginTs
  | .elevate t, _, id => id = t.id
  | _, _, _ => False

/-- The clients keep to nothing. -/
def anything : Discipline Manager where
  holds := fun _ => True
  leads := fun _ _ => True
  refl := fun _ => trivial
  trans := fun _ _ => trivial

section Entering

variable {enters : TxnId → Prop} {m m' : Manager}

theorem MayEnter.refl (m : Manager) : MayEnter enters m m :=
  fun _ => .inl

theorem mayEnter_of_narrows (h : Narrows m m') : MayEnter enters m m' :=
  fun id hid => .inl (h id hid)

theorem acts_of_narrow {α : Type} {p : Program Manager α} (hp : p.Acts Narrows) :
    p.Acts (MayEnter enters) :=
  hp.mono fun _ _ => mayEnter_of_narrows

theorem acts_of_quiet {α : Type} {p : Program Manager α} (hp : Quiet p) :
    p.Acts (MayEnter enters) :=
  acts_of_narrow (narrow_of_quiet hp)

theorem acts_createRecord (r : Record) : (createRecord r).Acts (MayEnter enters) :=
  .atomically fun _ _ => .inl

theorem acts_enter {id : TxnId} (h : enters id) : (enter id).Acts (MayEnter enters) := by
  refine .atomically fun m other hother => ?_
  simp only at hother
  split_ifs at hother
  · exact .inl hother
  · rcases List.mem_cons.mp hother with rfl | hother
    · exact .inr h
    · exact .inl hother

theorem acts_track {id : TxnId} (h : enters id) : (track id).Acts (MayEnter enters) :=
  .bind (acts_enter h) fun _ => acts_of_quiet (quiet_onKeepAlive _)

theorem acts_elevate {t : Transaction} (h : enters t.id) :
    (elevate t).Acts (MayEnter enters) := by
  unfold elevate
  split_ifs
  · exact .pure _
  · exact .pure _
  · refine .bind (acts_of_quiet (quiet_read _)) fun _ => .bind (acts_createRecord _) fun answer => ?_
    cases answer with
    | error e => exact .pure _
    | ok _ => exact .bind (acts_track h) fun _ => .pure _

theorem ensures_of_acts {α : Type} {p : Program Manager α} (hp : p.Acts (MayEnter enters))
    (m : Manager) : p.Ensures anything (MayEnter enters) (fun _ _ => True) m :=
  hp.ensures (fun _ _ _ hmay => ⟨trivial, trivial, hmay⟩) m

/-- A program whose first action draws a timestamp, and makes no other transaction active than the
one that is named after it. -/
theorem promises_draw {α : Type} {q : Except Error Timestamp → Program Manager α}
    (herror : ∀ e, (q (.error e)).Acts (MayEnter fun id => m.oracle.draw.1 = .ok id.beginTs))
    (hok : ∀ ts, m.oracle.draw.1 = .ok ts →
      (q (.ok ts)).Acts (MayEnter fun id => m.oracle.draw.1 = .ok id.beginTs)) :
    (drawTimestamp >>= q).Promises anything (MayEnter fun id => m.oracle.draw.1 = .ok id.beginTs)
      (fun _ _ => True) m := by
  refine .atomically_bind ⟨trivial, trivial, .refl _⟩ (ensures_of_acts ?_ _)
  cases hdraw : m.oracle.draw.1 with
  | error e => exact hdraw ▸ herror e
  | ok ts => exact hdraw ▸ hok ts hdraw

end Entering

/-- Every operation makes no other transactions active than it can, among any others. -/
theorem contract_active :
    Clients.Contract Op.program anything (fun op m => MayEnter (op.enters m)) fun _ _ _ _ => True := by
  refine ⟨fun op m m' => .refl m', fun op m _ => ?_⟩
  have acting {p : Program Manager Reply} {enters : TxnId → Prop}
      (hp : p.Acts (MayEnter enters)) :
      p.Promises anything (MayEnter enters) (fun _ _ => True) m :=
    (ensures_of_acts hp m).promises .refl trivial
  have narrow {α : Type} {p : Program Manager α} {enters : TxnId → Prop} (f : α → Reply)
      (hp : p.Acts Narrows) :
      (f <$> p).Promises anything (MayEnter enters) (fun _ _ => True) m :=
    acting ((acts_of_narrow hp).map f)
  cases op with
  | begin =>
    refine Promises.map (promises_draw (fun e => .pure _) fun ts hdraw => ?_)
    refine .bind (acts_of_quiet (quiet_read _)) fun now => .bind (acts_createRecord _) fun answer => ?_
    cases answer with
    | error e => exact .pure _
    | ok _ =>
      exact .bind (acts_track hdraw) fun _ => .bind (acts_of_quiet (quiet_count _)) fun _ => .pure _
  | beginReadOnly =>
    refine Promises.map (promises_draw (fun e => .pure _) fun ts hdraw => ?_)
    exact .bind (acts_enter hdraw) fun _ => .bind (acts_of_quiet (quiet_count _)) fun _ => .pure _
  | elevate t =>
    exact acting ((acts_elevate (show (Op.elevate t).enters m t.id from rfl)).map Reply.ended)
  | commit t => exact narrow _ (composed_narrows.commit t)
  | rollback t => exact narrow _ (composed_narrows.rollback t)
  | fail t => exact narrow _ (composed_narrows.fail t)
  | status id => exact narrow _ (composed_narrows.status id)
  | isVisible reader candidate => exact narrow _ (composed_narrows.isVisibleAt _ _ _)
  | isVisibleAt snapshot own candidate => exact narrow _ (composed_narrows.isVisibleAt _ _ _)
  | settle id => exact narrow _ (composed_narrows.settle id)
  | work => exact narrow _ composed_narrows.work
  | receive | dispatch | shutdown | setClock now | wait d =>
    exact narrow _ (.atomically fun _ _ h => h)

/-! ## Beginnings that are late -/

section Late

open Clients

/-- A beginning is late at the time `i`: it has drawn a timestamp below that of `w`, and its
transaction becomes active with a later move. -/
def Late (m : Manager) (moves : List (Move Op)) (w : TxnId) (i : Nat) : Prop :=
  ∃ n client r id, i ≤ n ∧ n < moves.length ∧
    moves[n]?.bind ((after Op.program m moves n).acting Op.program) = some (client, r) ∧
    (r.op = .begin ∨ r.op = .beginReadOnly) ∧ r.begun < i ∧
    Draws m moves r.op r.begun id.beginTs ∧ id < w ∧
    id ∉ (stateAfter Op.program m moves n).active ∧
    id ∈ (stateAfter Op.program m moves (n + 1)).active

/-- No move is an elevation. -/
def NoElevation (moves : List (Move Op)) : Prop :=
  ∀ client t, .start client (.elevate t) ∉ moves

variable {m : Manager} {moves : List (Move Op)} (helevates : NoElevation moves)

include helevates

/-- A transaction becomes active with a move of the operation that began it, which drew its timestamp
with its first move. -/
theorem begin_of_enters {n : Nat} (hn : n < moves.length) {id : TxnId}
    (hbefore : id ∉ (stateAfter Op.program m moves n).active)
    (hafter : id ∈ (stateAfter Op.program m moves (n + 1)).active) :
    ∃ client r, (after Op.program m moves n).acting Op.program moves[n] = some (client, r) ∧
      (r.op = .begin ∨ r.op = .beginReadOnly) ∧ r.begun ≤ n ∧
      Draws m moves r.op r.begun id.beginTs := by
  have hsound : Sound Op.program anything (fun op m => MayEnter (op.enters m))
      (fun _ _ _ _ => True) m moves n := sound_after contract_active trivial (Nat.le_of_lt hn)
  cases hact : (after Op.program m moves n).acting Op.program moves[n] with
  | none =>
    have hsame : stateAfter Op.program m moves (n + 1) = stateAfter Op.program m moves n := by
      rw [stateAfter, after_succ hn, step, hact, stateAfter]
    rw [hsame] at hafter
    exact absurd hafter hbefore
  | some found =>
    obtain ⟨client, r⟩ := found
    obtain ⟨-, hbegun, ⟨hstart, hadvance⟩, hstep, -⟩ := step_of_acting contract_active hn hsound hact
    have henters := (hstep.may id hafter).resolve_left hbefore
    refine ⟨client, r, rfl, ?_⟩
    have hdraws (hop : r.op = .begin ∨ r.op = .beginReadOnly) :
        (stateAfter Op.program m moves r.begun).oracle.draw.1 = .ok id.beginTs →
        Draws m moves r.op r.begun id.beginTs := fun hanswer =>
      ⟨⟨client, hstart⟩, hanswer, by rw [hadvance, oracle_advance_begin hop]⟩
    cases hop : r.op with
    | begin =>
      rw [hop] at henters hdraws
      exact ⟨.inl rfl, hbegun, hdraws (.inl rfl) henters⟩
    | beginReadOnly =>
      rw [hop] at henters hdraws
      exact ⟨.inr rfl, hbegun, hdraws (.inr rfl) henters⟩
    | elevate t =>
      rw [hop] at hstart
      exact absurd (List.mem_of_getElem? hstart) (helevates client t)
    | _ => rw [hop] at henters; exact henters.elim

variable (hactive : m.active = [])

include hactive

/-- A transaction that is active has drawn its timestamp before. -/
theorem draws_of_active {i : Nat} (hi : i ≤ moves.length) {id : TxnId}
    (hid : id ∈ (stateAfter Op.program m moves i).active) :
    ∃ op b, b < i ∧ (op = .begin ∨ op = .beginReadOnly) ∧ Draws m moves op b id.beginTs := by
  have hstart : id ∉ (stateAfter Op.program m moves 0).active := by
    change id ∉ m.active
    rw [hactive]
    exact List.not_mem_nil
  obtain ⟨n, -, hni, hbefore, hafter⟩ := exists_begins_to_hold
    (P := fun n => id ∈ (stateAfter Op.program m moves n).active) (Nat.zero_le i) hstart hid
  obtain ⟨client, r, -, hop, hbegun, hdraw⟩ :=
    begin_of_enters helevates (Nat.lt_of_lt_of_le hni hi) hbefore hafter
  exact ⟨r.op, r.begun, Nat.lt_of_le_of_lt hbegun hni, hop, hdraw⟩

variable (hm : m.Coherent) (hdraws : m.oracle.next.val.toNat + moves.length < UInt64.size)

include hm hdraws

/-- A transaction that is active later on and has a smaller id than one that is active now is late. -/
theorem late_of_lt {i j : Nat} (hij : i ≤ j) (hj : j ≤ moves.length) {w id : TxnId}
    (hw : w ∈ (stateAfter Op.program m moves i).active)
    (hid : id ∉ (stateAfter Op.program m moves i).active)
    (hlater : id ∈ (stateAfter Op.program m moves j).active) (hlt : id < w) :
    Late m moves w i := by
  obtain ⟨n, hin, hnj, hbefore, hafter⟩ := exists_begins_to_hold
    (P := fun n => id ∈ (stateAfter Op.program m moves n).active) hij hid hlater
  have hn : n < moves.length := Nat.lt_of_lt_of_le hnj hj
  obtain ⟨client, r, hact, hop, -, hdraw⟩ := begin_of_enters helevates hn hbefore hafter
  obtain ⟨op, b, hbi, -, hdrawn⟩ :=
    draws_of_active helevates hactive (Nat.le_trans hij hj) hw
  refine ⟨n, client, r, id, hin, hn, ?_, hop, ?_, hdraw, hlt, hbefore, hafter⟩
  · rw [List.getElem?_eq_getElem hn, Option.bind_some, hact]
  · -- the larger timestamp was drawn later
    by_contra hle
    have hgt : w.beginTs < id.beginTs :=
      lt_of_draws hm hdraws hdrawn hdraw (Nat.lt_of_lt_of_le hbi (Nat.not_lt.mp hle))
    exact UInt64.lt_irrefl _ (UInt64.lt_trans hgt hlt)

end Late

/-- What the oldest active transaction tells. Among any clients, and whatever the storage does: the
oldest active transaction has the smallest id of all that are active at that time. It bounds all that
are active later on, and so all later answers, if and only if no beginning is late: none that has
drawn a smaller timestamp and becomes active afterwards. -/
theorem oldestActive_bound_iff {σ : Type} (h : Handle) (bytes : Bytes) (f : Faults) (config : Config)
    (c : Collaborators σ) (moves : List (Move Op))
    (hdraws : c.oracle.next.val.toNat + moves.length < UInt64.size)
    (helevates : NoElevation moves) {i : Nat} {w : TxnId} :
    let m := Engine.newManager (Log.openedFaulty h bytes f) config c
    let state := Clients.stateAfter Op.program m moves
    (state i).oldestActive = some w →
      (∀ id ∈ (state i).active, w ≤ id) ∧
      ((∀ j, i ≤ j → j ≤ moves.length → ∀ id ∈ (state j).active, w ≤ id) ↔ ¬Late m moves w i) ∧
      ((∀ j, i ≤ j → j ≤ moves.length → ∀ w', (state j).oldestActive = some w' → w ≤ w') ↔
        ¬Late m moves w i) := by
  intro m state holdest
  have hm : m.Coherent := coherent_newManager (Log.valid_openedFaulty h bytes f) config c
  obtain ⟨hw, hleast⟩ := oldestActive_eq_some_iff.mp holdest
  have hlate (hnone : ¬Late m moves w i) (j : Nat) (hij : i ≤ j) (hj : j ≤ moves.length) (id : TxnId)
      (hid : id ∈ (state j).active) : w ≤ id := by
    by_contra hnot
    have hlt : id < w := UInt64.not_le.mp hnot
    exact hnone (late_of_lt helevates rfl hm hdraws hij hj hw (fun h => hnot (hleast id h)) hid hlt)
  refine ⟨hleast, ⟨fun hall => ?_, hlate⟩, ⟨fun hall => ?_, fun hnone j hij hj w' hw' => ?_⟩⟩
  · rintro ⟨n, -, -, id, hin, hn, -, -, -, -, hlt, -, hafter⟩
    exact UInt64.not_le.mpr hlt (hall (n + 1) (Nat.le_succ_of_le hin) hn id hafter)
  · rintro ⟨n, -, -, id, hin, hn, -, -, -, -, hlt, -, hafter⟩
    obtain ⟨w', hw'⟩ := exists_oldestActive hafter
    have hle : w ≤ w' := hall (n + 1) (Nat.le_succ_of_le hin) hn w' hw'
    have hle' : w' ≤ id := (oldestActive_eq_some_iff.mp hw').2 id hafter
    exact UInt64.not_le.mpr hlt (UInt64.le_trans hle hle')
  · exact hlate hnone j hij hj w' (oldestActive_eq_some_iff.mp hw').1

/-! Two readers begin. The first one draws timestamp 1 and the second one timestamp 2; the second one
becomes active, and then the first. -/

def lateMoves : List (Move Op) :=
  [.start 0 .beginReadOnly, .start 1 .beginReadOnly, .turn 1, .turn 0]

theorem noElevation_lateMoves : NoElevation lateMoves := fun client t => by
  simp [lateMoves]

theorem oldestActive_lateMoves :
    (Clients.stateAfter Op.program Session.faultlessSession.manager lateMoves 3).oldestActive =
        some ⟨2⟩ ∧
      (Clients.stateAfter Op.program Session.faultlessSession.manager lateMoves 4).oldestActive =
        some ⟨1⟩ := by
  rw [Session.faultlessSession_eq]
  exact ⟨rfl, rfl⟩

/-- The later answer is smaller, so the first beginning is late. -/
theorem late_lateMoves :
    Session.faultlessSession.manager.oracle.next.val.toNat + lateMoves.length < UInt64.size ∧
      NoElevation lateMoves ∧
      (Clients.stateAfter Op.program Session.faultlessSession.manager lateMoves 3).oldestActive =
        some ⟨2⟩ ∧
      Late Session.faultlessSession.manager lateMoves ⟨2⟩ 3 := by
  obtain ⟨hfirst, hsecond⟩ := oldestActive_lateMoves
  have hdraws : Session.faultlessSession.manager.oracle.next.val.toNat + lateMoves.length <
      UInt64.size := by decide
  refine ⟨hdraws, noElevation_lateMoves, hfirst, ?_⟩
  obtain ⟨-, -, hanswers⟩ := oldestActive_bound_iff .shared [] .none .default
    (Workload.ownCollaborators 0 Directory.defaultLabel) lateMoves hdraws noElevation_lateMoves
    hfirst
  by_contra hnone
  exact absurd (hanswers.mpr hnone 4 (by decide) (by decide) ⟨1⟩ hsecond) (by decide)

/-- Later answers can be smaller. -/
theorem not_forall_oldestActive_le :
    ¬∀ (moves : List (Move Op)) (i j : Nat) (w w' : TxnId),
      Session.faultlessSession.manager.oracle.next.val.toNat + moves.length < UInt64.size →
      NoElevation moves → i ≤ j → j ≤ moves.length →
      (Clients.stateAfter Op.program Session.faultlessSession.manager moves i).oldestActive = some w →
      (Clients.stateAfter Op.program Session.faultlessSession.manager moves j).oldestActive =
        some w' → w ≤ w' := by
  intro hall
  obtain ⟨hfirst, hsecond⟩ := oldestActive_lateMoves
  exact absurd (hall lateMoves 3 4 ⟨2⟩ ⟨1⟩ (by decide) noElevation_lateMoves (by decide) (by decide)
    hfirst hsecond) (by decide)

end Manager

end TxnEngine
