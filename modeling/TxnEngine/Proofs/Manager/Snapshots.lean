import Mathlib.Data.Nat.Init
import TxnEngine.Engine
import TxnEngine.Proofs.Concurrency.Interleaving
import TxnEngine.Proofs.Manager.Operations
import TxnEngine.Workload.Fixture

/-!
# How stable a snapshot is

A reader's answers about one writer can change only in one way: a commit of the writer drew its
timestamp before the reader drew its own, and takes effect after the reader has received it. Until
then the reader is told that the writer is not visible, and from then on that it is.

Results:
* `contract_program`: what every operation promises, among any others.
* `exists_commit_of_sees`: a writer becomes visible at a snapshot only through a commit that
  overtakes the reader.
* `isVisible_stable`: the answers to a reader agree unless a commit overtakes it, and if one does
  they can differ.
-/

namespace TxnEngine

namespace Manager

open Program

/-! ## The operations that interleave -/

/-- What can be asked of transaction management, by its clients and by the parties that work in the
background. Any transaction can be handed in, whoever owns it. -/
inductive Op where
  | begin
  | beginReadOnly
  | elevate (t : Transaction)
  | commit (t : Transaction)
  | rollback (t : Transaction)
  | fail (t : Transaction)
  | status (id : TxnId)
  | isVisible (reader : Transaction) (candidate : TxnId)
  | isVisibleAt (snapshot : Timestamp) (own : Option TxnId) (candidate : TxnId)
  | settle (id : TxnId)
  /-- The dispatcher takes a registration. -/
  | receive
  /-- The dispatcher sends what is due to the workers. -/
  | dispatch
  /-- A worker's turn. -/
  | work
  | shutdown
  | setClock (now : Millis)
  | wait (d : Duration)

/-- The answers of the operations. -/
inductive Reply where
  | began (answer : Except Error Transaction)
  | ended (answer : Except Error Unit × Transaction)
  | committed (answer : Except Error Timestamp × Transaction)
  | judged (answer : Except Error TxnStatus)
  | visible (answer : Except Error Bool)
  | settled (answer : Except Error (Option FinalStatus))
  | done

/-- The program of each operation. -/
def Op.program : Op → Program Manager Reply
  | .begin => Reply.began <$> Manager.begin
  | .beginReadOnly => Reply.began <$> Manager.beginReadOnly
  | .elevate t => Reply.ended <$> Manager.elevate t
  | .commit t => Reply.committed <$> Manager.commit t
  | .rollback t => Reply.ended <$> Manager.rollback t
  | .fail t => Reply.ended <$> Manager.fail t
  | .status id => Reply.judged <$> Manager.status id
  | .isVisible reader candidate => Reply.visible <$> Manager.isVisible reader candidate
  | .isVisibleAt snapshot own candidate =>
    Reply.visible <$> Manager.isVisibleAt snapshot own candidate
  | .settle id => Reply.settled <$> Manager.settle id
  | .receive => (fun _ => Reply.done) <$> Program.modify fun m =>
      { m with keepAlive := m.keepAlive.receive m.stopwatch.elapsed }
  | .dispatch => (fun _ => Reply.done) <$> Program.modify fun m =>
      { m with keepAlive := m.keepAlive.dispatch m.stopwatch.elapsed }
  | .work => (fun _ => Reply.done) <$> Manager.work
  | .shutdown => (fun _ => Reply.done) <$> Program.modify Manager.shutdown
  | .setClock now => (fun _ => Reply.done) <$> Program.modify fun m =>
      { m with clock := m.clock.set now }
  | .wait d => (fun _ => Reply.done) <$> Program.modify fun m =>
      { m with stopwatch := m.stopwatch.wait d }

/-- What an operation can commit that begins in the state `m`. -/
def Op.commits : Op → Manager → TxnId → Timestamp → Prop
  | .commit t, m => CommitOf t m
  | _, _ => nothing

/-- What an operation answers that begins in the state `m` and ends in `m'`. -/
def Op.answers (op : Op) (m : Manager) (reply : Reply) (m' : Manager) : Prop :=
  match op, reply with
  | .begin, .began answer => Begins m answer
  | .beginReadOnly, .began answer => Begins m answer
  | .isVisible reader candidate, .visible answer =>
    TellsVisible reader.snapshot (some reader.id) candidate m answer m'
  | .isVisibleAt snapshot own candidate, .visible answer =>
    TellsVisible snapshot own candidate m answer m'
  | .status id, .judged answer => Judged id m answer m'
  | .settle id, .settled answer => Settles id m answer m'
  | _, _ => True

/-- Every operation keeps to the discipline, commits only what it can, and answers as it should. -/
theorem contract_program :
    Clients.Contract Op.program discipline (fun op m => May (op.commits m)) Op.answers := by
  refine ⟨fun op s t => .refl _ t, fun op m hm => ?_⟩
  have quiet {α : Type} {p : Program Manager α} (f : α → Reply)
      (hp : p.Ensures discipline (May nothing) (fun _ _ => True) m) :
      (f <$> p).Promises discipline (May nothing) (fun _ _ => True) m :=
    Promises.map (hp.promises (.refl _) hm)
  cases op with
  | begin => exact Promises.map (promises_begin _ hm)
  | beginReadOnly => exact Promises.map (promises_beginReadOnly _ hm)
  | elevate t => exact quiet _ (ensures_elevate _ hm t)
  | commit t => exact Promises.map (promises_commit hm t)
  | rollback t => exact quiet _ (ensures_rollback _ hm t)
  | fail t => exact quiet _ (ensures_fail _ hm t)
  | status id => exact Promises.map ((ensures_status _ hm id).promises (.refl _) hm)
  | isVisible reader candidate =>
    exact Promises.map ((ensures_isVisibleAt _ hm _ _ _).promises (.refl _) hm)
  | isVisibleAt snapshot own candidate =>
    exact Promises.map ((ensures_isVisibleAt _ hm _ _ _).promises (.refl _) hm)
  | settle id => exact Promises.map ((ensures_settle _ hm id).promises (.refl _) hm)
  | work => exact quiet _ (ensures_work _ hm)
  | receive | dispatch | shutdown | setClock now | wait d =>
    exact quiet _ (ensures_modify _ fun _ => ⟨rfl, rfl, rfl⟩)

/-- Transaction management over a readable log begins with an empty cache. -/
theorem coherent_newManager {σ : Type} {log : Log} (hv : Log.Valid log.records) (config : Config)
    (c : Collaborators σ) : (Engine.newManager log config c).Coherent :=
  ⟨hv, fun _ _ hentry => by cases hentry⟩

/-! ## Timestamps in the order in which they are drawn -/

/-- A timestamp that is not the last one has a greater one behind it. -/
theorem toNat_timestamp_next {ts : Timestamp} (h : ts.val.toNat + 1 < UInt64.size) :
    ts.next.val.toNat = ts.val.toNat + 1 := by
  simp only [Timestamp.next, UInt64.toNat_add, UInt64.reduceToNat]
  exact Nat.mod_eq_of_lt h

theorem draw_eq_ok {o : Oracle} {ts : Timestamp} (h : o.draw.1 = .ok ts) :
    ts = o.next ∧ o.draw.2.next = o.next.next := by
  unfold Oracle.draw at h ⊢
  split at h
  · cases h
  · exact ⟨(Except.ok.inj h).symm, rfl⟩

/-- The first action of an operation that begins a transaction draws its timestamp. -/
theorem oracle_advance_begin {op : Op} (hop : op = .begin ∨ op = .beginReadOnly) (m : Manager) :
    (op.program.advance m).2.oracle = m.oracle.draw.2 := by
  rcases hop with rfl | rfl <;> rfl

/-- The first action of a commit draws its timestamp, if the transaction has a record. -/
theorem oracle_advance_commit {t : Transaction} (ha : t.isActive = true) (hp : t.isPersisted = true)
    (m : Manager) : ((Op.commit t).program.advance m).2.oracle = m.oracle.draw.2 := by
  simp only [Op.program, commit, ha, hp]
  rfl

/-- An operation draws a timestamp with its first action, the one behind the first `n` moves. -/
structure Draws (m : Manager) (moves : List (Move Op)) (op : Op) (n : Nat) (ts : Timestamp) :
    Prop where
  starts : ∃ client, moves[n]? = some (.start client op)
  answer : (Clients.stateAfter Op.program m moves n).oracle.draw.1 = .ok ts
  after : (Clients.stateAfter Op.program m moves (n + 1)).oracle =
    (Clients.stateAfter Op.program m moves n).oracle.draw.2

section Runs

open Clients

variable {m : Manager} (hm : m.Coherent) {moves : List (Move Op)}

include hm

theorem coherent_stateAfter {n : Nat} (hn : n ≤ moves.length) :
    (stateAfter Op.program m moves n).Coherent :=
  (sound_after contract_program hm hn).holds

/-- Each move draws one timestamp at most. -/
theorem next_stateAfter_succ {n : Nat} (hn : n < moves.length) :
    (stateAfter Op.program m moves (n + 1)).oracle.next =
        (stateAfter Op.program m moves n).oracle.next ∨
      (stateAfter Op.program m moves (n + 1)).oracle.next =
        (stateAfter Op.program m moves n).oracle.next.next := by
  rcases stateAfter_succ_cases contract_program hm hn with h | ⟨_, _, _, _, hstep⟩
  · exact .inl (by rw [h])
  · exact hstep.may.draws

theorem commitTs?_stateAfter {i j : Nat} (hij : i ≤ j) (hj : j ≤ moves.length) {id : TxnId}
    {ts : Timestamp} (h : (stateAfter Op.program m moves i).log.commitTs? id = some ts) :
    (stateAfter Op.program m moves j).log.commitTs? id = some ts :=
  commitTs?_later (coherent_stateAfter hm (Nat.le_trans hij hj)) h
    (leads_stateAfter contract_program hm hij hj)

/-- What is seen once is seen from then on. -/
theorem sees_stateAfter {i j : Nat} (hij : i ≤ j) (hj : j ≤ moves.length) {snapshot : Timestamp}
    {id : TxnId} (h : Sees snapshot id (stateAfter Op.program m moves i)) :
    Sees snapshot id (stateAfter Op.program m moves j) := by
  obtain ⟨ts, hts, hle⟩ := h
  exact ⟨ts, commitTs?_stateAfter hm hij hj hts, hle⟩

theorem toNat_next_le {n : Nat} (hn : n ≤ moves.length) :
    (stateAfter Op.program m moves n).oracle.next.val.toNat ≤ m.oracle.next.val.toNat + n := by
  induction n with
  | zero => exact Nat.le_refl _
  | succ n ih =>
    have hle := ih (Nat.le_of_succ_le hn)
    rcases next_stateAfter_succ hm hn with h | h <;> rw [h]
    · omega
    · simp only [Timestamp.next, UInt64.toNat_add, UInt64.reduceToNat]
      omega

variable (hdraws : m.oracle.next.val.toNat + moves.length < UInt64.size)

include hdraws

/-- While the oracle does not wrap around, timestamps that are drawn later are greater. -/
theorem toNat_next_mono {i j : Nat} (hij : i ≤ j) (hj : j ≤ moves.length) :
    (stateAfter Op.program m moves i).oracle.next.val.toNat ≤
      (stateAfter Op.program m moves j).oracle.next.val.toNat := by
  induction j, hij using Nat.le_induction with
  | base => exact Nat.le_refl _
  | succ j hij ih =>
    have hbound := toNat_next_le hm (Nat.le_of_succ_le hj)
    refine Nat.le_trans (ih (Nat.le_of_succ_le hj)) ?_
    rcases next_stateAfter_succ hm hj with h | h
    · exact Nat.le_of_eq (by rw [h])
    · rw [h, toNat_timestamp_next (by omega)]
      exact Nat.le_succ _

/-- Timestamps are drawn in ascending order. -/
theorem lt_of_draws {op op' : Op} {i j : Nat} {ts ts' : Timestamp} (h : Draws m moves op i ts)
    (h' : Draws m moves op' j ts') (hij : i < j) : ts < ts' := by
  obtain ⟨rfl, hsucc⟩ := draw_eq_ok h.answer
  obtain ⟨rfl, -⟩ := draw_eq_ok h'.answer
  have hj : j < moves.length := by
    obtain ⟨client, hclient⟩ := h'.starts
    exact (List.getElem?_eq_some_iff.mp hclient).1
  have hbound := toNat_next_le hm (Nat.le_of_lt (Nat.lt_trans hij hj))
  have hmono := toNat_next_mono hm hdraws (Nat.succ_le_of_lt hij) (Nat.le_of_lt hj)
  rw [h.after, hsucc, toNat_timestamp_next (by omega)] at hmono
  exact UInt64.lt_iff_toNat_lt.mpr hmono

/-- Of two operations the one with the smaller timestamp drew it first. -/
theorem lt_of_draws_le {op op' : Op} (hne : op ≠ op') {i j : Nat} {ts ts' : Timestamp}
    (h : Draws m moves op i ts) (h' : Draws m moves op' j ts') (hle : ts ≤ ts') : i < j := by
  rcases Nat.lt_trichotomy i j with hlt | rfl | hlt
  · exact hlt
  · obtain ⟨client, hclient⟩ := h.starts
    obtain ⟨client', hclient'⟩ := h'.starts
    rw [hclient] at hclient'
    cases hclient'
    exact absurd rfl hne
  · have hgt : ts'.val < ts.val := lt_of_draws hm hdraws h' h hlt
    exact absurd hle (UInt64.not_le.mpr hgt)

end Runs

/-! ## Answers to a reader -/

section Readers

open Clients

/-- A commit of `candidate` overtakes a reader that began with the move behind the first `begun` and
was told its timestamp with move `received`: it drew its timestamp before the reader drew its own,
and takes effect after the reader has received it. -/
def Overtakes (m : Manager) (moves : List (Move Op)) (candidate : TxnId) (begun received : Nat) :
    Prop :=
  ∃ n client r t, received ≤ n ∧ n < moves.length ∧
    moves[n]?.bind ((after Op.program m moves n).acting Op.program) = some (client, r) ∧
    r.op = .commit t ∧ t.id = candidate ∧ r.begun < begun ∧
    (stateAfter Op.program m moves n).log.commitTs? candidate = none ∧
    (stateAfter Op.program m moves (n + 1)).log.commitTs? candidate ≠ none

/-- Between a point where something fails to hold and a later one where it holds, it begins to. -/
theorem exists_begins_to_hold {P : Nat → Prop} {i j : Nat} (hij : i ≤ j) (hi : ¬P i) (hj : P j) :
    ∃ n, i ≤ n ∧ n < j ∧ ¬P n ∧ P (n + 1) := by
  induction j, hij using Nat.le_induction with
  | base => exact absurd hj hi
  | succ j hij ih =>
    by_cases hP : P j
    · obtain ⟨n, hin, hnj, h⟩ := ih hP
      exact ⟨n, hin, Nat.lt_succ_of_lt hnj, h⟩
    · exact ⟨j, hij, Nat.lt_succ_self j, hP, hj⟩

variable {m : Manager} (hm : m.Coherent) {moves : List (Move Op)}

include hm

/-- A transaction that was begun reads at the timestamp that its begin drew. -/
theorem draws_of_begin {f : Finished Op Reply} (hf : f ∈ history Op.program m moves)
    (hop : f.op = .begin ∨ f.op = .beginReadOnly) {reader : Transaction}
    (hreply : f.reply = .began (.ok reader)) : Draws m moves f.op f.begun reader.snapshot := by
  obtain ⟨-, -, ⟨hstart, hafter⟩, hanswer⟩ :=
    (sound_after contract_program hm (Nat.le_refl _)).finished f hf
  rw [hreply] at hanswer
  refine ⟨⟨f.client, hstart⟩, ?_, by rw [hafter, oracle_advance_begin hop]⟩
  rcases hop with hop | hop <;> rw [hop] at hanswer <;> exact hanswer reader rfl

/-- A call that gives a transaction a commit timestamp is a commit of that transaction, which drew
the timestamp with its first action. -/
theorem commit_of_step {n : Nat} (hn : n < moves.length) {id : TxnId} {ts : Timestamp}
    (hbefore : (stateAfter Op.program m moves n).log.commitTs? id = none)
    (hafter : (stateAfter Op.program m moves (n + 1)).log.commitTs? id = some ts) :
    ∃ client r t, (after Op.program m moves n).acting Op.program moves[n] = some (client, r) ∧
      r.op = .commit t ∧ t.id = id ∧ Draws m moves r.op r.begun ts := by
  rcases stateAfter_succ_cases contract_program hm hn with
    hsame | ⟨client, r, hact, ⟨hstart, hadvance⟩, hstep⟩
  · rw [hsame, hbefore] at hafter
    cases hafter
  rcases hstep.may.commits id ts hafter with h | h
  · rw [hbefore] at h
    cases h
  -- only a commit commits anything
  cases hop : r.op with
  | commit t =>
    rw [hop] at h hadvance
    obtain ⟨rfl, hactive, hpersisted, hdraw⟩ := h
    refine ⟨client, r, t, hact, hop, rfl, ⟨client, hop ▸ hstart⟩, hdraw, ?_⟩
    rw [hadvance, oracle_advance_commit hactive hpersisted]
  | _ => rw [hop] at h; exact h.elim

variable (hdraws : m.oracle.next.val.toNat + moves.length < UInt64.size)

include hdraws

/-- A transaction becomes visible at a reader's snapshot only if a commit overtakes the reader. -/
theorem overtakes_of_sees {f : Finished Op Reply} (hf : f ∈ history Op.program m moves)
    (hop : f.op = .begin ∨ f.op = .beginReadOnly) {reader : Transaction}
    (hreply : f.reply = .began (.ok reader)) {candidate : TxnId} {i j : Nat} (hi : f.ended ≤ i)
    (hij : i ≤ j) (hj : j ≤ moves.length)
    (hbefore : ¬Sees reader.snapshot candidate (stateAfter Op.program m moves i))
    (hafter : Sees reader.snapshot candidate (stateAfter Op.program m moves j)) :
    Overtakes m moves candidate f.begun f.ended := by
  obtain ⟨n, hin, hnj, hnot, ts, hts, hle⟩ := exists_begins_to_hold
    (P := fun n => Sees reader.snapshot candidate (stateAfter Op.program m moves n)) hij hbefore
    hafter
  have hn : n < moves.length := Nat.lt_of_lt_of_le hnj hj
  have hnone : (stateAfter Op.program m moves n).log.commitTs? candidate = none := by
    cases h : (stateAfter Op.program m moves n).log.commitTs? candidate with
    | none => rfl
    | some ts' =>
      have hstays := commitTs?_stateAfter hm (Nat.le_succ n) hn h
      rw [hts] at hstays
      cases hstays
      exact absurd ⟨ts, h, hle⟩ hnot
  obtain ⟨client, r, t, hact, hcommit, rfl, hdraw⟩ := commit_of_step hm hn hnone hts
  refine ⟨n, client, r, t, Nat.le_trans hi hin, hn, ?_, hcommit, rfl, ?_, hnone, by simp [hts]⟩
  · rw [List.getElem?_eq_getElem hn, Option.bind_some, hact]
  · have hbegin := draws_of_begin hm hf hop hreply
    refine lt_of_draws_le hm hdraws ?_ hdraw hbegin hle
    rw [hcommit]
    rcases hop with h | h <;> rw [h] <;> nofun

/-- An answer that the candidate is visible and one that it is not come from before and behind a
commit that overtakes the reader. -/
theorem overtakes_of_answers {f : Finished Op Reply} (hf : f ∈ history Op.program m moves)
    (hop : f.op = .begin ∨ f.op = .beginReadOnly) {reader : Transaction}
    (hreply : f.reply = .began (.ok reader)) {candidate : TxnId} {a b : Finished Op Reply}
    (ha : a ∈ history Op.program m moves) (hb : b ∈ history Op.program m moves)
    (hbegun : f.ended ≤ b.begun) {r r' : Transaction} (hr : r.id = reader.id)
    (hr' : r'.id = reader.id) (haop : a.op = .isVisible r candidate)
    (hbop : b.op = .isVisible r' candidate) (hyes : a.reply = .visible (.ok true))
    (hno : b.reply = .visible (.ok false)) : Overtakes m moves candidate f.begun f.ended := by
  have hsnapshot : r.snapshot = reader.snapshot := congrArg TxnId.beginTs hr
  have hsnapshot' : r'.snapshot = reader.snapshot := congrArg TxnId.beginTs hr'
  have hsound := sound_after contract_program hm (Nat.le_refl moves.length)
  obtain ⟨habegun, haended, -, haanswer⟩ := hsound.finished a ha
  obtain ⟨hbbegun, hbended, -, hbanswer⟩ := hsound.finished b hb
  rw [haop, hyes] at haanswer
  rw [hbop, hno] at hbanswer
  obtain ⟨hother, hnot⟩ := hbanswer.no rfl
  rw [hr'] at hother
  rw [hsnapshot'] at hnot
  rcases haanswer.yes rfl with hown | ⟨hold, hsees⟩
  · rw [hr] at hown
    exact absurd hown hother
  rw [hsnapshot] at hold hsees
  have hunseen := hnot hold
  have horder : b.begun ≤ a.ended := by
    refine Nat.le_of_lt (Nat.lt_of_not_le fun hle => hunseen ?_)
    exact sees_stateAfter hm hle (Nat.le_trans (Nat.le_of_lt hbbegun) hbended) hsees
  exact overtakes_of_sees hm hdraws hf hop hreply hbegun horder haended hunseen hsees

/-- A commit that overtakes a reader is not seen by the reader at first, and seen in the end. -/
theorem sees_of_overtakes {f : Finished Op Reply} (hf : f ∈ history Op.program m moves)
    (hop : f.op = .begin ∨ f.op = .beginReadOnly) {reader : Transaction}
    (hreply : f.reply = .began (.ok reader)) {candidate : TxnId}
    (hovertakes : Overtakes m moves candidate f.begun f.ended) :
    ¬Sees reader.snapshot candidate (stateAfter Op.program m moves f.ended) ∧
      Sees reader.snapshot candidate (stateAfter Op.program m moves moves.length) := by
  obtain ⟨n, client, r, t, hle, hn, hact, hcommit, rfl, hbegun, hnone, hsome⟩ := hovertakes
  obtain ⟨ts, hts⟩ := Option.ne_none_iff_exists'.mp hsome
  refine ⟨?_, ?_⟩
  · rintro ⟨ts', hts', -⟩
    have hstays := commitTs?_stateAfter hm hle (Nat.le_of_lt hn) hts'
    rw [hnone] at hstays
    cases hstays
  · -- the timestamp was drawn before that of the reader
    obtain ⟨client', r', t', hact', -, -, hdraw⟩ := commit_of_step hm hn hnone hts
    rw [List.getElem?_eq_getElem hn, Option.bind_some, hact'] at hact
    cases hact
    have hlt : ts < reader.snapshot :=
      lt_of_draws hm hdraws hdraw (draws_of_begin hm hf hop hreply) hbegun
    have hsees : Sees reader.snapshot t.id (stateAfter Op.program m moves (n + 1)) :=
      ⟨ts, hts, UInt64.le_of_lt hlt⟩
    exact sees_stateAfter hm hn (Nat.le_refl _) hsees

end Readers

/-- When the answers to a reader can differ. All answers about one writer agree that a reader gets
after it has received its timestamp, unless a commit of the writer overtakes the reader; and if one
does, a writer that has a record by then is not visible to the reader at first, and visible in the
end. -/
theorem isVisible_stable {σ : Type} (h : Handle) (bytes : Bytes) (config : Config)
    (c : Collaborators σ) (moves : List (Move Op))
    (hdraws : c.oracle.next.val.toNat + moves.length < UInt64.size) {f : Finished Op Reply}
    (hf : f ∈ Clients.history Op.program (Engine.newManager (Log.opened h bytes) config c) moves)
    (hop : f.op = .begin ∨ f.op = .beginReadOnly) {reader : Transaction}
    (hreply : f.reply = .began (.ok reader)) (candidate : TxnId) :
    let m := Engine.newManager (Log.opened h bytes) config c
    let state := Clients.stateAfter Op.program m moves
    (¬Overtakes m moves candidate f.begun f.ended →
      ∀ a ∈ Clients.history Op.program m moves, ∀ b ∈ Clients.history Op.program m moves,
        f.ended ≤ a.begun → f.ended ≤ b.begun →
        ∀ (r r' : Transaction) (x y : Bool), r.id = reader.id → r'.id = reader.id →
          a.op = .isVisible r candidate → b.op = .isVisible r' candidate →
          a.reply = .visible (.ok x) → b.reply = .visible (.ok y) → x = y) ∧
      (Overtakes m moves candidate f.begun f.ended → (state f.ended).log.get? candidate ≠ none →
        candidate.beginTs < reader.snapshot →
        ((isVisible reader candidate).run (state f.ended)).1 = .ok false ∧
          ((isVisible reader candidate).run (state moves.length)).1 = .ok true) := by
  intro m state
  have hm : m.Coherent := coherent_newManager (Log.valid_opened h bytes) config c
  refine ⟨?_, ?_⟩
  · intro hnone a ha b hb hfa hfb r r' x y hr hr' haop hbop hx hy
    cases x <;> cases y
    · rfl
    · exact absurd (overtakes_of_answers hm hdraws hf hop hreply hb ha hfa hr' hr hbop haop hy hx)
        hnone
    · exact absurd (overtakes_of_answers hm hdraws hf hop hreply ha hb hfb hr hr' haop hbop hx hy)
        hnone
    · rfl
  · intro hovertakes hrecord hold
    obtain ⟨hunseen, hseen⟩ := sees_of_overtakes hm hdraws hf hop hreply hovertakes
    have hended := ((Clients.sound_after contract_program hm (Nat.le_refl _)).finished f hf).2.1
    obtain ⟨r, hr⟩ := Option.ne_none_iff_exists'.mp hrecord
    obtain ⟨r', hr', -⟩ := Clients.leads_stateAfter contract_program hm hended (Nat.le_refl _)
      candidate r hr
    obtain ⟨b, hb, hiff⟩ := run_isVisible (coherent_stateAfter hm hended) hr hold
    obtain ⟨b', hb', hiff'⟩ := run_isVisible (coherent_stateAfter hm (Nat.le_refl _)) hr' hold
    have hfalse : b = false := by
      rw [← Bool.not_eq_true, hiff]
      exact hunseen
    rw [hfalse] at hb
    rw [hiff'.mpr hseen] at hb'
    exact ⟨hb, hb'⟩

/-! A commit that overtakes a reader: it draws timestamp 2, the reader begins at 3 and asks, the
commit takes effect, and the reader asks again. -/

/-- Transaction management over an empty log in memory. -/
def plainManager : Manager :=
  Engine.newManager (Log.opened .shared []) .default
    (Workload.ownCollaborators 0 Directory.defaultLabel)

def writer : Transaction := .new ⟨1⟩ false

def lateReader : Transaction := .new ⟨3⟩ true

def overtakingMoves : List (Move Op) :=
  [.start 0 .begin] ++ List.replicate 6 (.turn 0) ++ [.start 0 (.commit writer)] ++
    [.start 1 .beginReadOnly, .turn 1, .turn 1] ++
    [.start 1 (.isVisible lateReader writer.id)] ++ List.replicate 4 (.turn 1) ++
    List.replicate 3 (.turn 0) ++
    [.start 1 (.isVisible lateReader writer.id)] ++ List.replicate 5 (.turn 1)

theorem history_overtakingMoves :
    Clients.history Op.program plainManager overtakingMoves =
      [⟨1, .isVisible lateReader writer.id, 19, 25, .visible (.ok true)⟩,
        ⟨1, .isVisible lateReader writer.id, 11, 16, .visible (.ok false)⟩,
        ⟨1, .beginReadOnly, 8, 11, .began (.ok lateReader)⟩,
        ⟨0, .begin, 0, 7, .began (.ok writer)⟩] := by
  have hopened : Log.opened .shared [] = ⟨.holding .shared [] .none, []⟩ := by simp [Log.opened]
  rw [plainManager, hopened]
  rfl

/-- The two answers differ, so the commit overtakes the reader. -/
theorem overtakes_overtakingMoves :
    (⟨1, .beginReadOnly, 8, 11, .began (.ok lateReader)⟩ : Finished Op Reply) ∈
        Clients.history Op.program plainManager overtakingMoves ∧
      Overtakes plainManager overtakingMoves writer.id 8 11 := by
  have hbegun : (⟨1, .beginReadOnly, 8, 11, .began (.ok lateReader)⟩ : Finished Op Reply) ∈
      Clients.history Op.program plainManager overtakingMoves := by
    simp [history_overtakingMoves]
  have hyes : (⟨1, .isVisible lateReader writer.id, 19, 25, .visible (.ok true)⟩ :
      Finished Op Reply) ∈ Clients.history Op.program plainManager overtakingMoves := by
    simp [history_overtakingMoves]
  have hno : (⟨1, .isVisible lateReader writer.id, 11, 16, .visible (.ok false)⟩ :
      Finished Op Reply) ∈ Clients.history Op.program plainManager overtakingMoves := by
    simp [history_overtakingMoves]
  have hstable := (isVisible_stable .shared [] .default
    (Workload.ownCollaborators 0 Directory.defaultLabel) overtakingMoves (by decide) hbegun
    (.inr rfl) rfl writer.id).1
  refine ⟨hbegun, ?_⟩
  by_contra hnot
  have heq := hstable hnot _ hyes _ hno (by decide) (by decide) _ _ _ _ rfl rfl rfl rfl rfl rfl
  cases heq

/-- Not all answers to a reader agree. -/
theorem not_forall_isVisible_eq :
    ¬∀ (moves : List (Move Op)) (f a b : Finished Op Reply) (reader : Transaction)
        (candidate : TxnId) (x y : Bool),
      f ∈ Clients.history Op.program plainManager moves →
      a ∈ Clients.history Op.program plainManager moves →
      b ∈ Clients.history Op.program plainManager moves →
      f.op = .begin ∨ f.op = .beginReadOnly → f.reply = .began (.ok reader) →
      f.ended ≤ a.begun → f.ended ≤ b.begun →
      a.op = .isVisible reader candidate → b.op = .isVisible reader candidate →
      a.reply = .visible (.ok x) → b.reply = .visible (.ok y) → x = y := by
  intro hall
  have heq := hall overtakingMoves ⟨1, .beginReadOnly, 8, 11, .began (.ok lateReader)⟩
    ⟨1, .isVisible lateReader writer.id, 19, 25, .visible (.ok true)⟩
    ⟨1, .isVisible lateReader writer.id, 11, 16, .visible (.ok false)⟩ lateReader writer.id true false
    (by simp [history_overtakingMoves]) (by simp [history_overtakingMoves])
    (by simp [history_overtakingMoves]) (.inr rfl) rfl (by decide) (by decide) rfl rfl rfl rfl
  cases heq

end Manager

end TxnEngine
