import TxnEngine.Proofs.Concurrency.Weaving
import TxnEngine.Proofs.Manager.ActiveSet
import TxnEngine.Proofs.Manager.Composition

/-!
# What a status report is worth among others

A status call takes the record first and the time later, and the others can act in between. What it
reports is what the log and the clock say at some instant of the call, with one exception: if the
record is replaced before the clock is read, the old record can be expired by that time although no
record of the log ever was. Then the call reports a transaction as abandoned that was renewed or
finished in time.

Results:
* `weaves_status`: a status call judges the record of one instant by the clock of a later one.
* `timeout_stateAfter`: no operation changes the timeout.
* `status_linearizable_iff`: a report is right at some instant of the call unless the call is
  overtaken.
-/

namespace TxnEngine

/-- As time goes by, a record means the same until it is abandoned. -/
theorem Record.status_eq_or_abandoned (r : Record) (timeout : Millis) {now now' : Millis}
    (hle : now ≤ now') :
    r.status now timeout = r.status now' timeout ∨ r.status now' timeout = .abandoned := by
  rw [Manager.status_eq_abandoned_iff]
  cases hs : r.state with
  | active =>
    by_cases he' : r.isExpired now' timeout = true
    · exact .inr he'
    · have he : ¬r.isExpired now timeout = true := fun he => he' (isExpired_of_le he hle)
      exact .inl (by simp [status, hs, he, he'])
  | committed | rolledBack | error => exact .inl (by simp [status, hs])

namespace Manager

open Program

/-- The status of a transaction at this instant: its record in the log, judged by the clock. A call
that runs alone answers with it (`run_status`). -/
def effectiveStatus (m : Manager) (id : TxnId) : Except Error TxnStatus :=
  (m.retrieve id).map fun r => r.status m.clock.now m.timeout

/-- A transaction is abandoned at an instant if its record is expired there. -/
theorem effectiveStatus_eq_abandoned_iff {m : Manager} {id : TxnId} :
    m.effectiveStatus id = .ok .abandoned ↔
      ∃ r, m.log.get? id = some r ∧ r.isExpired m.clock.now m.timeout = true := by
  cases hr : m.log.get? id with
  | none => simp [effectiveStatus, retrieve, hr, Except.map]
  | some r => simp [effectiveStatus, retrieve, hr, Except.map, status_eq_abandoned_iff]

/-! ## The instants of a status call -/

section Instants

variable {state : Nat → Manager} {i j : Nat} (hstate : ∀ n ≤ j, (state n).Coherent)

include hstate

/-- A look-up answers with the record that the log has at some instant of the look-up, also if the
record comes from the cache. -/
theorem weaves_lookup {id : TxnId} {answer : Except Error Record}
    (h : (lookup id).Weaves state i answer j) :
    ∃ n, i ≤ n ∧ n ≤ j ∧ answer = (state n).retrieve id := by
  unfold lookup at h
  obtain ⟨held, k, ⟨n, hin, hnk, -, hheld, hnext⟩, h⟩ := weaves_bind.mp h
  have hkj := h.le
  cases held with
  | some r =>
    obtain ⟨_, _, -, rfl, -⟩ := weaves_bind.mp h
    obtain ⟨entry, hentry, rfl⟩ := CompletedCache.find?_of_get hheld.symm
    obtain ⟨-, hget⟩ := (hstate n (by omega)).cached id entry hentry
    exact ⟨n, hin, by omega, by rw [retrieve, hget]⟩
  | none =>
    obtain ⟨_, k', hcount, h⟩ := weaves_bind.mp h
    obtain ⟨found, k'', ⟨n', hn', hnk', -, hfound, hnext'⟩, h⟩ := weaves_bind.mp h
    have hkk' := hcount.le
    have hk''j := h.le
    change found = (state n').log.get? id at hfound
    refine ⟨n', by omega, by omega, ?_⟩
    cases found with
    | none =>
      obtain ⟨rfl, -⟩ := h
      rw [retrieve, ← hfound]
    | some r =>
      have hretrieve : (state n').retrieve id = .ok r := by rw [retrieve, ← hfound]
      rw [hretrieve]
      simp only at h
      split_ifs at h
      · obtain ⟨_, _, -, rfl, -⟩ := weaves_bind.mp h
        rfl
      · exact h.1

/-- A status call judges the record of one instant by the clock of a later one. -/
theorem weaves_status {timeout : Millis} (htimeout : ∀ n ≤ j, (state n).timeout = timeout)
    {id : TxnId} {answer : Except Error TxnStatus} (h : (status id).Weaves state i answer j) :
    ∃ n k, i ≤ n ∧ n ≤ k ∧ k ≤ j ∧
      answer = ((state n).retrieve id).map fun r => r.status (state k).clock.now timeout := by
  unfold status at h
  obtain ⟨found, k₀, hlookup, h⟩ := weaves_bind.mp h
  have hk₀ := h.le
  obtain ⟨n, hin, hnk₀, rfl⟩ := weaves_lookup (fun n hn => hstate n (by omega)) hlookup
  cases hr : (state n).retrieve id with
  | error e =>
    rw [hr] at h
    exact ⟨n, n, hin, Nat.le_refl n, by omega, by rw [hr]; exact h.1⟩
  | ok r =>
    rw [hr] at h
    obtain ⟨now, k₁, ⟨k, hk, hkk₁, -, rfl, -⟩, h⟩ := weaves_bind.mp h
    have hk₁ := h.le
    obtain ⟨_, k₂, ⟨k', hk', hkk₂, -, rfl, -⟩, rfl, hk₂⟩ := weaves_bind.mp h
    refine ⟨n, k, hin, by omega, by omega, ?_⟩
    rw [hr, ← htimeout k' (by omega)]
    rfl

end Instants

/-! ## Among others -/

/-- The timeout stays what it is. -/
def SameTimeout (m m' : Manager) : Prop :=
  m'.timeout = m.timeout

theorem acts_onKeepAlive {α : Type} (p : Program KeepAlive α) :
    (onKeepAlive p).Acts SameTimeout := by
  refine Acts.focus (fun keepAlive m => ?_) p
  rfl

/-- The actions of all operations leave the timeout alone. -/
theorem tracking_timeout : Tracking fun _ p => p.Acts SameTimeout where
  pure := .pure
  bind := .bind
  read := fun _ => .atomically fun _ => rfl
  drawTimestamp := .atomically fun _ => rfl
  transition := fun _ _ => .atomically fun _ => rfl
  cached := fun _ => .atomically fun _ => rfl
  remember := fun _ => .atomically fun _ => rfl
  count := fun _ => .atomically fun _ => rfl
  leave := fun _ => .atomically fun _ => rfl
  unregister := fun _ => acts_onKeepAlive _
  takeWork := acts_onKeepAlive _
  createRecord := fun _ => .atomically fun _ => rfl
  enter := fun _ => .atomically fun _ => rfl
  register := fun _ => acts_onKeepAlive _

section Runs

open Clients

/-- The clock never goes back. -/
def ClockForward (m : Manager) (moves : List (Move Op)) : Prop :=
  ∀ n < moves.length, (stateAfter Op.program m moves n).clock.now ≤
    (stateAfter Op.program m moves (n + 1)).clock.now

/-- A call is overtaken that reports a transaction as abandoned whose record was replaced in time:
no record of the transaction is expired at any instant of the call, but one of them would have been
at its end. -/
structure Overtaken (m : Manager) (moves : List (Move Op)) (id : TxnId)
    (f : Finished Op Reply) : Prop where
  abandoned : f.reply = .judged (.ok .abandoned)
  timely : ∀ n, f.begun ≤ n → n ≤ f.ended → ∀ r,
    (stateAfter Op.program m moves n).log.get? id = some r →
      r.isExpired (stateAfter Op.program m moves n).clock.now m.timeout = false
  replaced : ∃ n r, f.begun ≤ n ∧ n < f.ended ∧
    (stateAfter Op.program m moves n).log.get? id = some r ∧
    (stateAfter Op.program m moves (n + 1)).log.get? id ≠ some r ∧
    r.isExpired (stateAfter Op.program m moves f.ended).clock.now m.timeout = true

variable {m : Manager} {moves : List (Move Op)}

theorem timeout_stateAfter {n : Nat} (hn : n ≤ moves.length) :
    (stateAfter Op.program m moves n).timeout = m.timeout := by
  have hacts (op : Op) : op.program.Acts SameTimeout := by
    refine tracking_timeout.program fun hplain => ?_
    cases op with
    | receive | dispatch | shutdown | setClock now | wait d =>
      exact .map _ (.atomically fun _ => rfl)
    | _ => cases hplain
  exact leads_of_acts (R := SameTimeout) (fun _ => rfl) (fun hst htu => htu.trans hst) hacts
    (Nat.zero_le n) hn

theorem now_le_of_clockForward (hclock : ClockForward m moves) {i j : Nat} (hij : i ≤ j)
    (hj : j ≤ moves.length) : (stateAfter Op.program m moves i).clock.now ≤
      (stateAfter Op.program m moves j).clock.now := by
  induction j, hij using Nat.le_induction with
  | base => exact UInt64.le_refl _
  | succ j hij ih => exact UInt64.le_trans (ih (Nat.le_of_succ_le hj)) (hclock j hj)

/-- A report on a record of one instant by the clock of a later one is right at one of them, unless
the record is replaced in between and expired at the later one. -/
theorem effective_or_replaced {id : TxnId} {i k : Nat} (hik : i ≤ k) (hk : k ≤ moves.length)
    (hnow : (stateAfter Op.program m moves i).clock.now ≤
      (stateAfter Op.program m moves k).clock.now) {answer : Except Error TxnStatus}
    (hanswer : answer = ((stateAfter Op.program m moves i).retrieve id).map fun r =>
      r.status (stateAfter Op.program m moves k).clock.now m.timeout) :
    (stateAfter Op.program m moves i).effectiveStatus id = answer ∨
      (stateAfter Op.program m moves k).effectiveStatus id = answer ∨
      answer = .ok .abandoned ∧ ∃ n r, i ≤ n ∧ n < k ∧
        (stateAfter Op.program m moves n).log.get? id = some r ∧
        (stateAfter Op.program m moves (n + 1)).log.get? id ≠ some r ∧
        r.isExpired (stateAfter Op.program m moves k).clock.now m.timeout = true := by
  subst hanswer
  rw [effectiveStatus, effectiveStatus, timeout_stateAfter (Nat.le_trans hik hk),
    timeout_stateAfter hk]
  cases hr : (stateAfter Op.program m moves i).log.get? id with
  | none => exact .inl (by simp [retrieve, hr, Except.map])
  | some r =>
    have hretrieve : (stateAfter Op.program m moves i).retrieve id = .ok r := by rw [retrieve, hr]
    rw [hretrieve]
    rcases r.status_eq_or_abandoned m.timeout hnow with hsame | habandoned
    · exact .inl (congrArg Except.ok hsame)
    right
    by_cases hstays : (stateAfter Op.program m moves k).log.get? id = some r
    · exact .inl (by simp [retrieve, hstays])
    obtain ⟨n, hin, hnk, hget, hgone⟩ := exists_begins_to_hold
      (P := fun n => (stateAfter Op.program m moves n).log.get? id ≠ some r) hik (not_not.mpr hr)
      hstays
    refine .inr ⟨congrArg Except.ok habandoned, n, r, hin, hnk, not_not.mp hget, hgone, ?_⟩
    exact status_eq_abandoned_iff.mp habandoned

variable {id : TxnId} {f : Finished Op Reply} (hf : f ∈ history Op.program m moves)

include hf

/-- What a call that is overtaken reports is right at no instant of the call. -/
theorem Overtaken.not_effective (h : Overtaken m moves id f) {n : Nat} (hbegun : f.begun ≤ n)
    (hn : n ≤ f.ended) :
    (stateAfter Op.program m moves n).effectiveStatus id ≠ .ok .abandoned := by
  obtain ⟨hended, -⟩ := weaves_of_mem_history hf
  intro heffective
  obtain ⟨r, hr, hexpired⟩ := effectiveStatus_eq_abandoned_iff.mp heffective
  rw [timeout_stateAfter (Nat.le_trans hn hended), h.timely n hbegun hn r hr] at hexpired
  cases hexpired

/-- A call whose report is right at no instant of the call is overtaken. -/
theorem overtaken_of_not_effective (hm : m.Coherent) (hclock : ClockForward m moves)
    (hop : f.op = .status id) {answer : Except Error TxnStatus} (hreply : f.reply = .judged answer)
    (hwrong : ∀ n, f.begun ≤ n → n ≤ f.ended →
      (stateAfter Op.program m moves n).effectiveStatus id ≠ answer) : Overtaken m moves id f := by
  obtain ⟨hended, hweaves⟩ := weaves_of_mem_history hf
  rw [hop, hreply] at hweaves
  obtain ⟨_, hstatus, heq⟩ := weaves_map.mp hweaves
  cases heq
  obtain ⟨i, k, hbegun, hik, hk, hanswer⟩ := weaves_status
    (fun n hn => coherent_stateAfter hm (Nat.le_trans hn hended))
    (fun n hn => timeout_stateAfter (Nat.le_trans hn hended)) hstatus
  have hkl := Nat.le_trans hk hended
  rcases effective_or_replaced hik hkl (now_le_of_clockForward hclock hik hkl) hanswer with
    hright | hright | ⟨rfl, n, r, hin, hnk, hget, hgone, hexpired⟩
  · exact absurd hright (hwrong i hbegun (Nat.le_trans hik hk))
  · exact absurd hright (hwrong k (Nat.le_trans hbegun hik) hk)
  refine ⟨hreply, fun n' hn hn' r' hr' => ?_, n, r, Nat.le_trans hbegun hin,
    Nat.lt_of_lt_of_le hnk hk, hget, hgone, ?_⟩
  · rw [← Bool.not_eq_true, ← timeout_stateAfter (Nat.le_trans hn' hended)]
    intro hexpired'
    exact hwrong n' hn hn' (effectiveStatus_eq_abandoned_iff.mpr ⟨r', hr', hexpired'⟩)
  · exact Record.isExpired_of_le hexpired (now_le_of_clockForward hclock hk hended)

end Runs

/-- When a status report is right. Among any clients, as long as the clock does not go back and
whatever the storage does: a status call reports what the log and the clock say at some instant
between its beginning and its end if and only if it is not overtaken. A call that is overtaken
reports a transaction as abandoned whose records were in time throughout the call. -/
theorem status_linearizable_iff {σ : Type} (h : Handle) (bytes : Bytes) (faults : Faults)
    (config : Config) (c : Collaborators σ) (moves : List (Move Op)) :
    let m := Engine.newManager (Log.openedFaulty h bytes faults) config c
    let state := Clients.stateAfter Op.program m moves
    ClockForward m moves → ∀ f ∈ Clients.history Op.program m moves, ∀ id, f.op = .status id →
      ∃ answer, f.reply = .judged answer ∧
        ((∃ n, f.begun ≤ n ∧ n ≤ f.ended ∧ (state n).effectiveStatus id = answer) ↔
          ¬Overtaken m moves id f) := by
  intro m state hclock f hf id hop
  have hm : m.Coherent := coherent_newManager (Log.valid_openedFaulty h bytes faults) config c
  obtain ⟨-, hweaves⟩ := Clients.weaves_of_mem_history hf
  rw [hop] at hweaves
  obtain ⟨answer, -, hreply⟩ := weaves_map.mp hweaves
  refine ⟨answer, hreply, ?_, fun hnot => ?_⟩
  · rintro ⟨n, hbegun, hn, heffective⟩ hovertaken
    have habandoned := hovertaken.abandoned
    rw [hreply, Reply.judged.injEq] at habandoned
    exact hovertaken.not_effective hf hbegun hn (heffective.trans habandoned)
  · by_contra hnone
    refine hnot (overtaken_of_not_effective hf hm hclock hop hreply fun n hbegun hn => ?_)
    exact fun heffective => hnone ⟨n, hbegun, hn, heffective⟩

/-! A transaction begins at 0 ms with a timeout of 60000 ms. At 60000 ms a status call takes its
record, and a worker renews it; at 60001 ms the call reads the clock. -/

def overtakenMoves : List (Move Op) :=
  [.start 0 .begin] ++ List.replicate 6 (.turn 0) ++
    [.start 0 .receive, .start 0 (.wait Config.default.keepAliveInterval), .start 0 .dispatch,
      .start 0 (.setClock 60000)] ++
    [.start 1 (.status ⟨1⟩), .turn 1, .turn 1] ++
    [.start 2 .work] ++ List.replicate 6 (.turn 2) ++
    [.start 0 (.setClock 60001), .turn 1, .turn 1]

/-- The status call. -/
def overtakenCall : Finished Op Reply :=
  ⟨1, .status ⟨1⟩, 11, 24, .judged (.ok .abandoned)⟩

theorem clockForward_overtakenMoves :
    ClockForward Session.faultlessSession.manager overtakenMoves := by
  rw [Session.faultlessSession_eq]
  unfold ClockForward
  decide +kernel

theorem overtakenCall_mem_history : overtakenCall ∈
    Clients.history Op.program Session.faultlessSession.manager overtakenMoves := by
  rw [Session.faultlessSession_eq]
  exact List.mem_cons_self

/-- The transaction is active all the while. -/
theorem effectiveStatus_overtakenMoves : ∀ n < 25, 11 ≤ n →
    effectiveStatus
      (Clients.stateAfter Op.program Session.faultlessSession.manager overtakenMoves n) ⟨1⟩ =
        .ok .active := by
  rw [Session.faultlessSession_eq]
  decide +kernel

/-- The report is not right at any instant of the call, so the call is overtaken. -/
theorem overtaken_overtakenMoves :
    ClockForward Session.faultlessSession.manager overtakenMoves ∧
      overtakenCall ∈
        Clients.history Op.program Session.faultlessSession.manager overtakenMoves ∧
      Overtaken Session.faultlessSession.manager overtakenMoves ⟨1⟩ overtakenCall := by
  refine ⟨clockForward_overtakenMoves, overtakenCall_mem_history, ?_⟩
  obtain ⟨answer, hreply, hiff⟩ := status_linearizable_iff .shared [] .none .default
    (Workload.ownCollaborators 0 Directory.defaultLabel) overtakenMoves clockForward_overtakenMoves
    overtakenCall overtakenCall_mem_history ⟨1⟩ rfl
  cases hreply
  by_contra hnot
  obtain ⟨n, hbegun, hended, heffective⟩ := hiff.mpr hnot
  have hactive := effectiveStatus_overtakenMoves n (Nat.lt_succ_of_le hended) hbegun
  rw [Session.faultlessSession, Session.onLog] at hactive
  rw [heffective] at hactive
  cases hactive

/-- A report can be right at no instant of its call. -/
theorem not_forall_status_linearizable :
    ¬∀ (moves : List (Move Op)) (f : Finished Op Reply) (id : TxnId)
        (answer : Except Error TxnStatus),
      ClockForward Session.faultlessSession.manager moves →
      f ∈ Clients.history Op.program Session.faultlessSession.manager moves →
      f.op = .status id → f.reply = .judged answer →
      ∃ n, f.begun ≤ n ∧ n ≤ f.ended ∧
        effectiveStatus
          (Clients.stateAfter Op.program Session.faultlessSession.manager moves n) id = answer := by
  intro hall
  obtain ⟨n, hbegun, hended, heffective⟩ := hall overtakenMoves overtakenCall ⟨1⟩ (.ok .abandoned)
    clockForward_overtakenMoves overtakenCall_mem_history rfl rfl
  rw [effectiveStatus_overtakenMoves n (Nat.lt_succ_of_le hended) hbegun] at heffective
  cases heffective

end Manager

end TxnEngine
