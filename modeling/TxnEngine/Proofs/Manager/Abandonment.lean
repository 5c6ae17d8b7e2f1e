import TxnEngine.Proofs.Manager.Lookup
import TxnEngine.Proofs.Manager.PresentCalls

/-!
# Abandonment is final

A transaction is reported as abandoned when its record is live and has expired, and nothing is
written for it. The report holds good all the same as long as the clock does not go back: what has
expired stays expired, so every later request to commit the record or to keep it alive finds it
expired and rolls it back, or fails and leaves it as it is.

Results:
* `Record.final?_status_of_le`, `Record.final?_status_of_image?`: what is lost stays lost as time
  goes by, and behind every request that looks at the present time.
* `lost_run`: a lost transaction stays lost along a run.
* `isPersisted_of_record`: whoever holds a transaction with a record knows of it, if the oracle
  hands out no id twice.
* `abandoned_final`: what every operation on a transaction answers that was reported as abandoned.
-/

namespace TxnEngine

namespace Record

/-! ## What is lost stays lost -/

theorem idleTime_le {r : Record} {now now' : Millis} (hle : now ≤ now') :
    r.idleTime now ≤ r.idleTime now' := by
  unfold idleTime
  rw [UInt64.le_iff_toNat_le] at hle
  split_ifs with h h'
  · rw [UInt64.le_iff_toNat_le] at h h' ⊢
    rw [UInt64.toNat_sub_of_le _ _ (UInt64.le_iff_toNat_le.mpr h),
      UInt64.toNat_sub_of_le _ _ (UInt64.le_iff_toNat_le.mpr h')]
    omega
  · rw [UInt64.le_iff_toNat_le] at h h'
    omega
  · exact UInt64.zero_le
  · exact UInt64.le_refl _

/-- Only a live record expires. -/
theorem state_of_isExpired {r : Record} {now timeout : Millis} (h : r.isExpired now timeout = true) :
    r.state = .active := by
  simp only [isExpired, Bool.and_eq_true, decide_eq_true_eq] at h
  exact h.1

theorem record_keepAlive_of_isExpired {r : Record} {now timeout : Millis}
    (h : r.isExpired now timeout = true) :
    (r.apply (.keepAlive now timeout)).record = { r with state := .rolledBack } := by
  simp [apply, state_of_isExpired h, h, TransitionOutcome.record]

/-- A renewal leaves a finished record as it is, rolls an expired one back and keeps any other
alive. -/
theorem record_keepAlive_cases (r : Record) (now timeout : Millis) :
    r.isFinished = true ∧ (r.apply (.keepAlive now timeout)).record = r ∨
      r.isExpired now timeout = true ∧
        (r.apply (.keepAlive now timeout)).record = { r with state := .rolledBack } ∨
      r.state = .active ∧ (r.apply (.keepAlive now timeout)).record =
        { r with lastKeepAlive := max r.lastKeepAlive now } := by
  cases hf : r.isFinished with
  | true => exact .inl ⟨rfl, record_apply_of_finished hf _⟩
  | false =>
    have hs := isFinished_eq_false_iff.mp hf
    by_cases he : r.isExpired now timeout = true
    · exact .inr (.inl ⟨he, record_keepAlive_of_isExpired he⟩)
    · exact .inr (.inr ⟨hs, by simp [apply, hs, he, TransitionOutcome.record]⟩)

/-- A record that has expired is expired at every later time. -/
theorem isExpired_of_le {r : Record} {now now' timeout : Millis}
    (h : r.isExpired now timeout = true) (hle : now ≤ now') : r.isExpired now' timeout = true := by
  simp only [isExpired, Bool.and_eq_true, decide_eq_true_eq] at h ⊢
  exact ⟨h.1, UInt64.lt_of_lt_of_le h.2 (idleTime_le hle)⟩

/-- A record is lost that is finished without a commit, or has expired. -/
theorem final?_status_eq_rolledBack {r : Record} (hc : r.Consistent) {now timeout : Millis} :
    (r.status now timeout).final? = some .rolledBack ↔
      r.state = .rolledBack ∨ r.state = .error ∨ r.isExpired now timeout = true := by
  cases hs : r.state with
  | active =>
    by_cases he : r.isExpired now timeout = true <;> simp [status, hs, he, TxnStatus.final?]
  | committed =>
    obtain ⟨ts, hts⟩ := Option.isSome_iff_exists.mp (hc.mpr hs)
    simp [status, hs, hts, TxnStatus.final?, isExpired]
  | rolledBack | error => simp [status, hs, TxnStatus.final?]

theorem final?_status_of_le {r : Record} (hc : r.Consistent) {now now' timeout : Millis}
    (h : (r.status now timeout).final? = some .rolledBack) (hle : now ≤ now') :
    (r.status now' timeout).final? = some .rolledBack := by
  rw [final?_status_eq_rolledBack hc] at h ⊢
  exact h.imp_right (Or.imp_right fun he => isExpired_of_le he hle)

/-- A commit or a renewal of a lost record is rejected at the present time. -/
theorem apply_eq_rejected {r : Record} (hc : r.Consistent) {now timeout : Millis}
    (h : (r.status now timeout).final? = some .rolledBack) {t : Transition}
    (ht : (∃ ts, t = .commit ts now timeout) ∨ t = .keepAlive now timeout) :
    ∃ made, r.apply t = .rejected made := by
  rcases (final?_status_eq_rolledBack hc).mp h with hs | hs | he
  · rcases ht with ⟨ts, rfl⟩ | rfl <;> exact ⟨r, by simp [apply, hs]⟩
  · rcases ht with ⟨ts, rfl⟩ | rfl <;> exact ⟨r, by simp [apply, hs]⟩
  · have hs := state_of_isExpired he
    rcases ht with ⟨ts, rfl⟩ | rfl <;>
      exact ⟨{ r with state := .rolledBack }, by simp [apply, hs, he]⟩

/-- Whatever a request makes of a lost record at the present time is lost. -/
theorem final?_status_of_image? {r next : Record} (hc : r.Consistent) {now timeout : Millis}
    (h : (r.status now timeout).final? = some .rolledBack) {t : Transition}
    (ht : t.LooksAt now timeout) (hi : r.image? t = some next) :
    (next.status now timeout).final? = some .rolledBack := by
  have hs := state_of_image? hi
  have he : r.isExpired now timeout = true := by
    simpa [hs] using (final?_status_eq_rolledBack hc).mp h
  rw [final?_status_eq_rolledBack (image?_keeps hi hc).2.2.2.2]
  have applied {made : Record} (ha : r.apply t = .applied made) : next = made := by
    rw [image?_of_applied ha] at hi
    exact (Option.some.inj hi).symm
  have expired (ha : r.apply t = .rejected { r with state := .rolledBack }) :
      next = { r with state := .rolledBack } := by
    rw [image?_of_expired hs ha] at hi
    exact (Option.some.inj hi).symm
  cases t with
  | commit ts now' timeout' | keepAlive now' timeout' =>
    obtain ⟨rfl, rfl⟩ := ht
    exact .inl (by rw [expired (by simp [apply, hs, he])])
  | abandon now' timeout' =>
    obtain ⟨rfl, rfl⟩ := ht
    exact .inl (by rw [applied (by simp only [apply, hs, he, if_true]; rfl)])
  | rollback => exact .inl (by rw [applied (by simp only [apply, hs]; rfl)])
  | fail => exact .inr (.inl (by rw [applied (by simp only [apply, hs]; rfl)]))

end Record

namespace Log

/-! ## Lost transactions -/

/-- The transaction can no longer commit, as its record is judged at the time `now`. -/
def Lost (l : Log) (id : TxnId) (now timeout : Millis) : Prop :=
  ∃ r, l.get? id = some r ∧ (r.status now timeout).final? = some .rolledBack

theorem Lost.later {l : Log} (hv : Valid l.records) {id : TxnId} {now now' timeout : Millis}
    (h : l.Lost id now timeout) (hle : now ≤ now') : l.Lost id now' timeout := by
  obtain ⟨r, hr, hlost⟩ := h
  exact ⟨r, hr, Record.final?_status_of_le (hv id r hr).2 hlost hle⟩

/-- A lost transaction stays lost behind every call that looks at the present time. -/
theorem lost_after {l : Log} (hv : Valid l.records) {id : TxnId} {now timeout : Millis}
    (h : l.Lost id now timeout) {c : Call} (hc : c.LooksAt now timeout) :
    (l.after c).Lost id now timeout := by
  obtain ⟨r, hr, hlost⟩ := h
  rcases get?_after_cases hv hr c with hsame | hnext
  · exact ⟨r, hsame, hlost⟩
  refine ⟨r.next c, hnext, ?_⟩
  rcases Record.next_spec r c with hsame | ⟨t, rfl, hi⟩
  · rw [hsame]
    exact hlost
  · exact Record.final?_status_of_image? (hv id r hr).2 hlost hc hi

theorem lost_run {l : Log} (hv : Valid l.records) {id : TxnId} {now timeout : Millis}
    (h : l.Lost id now timeout) {calls : List Call}
    (hcalls : ∀ c ∈ calls, c.LooksAt now timeout) : (l.run calls).Lost id now timeout := by
  induction calls generalizing l with
  | nil => exact h
  | cons c calls ih =>
    refine ih (valid_after hv c) (lost_after hv h (hcalls c List.mem_cons_self)) fun c' hc' => ?_
    exact hcalls c' (List.mem_cons_of_mem c hc')

/-- A commit or a renewal of a lost transaction is not granted at the present time. -/
theorem transition_ne_applied {l : Log} (hv : Valid l.records) {id : TxnId} {now timeout : Millis}
    (h : l.Lost id now timeout) {t : Transition}
    (ht : (∃ ts, t = .commit ts now timeout) ∨ t = .keepAlive now timeout) (made : Record) :
    (l.transition id t).1 ≠ .ok (.applied made) := by
  obtain ⟨r, hr, hlost⟩ := h
  obtain ⟨rejected, hrejected⟩ := Record.apply_eq_rejected (hv id r hr).2 hlost ht
  rw [transition_eq hr, hrejected]
  cases r.image? t with
  | none => nofun
  | some next =>
    simp only
    cases (l.persist next).1 <;> nofun

end Log

namespace Manager

open Program

variable {m : Manager}

/-- The transaction can no longer commit, as its record is judged now. -/
def Lost (m : Manager) (id : TxnId) : Prop :=
  m.log.Lost id m.clock.now m.timeout

/-- A status that is asked for alone tells whether a transaction is lost. -/
theorem run_status_of_lost (hm : m.Coherent) {id : TxnId} (h : m.Lost id) :
    ∃ status, ((Manager.status id).run m).1 = .ok status ∧ status.final? = some .rolledBack := by
  obtain ⟨r, hr, hlost⟩ := h
  refine ⟨r.status m.clock.now m.timeout, ?_, hlost⟩
  rw [run_status hm, retrieve, hr]
  rfl

theorem lost_of_run_status (hm : m.Coherent) {id : TxnId} {status : TxnStatus}
    (h : ((Manager.status id).run m).1 = .ok status) (hfinal : status.final? = some .rolledBack) :
    m.Lost id := by
  rw [run_status hm, retrieve] at h
  cases hr : m.log.get? id with
  | none => rw [hr] at h; cases h
  | some r =>
    rw [hr] at h
    cases h
    exact ⟨r, hr, hfinal⟩

/-- A lost transaction stays lost behind what is done at the present time. -/
theorem lost_of_presence (hv : Log.Valid m.log.records) {id : TxnId} (h : m.Lost id) {m' : Manager}
    (hlead : presence.leads m m') : m'.Lost id := by
  obtain ⟨hclock, htimeout, calls, hlog, hcalls⟩ := hlead
  unfold Lost
  rw [hclock, htimeout, hlog]
  exact Log.lost_run hv h hcalls

/-- A commit of a lost transaction fails, if its owner knows of the record. -/
theorem run_commit_of_lost (hv : Log.Valid m.log.records) {t : Transaction} (h : m.Lost t.id)
    (hpersisted : t.isPersisted = true) :
    ∃ e t', ((commit t).run m).1 = (.error e, t') := by
  change (commit t).Yields (fun answer _ => ∃ e t', answer = (.error e, t')) m
  unfold commit drawTimestamp
  simp only [hpersisted, Bool.not_true, Bool.false_eq_true, if_false]
  split_ifs
  · exact .pure ⟨_, _, rfl⟩
  refine .atomically_bind ?_
  cases m.oracle.draw.1 with
  | error e => exact .pure ⟨_, _, rfl⟩
  | ok ts =>
    -- the commit looks at the time and the timeout that the transaction is lost at
    refine .atomically_bind (.atomically_bind (.atomically_bind ?_))
    have hrefused := Log.transition_ne_applied hv h (.inl ⟨ts, rfl⟩)
    simp only
    cases hanswer : (m.log.transition t.id (.commit ts m.clock.now m.timeout)).1 with
    | error e => exact .pure ⟨_, _, rfl⟩
    | ok outcome =>
      cases outcome with
      | applied made => exact absurd hanswer (hrefused made)
      | unchanged r | rejected r =>
        exact .behind fun _ _ => .behind fun _ _ => .behind fun _ _ => .pure ⟨_, _, rfl⟩

namespace Session

/-! ## Along a run -/

/-- The clock does not go back. -/
def ClockForward (s : Session) : List Request → Prop
  | [] => True
  | request :: requests =>
    s.manager.clock.now ≤ (s.step request).2.manager.clock.now ∧
      (s.step request).2.ClockForward requests

/-- A lost transaction stays lost behind every request that does not turn the clock back. -/
theorem lost_step {s : Session} (hs : s.manager.Coherent) {id : TxnId} (h : s.manager.Lost id)
    {request : Request}
    (hclock : s.manager.clock.now ≤ (s.step request).2.manager.clock.now) :
    (s.step request).2.manager.Lost id := by
  by_cases hset : ∃ now, request = .setClock now
  · obtain ⟨now, rfl⟩ := hset
    exact Log.Lost.later hs.valid h hclock
  · exact lost_of_presence hs.valid h (presence_step s fun now heq => hset ⟨now, heq⟩)

theorem lost_run {s : Session} (hs : s.manager.Coherent) {id : TxnId} (h : s.manager.Lost id)
    {requests : List Request} (hclock : s.ClockForward requests) :
    (s.run requests).manager.Lost id := by
  induction requests generalizing s with
  | nil => exact h
  | cons request requests ih =>
    exact ih (coherent_step hs request).1 (lost_step hs h hclock.1) hclock.2

/-! ## Who holds a transaction with a record -/

/-- What holds of the transactions that are held if the oracle hands out no id twice: a transaction
has a record only if it says so. -/
structure Owned (s : Session) : Prop where
  distinct : s.Distinct
  recorded : ∀ id, s.manager.log.get? id ≠ none → id.beginTs < s.manager.oracle.next
  bare : ∀ t ∈ s.held, t.isPersisted = false → s.manager.log.get? t.id = none

section OneStep

variable {s s' : Session} {request : Request} {reply : Option Reply} (hs : s.Owned)
  (h : Step s request reply s')

include hs

theorem Owned.drawn {t : Transaction} (ht : t ∈ s.held) : t.id.beginTs < s.manager.oracle.next :=
  hs.distinct.drawn t.id (List.mem_map_of_mem ht)

include h

/-- A record is given to an id that was drawn. -/
theorem recorded_of_step (hcount : s.manager.oracle.next ≤ s'.manager.oracle.next) {id : TxnId}
    (hsome : s'.manager.log.get? id ≠ none) : id.beginTs < s'.manager.oracle.next := by
  by_cases hbefore : s.manager.log.get? id = none
  · rcases h.held_cases with ⟨-, hrecords⟩ | ⟨t, -, -, hid, hnext, hrecords⟩ |
      ⟨k, t, t', hk, hsucceeds, -, hrecords⟩
    · exact absurd (hrecords id hbefore) hsome
    · obtain ⟨rfl, -⟩ := (hrecords id hbefore).resolve_left hsome
      rw [hid, hnext]
      exact lt_timestamp_next (hnext ▸ hcount)
    · obtain ⟨rfl, -⟩ := (hrecords id hbefore).resolve_left hsome
      rw [hsucceeds.id_eq]
      exact UInt64.lt_of_lt_of_le (hs.drawn (List.mem_of_getElem? hk)) hcount
  · exact UInt64.lt_of_lt_of_le (hs.recorded id hbefore) hcount

/-- A record is given to no transaction that does not say so. -/
theorem bare_of_step {u : Transaction} (hu : u ∈ s'.held) (hbare : u.isPersisted = false) :
    s'.manager.log.get? u.id = none := by
  -- a record appears under one id only, whose owner knows of it
  have stays (id : TxnId) {new : Transaction} (hnone : s.manager.log.get? id = none)
      (hbare : id = new.id → new.isPersisted = false)
      (hrecords : ∀ id, s.manager.log.get? id = none → s'.manager.log.get? id = none ∨
        id = new.id ∧ new.isPersisted = true) : s'.manager.log.get? id = none := by
    refine (hrecords id hnone).resolve_right fun ⟨hsame, hpersisted⟩ => ?_
    rw [hbare hsame] at hpersisted
    cases hpersisted
  rcases h.held_cases with ⟨hheld, hrecords⟩ | ⟨t, -, hheld, hid, -, hrecords⟩ |
    ⟨k, t, t', hk, hsucceeds, hheld, hrecords⟩ <;> rw [hheld] at hu
  · exact hrecords _ (hs.bare u hu hbare)
  · rcases List.mem_append.mp hu with hu | hu
    · -- the new id was not drawn before
      refine stays _ (hs.bare u hu hbare) (fun hsame => ?_) hrecords
      have hlt := hs.drawn hu
      rw [hsame, hid] at hlt
      exact absurd hlt (UInt64.lt_irrefl _)
    · obtain rfl : u = t := by simpa using hu
      refine stays u.id ?_ (fun _ => hbare) hrecords
      by_contra hsome
      have hlt := hs.recorded _ hsome
      rw [hid] at hlt
      exact UInt64.lt_irrefl _ hlt
  · obtain ⟨i, hi⟩ := List.mem_iff_getElem?.mp hu
    by_cases hik : k = i
    · subst hik
      have hlt : k < s.held.length := (List.getElem?_eq_some_iff.mp hk).1
      obtain rfl : t' = u := by simpa [List.getElem?_set_self hlt] using hi
      have hbefore : t.isPersisted = false := by
        by_contra htrue
        rw [hsucceeds.isPersisted (by simpa using htrue)] at hbare
        cases hbare
      refine stays _ ?_ (fun _ => hbare) hrecords
      rw [hsucceeds.id_eq]
      exact hs.bare t (List.mem_of_getElem? hk) hbefore
    · rw [List.getElem?_set_ne hik] at hi
      refine stays _ (hs.bare u (List.mem_of_getElem? hi) hbare) (fun hsame => ?_) hrecords
      exact absurd (hs.distinct.index_eq hk hi (hsucceeds.id_eq.symm.trans hsame.symm)) hik

theorem owned_of_step (hcount : s.manager.oracle.next ≤ s'.manager.oracle.next) : s'.Owned :=
  ⟨distinct_of_step hs.distinct h hcount, fun _ => recorded_of_step hs h hcount,
    fun _ => bare_of_step hs h⟩

end OneStep

theorem owned_run {s : Session} (hs : s.manager.Coherent) (howned : s.Owned)
    {requests : List Request} (hcount : s.NeverWraps requests) : (s.run requests).Owned := by
  induction requests generalizing s with
  | nil => exact howned
  | cons request requests ih =>
    refine ih (coherent_step hs request).1 ?_ hcount.2
    exact owned_of_step howned (step_spec hs.valid request) hcount.1

/-! ## What is answered about a transaction that was reported as abandoned -/

/-- A session over a log. -/
def onLog {σ : Type} (log : Log) (config : Config) (c : Collaborators σ) : Session :=
  ⟨Engine.newManager log config c, []⟩

/-- In a session in which no one holds a transaction yet, every transaction that is held has a record
only if it says so. -/
theorem owned_onLog {σ : Type} {log : Log} {config : Config} {c : Collaborators σ}
    (h : ∀ id, (onLog log config c).manager.log.get? id ≠ none →
      id.beginTs < (onLog log config c).manager.oracle.next) : (onLog log config c).Owned :=
  ⟨⟨List.nodup_nil, by simp [onLog]⟩, h, by simp [onLog]⟩

/-- The oracle hands out no id of a transaction that has a record already, and none twice. -/
def NoIdTwice (s : Session) (requests : List Request) : Prop :=
  (∀ id, s.manager.log.get? id ≠ none → id.beginTs < s.manager.oracle.next) ∧
    s.NeverWraps requests

/-- Whoever holds a transaction with a record knows of the record. -/
theorem isPersisted_of_record {σ : Type} {log : Log} (hv : Log.Valid log.records) {config : Config}
    {c : Collaborators σ} {requests : List Request}
    (hids : (onLog log config c).NoIdTwice requests) {t : Transaction}
    (ht : t ∈ ((onLog log config c).run requests).held)
    (hrecord : ((onLog log config c).run requests).manager.log.get? t.id ≠ none) :
    t.isPersisted = true := by
  by_contra hbare
  have howned := owned_run (coherent_newManager hv config c) (owned_onLog hids.1) hids.2
  exact hrecord (howned.bare t ht (by simpa using hbare))

theorem answer_status (s : Session) (id : TxnId) :
    (s.step (.status id)).1 = some (.judged ((Manager.status id).run s.manager).1) := by
  simp only [step, Request.program, Op.program, run_map]

theorem answer_commit {s : Session} {k : Nat} {t : Transaction} (hk : s.held[k]? = some t) :
    (s.step (.commit k)).1 = some (.committed ((commit t).run s.manager).1) := by
  simp only [step, Request.program, hk, Option.map_some, Op.program, run_map]

/-- Abandonment is final. Once a transaction was reported as abandoned, and as long as the clock
does not go back from then on, whatever is asked for and whatever the storage does: its status is
told and final, and it is not that of a commit; its record is not kept alive; and every commit of it
fails. The owner of a transaction with a record knows of the record, unless an id is handed out
twice. -/
theorem abandoned_final {σ : Type} (h : Handle) (bytes : Bytes) (f : Faults) (config : Config)
    (c : Collaborators σ) (before behind : List Request) (id : TxnId)
    (hreported : (((onLog (Log.openedFaulty h bytes f) config c).run before).step (.status id)).1 =
      some (.judged (.ok .abandoned)))
    (hclock : ((onLog (Log.openedFaulty h bytes f) config c).run
      (before ++ [.status id])).ClockForward behind) :
    let s := onLog (Log.openedFaulty h bytes f) config c
    let requests := before ++ [.status id] ++ behind
    let t := s.run requests
    (∃ status, (t.step (.status id)).1 = some (.judged (.ok status)) ∧
        status.final? = some .rolledBack) ∧
      (∀ now made, t.manager.clock.now ≤ now →
        (t.manager.log.transition id (.keepAlive now t.manager.timeout)).1 ≠
          .ok (.applied made)) ∧
      ∀ k owned, t.held[k]? = some owned → owned.id = id →
        owned.isPersisted = true ∨ s.NoIdTwice requests →
        ∃ e owned', (t.step (.commit k)).1 = some (.committed (.error e, owned')) := by
  intro s requests t
  have hs : s.manager.Coherent := coherent_newManager (Log.valid_openedFaulty h bytes f) config c
  have hlost : t.manager.Lost id := by
    have hthen := stays_coherent hs (before ++ [.status id])
    rw [answer_status, Option.some.injEq, Reply.judged.injEq] at hreported
    have hreportedLost := lost_of_run_status (stays_coherent hs before) hreported rfl
    have hlostThen : (s.run (before ++ [.status id])).manager.Lost id := by
      rw [run_concat]
      exact lost_of_presence (stays_coherent hs before).valid hreportedLost (presence_step _ nofun)
    simp only [t, requests, run_append s (before ++ [.status id])]
    exact lost_run hthen hlostThen hclock
  have ht : t.manager.Coherent := stays_coherent hs requests
  refine ⟨?_, fun now made hle => ?_, fun k owned hk hid howned => ?_⟩
  · obtain ⟨status, hstatus, hfinal⟩ := run_status_of_lost ht hlost
    exact ⟨status, by rw [answer_status, hstatus], hfinal⟩
  · exact Log.transition_ne_applied ht.valid (hlost.later ht.valid hle) (.inr rfl) made
  · subst hid
    have hpersisted : owned.isPersisted = true := by
      refine howned.elim (fun hpersisted => hpersisted) fun hids => ?_
      obtain ⟨r, hr, -⟩ := hlost
      exact isPersisted_of_record (Log.valid_openedFaulty h bytes f) hids (List.mem_of_getElem? hk)
        (by rw [hr]; nofun)
    obtain ⟨e, owned', hcommit⟩ := run_commit_of_lost ht.valid hlost hpersisted
    exact ⟨e, owned', by rw [answer_commit hk, hcommit]⟩

/-! The owner of a transaction sleeps for ten minutes. Its transaction is reported as abandoned; the
commit that comes too late fails, and so does the write of the rolled-back record. -/

def sleepingOwner : Session :=
  onLog (Log.openedFaulty .shared [] (Faults.none.add .sync 1)) .default
    (Workload.ownCollaborators 0 Directory.defaultLabel)

/-- The commit fails again when it is asked for once more. -/
theorem abandoned_sleepingOwner :
    let before := [.begin, .setClock 600000]
    let behind := [.commit 0, .renew ⟨1⟩, .setClock 600001]
    ((sleepingOwner.run before).step (.status ⟨1⟩)).1 = some (.judged (.ok .abandoned)) ∧
      (sleepingOwner.run (before ++ [.status ⟨1⟩])).ClockForward behind ∧
      ∃ e owned, ((sleepingOwner.run (before ++ [.status ⟨1⟩] ++ behind)).step (.commit 0)).1 =
        some (.committed (.error e, owned)) := by
  intro before behind
  have hreported : ((sleepingOwner.run before).step (.status ⟨1⟩)).1 =
      some (.judged (.ok .abandoned)) := by
    have hstatus : ((Manager.status ⟨1⟩).run (sleepingOwner.run before).manager).1 =
        .ok .abandoned := by
      rw [sleepingOwner, Log.openedFaulty_nil]
      decide +kernel
    rw [answer_status, hstatus]
  have hclock : (sleepingOwner.run (before ++ [.status ⟨1⟩])).ClockForward behind := by
    rw [sleepingOwner, Log.openedFaulty_nil]
    simp only [ClockForward, behind]
    decide +kernel
  have hheld : (sleepingOwner.run (before ++ [.status ⟨1⟩] ++ behind)).held[0]? =
      some (.new ⟨1⟩ false) := by
    rw [sleepingOwner, Log.openedFaulty_nil]
    rfl
  refine ⟨hreported, hclock, ?_⟩
  obtain ⟨-, -, hcommit⟩ := abandoned_final .shared [] (Faults.none.add .sync 1) .default
    (Workload.ownCollaborators 0 Directory.defaultLabel) before behind ⟨1⟩ hreported hclock
  exact hcommit 0 (.new ⟨1⟩ false) hheld rfl (.inl rfl)

end Session

end Manager

end TxnEngine
