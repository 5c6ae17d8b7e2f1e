import TxnEngine.Proofs.Manager.Effects
import TxnEngine.Proofs.Manager.Ownership

/-!
# Handles and records

The owner of a transaction and the log each have their own picture of it, and they are brought up to
date in different places. An operation of the owner changes both together. Others can only roll the
record back, and only when it has expired: then the owner does not know yet.

Results:
* `agrees_decided`: an owner who ends its transaction knows how the record was decided.
* `accord_of_effect`: no request makes a handle disagree with its record.
* `handle_agrees_with_record`: what is in the log for every transaction that is held.
-/

namespace TxnEngine

namespace Manager

/-- The request can find the record of the transaction expired, and roll it back behind its owner's
back. -/
def Request.Expires (id : TxnId) (request : Request) : Prop :=
  request = .settle id ∨ request.Renews id

namespace Session

/-- One of the requests, and one of the given kind, finds the record of the transaction expired and
rolls it back. -/
def ExpiredBy (s : Session) (requests : List Request) (kind : TxnId → Request → Prop) (id : TxnId) :
    Prop :=
  ∃ before request r, before ++ [request] <+: requests ∧ kind id request ∧
    (s.run before).manager.log.get? id = some r ∧
    r.isExpired (s.run before).manager.clock.now (s.run before).manager.timeout = true ∧
    (s.run (before ++ [request])).manager.log.get? id = some { r with state := .rolledBack }

theorem ExpiredBy.mono {s : Session} {a b : List Request} {kind : TxnId → Request → Prop}
    {id : TxnId} (h : s.ExpiredBy a kind id) (hab : a <+: b) : s.ExpiredBy b kind id := by
  obtain ⟨before, request, r, hcut, hrest⟩ := h
  exact ⟨before, request, r, hcut.trans hab, hrest⟩

/-! ## Agreement -/

/-- How a handle and the record of its transaction go together. -/
inductive Agrees (lapsed : Prop) (t : Transaction) (r : Record) : Prop
  | running (phase : t.phase = .active) (state : r.state = .active)
  /-- The record was rolled back, and the owner does not know yet. -/
  | lapsed (phase : t.phase = .active) (state : r.state = .rolledBack) (lapses : lapsed)
  | committed (ts : Timestamp) (phase : t.phase = .committed) (state : r.state = .committed)
      (commitTs : t.commitTs = some ts) (recorded : r.commitTs = some ts)
  | aborted (phase : t.phase = .aborted) (state : r.state = .rolledBack ∨ r.state = .error)

theorem Agrees.mono {lapsed lapsed' : Prop} {t : Transaction} {r : Record}
    (h : Agrees lapsed t r) (himp : lapsed → lapsed') : Agrees lapsed' t r := by
  cases h with
  | running phase state => exact .running phase state
  | lapsed phase state lapses => exact .lapsed phase state (himp lapses)
  | committed ts phase state commitTs recorded => exact .committed ts phase state commitTs recorded
  | aborted phase state => exact .aborted phase state

/-- The owner of a live record takes its transaction to be active. -/
theorem Agrees.phase_of_active {lapsed : Prop} {t : Transaction} {r : Record}
    (h : Agrees lapsed t r) (hs : r.state = .active) : t.phase = .active := by
  cases h with
  | running phase => exact phase
  | lapsed phase => exact phase
  | committed ts phase state => rw [hs] at state; cases state
  | aborted phase state => rw [hs] at state; rcases state with h | h <;> cases h

/-- An owner who ends its transaction knows how the record was decided. -/
theorem agrees_decided {lapsed lapsed' : Prop} {t : Transaction} {r : Record}
    {request : Transition} (h : Agrees lapsed t r) (hactive : t.phase = .active)
    (hends : request.Ends) :
    Agrees lapsed' (t.decided request (r.apply request)) (r.apply request).record := by
  cases h with
  | running _ hs =>
    cases request with
    | commit ts now timeout =>
      by_cases he : r.isExpired now timeout = true
      · exact .aborted (by simp [Record.apply, hs, he, Transaction.decided, Transaction.abort])
          (by simp [Record.apply, hs, he, TransitionOutcome.record])
      · simp only [Record.apply, hs, if_neg he]
        exact .committed ts rfl rfl rfl rfl
    | rollback =>
      simp only [Record.apply, hs]
      exact .aborted rfl (.inl rfl)
    | fail =>
      simp only [Record.apply, hs]
      exact .aborted rfl (.inr rfl)
    | keepAlive now timeout | abandon now timeout => exact hends.elim
  | lapsed _ hs =>
    have hf : r.isFinished = true := by simp [Record.isFinished, hs, TxnState.isFinished]
    rw [Record.record_apply_of_finished hf]
    refine .aborted ?_ (.inl hs)
    cases request with
    | commit ts now timeout => simp [Record.apply, hs, Transaction.decided, Transaction.abort]
    | rollback | fail => rfl
    | keepAlive now timeout | abandon now timeout => exact hends.elim
  | committed _ phase | aborted phase => rw [hactive] at phase; cases phase

/-- A record that is asked to stay alive stays as its owner takes it to be, or has expired. -/
theorem agrees_renewed {lapsed lapsed' : Prop} {t : Transaction} {r : Record} {now timeout : Millis}
    (h : Agrees lapsed t r) (himp : lapsed → lapsed')
    (hexpires : r.isExpired now timeout = true → lapsed') :
    Agrees lapsed' t (r.apply (.keepAlive now timeout)).record := by
  rcases r.record_keepAlive_cases now timeout with ⟨-, hr⟩ | ⟨he, hr⟩ | ⟨hs, hr⟩ <;> rw [hr]
  · exact h.mono himp
  · exact .lapsed (h.phase_of_active (Record.state_of_isExpired he)) rfl (hexpires he)
  · exact .running (h.phase_of_active hs) hs

/-! ## Along a run -/

/-- What holds of the transactions that are held: one that may write has a record, and agrees
with it. -/
structure Accord (s : Session) (lapsed : TxnId → Prop) : Prop where
  kind : ∀ t ∈ s.held, t.isPersisted = !t.readOnly
  agrees : ∀ t ∈ s.held, t.isPersisted = true →
    ∃ r, s.manager.log.get? t.id = some r ∧ Agrees (lapsed t.id) t r

section Steps

variable {s : Session} {lapsed lapsed' : TxnId → Prop} (hs : s.Accord lapsed)
  (hlapses : ∀ id, lapsed id → lapsed' id)

include hs hlapses

/-- A handle that stays as it is agrees with a record that does. -/
theorem Accord.stays {m : Manager} {t : Transaction} (ht : t ∈ s.held)
    (hpersisted : t.isPersisted = true)
    (hsame : m.log.get? t.id = s.manager.log.get? t.id) :
    ∃ r, m.log.get? t.id = some r ∧ Agrees (lapsed' t.id) t r := by
  obtain ⟨r, hr, hagrees⟩ := hs.agrees t ht hpersisted
  exact ⟨r, hsame.trans hr, hagrees.mono (hlapses t.id)⟩

/-- All stay as they are. -/
theorem Accord.unmoved {m : Manager} (hsame : s.manager.log.Same m.log) :
    Accord ⟨m, s.held⟩ lapsed' :=
  ⟨hs.kind, fun t ht hpersisted => hs.stays hlapses ht hpersisted (hsame t.id)⟩

/-- A transaction begins, with a record that was not there or without one. -/
theorem Accord.concat {m : Manager} {t : Transaction} (hkind : t.isPersisted = !t.readOnly)
    (hnew : t.isPersisted = true → ∃ r, m.log.get? t.id = some r ∧ Agrees (lapsed' t.id) t r)
    (hothers : ∀ id, s.manager.log.get? id ≠ none → m.log.get? id = s.manager.log.get? id) :
    Accord ⟨m, s.held ++ [t]⟩ lapsed' := by
  refine ⟨fun u hu => ?_, fun u hu hpersisted => ?_⟩ <;>
    rcases List.mem_append.mp hu with hu | hu
  · exact hs.kind u hu
  · rw [List.mem_singleton.mp hu, hkind]
  · obtain ⟨r, hr, -⟩ := hs.agrees u hu hpersisted
    exact hs.stays hlapses hu hpersisted (hothers u.id (by simp [hr]))
  · obtain rfl := List.mem_singleton.mp hu
    exact hnew hpersisted

/-- A transaction comes back to its owner. The records of the others do not change. -/
theorem Accord.set {m : Manager} {k : Nat} {t' : Transaction}
    (hkind : t'.isPersisted = !t'.readOnly)
    (hback : t'.isPersisted = true →
      ∃ r, m.log.get? t'.id = some r ∧ Agrees (lapsed' t'.id) t' r)
    (hothers : ∀ i u, i ≠ k → s.held[i]? = some u → u.isPersisted = true →
      m.log.get? u.id = s.manager.log.get? u.id) :
    Accord ⟨m, s.held.set k t'⟩ lapsed' := by
  refine ⟨fun u hu => ?_, fun u hu hpersisted => ?_⟩ <;>
    obtain ⟨i, hi⟩ := List.mem_iff_getElem?.mp hu <;>
    rcases getElem?_set_cases hi with ⟨rfl, rfl⟩ | ⟨hik, hi⟩
  · exact hkind
  · exact hs.kind u (List.mem_of_getElem? hi)
  · exact hback hpersisted
  · exact hs.stays hlapses (List.mem_of_getElem? hi) hpersisted (hothers i u hik hi hpersisted)

/-- A record changes behind its owner's back. -/
theorem Accord.overtaken {m : Manager} {r : Record} (hputs : s.manager.log.Puts r m.log)
    (hr : ∀ t ∈ s.held, t.isPersisted = true → t.id = r.id → Agrees (lapsed' t.id) t r) :
    Accord ⟨m, s.held⟩ lapsed' := by
  refine ⟨hs.kind, fun t ht hpersisted => ?_⟩
  by_cases hid : t.id = r.id
  · exact ⟨r, by rw [hputs, if_pos hid], hr t ht hpersisted hid⟩
  · exact hs.stays hlapses ht hpersisted (hputs.get?_of_ne hid)

end Steps

/-- No request makes a handle disagree with its record. -/
theorem accord_of_effect {s s' : Session} {request : Request} {lapsed lapsed' : TxnId → Prop}
    (hs : s.Accord lapsed) (hrightful : s.Rightful) (hv : Log.Valid s.manager.log.records)
    (h : Effect s request s') (hlapses : ∀ id, lapsed id → lapsed' id)
    (hexpires : ∀ id r, request.Expires id → s.manager.log.get? id = some r →
      r.isExpired s.manager.clock.now s.manager.timeout = true →
      s'.manager.log.get? id = some { r with state := .rolledBack } → lapsed' id) :
    s'.Accord lapsed' := by
  cases h with
  | unmoved m unmoved => exact hs.unmoved hlapses unmoved.same
  | created m absent puts enters =>
    refine hs.concat hlapses rfl (fun _ => ⟨_, puts.get?, .running rfl rfl⟩) fun id hsome => ?_
    exact puts.get?_of_ne fun hid => hsome (hid ▸ absent)
  | opened m same enters =>
    exact hs.concat hlapses rfl (fun hpersisted => by cases hpersisted) fun id _ => same id
  | elevated k t m held isActive bare absent puts enters =>
    have hphase : t.phase = .active := by simpa [Transaction.isActive] using isActive
    refine hs.set hlapses rfl (fun _ => ⟨_, puts.get?, .running hphase rfl⟩)
      fun i u _ hu hpersisted => puts.get?_of_ne fun hid => ?_
    exact hrightful.recorded u (List.mem_of_getElem? hu) hpersisted (hid ▸ absent)
  | ended k t t' m held ending =>
    have hmem := List.mem_of_getElem? held
    cases ending with
    | refused m unmoved =>
      exact hs.set hlapses (hs.kind t hmem)
        (fun hpersisted => hs.stays hlapses hmem hpersisted (unmoved.same t.id))
        fun _ u _ _ _ => unmoved.same u.id
    | released t' m isActive bare same leaves owner =>
      rcases owner with rfl | rfl <;>
        exact hs.set hlapses (hs.kind t hmem)
          (fun hpersisted => absurd (hpersisted.symm.trans bare) (by decide))
          fun _ u _ _ _ => same u.id
    | decided r tr t' m isActive persisted ends get id puts leaves owner =>
      have hphase : t.phase = .active := by simpa [Transaction.isActive] using isActive
      obtain ⟨r', hr', hagrees⟩ := hs.agrees t hmem persisted
      obtain rfl := Option.some.inj (get.symm.trans hr')
      have hback : Agrees (lapsed' t.id) t' (r.apply tr).record := by
        rw [owner]
        exact agrees_decided hagrees hphase ends
      refine hs.set hlapses (by simpa [owner] using hs.kind t hmem) (fun _ => ?_)
        fun i u hik hu hpersisted => puts.get?_of_ne fun hid => ?_
      · rw [owner, Transaction.id_decided, ← owner]
        exact ⟨_, by rw [puts, if_pos id.symm], hback⟩
      · exact hik (hrightful.single hu held hpersisted persisted (hid.trans id))
  | settled id r m settles get expired puts leaves =>
    obtain rfl := (hv id r get).1
    have hlapsed := hexpires r.id r (.inl settles) get expired puts.get?
    refine hs.overtaken hlapses puts fun t ht hpersisted hid => ?_
    obtain ⟨r', hr', hagrees⟩ := hs.agrees t ht hpersisted
    obtain rfl := Option.some.inj (get.symm.trans (hid ▸ hr'))
    rw [hid]
    exact .lapsed (hagrees.phase_of_active (Record.state_of_isExpired expired)) rfl hlapsed
  | renewed id r m renews get hid puts active =>
    refine hs.overtaken hlapses puts fun t ht hpersisted hsame => ?_
    rw [hid] at hsame
    obtain ⟨r', hr', hagrees⟩ := hs.agrees t ht hpersisted
    obtain rfl := Option.some.inj (get.symm.trans (hsame ▸ hr'))
    refine agrees_renewed hagrees (hlapses t.id) fun he => ?_
    rw [hsame]
    refine hexpires id r (.inr renews) get he ?_
    rw [puts, if_pos hid.symm, Record.record_keepAlive_of_isExpired he]

/-- An expiry that a request finds is one of those that are found behind it. -/
theorem expiredBy_concat {s : Session} {requests : List Request} {request : Request}
    {kind : TxnId → Request → Prop} {id : TxnId} {r : Record} (hkind : kind id request)
    (hr : (s.run requests).manager.log.get? id = some r)
    (he : r.isExpired (s.run requests).manager.clock.now (s.run requests).manager.timeout = true)
    (hback : (s.run (requests ++ [request])).manager.log.get? id =
      some { r with state := .rolledBack }) : s.ExpiredBy (requests ++ [request]) kind id :=
  ⟨requests, request, r, List.prefix_refl _, hkind, hr, he, hback⟩

theorem accord_run {s : Session} (hs : s.manager.Coherent) (hheld : s.held = [])
    (requests : List Request) : (s.run requests).Accord (s.ExpiredBy requests Request.Expires) := by
  induction requests using List.reverseRecOn with
  | nil =>
    refine ⟨?_, ?_⟩ <;> rw [run, List.foldl_nil, hheld] <;>
      exact List.forall_mem_nil _
  | append_singleton requests request ih =>
    have hcoherent := stays_coherent hs requests
    have heffect := effect_step hcoherent request
    rw [← run_concat] at heffect
    have hrightful := rightful_run hs (rightful_of_nil hheld) requests
    refine accord_of_effect ih hrightful hcoherent.valid heffect
      (fun id h => h.mono (List.prefix_append _ _)) fun id r hkind hr he hback => ?_
    exact expiredBy_concat hkind hr he hback

/-- Handles do not disagree with the log. Whatever was asked for in a session, whatever the clock
showed and whatever the storage did: a transaction that is held and only reads has no record. One that
may write has one, which is committed at a timestamp if and only if its owner takes it to be. If its
owner takes it to be aborted, then the record is rolled back or marked as failed; and if its owner
takes it to be active, then so is the record, or it had expired and was rolled back by a settlement or
a renewal. -/
theorem handle_agrees_with_record {σ : Type} (h : Handle) (bytes : Bytes) (f : Faults)
    (config : Config) (c : Collaborators σ) (requests : List Request)
    (hids : (onLog (Log.openedFaulty h bytes f) config c).NoIdTwice requests) :
    let s := onLog (Log.openedFaulty h bytes f) config c
    let records := (s.run requests).manager.log.get?
    ∀ t ∈ (s.run requests).held,
      t.isPersisted = !t.readOnly ∧ (t.readOnly = true → records t.id = none) ∧
        (t.isPersisted = true → ∃ r, records t.id = some r ∧
          (∀ ts, t.phase = .committed ∧ t.commitTs = some ts ↔
            r.state = .committed ∧ r.commitTs = some ts) ∧
          (t.phase = .aborted → r.state = .rolledBack ∨ r.state = .error) ∧
          (t.phase = .active → r.state = .active ∨
            r.state = .rolledBack ∧ s.ExpiredBy requests Request.Expires t.id)) := by
  intro s records t ht
  have hs : s.manager.Coherent := coherent_newManager (Log.valid_openedFaulty h bytes f) config c
  have howned : s.Owned := owned_onLog hids.1
  have haccord := accord_run hs rfl requests
  have hkind := haccord.kind t ht
  refine ⟨hkind, fun hreads => ?_, fun hpersisted => ?_⟩
  · rw [hreads] at hkind
    exact (owned_run hs howned hids.2).bare t ht hkind
  · obtain ⟨r, hr, hagrees⟩ := haccord.agrees t ht hpersisted
    refine ⟨r, hr, ?_⟩
    cases hagrees with
    | running phase state => simp [phase, state]
    | lapsed phase state lapses => simp [phase, state, lapses]
    | committed ts phase state commitTs recorded => simp [phase, state, commitTs, recorded]
    | aborted phase state =>
      rcases state with state | state <;> simp [phase, state]

/-! The owner of the first transaction sleeps for ten minutes, and the transaction is settled: the
first settlement fails with its sync, the second one rolls the record back. -/

def settledAsleep : List Request :=
  [.begin, .beginReadOnly, .setClock 600000, .settle ⟨1⟩, .settle ⟨1⟩]

/-- The owner takes its transaction to be active, and the log has it rolled back for having
expired. -/
theorem rolledBack_settledAsleep :
    sleepingOwner.NoIdTwice settledAsleep ∧
      .new ⟨1⟩ false ∈ (sleepingOwner.run settledAsleep).held ∧
      (∃ r, (sleepingOwner.run settledAsleep).manager.log.get? ⟨1⟩ = some r ∧
        r.state = .rolledBack ∧ sleepingOwner.ExpiredBy settledAsleep Request.Expires ⟨1⟩) ∧
      .new ⟨2⟩ true ∈ (sleepingOwner.run settledAsleep).held ∧
      (sleepingOwner.run settledAsleep).manager.log.get? ⟨2⟩ = none := by
  have hids : sleepingOwner.NoIdTwice settledAsleep := by
    rw [sleepingOwner, Log.openedFaulty_nil]
    refine ⟨fun id hid => absurd rfl hid, ?_⟩
    simp only [NeverWraps, settledAsleep]
    decide +kernel
  have hheld : .new ⟨1⟩ false ∈ (sleepingOwner.run settledAsleep).held ∧
      .new ⟨2⟩ true ∈ (sleepingOwner.run settledAsleep).held ∧
      (sleepingOwner.run settledAsleep).manager.log.get? ⟨1⟩ =
        some ⟨⟨1⟩, .rolledBack, ⟨1⟩, none, 0, false⟩ := by
    rw [sleepingOwner, Log.openedFaulty_nil]
    decide +kernel
  obtain ⟨hwriter, hreader, hrecord⟩ := hheld
  have hagrees := handle_agrees_with_record .shared [] (Faults.none.add .sync 1) .default
    (Workload.ownCollaborators 0 Directory.defaultLabel) settledAsleep hids
  obtain ⟨-, -, hpersisted⟩ := hagrees _ hwriter
  obtain ⟨-, hnone, -⟩ := hagrees _ hreader
  obtain ⟨r, hr, -, -, hactive⟩ := hpersisted rfl
  obtain rfl := Option.some.inj (hr.symm.trans hrecord)
  refine ⟨hids, hwriter, ⟨_, hrecord, (hactive rfl).resolve_left (by decide)⟩, hreader, hnone rfl⟩

end Session

end Manager

end TxnEngine
