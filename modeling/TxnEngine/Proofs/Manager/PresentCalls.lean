import TxnEngine.Proofs.Manager.SnapshotIsolation

/-!
# Calls at the present time

An operation that runs alone reads the clock once, and whatever it asks of the log afterwards it
asks at that time and with the configured timeout. So all that a request of a session can do to the
log is some calls made at the present time.

Results:
* `leads_settle`, `leads_commit`, `leads_renew` and the like: the calls of each operation.
* `presence_step`: the calls of every request that does not move the clock.
-/

namespace TxnEngine

/-- The request looks at no other time and timeout than these. -/
def Transition.LooksAt (now timeout : Millis) : Transition → Prop
  | .commit _ now' timeout' | .keepAlive now' timeout' | .abandon now' timeout' =>
    now' = now ∧ timeout' = timeout
  | .rollback | .fail => True

/-- The call, if it is a request, looks at no other time and timeout than these. -/
def Log.Call.LooksAt (now timeout : Millis) : Log.Call → Prop
  | .create _ _ _ => True
  | .transition _ t => t.LooksAt now timeout

namespace Program

variable {σ α β : Type} {D : Discipline σ} {s : σ}

/-- Run alone from `s`, the program changes the state along the discipline. -/
def Leads (D : Discipline σ) (p : Program σ α) (s : σ) : Prop :=
  D.leads s (p.run s).2

namespace Leads

theorem pure (a : α) : (Pure.pure a : Program σ α).Leads D s :=
  D.refl s

theorem bind {p : Program σ α} {q : α → Program σ β} (hp : p.Leads D s)
    (hq : ∀ a t, D.leads s t → (q a).Leads D t) : (p >>= q).Leads D s := by
  unfold Leads
  rw [run_bind]
  exact D.trans hp (hq _ _ hp)

/-- A program that begins with reading the state goes on with what it has read. -/
theorem read {f : σ → β} {q : β → Program σ α} (hq : (q (f s)).Leads D s) :
    (Program.read f >>= q).Leads D s :=
  hq

end Leads

end Program

namespace Manager

open Program

variable {m : Manager}

/-- The clock stands still, and the log changes by calls made at the present time. -/
def presence : Discipline Manager where
  holds := fun _ => True
  leads := fun m m' => m'.clock = m.clock ∧ m'.timeout = m.timeout ∧
    ∃ calls : List Log.Call, m'.log = m.log.run calls ∧
      ∀ c ∈ calls, c.LooksAt m.clock.now m.timeout
  refl := fun _ => ⟨rfl, rfl, [], rfl, by simp⟩
  trans := by
    rintro s t u ⟨hclock, htimeout, calls, hlog, hcalls⟩ ⟨hclock', htimeout', calls', hlog', hcalls'⟩
    rw [hclock, htimeout] at hcalls'
    refine ⟨hclock'.trans hclock, htimeout'.trans htimeout, calls ++ calls', ?_, fun c hc => ?_⟩
    · rw [hlog', hlog, Log.run_append]
    · exact (List.mem_append.mp hc).elim (hcalls c) (hcalls' c)

/-- The log is left alone. -/
theorem presence_of_log_eq {m' : Manager} (hlog : m'.log = m.log) (hclock : m'.clock = m.clock)
    (htimeout : m'.timeout = m.timeout) : presence.leads m m' :=
  ⟨hclock, htimeout, [], hlog, by simp⟩

theorem leads_of_silent {α : Type} {p : Program Manager α} (hp : p.Alone silence) (m : Manager) :
    p.Leads presence m := by
  obtain ⟨hlog, -, hclock, htimeout⟩ := (hp m trivial).2
  exact presence_of_log_eq hlog hclock htimeout

theorem leads_drawTimestamp (m : Manager) : drawTimestamp.Leads presence m :=
  presence_of_log_eq rfl rfl rfl

theorem leads_createRecord (m : Manager) (ts : Timestamp) (now : Millis) (readOnly : Bool) :
    (createRecord (.start ts now readOnly)).Leads presence m :=
  ⟨rfl, rfl, [.create ts now readOnly], rfl, by simp [Log.Call.LooksAt]⟩

theorem leads_transition {id : TxnId} {t : Transition} (ht : t.LooksAt m.clock.now m.timeout) :
    (transition id t).Leads presence m :=
  ⟨rfl, rfl, [.transition id t], rfl, by simpa [Log.Call.LooksAt] using ht⟩

/-! ## The operations -/

theorem leads_begin (m : Manager) : begin.Leads presence m := by
  unfold begin
  refine .bind (leads_drawTimestamp m) fun answer t _ => ?_
  cases answer with
  | error e => exact .pure _
  | ok ts =>
    refine .read (.bind (leads_createRecord t ts _ false) fun answer u _ => ?_)
    cases answer with
    | error e => exact .pure _
    | ok _ =>
      exact leads_of_silent (.bind (silent_track _) fun _ => .bind (silent_count _) fun _ =>
        .pure _) u

theorem leads_beginReadOnly (m : Manager) : beginReadOnly.Leads presence m := by
  unfold beginReadOnly
  refine .bind (leads_drawTimestamp m) fun answer t _ => ?_
  cases answer with
  | error e => exact .pure _
  | ok ts => exact presence_of_log_eq rfl rfl rfl

theorem leads_elevate (m : Manager) (t : Transaction) : (elevate t).Leads presence m := by
  unfold elevate
  split_ifs
  · exact .pure _
  · exact .pure _
  · refine .read (.bind (leads_createRecord m _ _ true) fun answer u _ => ?_)
    cases answer with
    | error e => exact .pure _
    | ok _ => exact leads_of_silent (.bind (silent_track _) fun _ => .pure _) u

theorem leads_commit (m : Manager) (t : Transaction) : (commit t).Leads presence m := by
  unfold commit
  split_ifs
  · exact .pure _
  · exact leads_of_silent (.bind (silent_untrack _) fun _ => .bind (silent_count _) fun _ =>
      .pure _) m
  · refine .bind (leads_drawTimestamp m) fun answer u _ => ?_
    cases answer with
    | error e => exact .pure _
    | ok ts =>
      refine .read (.read (.bind (leads_transition ⟨rfl, rfl⟩) fun answer v _ => ?_))
      rcases answer with e | outcome
      · exact .pure _
      · cases outcome <;>
          exact leads_of_silent (.bind (silent_untrack _) fun _ => .bind (silent_remember _)
            fun _ => .bind (silent_count _) fun _ => .pure _) v

theorem leads_rollback (m : Manager) (t : Transaction) : (rollback t).Leads presence m := by
  unfold rollback
  cases t.phase with
  | aborted | committed => exact .pure _
  | active =>
    simp only
    split_ifs
    · exact leads_of_silent (.bind (silent_untrack _) fun _ => .pure _) m
    · refine .bind (leads_transition trivial) fun answer u _ => ?_
      cases answer with
      | error e => exact .pure _
      | ok outcome =>
        refine leads_of_silent (.bind (silent_untrack _) fun _ => .bind (silent_remember _)
          fun _ => ?_) u
        cases outcome with
        | unchanged r => exact .pure _
        | applied r | rejected r => exact .bind (silent_count _) fun _ => .pure _

theorem leads_fail (m : Manager) (t : Transaction) : (fail t).Leads presence m := by
  unfold fail
  split_ifs
  · exact .pure _
  · exact leads_of_silent (.bind (silent_untrack _) fun _ => .pure _) m
  · refine .bind (leads_transition trivial) fun answer u _ => ?_
    cases answer with
    | error e => exact .pure _
    | ok outcome =>
      refine leads_of_silent (.bind (silent_untrack _) fun _ => .bind (silent_remember _)
        fun _ => ?_) u
      cases outcome with
      | applied r => exact .bind (silent_count _) fun _ => .pure _
      | unchanged r | rejected r => exact .pure _

theorem leads_settle (m : Manager) (id : TxnId) : (settle id).Leads presence m := by
  unfold settle
  refine .read (.bind (leads_of_silent (silent_lookup id) m) fun answer t ⟨hclock, _, _⟩ => ?_)
  cases answer with
  | error e => exact .pure _
  | ok r =>
    refine .read ?_
    simp only
    split_ifs
    · exact .pure _
    · refine .bind (leads_transition ⟨by rw [hclock], rfl⟩) fun answer u _ => ?_
      cases answer with
      | error e => exact .pure _
      | ok outcome =>
        cases outcome with
        | applied r =>
          exact leads_of_silent (.bind (silent_count _) fun _ => .bind (silent_untrack id) fun _ =>
            .bind (silent_remember _) fun _ => .pure _) u
        | unchanged r | rejected r =>
          exact leads_of_silent (.bind (silent_remember _) fun _ => .pure _) u

theorem leads_renew (m : Manager) (id : TxnId) : (renew id).Leads presence m := by
  unfold renew
  refine .read (.read ?_)
  split_ifs
  · exact leads_of_silent (silent_count _) m
  · refine .read (.bind (leads_transition ⟨rfl, rfl⟩) fun answer u _ => ?_)
    split
    · exact leads_of_silent (silent_count _) u
    · exact .pure _
    · exact leads_of_silent (silent_onKeepAlive _) u
    · exact leads_of_silent (silent_onKeepAlive _) u
    · exact leads_of_silent (silent_count _) u

theorem leads_work (m : Manager) : work.Leads presence m := by
  unfold work
  refine .bind (leads_of_silent (silent_onKeepAlive _) m) fun due t _ => ?_
  cases due with
  | none => exact .pure _
  | some id =>
    refine .read ?_
    split_ifs
    · exact leads_renew t id
    · exact .pure _

namespace Session

/-- Every request makes its calls at the present time. -/
theorem presence_step (s : Session) {request : Request} (hclock : ∀ now, request ≠ .setClock now) :
    presence.leads s.manager (s.step request).2.manager := by
  unfold step
  cases hp : request.program s.held with
  | none => exact presence.refl _
  | some p =>
    have hmap {α : Type} {p : Program Manager α} (f : α → Reply) (h : p.Leads presence s.manager) :
        (f <$> p).Leads presence s.manager := by
      rwa [Leads, run_map]
    show p.Leads presence s.manager
    cases request with
    | setClock now => exact absurd rfl (hclock now)
    | elevate k => exact Request.of_held hp fun t => hmap _ (leads_elevate _ t)
    | commit k => exact Request.of_held hp fun t => hmap _ (leads_commit _ t)
    | rollback k => exact Request.of_held hp fun t => hmap _ (leads_rollback _ t)
    | fail k => exact Request.of_held hp fun t => hmap _ (leads_fail _ t)
    | isVisible k candidate =>
      exact Request.of_held hp fun t => hmap _ (leads_of_silent (silent_isVisibleAt _ _ _) _)
    | begin => cases hp; exact hmap _ (leads_begin _)
    | beginReadOnly => cases hp; exact hmap _ (leads_beginReadOnly _)
    | status id => cases hp; exact hmap _ (leads_of_silent (silent_status id) _)
    | settle id => cases hp; exact hmap _ (leads_settle _ id)
    | renew id => cases hp; exact hmap _ (leads_renew _ id)
    | work => cases hp; exact hmap _ (leads_work _)
    | receive | dispatch | wait d => cases hp; exact presence_of_log_eq rfl rfl rfl

end Session

end Manager

end TxnEngine
