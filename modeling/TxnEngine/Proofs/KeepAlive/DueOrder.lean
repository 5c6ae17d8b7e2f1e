import Mathlib.Data.Prod.Lex
import TxnEngine.Proofs.KeepAlive.Dispatching

/-!
# The deadlines that are due

The dispatcher takes the due deadlines off the front, and those of live ids go back behind. As the
interval is positive they are not due again, so that the loop comes to an end, and no id is taken
twice. Instants may come in any order, and ids may be scheduled, dropped and scheduled again.

Results:
* `Deadline.insertSorted_ascending`: the deadlines stay in ascending order.
* `Taking`: the loop without a bound on its rounds; `taking_takeDue`: it comes to an end.
* `Taking.taken_eq`, `Taking.pending_perm`: the ids that it takes and the deadlines that it leaves.
* `after_disciplined`: what every call does behind any sequence of calls.
-/

namespace TxnEngine

namespace Deadline

/-! ## The order of deadlines -/

/-- What deadlines are compared by: the time, then the id. -/
def key (d : Deadline) : Nat ×ₗ Nat :=
  toLex (d.due, d.id.val.toNat)

theorem before_iff {a b : Deadline} : a.before b = true ↔ a.key < b.key := by
  have hid : a.id < b.id ↔ a.id.val.toNat < b.id.val.toNat := UInt64.lt_iff_toNat_lt
  simp [before, key, Prod.Lex.toLex_lt_toLex, hid]

theorem before_trans {a b c : Deadline} (hab : a.before b = true) (hbc : b.before c = true) :
    a.before c = true :=
  before_iff.mpr ((before_iff.mp hab).trans (before_iff.mp hbc))

/-- Of two deadlines with different ids one comes first. -/
theorem before_of_not_before {a b : Deadline} (h : ¬ a.before b = true) (hid : a.id ≠ b.id) :
    b.before a = true := by
  rw [before_iff] at h ⊢
  refine lt_of_le_of_ne (not_lt.mp h) fun heq => hid ?_
  obtain ⟨-, hval⟩ := Prod.ext_iff.mp (toLex_inj.mp heq)
  exact congrArg TxnId.mk (UInt64.toNat_inj.mp hval.symm)

theorem due_le_of_before {a b : Deadline} (h : a.before b = true) : a.due ≤ b.due := by
  simp only [before, Bool.or_eq_true, Bool.and_eq_true, decide_eq_true_eq] at h
  rcases h with hlt | ⟨heq, -⟩
  · exact Nat.le_of_lt hlt
  · exact Nat.le_of_eq heq

/-- Each deadline comes before all that follow it. -/
def Ascending (pending : List Deadline) : Prop :=
  pending.Pairwise fun a b => a.before b = true

theorem insertSorted_ascending {d : Deadline} {pending : List Deadline} (h : Ascending pending)
    (hid : d.id ∉ pending.map Deadline.id) : Ascending (d.insertSorted pending) := by
  induction pending with
  | nil => exact List.pairwise_singleton _ _
  | cons e rest ih =>
    obtain ⟨hfirst, hrest⟩ := List.pairwise_cons.mp h
    rw [List.map_cons, List.mem_cons, not_or] at hid
    rw [insertSorted]
    split_ifs with hbefore
    · refine List.pairwise_cons.mpr ⟨fun x hx => ?_, h⟩
      rcases List.mem_cons.mp hx with rfl | hx
      · exact hbefore
      · exact before_trans hbefore (hfirst x hx)
    · refine List.pairwise_cons.mpr ⟨fun x hx => ?_, ih hrest hid.2⟩
      rcases List.mem_cons.mp ((insertSorted_perm d rest).mem_iff.mp hx) with rfl | hx
      · exact before_of_not_before hbefore hid.1
      · exact hfirst x hx

/-- A filter that drops a deadline does not see where it was put in. -/
theorem filter_insertSorted {p : Deadline → Bool} {d : Deadline} (hd : p d = false)
    (pending : List Deadline) : (d.insertSorted pending).filter p = pending.filter p := by
  induction pending with
  | nil => simp [insertSorted, hd]
  | cons e rest ih =>
    rw [insertSorted]
    split_ifs
    · rw [List.filter_cons, hd, if_neg Bool.false_ne_true]
    · rw [List.filter_cons, List.filter_cons, ih]

/-- What becomes of a deadline when the due ones are taken at `now`. -/
def behind (now : Instant) (interval : Duration) (isLive : TxnId → Bool) (d : Deadline) :
    Option Deadline :=
  if now < d.due then some d
  else if isLive d.id then some ⟨now + interval.nanos, d.id⟩
  else none

end Deadline

namespace Deadlines

/-- The deadlines are well kept, and in ascending order. -/
structure InOrder (d : Deadlines) : Prop extends WellKept d where
  ascending : Deadline.Ascending d.pending

theorem inOrder_empty : InOrder empty :=
  ⟨wellKept_empty, List.Pairwise.nil⟩

theorem inOrder_schedule {d : Deadlines} (h : d.InOrder) (id : TxnId) (due : Instant) :
    (d.schedule id due).2.InOrder := by
  refine ⟨wellKept_schedule h.toWellKept id due, ?_⟩
  unfold schedule
  split_ifs with hid
  · exact h.ascending
  · exact Deadline.insertSorted_ascending h.ascending fun hpending =>
      hid ((h.noted id).mpr hpending)

/-! ## The loop -/

/-- Whether a deadline is due. -/
def isDue (now : Instant) (x : Deadline) : Bool :=
  decide (x.due ≤ now)

/-- The loop that takes the due deadlines, round by round, until none is due: which ids it takes,
and which deadlines it leaves. -/
inductive Taking (now : Instant) (interval : Duration) (isLive : TxnId → Bool) :
    Deadlines → List TxnId → Deadlines → Prop
  | done {d : Deadlines} (hfirst : ∀ first ∈ d.pending.head?, now < first.due) :
    Taking now interval isLive d [] d
  | live {first : Deadline} {rest : List Deadline} {scheduled taken : List TxnId} {d' : Deadlines}
    (hdue : first.due ≤ now) (hlive : isLive first.id = true)
    (hrest : Taking now interval isLive
      ⟨Deadline.insertSorted ⟨now + interval.nanos, first.id⟩ rest, scheduled⟩ taken d') :
    Taking now interval isLive ⟨first :: rest, scheduled⟩ (first.id :: taken) d'
  | dead {first : Deadline} {rest : List Deadline} {scheduled taken : List TxnId} {d' : Deadlines}
    (hdue : first.due ≤ now) (hdead : isLive first.id = false)
    (hrest : Taking now interval isLive ⟨rest, scheduled.erase first.id⟩ taken d') :
    Taking now interval isLive ⟨first :: rest, scheduled⟩ taken d'

section Loop

variable {now : Instant} {interval : Duration} {isLive : TxnId → Bool} {d d' : Deadlines}
  {taken : List TxnId}

/-- What goes one interval ahead is not due. -/
theorem isDue_ahead (hpositive : 0 < interval.nanos) (id : TxnId) :
    isDue now ⟨now + interval.nanos, id⟩ = false :=
  decide_eq_false (Nat.not_le.mpr (Nat.lt_add_of_pos_right hpositive))

/-- Every round leaves one deadline less that is due. -/
theorem taking_drain (hpositive : 0 < interval.nanos) (fuel : Nat) (d : Deadlines)
    (hfuel : d.pending.countP (isDue now) < fuel) :
    Taking now interval isLive d (d.drain now interval isLive fuel).1
      (d.drain now interval isLive fuel).2 := by
  induction fuel generalizing d with
  | zero => exact absurd hfuel (Nat.not_lt_zero _)
  | succ fuel ih =>
    obtain ⟨pending, scheduled⟩ := d
    cases pending with
    | nil => exact .done nofun
    | cons first rest =>
      have hless (hdue : first.due ≤ now) : rest.countP (isDue now) < fuel := by
        have hisDue : isDue now first = true := decide_eq_true hdue
        rw [List.countP_cons_of_pos hisDue] at hfuel
        exact Nat.lt_of_succ_lt_succ hfuel
      rw [drain]
      simp only
      split_ifs with hlater hlive
      · refine .done fun x hx => ?_
        cases hx
        exact hlater
      · have hdue : first.due ≤ now := Nat.not_lt.mp hlater
        refine .live hdue hlive (ih _ ?_)
        rw [(Deadline.insertSorted_perm _ _).countP_eq,
          List.countP_cons_of_neg (Bool.eq_false_iff.mp (isDue_ahead hpositive _))]
        exact hless hdue
      · have hdue : first.due ≤ now := Nat.not_lt.mp hlater
        exact .dead hdue (Bool.eq_false_iff.mpr hlive) (ih _ (hless hdue))

/-- The loop comes to an end, within as many rounds as are made. -/
theorem taking_takeDue (hpositive : 0 < interval.nanos) (d : Deadlines) :
    Taking now interval isLive d (d.takeDue now interval isLive).1
      (d.takeDue now interval isLive).2 :=
  taking_drain hpositive _ d (Nat.lt_succ_of_le List.countP_le_length)

/-- A round that takes a live id keeps the order. -/
theorem inOrder_of_live {first : Deadline} {rest : List Deadline} {scheduled : List TxnId}
    (h : InOrder ⟨first :: rest, scheduled⟩) (hdue : first.due ≤ now)
    (hlive : isLive first.id = true) :
    InOrder ⟨Deadline.insertSorted ⟨now + interval.nanos, first.id⟩ rest, scheduled⟩ := by
  have hkept := wellKept_takeFirst now interval isLive h.toWellKept
  simp only [takeFirst, if_neg (Nat.not_lt.mpr hdue), hlive, if_true] at hkept
  obtain ⟨hnot, -⟩ := List.nodup_cons.mp h.once
  exact ⟨hkept, Deadline.insertSorted_ascending (List.pairwise_cons.mp h.ascending).2 hnot⟩

/-- So does a round that drops an id. -/
theorem inOrder_of_dead {first : Deadline} {rest : List Deadline} {scheduled : List TxnId}
    (h : InOrder ⟨first :: rest, scheduled⟩) (hdue : first.due ≤ now)
    (hdead : isLive first.id = false) : InOrder ⟨rest, scheduled.erase first.id⟩ := by
  have hkept := wellKept_takeFirst now .zero isLive h.toWellKept
  simp only [takeFirst, if_neg (Nat.not_lt.mpr hdue), hdead, Bool.false_eq_true, if_false] at hkept
  exact ⟨hkept, (List.pairwise_cons.mp h.ascending).2⟩

/-- If the first deadline is not due, none is. -/
theorem not_due_of_head {pending : List Deadline} (h : Deadline.Ascending pending)
    (hfirst : ∀ first ∈ pending.head?, now < first.due) : ∀ x ∈ pending, now < x.due := by
  cases pending with
  | nil => exact nofun
  | cons first rest =>
    have hnow : now < first.due := hfirst first rfl
    refine List.forall_mem_cons.mpr ⟨hnow, fun x hx => ?_⟩
    exact Nat.lt_of_lt_of_le hnow (Deadline.due_le_of_before ((List.pairwise_cons.mp h).1 x hx))

namespace Taking

theorem inOrder (h : Taking now interval isLive d taken d') (hd : d.InOrder) : d'.InOrder := by
  induction h with
  | done => exact hd
  | live hdue hlive _ ih => exact ih (inOrder_of_live hd hdue hlive)
  | dead hdue hdead _ ih => exact ih (inOrder_of_dead hd hdue hdead)

/-- The live ids that are due are taken, in the order of their deadlines. -/
theorem taken_eq (h : Taking now interval isLive d taken d') (hpositive : 0 < interval.nanos)
    (hd : d.InOrder) :
    taken = (d.pending.filter fun x => isDue now x && isLive x.id).map Deadline.id := by
  induction h with
  | @done d hfirst =>
    have hlater := not_due_of_head hd.ascending hfirst
    have hnone : d.pending.filter (fun x => isDue now x && isLive x.id) = [] := by
      refine List.filter_eq_nil_iff.mpr fun x hx => ?_
      simp [isDue, hlater x hx]
    rw [hnone, List.map_nil]
  | live hdue hlive _ ih =>
    rw [ih (inOrder_of_live hd hdue hlive),
      Deadline.filter_insertSorted (by rw [isDue_ahead hpositive, Bool.false_and]), List.filter_cons,
      if_pos (by simp [isDue, hdue, hlive]), List.map_cons]
  | dead hdue hdead _ ih =>
    rw [ih (inOrder_of_dead hd hdue hdead), List.filter_cons, if_neg (by simp [hdead])]

/-- The due deadlines of live ids go one interval ahead, those of the others are gone, and the rest
stays. -/
theorem pending_perm (h : Taking now interval isLive d taken d') (hpositive : 0 < interval.nanos)
    (hd : d.InOrder) :
    d'.pending.Perm (d.pending.filterMap (Deadline.behind now interval isLive)) := by
  induction h with
  | @done d hfirst =>
    have hlater := not_due_of_head hd.ascending hfirst
    have hall : d.pending.filterMap (Deadline.behind now interval isLive) = d.pending := by
      refine (List.filterMap_congr fun x hx => ?_).trans List.filterMap_some
      rw [Deadline.behind, if_pos (hlater x hx)]
    rw [hall]
  | @live first rest scheduled taken d' hdue hlive _ ih =>
    have hfirst : Deadline.behind now interval isLive first =
        some ⟨now + interval.nanos, first.id⟩ := by
      rw [Deadline.behind, if_neg (Nat.not_lt.mpr hdue), if_pos hlive]
    have hagain : Deadline.behind now interval isLive ⟨now + interval.nanos, first.id⟩ =
        some ⟨now + interval.nanos, first.id⟩ :=
      if_pos (Nat.lt_add_of_pos_right hpositive)
    have hperm := (Deadline.insertSorted_perm ⟨now + interval.nanos, first.id⟩ rest).filterMap
      (Deadline.behind now interval isLive)
    rw [List.filterMap_cons_some hagain] at hperm
    rw [List.filterMap_cons_some hfirst]
    exact (ih (inOrder_of_live hd hdue hlive)).trans hperm
  | @dead first rest scheduled taken d' hdue hdead _ ih =>
    have hfirst : Deadline.behind now interval isLive first = none := by
      rw [Deadline.behind, if_neg (Nat.not_lt.mpr hdue), if_neg (by simp [hdead])]
    rw [List.filterMap_cons_none hfirst]
    exact ih (inOrder_of_dead hd hdue hdead)

end Taking

/-- A deadline that is left behind is not due. -/
theorem lt_due_of_behind (hpositive : 0 < interval.nanos) {x y : Deadline}
    (h : Deadline.behind now interval isLive x = some y) : now < y.due ∧ y.id = x.id := by
  unfold Deadline.behind at h
  split_ifs at h with hlater hlive
  · cases h
    exact ⟨hlater, rfl⟩
  · cases h
    exact ⟨Nat.lt_add_of_pos_right hpositive, rfl⟩

end Loop

/-! ## Calls -/

/-- The calls that change the deadlines. -/
inductive Call where
  | schedule (id : TxnId) (due : Instant)
  | takeDue (now : Instant) (interval : Duration) (isLive : TxnId → Bool)

namespace Call

/-- Intervals are positive. Nothing is asked of the instants. -/
def IsTimely : Call → Prop
  | schedule _ _ => True
  | takeDue _ interval _ => 0 < interval.nanos

/-- The deadlines behind a call. -/
def next (d : Deadlines) : Call → Deadlines
  | .schedule id due => (d.schedule id due).2
  | .takeDue now interval isLive => (d.takeDue now interval isLive).2

end Call

/-- The deadlines behind a sequence of calls. -/
def after (calls : List Call) : Deadlines :=
  calls.foldl Call.next empty

theorem inOrder_next {d : Deadlines} (h : d.InOrder) {call : Call} (htimely : call.IsTimely) :
    (call.next d).InOrder := by
  cases call with
  | schedule id due => exact inOrder_schedule h id due
  | takeDue now interval isLive => exact (taking_takeDue htimely d).inOrder h

theorem inOrder_foldl {d : Deadlines} (h : d.InOrder) {calls : List Call}
    (htimely : ∀ call ∈ calls, call.IsTimely) : (calls.foldl Call.next d).InOrder := by
  induction calls generalizing d with
  | nil => exact h
  | cons call rest ih =>
    obtain ⟨hcall, hrest⟩ := List.forall_mem_cons.mp htimely
    exact ih (inOrder_next h hcall) hrest

/-! ## What the calls do -/

section Calls

variable {d : Deadlines}

/-- An id is scheduled unless it has a deadline. -/
theorem schedule_of_mem (h : d.InOrder) {id : TxnId} (hid : id ∈ d.ids) (due : Instant) :
    d.schedule id due = (false, d) :=
  if_pos ((h.noted id).mpr hid)

theorem schedule_of_notMem (h : d.InOrder) {id : TxnId} (hid : id ∉ d.ids) (due : Instant) :
    d.schedule id due = (true, ⟨Deadline.insertSorted ⟨due, id⟩ d.pending, id :: d.scheduled⟩) :=
  if_neg fun hscheduled => hid ((h.noted id).mp hscheduled)

/-- The first of the deadlines in order is the earliest. -/
theorem wait_of_ne_nil (h : d.InOrder) (hne : d.pending ≠ []) (now : Instant) (idle : Duration) :
    ∃ first ∈ d.pending, (∀ x ∈ d.pending, first.due ≤ x.due) ∧
      now + (d.wait now idle).nanos = max now first.due := by
  obtain ⟨first, rest, hpending⟩ := List.exists_cons_of_ne_nil hne
  have hascending := h.ascending
  rw [hpending] at hascending
  refine ⟨first, hpending ▸ List.mem_cons_self, fun x hx => ?_, ?_⟩
  · rw [hpending] at hx
    rcases List.mem_cons.mp hx with rfl | hx
    · exact Nat.le_refl _
    · exact Deadline.due_le_of_before ((List.pairwise_cons.mp hascending).1 x hx)
  · simp only [wait, hpending]
    rcases Nat.le_total now first.due with hle | hle
    · rw [Nat.add_sub_of_le hle, Nat.max_eq_right hle]
    · rw [Nat.sub_eq_zero_of_le hle, Nat.max_eq_left hle, Nat.add_zero]

/-- A call takes the due deadlines at `now` and leads from `d` to `d'`. -/
structure TakesDue (now : Instant) (interval : Duration) (isLive : TxnId → Bool) (d : Deadlines)
    (ids : List TxnId) (d' : Deadlines) : Prop where
  /-- The loop comes to its end. -/
  ends : Taking now interval isLive d ids d'
  /-- It answers the live ids that were due, in the order of their deadlines. -/
  taken : ∃ due : List Deadline, Deadline.Ascending due ∧ ids = due.map Deadline.id ∧
    ∀ x, x ∈ due ↔ x ∈ d.pending ∧ x.due ≤ now ∧ isLive x.id = true
  /-- No id is taken twice. -/
  once : ids.Nodup
  /-- The due deadlines of live ids go one interval ahead, those of the others are gone, and the
  rest stays. -/
  moved : d'.pending.Perm (d.pending.filterMap (Deadline.behind now interval isLive))
  /-- Nothing is due any more. -/
  later : ∀ x ∈ d'.pending, now < x.due
  /-- An id that was dropped can be scheduled again. -/
  freed : ∀ x ∈ d.pending, x.due ≤ now → isLive x.id = false →
    ∀ due, (d'.schedule x.id due).1 = true

theorem takesDue_takeDue (h : d.InOrder) {now : Instant} {interval : Duration}
    (hpositive : 0 < interval.nanos) (isLive : TxnId → Bool) :
    TakesDue now interval isLive d (d.takeDue now interval isLive).1
      (d.takeDue now interval isLive).2 := by
  have hends : Taking now interval isLive d _ _ := taking_takeDue hpositive d
  have htaken := hends.taken_eq hpositive h
  have hmoved := hends.pending_perm hpositive h
  have hsublist := List.filter_sublist (p := fun x => isDue now x && isLive x.id) (l := d.pending)
  refine ⟨hends, ⟨_, h.ascending.sublist hsublist, htaken, fun x => ?_⟩, ?_, hmoved,
    fun y hy => ?_, fun x hx hdue hdead due => ?_⟩
  · simp [isDue]
  · rw [htaken]
    exact h.once.sublist (hsublist.map Deadline.id)
  · obtain ⟨x, -, hxy⟩ := List.mem_filterMap.mp (hmoved.mem_iff.mp hy)
    exact (lt_due_of_behind hpositive hxy).1
  · rw [schedule_of_notMem (hends.inOrder h)]
    intro hid
    obtain ⟨y, hy, hyid⟩ := List.mem_map.mp hid
    obtain ⟨z, hz, hzy⟩ := List.mem_filterMap.mp (hmoved.mem_iff.mp hy)
    -- No other deadline has the id of the one that was dropped.
    obtain rfl : z = x :=
      List.inj_on_of_nodup_map h.once hz hx ((lt_due_of_behind hpositive hzy).2.symm.trans hyid)
    rw [Deadline.behind, if_neg (Nat.not_lt.mpr hdue), if_neg (by simp [hdead])] at hzy
    cases hzy

/-- Behind any calls with positive intervals, at any instants and whichever ids are live: each id
has one deadline if it is noted as scheduled, and none otherwise; scheduling is refused, and changes
nothing, exactly for the ids with a deadline, and gives any other id its deadline; the due deadlines
are taken as `TakesDue` says; and the time to wait reaches up to the earliest deadline, or is the
idle time if there is none. -/
theorem after_disciplined {calls : List Call} (htimely : ∀ call ∈ calls, call.IsTimely) :
    let d := after calls
    (d.ids.Nodup ∧ d.scheduled.Perm d.ids) ∧
    (∀ id due, ((d.schedule id due).1 = false ↔ id ∈ d.ids) ∧
      ((d.schedule id due).2 = d ↔ id ∈ d.ids) ∧
      (id ∉ d.ids → (d.schedule id due).2.pending.Perm (⟨due, id⟩ :: d.pending))) ∧
    (∀ now interval isLive, 0 < interval.nanos →
      TakesDue now interval isLive d (d.takeDue now interval isLive).1
        (d.takeDue now interval isLive).2) ∧
    ∀ now idle, (d.pending = [] → d.wait now idle = idle) ∧
      (d.pending ≠ [] → ∃ first ∈ d.pending, (∀ x ∈ d.pending, first.due ≤ x.due) ∧
        now + (d.wait now idle).nanos = max now first.due) := by
  intro d
  have hd : d.InOrder := inOrder_foldl inOrder_empty htimely
  refine ⟨⟨hd.once, (List.perm_ext_iff_of_nodup hd.apart hd.once).mpr hd.noted⟩,
    fun id due => ?_, fun now interval isLive hpositive => takesDue_takeDue hd hpositive isLive,
    fun now idle => ⟨fun hnil => ?_, fun hne => wait_of_ne_nil hd hne now idle⟩⟩
  · by_cases hid : id ∈ d.ids
    · simp [schedule_of_mem hd hid, hid]
    · have hperm := Deadline.insertSorted_perm ⟨due, id⟩ d.pending
      rw [schedule_of_notMem hd hid]
      refine ⟨by simp [hid], ⟨fun hsame => ?_, fun hmem => absurd hmem hid⟩, fun _ => hperm⟩
      -- One more deadline makes a difference.
      have hlength := congrArg (fun d => d.pending.length) hsame
      rw [hperm.length_eq] at hlength
      exact absurd hlength (Nat.succ_ne_self _)
  · simp only [wait, hnil]

/-- Two ids are due at the same time, and one of them is not live. The other is due again together
with a third, whose deadline was the earlier one. -/
theorem after_disciplined_twoTakings :
    let calls : List Call := [.schedule ⟨7⟩ 30, .schedule ⟨9⟩ 10, .schedule ⟨4⟩ 10,
      .takeDue 20 ⟨15⟩ fun id => decide (id ≠ ⟨9⟩)]
    (∀ call ∈ calls, call.IsTimely) ∧ (after calls).pending = [⟨30, ⟨7⟩⟩, ⟨35, ⟨4⟩⟩] ∧
      TakesDue 40 ⟨15⟩ (fun _ => true) (after calls) [⟨7⟩, ⟨4⟩]
        ⟨[⟨55, ⟨4⟩⟩, ⟨55, ⟨7⟩⟩], [⟨4⟩, ⟨7⟩]⟩ := by
  intro calls
  have htimely : ∀ call ∈ calls, call.IsTimely := by
    simp [calls, Call.IsTimely]
  obtain ⟨-, -, htakes, -⟩ := after_disciplined htimely
  exact ⟨htimely, by decide, htakes 40 ⟨15⟩ (fun _ => true) (by decide)⟩

end Calls

end Deadlines

end TxnEngine
