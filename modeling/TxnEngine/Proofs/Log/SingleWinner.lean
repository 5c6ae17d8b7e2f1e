import Mathlib.Data.List.Induction
import TxnEngine.Proofs.Log.Calls

/-!
# One call finishes a record, and nothing changes it afterwards

A record goes through the calls on its log by `Record.next`: only requests under its own id touch
it. So all that can be said of its history is what one step preserves, followed over the calls.

Results:
* `Record.next_spec`: what one call does to a record.
* `get?_run_of_sound`: the record in the table after any calls.
* `singleWinner_run`: among any calls behind its creation at most one finishes a record, and from
  then on the record and the log stay as they are and every request is answered with that record.
-/

namespace TxnEngine

namespace Record

/-! ## One record among the calls -/

/-- What a call makes of a record. -/
def next (r : Record) : Log.Call → Record
  | .create _ _ _ => r
  | .transition id t => if id = r.id then (r.image? t).getD r else r

/-- A call leaves a record as it is, or it is a request that makes a new image of it. -/
theorem next_spec (r : Record) (c : Log.Call) :
    r.next c = r ∨ ∃ t, c = .transition r.id t ∧ r.image? t = some (r.next c) := by
  cases c with
  | create ts now readOnly => exact .inl rfl
  | transition id t =>
    by_cases hid : id = r.id
    · subst hid
      simp only [next, if_pos]
      cases hi : r.image? t with
      | none => exact .inl rfl
      | some image => exact .inr ⟨t, rfl, hi⟩
    · exact .inl (if_neg hid)

theorem next_keeps {r : Record} (hc : r.Consistent) (c : Log.Call) :
    (r.next c).id = r.id ∧ (r.next c).beginTs = r.beginTs ∧ (r.next c).readOnly = r.readOnly ∧
      r.lastKeepAlive ≤ (r.next c).lastKeepAlive ∧ (r.next c).Consistent := by
  rcases next_spec r c with h | ⟨t, -, hi⟩
  · rw [h]
    exact ⟨rfl, rfl, rfl, UInt64.le_refl _, hc⟩
  · exact image?_keeps hi hc

theorem next_finished {r : Record} (hf : r.isFinished = true) (c : Log.Call) : r.next c = r := by
  rcases next_spec r c with h | ⟨t, -, hi⟩
  · exact h
  · rw [image?_finished hf] at hi
    cases hi

/-- What calls make of a record one behind the other. -/
def follow (r : Record) (calls : List Log.Call) : Record :=
  calls.foldl next r

theorem follow_append (r : Record) (a b : List Log.Call) :
    r.follow (a ++ b) = (r.follow a).follow b :=
  List.foldl_append

theorem follow_concat (r : Record) (a : List Log.Call) (c : Log.Call) :
    r.follow (a ++ [c]) = (r.follow a).next c :=
  follow_append r a [c]

theorem follow_keeps {r : Record} (hc : r.Consistent) (calls : List Log.Call) :
    (r.follow calls).id = r.id ∧ (r.follow calls).beginTs = r.beginTs ∧
      (r.follow calls).readOnly = r.readOnly ∧ r.lastKeepAlive ≤ (r.follow calls).lastKeepAlive ∧
      (r.follow calls).Consistent := by
  induction calls generalizing r with
  | nil => exact ⟨rfl, rfl, rfl, UInt64.le_refl _, hc⟩
  | cons c calls ih =>
    obtain ⟨hid, hbegin, hro, hle, hnext⟩ := next_keeps hc c
    obtain ⟨hid', hbegin', hro', hle', hlast⟩ := ih hnext
    exact ⟨hid'.trans hid, hbegin'.trans hbegin, hro'.trans hro, UInt64.le_trans hle hle', hlast⟩

theorem follow_finished {r : Record} (hf : r.isFinished = true) (calls : List Log.Call) :
    r.follow calls = r := by
  induction calls with
  | nil => rfl
  | cons c calls ih =>
    rw [follow, List.foldl_cons, next_finished hf]
    exact ih

/-- The request that finishes a record is applied, or rejected with the record rolled back. -/
theorem next_finishes {r : Record} {c : Log.Call} (hlive : r.isFinished = false)
    (hf : (r.next c).isFinished = true) :
    ∃ t, c = .transition r.id t ∧ (r.apply t = .applied (r.next c) ∨
      r.apply t = .rejected (r.next c) ∧ (r.next c).state = .rolledBack) := by
  rcases next_spec r c with h | ⟨t, rfl, hi⟩
  · rw [h, hlive] at hf
    cases hf
  · refine ⟨t, rfl, ?_⟩
    rcases image?_cases hi with ⟨_, _, _, -, ha, -⟩ | ⟨_, ha, -⟩ | ⟨ha, -⟩ | ⟨ha | ha, hn⟩
    · exact .inl ha
    · exact .inl ha
    · exact .inl ha
    · exact .inl ha
    · exact .inr ⟨ha, by rw [hn]⟩

/-- A record without a commit timestamp is given one by a commit only. -/
theorem next_commitTs {r : Record} {c : Log.Call} {ts : Timestamp} (hnone : r.commitTs = none)
    (hsome : (r.next c).commitTs = some ts) :
    ∃ now timeout, c = .transition r.id (.commit ts now timeout) ∧
      r.apply (.commit ts now timeout) = .applied (r.next c) := by
  rcases next_spec r c with h | ⟨t, rfl, hi⟩
  · rw [h, hnone] at hsome
    cases hsome
  · rcases image?_cases hi with ⟨ts', now, timeout, rfl, ha, hn⟩ | ⟨_, -, hn⟩ | ⟨-, hn⟩ | ⟨-, hn⟩
    · obtain rfl : ts' = ts := by simpa [hn] using hsome
      exact ⟨now, timeout, rfl, ha⟩
    all_goals simp [hn, hnone] at hsome

theorem apply_commit_eq_applied {r made : Record} {ts : Timestamp} {now timeout : Millis}
    (h : r.apply (.commit ts now timeout) = .applied made) :
    r.isFinished = false ∧ made = { r with state := .committed, commitTs := some ts } := by
  simp only [apply] at h
  split at h
  · next hs =>
    split_ifs at h
    cases h
    exact ⟨isFinished_eq_false_iff.mpr hs, rfl⟩
  · cases h

/-- A record that is finished after some calls is the same after all calls that extend them. -/
theorem follow_of_isPrefix {r : Record} {a b : List Log.Call} (hab : a <+: b)
    (hf : (r.follow a).isFinished = true) : r.follow b = r.follow a := by
  obtain ⟨rest, rfl⟩ := hab
  rw [follow_append, follow_finished hf]

/-- A commit timestamp comes from a commit that was applied. -/
theorem follow_commitTs {r : Record} (hc : r.Consistent) (hnone : r.commitTs = none)
    {calls : List Log.Call} {ts : Timestamp} (hts : (r.follow calls).commitTs = some ts) :
    ∃ a now timeout, a ++ [.transition r.id (.commit ts now timeout)] <+: calls ∧
      (r.follow a).apply (.commit ts now timeout) = .applied (r.follow calls) := by
  induction calls using List.reverseRecOn with
  | nil =>
    rw [show r.follow [] = r from rfl, hnone] at hts
    cases hts
  | append_singleton b c ih =>
    obtain ⟨hid, -, -, -, hconsistent⟩ := follow_keeps hc b
    rw [follow_concat] at hts ⊢
    cases hb : (r.follow b).commitTs with
    | none =>
      obtain ⟨now, timeout, rfl, ha⟩ := next_commitTs hb hts
      rw [hid] at ha ⊢
      exact ⟨b, now, timeout, List.prefix_refl _, ha⟩
    | some ts' =>
      -- the commit lies further back, and the record has been finished since
      rw [next_finished (isFinished_of_commitTs hconsistent hb)] at hts ⊢
      obtain ⟨a, now, timeout, hpre, ha⟩ := ih hts
      exact ⟨a, now, timeout, hpre.trans (List.prefix_append _ _), ha⟩

end Record

namespace Log

/-- What a call makes of a record whose table takes in the image of the call. -/
theorem get?_of_fill {l : Log} (hv : Valid l.records) {id : TxnId} {r : Record}
    (hr : l.get? id = some r) (c : Call) :
    (fill l.records (l.image? c).toList).find? id = some (r.next c) := by
  obtain ⟨hid, hc⟩ := hv id r hr
  -- without a new image of its own the record stays
  have same (hi : ∀ image, l.image? c = some image → image.id ≠ id) :
      (fill l.records (l.image? c).toList).find? id = some r := by
    rw [find?_fill_of_forall_ne, ← get?, hr]
    exact fun image himage => hi image (Option.mem_toList.mp himage)
  have other (hother : ∀ t, c ≠ .transition id t) :
      (fill l.records (l.image? c).toList).find? id = some r := by
    refine same fun image hi => ?_
    rintro rfl
    rcases image?_cases hv hi with ⟨_, _, _, -, -, hnone⟩ | ⟨t, _, hcall, -⟩
    · rw [hr] at hnone
      cases hnone
    · exact hother t hcall
  cases c with
  | create ts now readOnly => exact other nofun
  | transition caller t =>
    by_cases hcaller : caller = r.id
    · rw [Record.next, if_pos hcaller]
      rw [hid] at hcaller
      subst hcaller
      have hsome : l.image? (.transition caller t) = r.image? t := by rw [image?, hr, Option.bind_some]
      cases hi : r.image? t with
      | none => exact same (by simp [hsome, hi])
      | some image =>
        have hsame : image.id = caller := (Record.image?_keeps hi hc).1.trans hid
        rw [hsome, hi]
        simp only [Option.toList_some, fill_cons, fill_nil, ← hsame, Table.find?_insert_self,
          Option.getD_some]
    · rw [Record.next, if_neg hcaller]
      refine other fun t' h => ?_
      cases h
      exact hcaller hid.symm

theorem get?_after_of_sound {l : Log} (hs : l.Sound) (hv : Valid l.records) {id : TxnId}
    {r : Record} (hr : l.get? id = some r) (c : Call) : (l.after c).get? id = some (r.next c) := by
  rw [get?, records_after_of_sound hs]
  exact get?_of_fill hv hr c

/-- On storage that can fail a call leaves a record as it is or makes of it what it should. -/
theorem get?_after_cases {l : Log} (hv : Valid l.records) {id : TxnId} {r : Record}
    (hr : l.get? id = some r) (c : Call) :
    (l.after c).get? id = some r ∨ (l.after c).get? id = some (r.next c) := by
  rcases records_after l c with hsame | ⟨image, himage, hput⟩
  · exact .inl (by rw [get?, hsame, ← get?, hr])
  · refine .inr ?_
    have hfill := get?_of_fill hv hr c
    rw [himage] at hfill
    rw [get?, hput]
    exact hfill

theorem get?_run_of_sound {l : Log} (hs : l.Sound) (hv : Valid l.records) {id : TxnId}
    {r : Record} (hr : l.get? id = some r) (calls : List Call) :
    (l.run calls).get? id = some (r.follow calls) := by
  induction calls generalizing l r with
  | nil => exact hr
  | cons c calls ih =>
    exact ih (sound_after hs c) (valid_after hv c) (get?_after_of_sound hs hv hr c)

/-! ## The history of a record -/

/-- A call that finds the record live and leaves it finished. -/
def Finishes (l : Log) (id : TxnId) (c : Call) : Prop :=
  (∃ r, l.get? id = some r ∧ r.isFinished = false) ∧
    ∃ r, (l.after c).get? id = some r ∧ r.isFinished = true

/-- What the calls behind the creation of a record do to it. The log after each of them is the run
of some first part of the calls. -/
structure SingleWinner (l : Log) (created : Record) (calls : List Call) : Prop where
  /-- The record stays and keeps what identifies it. -/
  kept : ∀ pre, pre <+: calls → ∃ r, (l.run pre).get? created.id = some r ∧
    r.id = created.id ∧ r.beginTs = created.beginTs ∧ r.readOnly = created.readOnly ∧
    (r.commitTs.isSome = true ↔ r.state = .committed)
  /-- It is never less alive than before. -/
  alive : ∀ a b r s, a <+: b → b <+: calls → (l.run a).get? created.id = some r →
    (l.run b).get? created.id = some s → r.lastKeepAlive ≤ s.lastKeepAlive
  /-- At most one call finishes it. -/
  winner : ∀ a c b a' c' b', calls = a ++ c :: b → calls = a' ++ c' :: b' →
    (l.run a).Finishes created.id c → (l.run a').Finishes created.id c' → a = a'
  /-- That call is a request, applied, or rejected with the record rolled back for being expired. -/
  answer : ∀ a c, a ++ [c] <+: calls → (l.run a).Finishes created.id c →
    ∃ t r, c = .transition created.id t ∧ (l.run (a ++ [c])).get? created.id = some r ∧
      (((l.run a).transition created.id t).1 = .ok (.applied r) ∨
        ((l.run a).transition created.id t).1 = .ok (.rejected r) ∧ r.state = .rolledBack)
  /-- A finished record stays as it is, and so does the log under any request for it. -/
  final : ∀ a b r, a <+: b → b <+: calls → (l.run a).get? created.id = some r →
    r.isFinished = true → (l.run b).get? created.id = some r ∧
      ∀ t, (l.run b).transition created.id t = (.ok (.unchanged r), l.run b) ∨
        (l.run b).transition created.id t = (.ok (.rejected r), l.run b)
  /-- The commit timestamp is that of a commit that was applied. -/
  committed : ∀ b r ts, b <+: calls → (l.run b).get? created.id = some r → r.commitTs = some ts →
    ∃ a now timeout, a ++ [.transition created.id (.commit ts now timeout)] <+: b ∧
      ((l.run a).transition created.id (.commit ts now timeout)).1 = .ok (.applied r)
  /-- A commit that is applied is the call that finishes the record. -/
  applied : ∀ a ts now timeout r,
    a ++ [.transition created.id (.commit ts now timeout)] <+: calls →
    ((l.run a).transition created.id (.commit ts now timeout)).1 = .ok (.applied r) →
      r.state = .committed ∧ r.commitTs = some ts ∧
        (l.run a).Finishes created.id (.transition created.id (.commit ts now timeout))

section History

variable {l : Log} {created : Record} (hs : l.Sound) (hv : Valid l.records)
  (hcreated : l.get? created.id = some created)

include hs hv hcreated

/-- The record is followed through the calls. -/
theorem get?_run_eq (a : List Call) {r : Record} (hr : (l.run a).get? created.id = some r) :
    r = created.follow a := by
  rw [get?_run_of_sound hs hv hcreated] at hr
  exact (Option.some.inj hr).symm

/-- The call that finishes the record finds it live and leaves it finished. -/
theorem finishes_iff (a : List Call) (c : Call) :
    (l.run a).Finishes created.id c ↔
      (created.follow a).isFinished = false ∧ ((created.follow a).next c).isFinished = true := by
  have hbefore := get?_run_of_sound hs hv hcreated a
  have hafter := get?_after_of_sound (sound_run hs a) (valid_run hv a) hbefore c
  simp [Finishes, hbefore, hafter]

/-- A request is answered by the record as it is after the calls so far. -/
theorem answer_run (a : List Call) (t : Transition) :
    ((l.run a).transition created.id t).1 = .ok ((created.follow a).apply t) :=
  answer_of_sound (sound_run hs a) (get?_run_of_sound hs hv hcreated a) t

/-- A call that finishes the record is the only one: behind it the record is not live any more. -/
theorem not_finishes_of_isPrefix {a a' : List Call} {c c' : Call} (hpre : a ++ [c] <+: a')
    (hfinish : (l.run a).Finishes created.id c) : ¬(l.run a').Finishes created.id c' := by
  intro hfinish'
  have hf := ((finishes_iff hs hv hcreated a c).mp hfinish).2
  have hlive := ((finishes_iff hs hv hcreated a' c').mp hfinish').1
  rw [← Record.follow_concat] at hf
  rw [Record.follow_of_isPrefix hpre hf, hf] at hlive
  cases hlive

theorem singleWinner_of_get? (hc : created.Consistent) (hnone : created.commitTs = none)
    (calls : List Call) : SingleWinner l created calls := by
  have hrun := get?_run_of_sound hs hv hcreated
  have heq := get?_run_eq hs hv hcreated
  have hanswer := answer_run hs hv hcreated
  have hiff := finishes_iff hs hv hcreated
  refine ⟨?kept, ?alive, ?winner, ?answer, ?final, ?committed, ?applied⟩
  case kept =>
    intro pre _
    obtain ⟨hid, hbegin, hro, -, hconsistent⟩ := Record.follow_keeps hc pre
    exact ⟨_, hrun pre, hid, hbegin, hro, hconsistent⟩
  case alive =>
    rintro a _ r s ⟨rest, rfl⟩ - hr hs'
    rw [heq _ hr, heq _ hs', Record.follow_append]
    exact (Record.follow_keeps (Record.follow_keeps hc a).2.2.2.2 rest).2.2.2.1
  case winner =>
    intro a c b a' c' b' hcalls hcalls' hfinish hfinish'
    have ha : a ++ [c] <+: calls := ⟨b, by simp [hcalls]⟩
    have ha' : a' ++ [c'] <+: calls := ⟨b', by simp [hcalls']⟩
    rcases Nat.lt_trichotomy a.length a'.length with hlt | hlen | hlt
    · have hpre : a ++ [c] <+: a' := List.prefix_of_prefix_length_le ha
        ((List.prefix_append _ _).trans ha') (by simp; omega)
      exact absurd hfinish' (not_finishes_of_isPrefix hs hv hcreated hpre hfinish)
    · exact (List.append_inj (hcalls.symm.trans hcalls') hlen).1
    · have hpre : a' ++ [c'] <+: a := List.prefix_of_prefix_length_le ha'
        ((List.prefix_append _ _).trans ha) (by simp; omega)
      exact absurd hfinish (not_finishes_of_isPrefix hs hv hcreated hpre hfinish')
  case answer =>
    intro a c _ hfinish
    obtain ⟨hlive, hf⟩ := (hiff a c).mp hfinish
    obtain ⟨t, rfl, ha⟩ := Record.next_finishes hlive hf
    rw [(Record.follow_keeps hc a).1] at ha ⊢
    refine ⟨t, _, rfl, hrun _, ?_⟩
    rw [hanswer, Record.follow_concat]
    rcases ha with h | ⟨h, hstate⟩
    · exact .inl (congrArg _ h)
    · exact .inr ⟨congrArg _ h, hstate⟩
  case final =>
    intro a b r hab _ hr hf
    rw [heq a hr] at hf ⊢
    have hb := hrun b
    rw [Record.follow_of_isPrefix hab hf] at hb
    refine ⟨hb, fun t => ?_⟩
    rw [transition_eq hb, Record.image?_finished hf]
    rcases Record.apply_finished _ t hf with ha | ha
    · exact .inl (by rw [ha])
    · exact .inr (by rw [ha])
  case committed =>
    intro b r ts _ hr hts
    rw [heq b hr] at hts ⊢
    obtain ⟨a, now, timeout, hpre, ha⟩ := Record.follow_commitTs hc hnone hts
    exact ⟨a, now, timeout, hpre, by rw [hanswer, ha]⟩
  case applied =>
    intro a ts now timeout r _ ha
    rw [hanswer] at ha
    obtain ⟨hlive, rfl⟩ := Record.apply_commit_eq_applied (Except.ok.inj ha)
    refine ⟨rfl, rfl, (hiff _ _).mpr ⟨hlive, ?_⟩⟩
    rw [Record.next, if_pos (Record.follow_keeps hc a).1.symm,
      Record.image?_of_applied (Except.ok.inj ha)]
    rfl

end History

/-- A record that was created is in the table. -/
theorem get?_after_create {l : Log} (hs : l.Sound) {ts : Timestamp} {now : Millis} {readOnly : Bool}
    (hcreated : (l.create (.start ts now readOnly)).1 = .ok ()) :
    (l.after (.create ts now readOnly)).get? (.ofBegin ts) = some (.start ts now readOnly) := by
  have himage : l.image? (.create ts now readOnly) = some (.start ts now readOnly) := by
    refine if_neg fun hhas => ?_
    have hhas' : l.records.has (Record.start ts now readOnly).id = true := hhas
    rw [create, if_pos hhas'] at hcreated
    cases hcreated
  rw [get?, records_after_of_sound hs, himage]
  exact Table.find?_insert_self _ _ _

/-- The history of a record that was created: whatever calls came before and come behind, one of
them at most finishes it, and nothing changes it afterwards. -/
theorem singleWinner_run (h : Handle) (bytes : Bytes) (before : List Call) (ts : Timestamp)
    (now : Millis) (readOnly : Bool)
    (hcreated : (((opened h bytes).run before).create (.start ts now readOnly)).1 = .ok ())
    (calls : List Call) :
    SingleWinner (((opened h bytes).run before).after (.create ts now readOnly))
      (.start ts now readOnly) calls := by
  have hs := sound_run (sound_opened h bytes) before
  have hv := valid_run (valid_opened h bytes) before
  refine singleWinner_of_get? (sound_after hs _) (valid_after hv _) (get?_after_create hs hcreated)
    ?_ rfl calls
  simp [Record.Consistent, Record.start]

/-- A record created in an empty log, and a commit that is too late behind a rollback. -/
theorem singleWinner_commit_behind_rollback :
    (((opened .shared []).run []).create (.start ⟨1⟩ 0 false)).1 = .ok () ∧
      SingleWinner (((opened .shared []).run []).after (.create ⟨1⟩ 0 false)) (.start ⟨1⟩ 0 false)
        [.transition ⟨1⟩ .rollback, .transition ⟨1⟩ (.commit ⟨2⟩ 0 10)] := by
  have hcreated : (((opened .shared []).run []).create (.start ⟨1⟩ 0 false)).1 = .ok () := by
    simp [opened, create, Table.has, Table.find?, persist_holding]
  exact ⟨hcreated, singleWinner_run .shared [] [] ⟨1⟩ 0 false hcreated _⟩

end Log

end TxnEngine
