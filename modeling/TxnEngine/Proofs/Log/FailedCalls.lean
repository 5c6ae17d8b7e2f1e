import TxnEngine.Proofs.Log.TornAppends

/-!
# Calls that fail

A call that fails leaves the table as it was. The log is another matter: once an image has been
appended, a failing flush or sync does not take it back, and reopening the log finds it. So a commit
that was answered with an error can come back.

Results:
* `image?_of_answer_error`: a call that storage failed has tried to persist its image.
* `reopen_after_failed_call`: what a failed call leaves in the table and in the log, and what
  reopening makes of it.
* `not_forall_reopen_after_failed_call`: a commit that failed and comes back.
-/

namespace TxnEngine.Log

/-- Whether a call succeeds, and the error if not. -/
def answer (l : Log) : Call → Except Error Unit
  | .create ts now readOnly => (l.create (.start ts now readOnly)).1
  | .transition id t => (l.transition id t).1.map fun _ => ()

/-- A call that storage failed has tried to persist its image. -/
theorem image?_of_answer_error {l : Log} {c : Call} {e : StorageError}
    (h : l.answer c = .error (.storage e)) :
    ∃ r, l.image? c = some r ∧ l.after c = (l.persist r).2 ∧
      (l.persist r).1 = .error (.storage e) := by
  cases c with
  | create ts now readOnly =>
    have hid : (Record.start ts now readOnly).id = .ofBegin ts := rfl
    simp only [answer, create, hid] at h
    split_ifs at h with hhas
    · cases h
    · have himage : l.image? (.create ts now readOnly) = some (.start ts now readOnly) :=
        if_neg hhas
      exact ⟨_, himage, by simp [after_eq, himage], h⟩
  | transition id t =>
    cases hr : l.get? id with
    | none => simp [answer, transition, hr, Except.map] at h
    | some r =>
      rw [answer, transition_eq hr] at h
      cases hi : r.image? t with
      | none => simp [hi, Except.map] at h
      | some next =>
        have himage : l.image? (.transition id t) = some next := by simp [image?, hr, hi]
        refine ⟨next, himage, by simp [after_eq, himage], ?_⟩
        simp only [hi] at h
        cases hp : (l.persist next).1 with
        | ok _ => simp [hp, Except.map] at h
        | error e' => simpa [hp, Except.map] using h

/-- A failed call leaves the table alone. Unless it was the append that failed, its image stays in
the log. -/
theorem after_of_answer_error {l : Log} (hl : l.Current) {c : Call} {p : Primitive}
    (hp : p = .append ∨ p = .flush ∨ p = .sync) (h : l.answer c = .error (.storage p.failure)) :
    ∃ r, l.image? c = some r ∧ (l.after c).records = l.records ∧
      (l.after c).store.bytes = l.store.bytes ++ (if p = .append then [] else r.encode) ∧
      (p = .sync → r.isFinished = true) := by
  obtain ⟨r, himage, hafter, herror⟩ := image?_of_answer_error h
  refine ⟨r, himage, ?_⟩
  obtain ⟨store, records⟩ := l
  obtain ⟨handle, bytes, f, rfl⟩ := hl
  obtain ⟨f', hpersist⟩ := persist_faulty handle bytes f records r
  -- the error tells which primitive failed
  have failed {q : Primitive}
      (hq : Except.error (.storage q.failure) = (.error (.storage p.failure) : Except Error Unit)) :
      p = q := by
    simp only [Except.error.injEq, Error.storage.injEq] at hq
    exact (Primitive.failure_injective hq).symm
  rw [hafter]
  split_ifs at hpersist with happend htorn hflush hsync <;> rw [hpersist] at herror ⊢
  · simp [failed herror]
  · simp [failed herror] at hp
  · simp [failed herror]
  · simp [failed herror, hsync.1]
  · cases herror

/-- What a failed call leaves behind. The table is as it was, and if the append failed, so is the
log. If the flush or the sync failed, reopening finds the image of the failed call besides what it
would have found before; unless an earlier append was torn, in which case it lies behind the tear,
and reopening finds of every transaction but the torn one what it would have found before. -/
theorem reopen_after_failed_call (h h' : Handle) (bytes : Bytes) (f : Faults) (calls : List Call)
    (c : Call) {p : Primitive} (hp : p = .append ∨ p = .flush ∨ p = .sync)
    (hfail : ((openedFaulty h bytes f).run calls).answer c = .error (.storage p.failure)) :
    let l := openedFaulty h bytes f
    let before := l.run calls
    let after := before.after c
    let reopened (l : Log) := opened h' l.store.bytes
    (∀ stored : Log, openStore (.holding h' stored.store.bytes .none) =
        (.ok (reopened stored), (reopened stored).store)) ∧
      (∀ id, after.get? id = before.get? id) ∧
      (p = .append → reopened after = reopened before) ∧
      ∃ r, before.image? c = some r ∧ (p = .sync → r.isFinished = true) ∧
        (p ≠ .append → l.Untorn calls → ∀ id,
          (reopened after).get? id = if id = r.id then some r else (reopened before).get? id) ∧
        (¬l.Untorn calls → ∃ intact tear torn, intact ++ [tear] <+: calls ∧ l.Untorn intact ∧
          (l.run intact).Tears tear ∧ (l.run intact).image? tear = some torn ∧
          ∀ id, id ≠ torn.id → (reopened after).get? id = (reopened before).get? id) := by
  intro l before after reopened
  have hl : l.Current := current_openedFaulty h bytes f
  have hv : Valid l.records := valid_opened h bytes
  have hk : l.Kept := kept_openedFaulty h bytes f
  obtain ⟨r, himage, hrecords, hbytes, hfinished⟩ :=
    after_of_answer_error (current_run hl calls) hp hfail
  have hc : r.Consistent := (consistent_of_image? (valid_run hv calls) himage).1
  refine ⟨fun l => openStore_holding h' _, fun id => by simp only [get?, after, hrecords, before],
    fun happend => ?_, r, himage, hfinished, fun happend huntorn id => ?_, fun htorn => ?_⟩
  · simp only [reopened, after, before, hbytes, happend, if_true, List.append_nil]
  · rw [if_neg happend] at hbytes
    simp only [reopened, opened, get?, after, before, hbytes,
      fill_scan_append_encode (kept_run hl hv hk huntorn).whole hc]
    by_cases hid : id = r.id
    · rw [if_pos hid, hid, Table.find?_insert_self]
    · rw [if_neg hid, Table.find?_insert_of_ne _ _ (Ne.symm hid)]
  · obtain ⟨intact, tear, between, rfl, hintact, htear⟩ := exists_first_tear htorn
    have lost := opened_of_tear (current_run hl intact) (valid_run hv intact)
      (kept_run hl hv hk hintact) h' htear
    obtain ⟨torn, hbegun, -, hbefore⟩ := lost between
    obtain ⟨torn', hbegun', -, hafter⟩ := lost (between ++ [c])
    obtain rfl : torn = torn' := Option.some.inj (hbegun.symm.trans hbegun')
    refine ⟨intact, tear, torn, ⟨between, by simp⟩, hintact, htear, hbegun, fun id hid => ?_⟩
    have heq (more : List Call) :
        ((l.run intact).after tear).run more = l.run (intact ++ tear :: more) := by
      rw [run_append, run_cons]
    have hmore : l.run (intact ++ tear :: (between ++ [c])) = after := by
      rw [← List.cons_append, ← List.append_assoc, run_append, run_cons, run_nil]
    rw [heq] at hbefore hafter
    rw [hmore] at hafter
    exact (hafter id hid).trans (hbefore id hid).symm

/-- A commit whose sync fails: the transaction stays active in the table, and is committed in the
log. -/
theorem reopen_after_failed_commit :
    let before := (openedFaulty .shared [] (Faults.none.add .sync 1)).after (.create ⟨1⟩ 0 false)
    let after := before.after (.transition ⟨1⟩ (.commit ⟨2⟩ 0 10))
    before.answer (.transition ⟨1⟩ (.commit ⟨2⟩ 0 10)) =
        .error (.storage Primitive.sync.failure) ∧
      after.get? ⟨1⟩ = some (.start ⟨1⟩ 0 false) ∧
      (opened .shared after.store.bytes).get? ⟨1⟩ =
        some ⟨⟨1⟩, .committed, ⟨1⟩, some ⟨2⟩, 0, false⟩ := by
  intro before after
  have hfail : before.answer (.transition ⟨1⟩ (.commit ⟨2⟩ 0 10)) =
      .error (.storage Primitive.sync.failure) := by
    simp only [before, openedFaulty_nil]
    decide +kernel
  have hbegun : before.get? ⟨1⟩ = some (.start ⟨1⟩ 0 false) := by
    simp only [before, openedFaulty_nil]
    decide +kernel
  have himage : before.image? (.transition ⟨1⟩ (.commit ⟨2⟩ 0 10)) =
      some ⟨⟨1⟩, .committed, ⟨1⟩, some ⟨2⟩, 0, false⟩ := by
    rw [image?, hbegun]
    decide
  -- the first call changes the table, so it is not torn
  have hwhole : ¬(openedFaulty .shared [] (Faults.none.add .sync 1)).Tears (.create ⟨1⟩ 0 false) :=
    (length_after_of_get? (current_openedFaulty .shared [] (Faults.none.add .sync 1))
      (valid_opened .shared []) (by simp [openedFaulty_nil, get?, Table.find?]) hbegun).1
  obtain ⟨-, htable, -, r, hr, -, hreopened, -⟩ :=
    reopen_after_failed_call .shared .shared [] (Faults.none.add .sync 1) [.create ⟨1⟩ 0 false] _
      (.inr (.inr rfl)) hfail
  obtain rfl := Option.some.inj (himage.symm.trans hr)
  refine ⟨hfail, (htable _).trans hbegun, ?_⟩
  have hfound := hreopened (by decide) ⟨hwhole, trivial⟩ ⟨1⟩
  rwa [if_pos rfl] at hfound

/-- Not every failed call leaves no trace: a commit whose sync fails is found by reopening. -/
theorem not_forall_reopen_after_failed_call :
    ¬∀ (f : Faults) (calls : List Call) (c : Call) (p : Primitive),
      p = .append ∨ p = .flush ∨ p = .sync →
      ((openedFaulty .shared [] f).run calls).answer c = .error (.storage p.failure) →
      ∀ id, ((openedFaulty .shared [] f).run (calls ++ [c])).get? id =
          ((openedFaulty .shared [] f).run calls).get? id ∧
        (opened .shared ((openedFaulty .shared [] f).run (calls ++ [c])).store.bytes).get? id =
          (opened .shared ((openedFaulty .shared [] f).run calls).store.bytes).get? id := by
  intro hall
  have hsame := hall (Faults.none.add .sync 1) [.create ⟨1⟩ 0 false]
    (.transition ⟨1⟩ (.commit ⟨2⟩ 0 10)) .sync (.inr (.inr rfl))
  simp only [openedFaulty_nil] at hsame
  have hreopened := (hsame (by decide +kernel) ⟨1⟩).2
  rw [get?_opened_eq, get?_opened_eq] at hreopened
  exact absurd hreopened (by decide +kernel)

end TxnEngine.Log
