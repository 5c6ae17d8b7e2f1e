import TxnEngine.Proofs.BadRecords.ExclusiveNames

/-!
# Loads under one logical name

A load's logical name is reserved for its coordinator alone, and only as long as that is there. So
the name stays with its load if the coordinator is there or has written to its file, and whatever
the workers have done, it is given to another load if the coordinator has left without a file.

Results:
* `present_iff_wrote`: the file of a recorder that is there is there if the recorder wrote to it.
* `logicalName_again_iff`: which loads keep their logical name to themselves.
* `not_forall_logicalName_ne`: a worker that is there, and has written, does not keep it.
-/

namespace TxnEngine.Roster

open Recorder

/-- Whether one of the requests had a recorder change its file, or make it. -/
def Wrote (s : Roster) (requests : List Request) (n : Nat) : Prop :=
  ∃ k file, s.Changes requests k file ∧ subjectAt requests k = some n

variable {s : Roster} {requests : List Request} {n : Nat} {e : Entry}

theorem Wrote.concat (h : s.Wrote requests n) (q : Request) : s.Wrote (requests ++ [q]) n := by
  obtain ⟨k, file, hchanges, hsubject⟩ := h
  have hk : k < requests.length := by
    by_contra hge
    rw [subjectAt, List.getElem?_eq_none (by omega)] at hsubject
    cases hsubject
  refine ⟨k, file, ?_, ?_⟩
  · unfold Changes
    rw [List.take_append_of_le_length (by omega), List.take_append_of_le_length (by omega)]
    exact hchanges
  · rw [subjectAt, List.getElem?_append_left hk]
    exact hsubject

/-- A recorder that wrote to its file has it to itself from then on. -/
theorem Wrote.belongs (hs : s.Sound) (h : s.Wrote requests n) :
    ∃ e, (s.run requests).entries[n]? = some e ∧
      (s.run requests).Belongs e.recorder.physicalName (some n) := by
  obtain ⟨k, file, hchanges, hsubject⟩ := h
  obtain ⟨m, e, hm, hlive, hname, hbelongs⟩ := changed_by hs hchanges
  rw [hsubject] at hm
  cases hm
  obtain ⟨e', hentry, hkeeps⟩ :=
    entries_run (sound_run hs _) (live?_eq_some_iff.mp hlive).1 (requests.drop k)
  rw [← run_append, List.take_append_drop] at hentry
  have hlater := hbelongs.run (sound_run hs _) (requests.drop (k + 1))
  rw [← run_append, List.take_append_drop] at hlater
  rw [← hname, ← hkeeps.physicalName] at hlater
  exact ⟨e', hentry, hlater⟩

/-- What a request makes of a recorder that is there: it was there before under the same name, or it
has just joined and has no file. -/
theorem live?_of_move {s' : Roster} {q : Request} (hmove : Move s q s')
    (hlive : s'.live? n = some e) :
    (∃ before, s.live? n = some before ∧
      before.recorder.physicalName = e.recorder.physicalName) ∨
      s'.directory.present e.recorder.physicalName = false := by
  cases hmove with
  | idle => exact .inl ⟨e, hlive, rfl⟩
  | joins hfree hsink hload =>
    rcases live?_join_cases hlive with ⟨-, rfl⟩ | hlive
    · exact .inr hfree.2
    · exact .inl ⟨e, hlive, rfl⟩
  | works hq hbefore hworks => exact .inl (live?_of_works hbefore hworks hlive)
  | leaves hq hbefore hworks => exact .inl ⟨e, (live?_of_leaves hbefore hlive).2, rfl⟩

/-- The file of a recorder that is there is there exactly if the recorder wrote to it. -/
theorem present_iff_wrote (place : Place) (files : Table String Content) {requests : List Request}
    (hlive : ((start place files).run requests).live? n = some e) :
    ((start place files).run requests).directory.present e.recorder.physicalName = true ↔
      (start place files).Wrote requests n := by
  have hfirst := sound_start place files
  constructor
  · intro hpresent
    induction requests using List.reverseRecOn generalizing e with
    | nil => cases hlive
    | append_singleton requests q ih =>
      have hs := sound_run hfirst requests
      have hmove := move_act hs q
      rw [run_append, run_cons, run_nil] at hlive hpresent
      rcases live?_of_move hmove hlive with ⟨before, hbefore, hname⟩ | habsent
      · cases hpresent' : ((start place files).run requests).directory.present
            e.recorder.physicalName with
        | true => exact (ih hbefore (hname ▸ hpresent')).concat q
        | false =>
          -- the last request has made the file
          have hchanged : (((start place files).run requests).act q).directory.contents?
                e.recorder.physicalName ≠
              ((start place files).run requests).directory.contents?
                e.recorder.physicalName := by
            rw [(Directory.contents?_eq_none_iff _).mpr hpresent']
            intro hnone
            rw [(Directory.contents?_eq_none_iff _).mp hnone] at hpresent
            cases hpresent
          obtain ⟨m, found, hq, hfound, hsame, -⟩ := belongs_of_changed hs hmove hchanged
          obtain rfl := hs.distinct m n found before hfound hbefore (hsame.trans hname.symm)
          refine ⟨requests.length, e.recorder.physicalName, ?_, ?_⟩
          · unfold Changes
            rw [List.take_left, List.take_of_length_le (by simp), run_append]
            exact hchanged
          · rw [subjectAt, List.getElem?_concat_length]
            exact hq
      · rw [habsent] at hpresent
        cases hpresent
  · intro hwrote
    obtain ⟨e', hentry, hbelongs⟩ := hwrote.belongs hfirst
    rw [(live?_eq_some_iff.mp hlive).1] at hentry
    cases hentry
    exact hbelongs.present

/-- A file that is closed is there if it was there before. -/
theorem present_close {r : Recorder} {d : Directory} (hconfined : r.Confined)
    (hopened : r.sink.isSome = true → d.present r.physicalName = true) (name : String) :
    (r.close.run d).2.present name = d.present name := by
  have hcontinues := Recorder.yields_close hconfined d
  have hkeeps := (KeepsTo.refl hconfined d).close
  by_cases hname : name = r.physicalName
  · subst hname
    cases hbefore : d.present r.physicalName with
    | true => exact Continues.stays hcontinues _ hbefore
    | false =>
      -- the file is not open, so there is nothing to close
      have hsink : r.sink = none := by
        cases hsink : r.sink with
        | none => rfl
        | some sink =>
          rw [hopened (by rw [hsink]; rfl)] at hbefore
          cases hbefore
      rw [Recorder.close]
      simp [hsink, hbefore]
  · have hspares := KeepsTo.spares hkeeps name hname
    rw [Directory.present, Directory.present, Table.has, Table.has, hspares.file]

/-- A recorder that leaves gives its name back, and no other one. It is free if there is no file. -/
theorem free_act_drop_iff (hs : s.Sound) (hlive : s.live? n = some e) (name : String) :
    (s.act (.drop n)).directory.Free name ↔
      s.directory.Free name ∨
        (name = e.recorder.physicalName ∧ s.directory.present name = false) := by
  have hconfined := hs.confined n e hlive
  have hkeeps := (KeepsTo.refl hconfined s.directory).close
  have hafter : (s.act (.drop n)).directory =
      (e.recorder.close.run s.directory).2.release e.recorder.physicalName := by
    simp only [act, hlive, put]
    simp [Recorder.discard]
  have hreserved : name ∈ (s.act (.drop n)).directory.reserved ↔
      name ∈ s.directory.reserved ∧ name ≠ e.recorder.physicalName := by
    rw [hafter]
    simp [Directory.release, KeepsTo.reserved hkeeps]
  have hpresent : (s.act (.drop n)).directory.present name = s.directory.present name := by
    rw [hafter]
    exact present_close hconfined (hs.opened n e hlive) name
  unfold Directory.Free
  rw [hreserved, hpresent]
  by_cases hname : name = e.recorder.physicalName <;> simp [hname]

/-- A load that is made behind any requests has a logical name that it does not share with the
recorders of another load whose coordinator is still there, or has written to its file. Conversely, a
coordinator that leaves without having written to its file leaves its name to the next load of its
source, whatever the other recorders of its load have done, unless a better candidate has become
free. -/
theorem logicalName_again_iff (place : Place) (files : Table String Content)
    (requests : List Request) :
    let first := start place files
    let s := first.run requests
    (∀ source tolerance r d, (Recorder.new source tolerance).run s.directory = (.ok r, d) →
      ∀ (n : Nat) (e c : Entry), s.entries[n]? = some e → s.entries[e.load]? = some c →
        (c.isLive = true ∨ first.Wrote requests e.load) →
        e.recorder.logicalName ≠ r.logicalName) ∧
    ∀ (n : Nat) (c : Entry) source tolerance m,
      let candidate := logicalCandidate (sourceStem source)
      s.live? n = some c → c.load = n → c.recorder.logicalName = candidate m →
        m < candidateLimit → (∀ k < m, ¬ s.directory.Free (candidate k)) →
        ((∃ r d, (Recorder.new source tolerance).run (s.act (.drop n)).directory = (.ok r, d) ∧
            r.logicalName = c.recorder.logicalName) ↔ ¬ first.Wrote requests n) := by
  intro first s
  have hfirst : first.Sound := sound_start place files
  have hs : s.Sound := sound_run hfirst requests
  have hled : s.Led := led_run hfirst (led_start place files) requests
  refine ⟨fun source tolerance r d hmade n e c he hc hkeeps hsame => ?_, ?_⟩
  · obtain ⟨e', hmade'⟩ | ⟨name, hfree, hmade'⟩ :=
      Recorder.run_new_eq hs.faultless source tolerance
    · rw [hmade'] at hmade
      cases hmade
    rw [hmade'] at hmade
    cases hmade
    -- the coordinator's file would have the same name
    obtain ⟨c', hc', hload, hlogical⟩ := hled.coordinator n e he
    rw [hc] at hc'
    cases hc'
    have hphysical : c.recorder.physicalName = name :=
      (hled.own e.load c hc hload).trans (hlogical.trans hsame)
    rcases hkeeps with hlive | hwrote
    · exact hfree.1 ((hs.reserved name).mpr
        ⟨e.load, c, live?_eq_some_iff.mpr ⟨hc, hlive⟩, hphysical⟩)
    · obtain ⟨c', hc', hbelongs⟩ := hwrote.belongs hfirst
      rw [hc] at hc'
      cases hc'
      have hpresent := hbelongs.present
      rw [hphysical, hfree.2] at hpresent
      cases hpresent
  · intro n c source tolerance m candidate hlive hown hname hm htaken
    have hentry := (live?_eq_some_iff.mp hlive).1
    have hphysical : c.recorder.physicalName = candidate m :=
      (hled.own n c hentry hown).trans hname
    have hs' := sound_move hs (move_act hs (.drop n))
    have hwrote : first.Wrote requests n ↔ s.directory.present (candidate m) = true := by
      rw [← hphysical]
      exact (present_iff_wrote place files hlive).symm
    rw [hname, hwrote, Bool.not_eq_true]
    constructor
    · rintro ⟨r, d, hmade, hagain⟩
      obtain ⟨e', hmade'⟩ | ⟨name, hfree, hmade'⟩ :=
        Recorder.run_new_eq hs'.faultless source tolerance
      · rw [hmade'] at hmade
        cases hmade
      rw [hmade'] at hmade
      cases hmade
      obtain rfl : name = candidate m := hagain
      rcases (free_act_drop_iff hs hlive _).mp hfree with hfree | ⟨-, habsent⟩
      · exact hfree.2
      · exact habsent
    · intro habsent
      have hfree : IsFirstFree candidate (s.act (.drop n)).directory m := by
        refine ⟨(free_act_drop_iff hs hlive _).mpr (.inr ⟨hphysical.symm, habsent⟩),
          fun k hk hfree => ?_⟩
        rcases (free_act_drop_iff hs hlive _).mp hfree with hfree | ⟨hsame, -⟩
        · exact htaken k hk hfree
        · have := logicalCandidate_injective _ (hsame.trans hphysical)
          omega
      exact ⟨_, _, run_new_of_free hs'.faultless hfree hm tolerance, rfl⟩

/-! The coordinator of a load leaves, and a worker of it has written. -/

def workerOutlives : List Request :=
  [.new "/loads/orders.csv" (-1), .forWorker 0 "1", .record 1 "1,a" "UNIQUE", .drop 0]

/-- A load can get the logical name of another one that still has a recorder, which has written a
file. -/
theorem not_forall_logicalName_ne :
    ¬∀ (place : Place) (files : Table String Content) (requests : List Request) (source : String)
      (tolerance : Int) (r : Recorder),
      let first := start place files
      let s := first.run requests
      ((Recorder.new source tolerance).run s.directory).1 = .ok r →
        ∀ (n : Nat) (e : Entry), s.entries[n]? = some e →
          (e.isLive = true ∨ first.Wrote requests n) →
          e.recorder.logicalName ≠ r.logicalName := by
  intro hall
  have hshared := hall (.memory "mem:") [] workerOutlives "/loads/orders.csv" (-1)
    ⟨"orders.bad", "orders.bad", -1, 0, none, false⟩ (by decide +kernel) 1
    ⟨⟨"orders.bad", "orders.bad.1", -1, 1, some ⟨"orders.bad.1", .shared⟩, false⟩, 0, true⟩
    (by decide +kernel) (.inl rfl)
  exact hshared rfl

end TxnEngine.Roster
