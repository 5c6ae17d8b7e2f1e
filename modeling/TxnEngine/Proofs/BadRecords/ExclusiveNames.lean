import TxnEngine.Proofs.BadRecords.Roster

/-!
# Names are exclusive

Whatever is requested over a directory in which nothing was reserved at first, a reserved name is
that of one recorder, a file is written by one recorder at most, and files that were there at first
are left alone. A load gets the first of its candidate names that nobody has.

Results:
* `changed_by`: who changes a file, and who can change it later.
* `names_exclusive`: what holds of names and files behind any requests.
-/

namespace TxnEngine.Roster

open Recorder

/-- Whether the `k`-th of the requests changes the bytes of a file, or makes it. -/
def Changes (s : Roster) (requests : List Request) (k : Nat) (file : String) : Prop :=
  (s.run (requests.take (k + 1))).directory.contents? file ≠
    (s.run (requests.take k)).directory.contents? file

/-- The number of the recorder that the `k`-th of the requests is about. -/
def subjectAt (requests : List Request) (k : Nat) : Option Nat :=
  requests[k]?.bind Request.subject?

variable {s : Roster} {requests : List Request} {file : String}

/-- A request that changes a file is about a recorder whose file it is, and to whom it belongs from
then on. -/
theorem changed_by (hs : s.Sound) {k : Nat} (h : s.Changes requests k file) :
    ∃ n e, subjectAt requests k = some n ∧ (s.run (requests.take k)).live? n = some e ∧
      e.recorder.physicalName = file ∧
      (s.run (requests.take (k + 1))).Belongs file (some n) := by
  unfold Changes at h
  rw [List.take_add_one, run_append] at h
  unfold subjectAt
  rw [List.take_add_one, run_append]
  cases hq : requests[k]? with
  | none =>
    rw [hq] at h
    exact absurd rfl h
  | some q =>
    rw [hq] at h
    have hs' := sound_run hs (requests.take k)
    exact belongs_of_changed hs' (move_act hs' q) h

/-- Two requests that change one file are about the same recorder. -/
theorem subjectAt_eq_of_changes (hs : s.Sound) {k k' : Nat} (hle : k ≤ k')
    (h : s.Changes requests k file) (h' : s.Changes requests k' file) :
    subjectAt requests k' = subjectAt requests k := by
  obtain ⟨n, -, hn, -, -, hbelongs⟩ := changed_by hs h
  obtain ⟨n', e', hn', hlive', hname', -⟩ := changed_by hs h'
  rcases Nat.eq_or_lt_of_le hle with rfl | hlt
  · rfl
  -- the requests in between leave the file with its recorder
  have hsplit : requests.take k' = requests.take (k + 1) ++ (requests.take k').drop (k + 1) := by
    conv_lhs => rw [← List.take_append_drop (k + 1) (requests.take k')]
    rw [List.take_take, Nat.min_eq_left hlt]
  have hlater := hbelongs.run (sound_run hs _) ((requests.take k').drop (k + 1))
  rw [← run_append, ← hsplit] at hlater
  rw [hn, hn', hlater.held n' e' hlive' hname']

/-- Names are exclusive and as small as can be. Behind any requests the reserved names are those of
the recorders that are still there, and these are pairwise distinct. All requests that change one
file are about one recorder, whose name it has, and the files that were there at first are as they
were. A load is never refused for its name, whatever its source is called. As long as fewer of its
candidates are taken than are tried, it gets the first that is free, and otherwise it may be told
that there is none. -/
theorem names_exclusive (place : Place) (files : Table String Content) (requests : List Request) :
    let first := start place files
    let s := first.run requests
    (∀ name, name ∈ s.directory.reserved ↔
      ∃ n e, s.live? n = some e ∧ e.recorder.physicalName = name) ∧
    (∀ m n e e', s.live? m = some e → s.live? n = some e' →
      e.recorder.physicalName = e'.recorder.physicalName → m = n) ∧
    (∀ file k k', first.Changes requests k file → first.Changes requests k' file →
      ∃ n e, subjectAt requests k = some n ∧ subjectAt requests k' = some n ∧
        s.entries[n]? = some e ∧ e.recorder.physicalName = file) ∧
    (∀ file bytes, first.directory.contents? file = some bytes →
      s.directory.contents? file = some bytes) ∧
    ∀ source tolerance,
      let candidate := logicalCandidate (sourceStem source)
      let made := (Recorder.new source tolerance).run s.directory
      (∀ name, made.1 ≠ .error (.storage (.invalidName name))) ∧
      ({name | name ∈ Set.range candidate ∧ ¬ s.directory.Free name}.ncard < candidateLimit →
        ∃ n < candidateLimit, IsFirstFree candidate s.directory n ∧
          made = (.ok ⟨candidate n, candidate n, tolerance, 0, none, false⟩,
            { s.directory with reserved := candidate n :: s.directory.reserved })) := by
  intro first s
  have hfirst : first.Sound := sound_start place files
  have hs : s.Sound := sound_run hfirst requests
  refine ⟨hs.reserved, hs.distinct, fun file k k' hk hk' => ?_, fun file bytes hfile => ?_,
    fun source tolerance => ?_⟩
  · obtain ⟨n, e, hn, hlive, hname, -⟩ := changed_by hfirst hk
    have hsame : subjectAt requests k' = subjectAt requests k :=
      (Nat.le_total k k').elim (fun hle => subjectAt_eq_of_changes hfirst hle hk hk')
        fun hle => (subjectAt_eq_of_changes hfirst hle hk' hk).symm
    have hentry := (live?_eq_some_iff.mp hlive).1
    obtain ⟨e', hentry', hkeeps⟩ :=
      entries_run (sound_run hfirst _) hentry (requests.drop k)
    rw [← run_append, List.take_append_drop] at hentry'
    exact ⟨n, e', hn, hsame.trans hn, hentry', hkeeps.physicalName.trans hname⟩
  · have hpresent : first.directory.present file = true := by
      by_contra habsent
      rw [(Directory.contents?_eq_none_iff file).mpr (Bool.eq_false_iff.mpr habsent)] at hfile
      cases hfile
    rw [contents?_run_of_belongs hfirst ⟨hpresent, nofun⟩ requests, hfile]
  · intro candidate made
    by_cases hfew : ∃ n < candidateLimit, IsFirstFree candidate s.directory n
    · obtain ⟨n, hn, hfree⟩ := hfew
      have hmade := run_new_of_free hs.faultless hfree hn tolerance
      exact ⟨fun name => by simp [made, hmade], fun _ => ⟨n, hn, hfree, hmade⟩⟩
    · refine ⟨fun name => ?_, fun hcount =>
        absurd (exists_firstFree (logicalCandidate_injective _) hcount) hfew⟩
      have htaken : ∀ m < candidateLimit, ¬ s.directory.Free (candidate m) := fun m hm hfree =>
        hfew (exists_firstFree_of_free hm hfree)
      have hmade := run_new_of_taken hs.faultless htaken tolerance
      simp [made, hmade]

end TxnEngine.Roster
