import TxnEngine.Proofs.BadRecords.DividedFiles
import TxnEngine.Proofs.Pipeline.Reporting

/-!
# Pipelines side by side

The pipelines of a team share a substrate, the route to it and the directory of bad-record files.
If no two members send rows of the same key, each has its portion of all this: the scripts of its
keys and its file. What a batch comes to is decided by the portion of the member that sends it. The
route does show in its calls, and so does the transaction that it is sent for, but neither in the
outcomes.

Results:
* `Apportioned`: the write side of a team, and the portion of each member.
* `Pipeline.foretold_submit`: what a batch comes to is decided by the portion, and the recorder
  counts the rows that it ignored.
* `Pipeline.foretold_finish`: a pipeline can be finished.
-/

namespace TxnEngine

open Program

/-- What is a member's own of the write side. -/
structure Portion where
  /-- What is scripted for its rows. -/
  script : Bytes → List Outcome
  /-- Its bad-record file, if it is there. -/
  file : Option Content

/-- How the keys of rows and the bad-record files are divided among the members of a team. -/
structure Division where
  keys : Nat → List Bytes
  file : Nat → String
  keys_disjoint : ∀ {i j key}, key ∈ keys i → key ∈ keys j → i = j
  file_injective : Function.Injective file

/-- What is left of a portion behind a call of rows with the given keys: one entry of each of their
scripts is gone. -/
def Portion.called (k : Portion) (keys : List Bytes) : Portion :=
  { k with script := fun key => if key ∈ keys then (k.script key).drop 1 else k.script key }

/-! ## The write side -/

/-- The write side of a team: the substrate answers by its scripts, no call of the locator or of the
directory fails, no delay is out of range, and every member has its portion. -/
structure Apportioned (D : Division) (retry : RetryConfig) (place : Place) (K : Nat → Portion)
    (w : WriteSide ScriptedSubstrate) : Prop where
  scripted : w.substrate.FollowsScripts
  scripts : ∀ i, ∀ key ∈ D.keys i, w.substrate.scriptOf key = (K i).script key
  unrefused : w.locator.refusals = []
  suits : retry.Suits w.random
  divided : w.directory.Divided place D.file fun i => (K i).file

namespace Pipeline

variable {D : Division} {retry : RetryConfig} {place : Place} {i : Nat} {ι : Type}

/-- What a member does to its file is seen in its portion. -/
theorem foretold_onDirectory {α : Type} {post : α → Option Content → Prop}
    {p : ι → Program Directory α} {k : Portion}
    (h : Foretold (Directory.Divided place D.file) i post p k.file) :
    Foretold (Apportioned D retry place) i (fun a l => post a l.file)
      (fun x => onDirectory (σ := ScriptedSubstrate) (p x)) k := by
  refine (Foretold.focus Portion.file (fun file k => { k with file })
    (fun _ _ => rfl) (fun _ => rfl) (fun _ _ _ => rfl) (fun N w hw => hw.divided) ?_ h).mono
    fun _ _ hpost => hpost.2
  intro N w d file hw hd
  refine ⟨hw.scripted, fun j => ?_, hw.unrefused, hw.suits, ?_⟩
  · by_cases hij : j = i
    · subst hij
      rw [Function.update_self]
      exact hw.scripts j
    · rw [Function.update_of_ne hij]
      exact hw.scripts j
  · have hfiles : (fun j => (Function.update N i { N i with file } j).file) =
        Function.update (fun j => (N j).file) i file := Function.comp_update Portion.file N i _
    rwa [hfiles]

/-- The route is known, whatever generation it has reached. -/
theorem abides_locate (k : Portion) :
    (locate (σ := ScriptedSubstrate)).Abides (Apportioned D retry place) i
      (fun answer l => (∃ address, answer = .ok address) ∧ l = k) k := by
  intro K w hw hk
  have hlocate : w.locator.locate =
      (.ok ⟨w.locator.partition, w.locator.server, w.locator.generation⟩, w.locator) := by
    unfold Locator.locate
    rw [hw.unrefused]
  simp only [hlocate]
  refine ⟨k, ?_, ⟨_, rfl⟩, rfl⟩
  rw [← hk, Function.update_eq_self]
  exact hw

/-- A member that drops the route shows in nobody's portion. -/
theorem foretold_invalidate (k : Portion) :
    Foretold (Apportioned D retry place) i (fun _ _ => True)
      (fun _ : ι => invalidate (σ := ScriptedSubstrate)) k := by
  refine Foretold.atomically () k trivial fun _ K w hw hk => ⟨rfl, ?_⟩
  rw [← hk, Function.update_eq_self]
  exact ⟨hw.scripted, hw.scripts, hw.unrefused, hw.suits, hw.divided⟩

/-- There is a delay in front of every attempt, whatever it is. -/
theorem abides_pause {made : Nat} (hlt : made < retry.maxAttempts) (k : Portion) :
    (pause (σ := ScriptedSubstrate) retry made).Abides (Apportioned D retry place) i
      (fun answer l => (∃ delay, answer = some delay) ∧ l = k) k := by
  intro K w hw hk
  refine ⟨k, ?_, Option.ne_none_iff_exists'.mp (hw.suits made hlt 0), rfl⟩
  rw [← hk, Function.update_eq_self]
  exact ⟨hw.scripted, hw.scripts, hw.unrefused, fun attempt hattempt n =>
    hw.suits attempt hattempt _, hw.divided⟩

theorem foretold_place (k : Portion) :
    Foretold (Apportioned D retry place) i (fun _ _ => True)
      (fun _ : ι => Pipeline.place (σ := ScriptedSubstrate)) k :=
  Foretold.read place trivial fun _ _ hw => hw.divided.place

/-- The outcomes of a call are those of the scripts of its rows. -/
theorem foretold_write {rows : List Mutation} (hnodup : (rows.map Mutation.rowKey).Nodup)
    (hkeys : rows.map Mutation.rowKey ⊆ D.keys i) (address : ι → PartitionAddress)
    (txn : ι → TxnId) (k : Portion) :
    Foretold (Apportioned D retry place) i (fun answer _ => ∃ outcomes, answer = .ok ⟨none, outcomes⟩)
      (fun x => write (σ := ScriptedSubstrate) (address x) (txn x) rows) k := by
  let outcomes := rows.map fun row => Script.reply (k.script row.rowKey) 0
  refine Foretold.atomically (.ok ⟨none, outcomes⟩) (k.called (rows.map Mutation.rowKey))
    ⟨outcomes, rfl⟩ fun x K w hw hk => ?_
  obtain ⟨s, hanswer, hconsumes⟩ :=
    ScriptedSubstrate.answer_of_followsScripts hw.scripted (address x) (txn x) hnodup
  have houtcomes : (rows.map fun row => Script.reply (w.substrate.scriptOf row.rowKey) 0) =
      outcomes := by
    refine List.map_congr_left fun row hrow => ?_
    rw [hw.scripts i _ (hkeys (List.mem_map_of_mem hrow)), hk]
  simp only [Substrate.write, hanswer]
  refine ⟨by rw [houtcomes], hconsumes.follows hw.scripted, fun j key hkey => ?_, hw.unrefused,
    hw.suits, ?_⟩
  · by_cases hij : j = i
    · subst hij
      rw [Function.update_self, Portion.called]
      simp only
      split_ifs with hcalled
      · rw [hconsumes.called key hcalled, hw.scripts j key hkey, hk]
      · rw [hconsumes.others key hcalled, hw.scripts j key hkey, hk]
    · rw [Function.update_of_ne hij,
        hconsumes.others key fun hmem => hij (D.keys_disjoint hkey (hkeys hmem))]
      exact hw.scripts j key hkey
  · have hfile : (k.called (rows.map Mutation.rowKey)).file = (K i).file := by
      rw [Portion.called, hk]
    have hfiles : (fun j =>
        (Function.update K i (k.called (rows.map Mutation.rowKey)) j).file) =
          fun j => (K j).file := by
      refine (Function.comp_update Portion.file K i _).trans ?_
      rw [hfile]
      exact Function.update_eq_self i (Portion.file ∘ K)
    rw [hfiles]
    exact hw.divided

/-! ## A batch -/

/-- The batch has a recorder of its member's that counts the rows it ignored, and further rows can
be counted. -/
structure Books (name : String) (further : Nat) (b : BatchRun) : Prop where
  recorder : ∃ r, b.recorder = some r ∧ r.OwnedBy name b.counts.ignored
  room : b.counts.ignored + further < UInt64.size

theorem Books.fewer {name : String} {m n : Nat} {b : BatchRun} (h : Books name n b) (hle : m ≤ n) :
    Books name m b :=
  ⟨h.recorder, Nat.lt_of_le_of_lt (Nat.add_le_add_left hle _) h.room⟩

variable {b : BatchRun}

theorem foretold_rejectRow (further : Nat) (hb : Books (D.file i) (further + 1) b) (mixed : Bool)
    (row : BatchRow) (o : Outcome) (k : Portion) :
    Foretold (Apportioned D retry place) i
      (fun answer _ => answer.1 ≠ .error .outOfRange ∧ Books (D.file i) further answer.2)
      (fun _ : ι => rejectRow (σ := ScriptedSubstrate) true mixed row o b) k := by
  obtain ⟨⟨r, hr, howned⟩, hroom⟩ := hb
  have hroom₁ : b.counts.ignored + 1 < UInt64.size := by omega
  have hroom₂ : b.counts.ignored + 1 + further < UInt64.size := by omega
  unfold rejectRow
  simp only [if_true, hr]
  refine .bind (foretold_onDirectory (Recorder.foretold_record D.file_injective howned hroom₁ _ _ _))
    ?_
  rintro ⟨exceeded, r₁⟩ k₁ ⟨hanswer, hr₁⟩
  match exceeded with
  | .error e => exact .pure ⟨Error.passed hanswer, ⟨r₁, rfl, hr₁⟩, hroom₂⟩
  | .ok true => exact .bind (foretold_place k₁) fun _ _ _ => .pure ⟨nofun, ⟨r₁, rfl, hr₁⟩, hroom₂⟩
  | .ok false => exact .pure ⟨nofun, ⟨r₁, rfl, hr₁⟩, hroom₂⟩

/-- The rows that stay pending can still be counted, and others besides if they could before. -/
theorem foretold_sortRows (further : Nat) (mixed : Bool) (outcomes : List (BatchRow × Outcome))
    (hb : Books (D.file i) (further + outcomes.length) b) (k : Portion) :
    Foretold (Apportioned D retry place) i
      (fun answer _ => answer.1 ≠ .error .outOfRange ∧ Books (D.file i) further answer.2 ∧
        ∀ pending, answer.1 = .ok pending → pending.Sublist (outcomes.map Prod.fst) ∧
          Books (D.file i) (further + pending.length) answer.2)
      (fun _ : ι => sortRows (σ := ScriptedSubstrate) true mixed outcomes b) k := by
  induction outcomes generalizing b k further with
  | nil =>
    refine .pure ⟨by simp, hb, ?_⟩
    rintro _ ⟨⟩
    exact ⟨.slnil, hb⟩
  | cons first rest ih =>
    obtain ⟨row, o⟩ := first
    rw [List.length_cons] at hb
    unfold sortRows
    split_ifs
    · -- the row is written
      have haccepted : Books (D.file i) (further + rest.length) (acceptRow mixed row o b) :=
        ⟨hb.recorder, (hb.fewer (by omega)).room⟩
      refine (ih further haccepted k).mono ?_
      rintro answer _ ⟨hanswer, hbooks, hpending⟩
      exact ⟨hanswer, hbooks, fun pending hok =>
        ⟨(hpending pending hok).1.cons _, (hpending pending hok).2⟩⟩
    · -- the row is pending again
      have hdeferred : Books (D.file i) (further + 1 + rest.length) (deferRow mixed row o b) :=
        ⟨hb.recorder, (hb.fewer (by omega)).room⟩
      refine .bind (ih (further + 1) hdeferred k) ?_
      rintro ⟨answer, b₁⟩ k₁ ⟨hanswer, hbooks, hpending⟩
      cases answer with
      | error e => exact .pure ⟨Error.passed hanswer, hbooks.fewer (by omega), by simp⟩
      | ok pending =>
        obtain ⟨hsublist, hbooks'⟩ := hpending pending rfl
        refine .pure ⟨by simp, hbooks.fewer (by omega), ?_⟩
        rintro _ ⟨⟩
        exact ⟨hsublist.cons_cons _, hbooks'.fewer (by simp; omega)⟩
    · -- the row is refused
      refine .bind (foretold_rejectRow (further + rest.length) hb mixed row o k) ?_
      rintro ⟨answer, b₁⟩ k₁ ⟨hanswer, hbooks⟩
      cases answer with
      | error e => exact .pure ⟨Error.passed hanswer, hbooks.fewer (by omega), by simp⟩
      | ok done =>
        refine (ih further hbooks k₁).mono ?_
        rintro answer' _ ⟨hanswer', hbooks', hpending⟩
        exact ⟨hanswer', hbooks', fun pending hok =>
          ⟨(hpending pending hok).1.cons _, (hpending pending hok).2⟩⟩

/-- What an attempt comes to is decided by the portion: the rows that stay pending are some of those
that were. -/
theorem foretold_attempt {pending : List BatchRow}
    (hnodup : ((pending.map BatchRow.mutation).map Mutation.rowKey).Nodup)
    (hkeys : (pending.map BatchRow.mutation).map Mutation.rowKey ⊆ D.keys i)
    (hb : Books (D.file i) pending.length b) (txn : ι → TxnId) (k : Portion) :
    Foretold (Apportioned D retry place) i
      (fun answer _ => answer.1 ≠ .error .outOfRange ∧ Books (D.file i) 0 answer.2 ∧
        ∀ left, answer.1 = .ok left → left.Sublist pending ∧
          Books (D.file i) left.length answer.2)
      (fun x => attempt (σ := ScriptedSubstrate) true (txn x) pending b) k := by
  unfold attempt
  refine .bind_of_any Except.ok (fun _ => abides_locate k) ?_
  refine .bind (foretold_write hnodup hkeys Prod.snd (fun x => txn x.1) k) ?_
  rintro _ k₁ ⟨outcomes, rfl⟩
  simp only
  cases (answered ⟨none, outcomes⟩ pending).find? fun x => x.2.shouldCancel with
  | some stop => exact .pure ⟨nofun, ⟨hb.recorder, (hb.fewer (Nat.zero_le _)).room⟩, nofun⟩
  | none =>
    have hlength : (answered ⟨none, outcomes⟩ pending).length = pending.length := by
      rw [← List.length_map (f := Prod.fst), map_fst_answered]
    refine .bind (foretold_sortRows 0 _ _ (by rwa [hlength, Nat.zero_add]) k₁) ?_
    rintro ⟨answer, b₁⟩ k₂ ⟨hanswer, hbooks, hleft⟩
    cases answer with
    | error e => exact .pure ⟨Error.passed hanswer, hbooks, nofun⟩
    | ok left =>
      obtain ⟨hsublist, hbooks'⟩ := hleft left rfl
      rw [map_fst_answered] at hsublist
      rw [Nat.zero_add] at hbooks'
      have hpost : ∀ left', (.ok left : Except Error (List BatchRow)) = .ok left' →
          left'.Sublist pending ∧ Books (D.file i) left'.length b₁ := by
        rintro _ ⟨⟩
        exact ⟨hsublist, hbooks'⟩
      simp only
      split_ifs
      · exact .bind (foretold_invalidate k₂) fun _ _ _ => .pure ⟨nofun, hbooks, hpost⟩
      · exact .pure ⟨nofun, hbooks, hpost⟩

/-- What all attempts together come to is decided by the portion. -/
theorem foretold_attempts (txn : ι → TxnId) (left : Nat) {made : Nat}
    (hmade : made + left ≤ retry.maxAttempts) {pending : List BatchRow}
    (hnodup : ((pending.map BatchRow.mutation).map Mutation.rowKey).Nodup)
    (hkeys : (pending.map BatchRow.mutation).map Mutation.rowKey ⊆ D.keys i)
    (hb : Books (D.file i) pending.length b) (k : Portion) :
    Foretold (Apportioned D retry place) i
      (fun answer _ => answer.1 ≠ .error .outOfRange ∧ Books (D.file i) 0 answer.2)
      (fun x => attempts (σ := ScriptedSubstrate) retry true (txn x) left made pending b) k := by
  induction left generalizing ι made pending b k with
  | zero => exact .pure ⟨nofun, hb.fewer (Nat.zero_le _)⟩
  | succ left ih =>
    unfold attempts
    split_ifs
    · exact .pure ⟨nofun, hb.fewer (Nat.zero_le _)⟩
    · have hstarted : Books (D.file i) pending.length (startAttempt made pending b) := by
        constructor <;> rw [startAttempt_counts]
        · rw [startAttempt_recorder]
          exact hb.recorder
        · exact hb.room
      refine .bind_of_any Option.some (fun _ => abides_pause (by omega) k) ?_
      refine .bind (foretold_attempt hnodup hkeys hstarted (fun x : ι × Duration => txn x.1) k) ?_
      rintro ⟨answer, b₁⟩ k₁ ⟨hanswer, hbooks, hleft⟩
      cases answer with
      | error e => exact .pure ⟨Error.passed hanswer, hbooks⟩
      | ok pending' =>
        obtain ⟨hsublist, hbooks'⟩ := hleft pending' rfl
        have hsublist := (hsublist.map BatchRow.mutation).map Mutation.rowKey
        exact ih _ (by omega) (hnodup.sublist hsublist)
          (List.Subset.trans hsublist.subset hkeys) hbooks' k₁

section

variable {p : Pipeline} {rows : List Mutation}

/-- What a batch comes to is decided by the portion of the member that sends it. -/
theorem foretold_run (hpermissive : p.options.isPermissive = true) (hretry : p.retry = retry)
    (hrecorder : ∃ r, p.recorder = some r ∧ r.OwnedBy (D.file i) 0)
    (hnodup : (rows.map Mutation.rowKey).Nodup) (hkeys : rows.map Mutation.rowKey ⊆ D.keys i)
    (hrows : rows.length < UInt64.size) (txn : ι → TxnId) (k : Portion) :
    Foretold (Apportioned D retry place) i
      (fun answer _ => answer.1 ≠ .error .outOfRange ∧ Books (D.file i) 0 answer.2)
      (fun x => p.run (σ := ScriptedSubstrate) (txn x) rows) k := by
  have hlength : (batchRows rows).length = rows.length := by
    rw [← List.length_map (f := BatchRow.mutation), mutation_batchRows]
  have hbooks : Books (D.file i) (batchRows rows).length
      ⟨p.state, p.recorder, .zero, Array.replicate rows.length none⟩ := by
    refine ⟨hrecorder, ?_⟩
    rw [hlength]
    exact (Nat.zero_add rows.length).symm ▸ hrows
  unfold run
  simp only [hpermissive, hretry]
  refine .bind (foretold_attempts txn _ (Nat.le_of_eq (Nat.zero_add _))
    (by rwa [mutation_batchRows]) (by rwa [mutation_batchRows]) hbooks k) ?_
  rintro ⟨answer, b⟩ k₁ ⟨hanswer, hbooks⟩
  cases answer with
  | error e => exact .pure ⟨Error.passed hanswer, hbooks⟩
  | ok found =>
    obtain ⟨pending, made⟩ := found
    refine .bind (foretold_place k₁) fun place k₂ _ => ?_
    cases pending <;> exact .pure ⟨nofun, hbooks.recorder, hbooks.room⟩

/-- What a batch of a fresh pipeline comes to is decided by the portion of the member that sends it,
for whichever transaction. Its recorder has counted the rows that it ignored. -/
theorem foretold_submit (hpermissive : p.options.isPermissive = true) (hretry : p.retry = retry)
    (hrecorder : ∃ r, p.recorder = some r ∧ r.OwnedBy (D.file i) 0) (hstats : p.stats = .zero)
    (hnodup : (rows.map Mutation.rowKey).Nodup) (hkeys : rows.map Mutation.rowKey ⊆ D.keys i)
    (hrows : rows.length < UInt64.size)
    {t : ι → Transaction} (ht : ∀ x, (t x).isActive = true ∧ (t x).readOnly = false)
    (k : Portion) :
    Foretold (Apportioned D retry place) i
      (fun answer _ => ∃ r, answer.2.recorder = some r ∧
        r.OwnedBy (D.file i) answer.2.stats.ignored)
      (fun x => p.submit (σ := ScriptedSubstrate) (t x) rows) k := by
  unfold submit
  simp only [(ht _).1, (ht _).2, Bool.not_true, Bool.false_eq_true, if_false]
  refine .bind (foretold_run hpermissive hretry hrecorder hnodup hkeys hrows _ k) ?_
  rintro ⟨answer, b⟩ k₁ ⟨hanswer, hbooks⟩
  obtain ⟨r, hr, howned⟩ := hbooks.recorder
  obtain ⟨hrecorder, hadded, -⟩ := p.absorb_of_returns hanswer b
  have hignored : (p.absorb answer b).stats.ignored = b.counts.ignored := by
    rw [hadded, hstats]
    exact Nat.zero_add _
  exact .pure ⟨r, hrecorder.trans hr, hignored ▸ howned⟩

/-- A pipeline can be finished, and hands out its recorder. -/
theorem foretold_finish {r : Recorder} {count : Nat} (hr : p.recorder = some r)
    (howned : r.OwnedBy (D.file i) count) (k : Portion) :
    Foretold (Apportioned D retry place) i
      (fun answer _ => ∃ r', answer = .ok (p.stats, some r') ∧ r'.OwnedBy (D.file i) count)
      (fun _ : ι => p.finish (σ := ScriptedSubstrate)) k := by
  unfold finish
  rw [hr]
  refine .bind (foretold_onDirectory (Recorder.foretold_close D.file_injective howned _)) ?_
  rintro ⟨answer, r'⟩ k₁ ⟨rfl, howned'⟩
  exact .pure ⟨r', rfl, howned'⟩

end

end Pipeline

end TxnEngine
