import TxnEngine.Proofs.BadRecords.OtherFiles
import TxnEngine.Proofs.Concurrency.Teams

/-!
# Recorders side by side

The recorders of a team share a directory, and each has a file of its own there. As long as no call
of the directory fails, what a recorder answers is decided by its own file: what the others write in
between, and in which order, does not show.

Results:
* `Directory.Divided`: the directory of a team, and the file of each member.
* `Recorder.foretold_close`: a recorder can be closed.
* `Recorder.foretold_record`: what a recorder makes of a row is decided by its own file.
-/

namespace TxnEngine

open Program

/-- An error that is passed on is still no other one. -/
theorem Error.passed {α β : Type} {e e' : Error} (h : (.error e : Except Error α) ≠ .error e') :
    (.error e : Except Error β) ≠ .error e' :=
  fun heq => h (congrArg Except.error (Except.error.inj heq))

namespace Directory

/-- A directory in which no call fails, and in which member `i` of a team has the file `file i`, of
which its standing tells the content. -/
structure Divided (place : Place) (file : Nat → String) (K : Nat → Option Content)
    (d : Directory) : Prop where
  place : d.place = place
  faultless : d.faults = .none
  files : ∀ i, d.files.find? (file i) = K i

variable {place : Place} {file : Nat → String} {K : Nat → Option Content} {d : Directory} {i : Nat}

/-- A member writes to its file. -/
theorem Divided.write (hfile : Function.Injective file) (h : Divided place file K d)
    (content : Content) :
    Divided place file (Function.update K i (some content))
      { d with files := d.files.insert (file i) content, faults := .none } := by
  refine ⟨h.place, rfl, fun j => ?_⟩
  by_cases hij : j = i
  · subst hij
    rw [Function.update_self]
    exact Table.find?_insert_self _ _ _
  · rw [Function.update_of_ne hij, ← h.files j]
    exact Table.find?_insert_of_ne _ _ fun heq => hij (hfile heq).symm

/-- A member does nothing. -/
theorem Divided.same (h : Divided place file K d) {k : Option Content} (hk : K i = k) :
    Divided place file (Function.update K i k) d := by
  rw [← hk, Function.update_eq_self]
  exact h

theorem create_of_faultless (hfaults : d.faults = .none) (name : String) :
    d.create name = d.createFile name := by
  have hsame : ({ d with faults := .none } : Directory) = d := by rw [← hfaults]
  rw [create, attempt, hfaults, Faults.take_none]
  simp only
  rw [hsame]

variable {ι : Type}

/-- Whether a member can create its file is decided by its name and by whether it is there. -/
theorem foretold_create (hfile : Function.Injective file) (k : Option Content) :
    Foretold (Divided place file) i (fun opened _ => ∀ s, opened = .ok s → s.name = file i)
      (fun _ : ι => atomically fun d => d.create (file i)) k := by
  cases hname : checkName (file i) with
  | error e =>
    refine Foretold.atomically (.error e) k (by simp) fun _ K d h hk => ?_
    rw [create_of_faultless h.faultless, createFile, hname]
    exact ⟨rfl, h.same hk⟩
  | ok valid =>
    cases hrefusal : place.refusal? (file i) with
    | some failure =>
      refine Foretold.atomically (.error (.io failure)) k (by simp) fun _ K d h hk => ?_
      rw [create_of_faultless h.faultless, createFile, hname, h.place]
      simp only [hrefusal]
      exact ⟨trivial, h.same hk⟩
    | none =>
      cases k with
      | some content =>
        refine Foretold.atomically (.error (.alreadyExists (place.location (file i))))
          (some content) (by simp) fun _ K d h hk => ?_
        have hpresent : d.present (file i) = true := by
          rw [present, Table.has, h.files i, hk]
          rfl
        rw [create_of_faultless h.faultless, createFile, hname, h.place]
        simp only [hrefusal, hpresent, if_true]
        exact ⟨trivial, h.same hk⟩
      | none =>
        refine Foretold.atomically (.ok ⟨file i, place.opening #[]⟩) (some #[]) ?_
          fun _ K d h hk => ?_
        · rintro s ⟨⟩
          rfl
        have habsent : d.present (file i) = false := by
          rw [present, Table.has, h.files i, hk]
          rfl
        rw [create_of_faultless h.faultless, createFile, hname, h.place]
        simp only [hrefusal, habsent, if_false, Bool.false_eq_true]
        refine ⟨trivial, ?_⟩
        have hwrite := h.write (i := i) hfile #[]
        rwa [← h.faultless, h.place] at hwrite

/-- What an operation on a member's open file answers is decided by the file. -/
theorem foretold_onSink {α : Type} {f : Store → α × Store} (hfile : Function.Injective file)
    (hf : ∀ store : Store, store.faults = .none → (f store).2.faults = .none) {s : Sink}
    (hs : s.name = file i) (k : Option Content) :
    Foretold (Divided place file) i
      (fun answer _ => answer.1 = (f ⟨k.getD #[], s.handle, .none⟩).1 ∧ answer.2.name = file i)
      (fun _ : ι => Recorder.onSink f s) k := by
  have hanswer := hf ⟨k.getD #[], s.handle, .none⟩ rfl
  refine Foretold.atomically
    ((f ⟨k.getD #[], s.handle, .none⟩).1,
      { s with handle := (f ⟨k.getD #[], s.handle, .none⟩).2.handle })
    (some (f ⟨k.getD #[], s.handle, .none⟩).2.content) ⟨rfl, hs⟩ fun _ K d h hk => ?_
  have hstore : d.storeOf s = ⟨k.getD #[], s.handle, .none⟩ := by
    rw [storeOf, Table.findD, hs, h.files i, hk, h.faultless]
  rw [onSink, hstore]
  simp only [putStore, hanswer, hs]
  exact ⟨trivial, h.write hfile _⟩

end Directory

namespace Recorder

open Directory

variable {place : Place} {file : Nat → String} {i : Nat} {r : Recorder} {ι : Type}

/-- A member's recorder that has counted a number of rows. -/
structure OwnedBy (name : String) (count : Nat) (r : Recorder) : Prop where
  named : r.physicalName = name
  confined : r.Confined
  count : r.count = count

theorem OwnedBy.sink {name : String} {count : Nat} (h : r.OwnedBy name count) {s : Sink}
    (hs : s.name = name) : ({ r with sink := some s } : Recorder).OwnedBy name count := by
  refine ⟨h.named, ?_, h.count⟩
  rintro _ ⟨⟩
  exact hs.trans h.named.symm

variable (hfile : Function.Injective file) {count : Nat}

include hfile

/-- A recorder can be closed. -/
theorem foretold_close (h : r.OwnedBy (file i) count) (k : Option Content) :
    Foretold (Divided place file) i
      (fun answer _ => answer.1 = .ok () ∧ answer.2.OwnedBy (file i) count)
      (fun _ : ι => r.close) k := by
  have hclosed : ({ r with isClosed := true, sink := none } : Recorder).OwnedBy (file i) count :=
    ⟨h.named, nofun, h.count⟩
  unfold close
  cases hsink : r.sink with
  | none => exact .pure ⟨rfl, hclosed⟩
  | some s =>
    have hname := (h.confined s hsink).trans h.named
    refine .bind (foretold_onSink hfile faultless_flush hname k) ?_
    rintro ⟨flushed, s₁⟩ k₁ ⟨hflush, hname₁⟩
    rw [Store.flush, Store.attempt, Faults.take_none] at hflush
    obtain rfl : flushed = .ok () := hflush
    refine .bind (foretold_onSink hfile faultless_sync hname₁ k₁) ?_
    rintro ⟨synced, s₂⟩ k₂ ⟨hsync, -⟩
    rw [Store.sync, Store.attempt, Faults.take_none] at hsync
    obtain rfl : synced = .ok () := hsync
    exact .pure ⟨rfl, hclosed⟩

/-- How far a line gets in an open file is decided by the file. -/
theorem foretold_writeLine_of_open (h : r.OwnedBy (file i) count) {s : Sink}
    (hsink : r.sink = some s) (line : String) (k : Option Content) :
    Foretold (Divided place file) i
      (fun answer _ => answer.1 ≠ .error .outOfRange ∧ answer.2.OwnedBy (file i) count)
      (fun _ : ι => r.writeLine line) k := by
  have hname := (h.confined s hsink).trans h.named
  unfold writeLine
  rw [hsink]
  simp only [pure_bind]
  refine .bind (foretold_onSink hfile (faultless_append (Bytes.ofText line)) hname k) ?_
  rintro ⟨appended, s₁⟩ k₁ ⟨-, hname₁⟩
  cases appended with
  | error e => exact .pure ⟨by simp, h.sink hname₁⟩
  | ok offset => exact .pure ⟨by simp, h.sink hname₁⟩

/-- How far a line gets is decided by the file. -/
theorem foretold_writeLine (h : r.OwnedBy (file i) count) (line : String) (k : Option Content) :
    Foretold (Divided place file) i
      (fun answer _ => answer.1 ≠ .error .outOfRange ∧ answer.2.OwnedBy (file i) count)
      (fun _ : ι => r.writeLine line) k := by
  cases hsink : r.sink with
  | some s => exact foretold_writeLine_of_open hfile h hsink line k
  | none =>
    unfold writeLine
    rw [hsink]
    have hcreate : Foretold (Divided place file) i
        (fun opened _ => ∀ s, opened = .ok s → s.name = r.physicalName)
        (fun _ : ι => atomically fun d => d.create r.physicalName) k := by
      rw [h.named]
      exact foretold_create hfile k
    refine .bind hcreate fun opened k₁ hname => ?_
    cases opened with
    | error e => exact .pure ⟨by simp, h⟩
    | ok s =>
      have hopen := h.sink ((hname s rfl).trans h.named)
      exact foretold_writeLine_of_open hfile hopen rfl line k₁

/-- What a recorder makes of a row that was counted is decided by its file. -/
theorem foretold_report (h : r.OwnedBy (file i) count) (text code : String) (k : Option Content) :
    Foretold (Divided place file) i
      (fun answer _ => answer.1 ≠ .error .outOfRange ∧ answer.2.OwnedBy (file i) count)
      (fun _ : ι => r.report text code) k := by
  unfold report
  by_cases hclosed : r.isClosed = true
  · simp only [hclosed, if_true, pure_bind, Bool.not_true, Bool.and_false, Bool.false_eq_true,
      if_false]
    exact .pure ⟨nofun, h⟩
  · simp only [hclosed, if_false, Bool.false_eq_true]
    refine .bind (foretold_writeLine hfile h _ k) ?_
    rintro ⟨written, r₁⟩ k₁ ⟨hwritten, h₁⟩
    cases written with
    | error e => exact .pure ⟨Error.passed hwritten, h₁⟩
    | ok done =>
      simp only
      split_ifs
      · refine .bind (foretold_close hfile h₁ k₁) ?_
        rintro ⟨closed, r₂⟩ k₂ ⟨rfl, h₂⟩
        exact .pure ⟨nofun, h₂⟩
      · exact .pure ⟨nofun, h₁⟩

/-- What a recorder makes of a row is decided by its file, and the row is counted. -/
theorem foretold_record (h : r.OwnedBy (file i) count) (hroom : count + 1 < UInt64.size)
    (text code : String) (k : Option Content) :
    Foretold (Divided place file) i
      (fun answer _ => answer.1 ≠ .error .outOfRange ∧ answer.2.OwnedBy (file i) (count + 1))
      (fun _ : ι => r.record text code) k := by
  unfold record mergeCount?
  rw [h.count, if_pos hroom]
  have hcounted : ({ r with count := count + 1 } : Recorder).OwnedBy (file i) (count + 1) :=
    ⟨h.named, h.confined, rfl⟩
  exact foretold_report hfile hcounted text code k

end Recorder

end TxnEngine
