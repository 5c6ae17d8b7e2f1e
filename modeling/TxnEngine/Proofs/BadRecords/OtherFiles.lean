import TxnEngine.Proofs.BadRecords.Reports
import TxnEngine.Proofs.Manager.Alone

/-!
# What a recorder leaves alone

A recorder works on one file, under a name that is reserved for it. Whatever it records, and when it
is closed and let go, the files of others and the names that are reserved for them stay as they are.

Results:
* `Directory.Spares`: what is done to a directory without touching a file.
* `Recorder.Reports.spared`: a recorder whose file is not touched still reports what it did.
* `Recorder.Upkept.close`, `Recorder.Upkept.record`: what every step of a recorder keeps up is kept
  up when it records and is closed.
* `Recorder.KeepsTo.record`, `Recorder.KeepsTo.close`, `Recorder.yields_discard`: a recorder touches
  no other file.
* `Recorder.reserveFrom_cases`: a name that is given out was not reserved before.
-/

namespace TxnEngine

namespace Directory

/-! ## Files that are not touched -/

/-- The file of that name is not touched, its name stays reserved, and no call begins to fail. -/
structure Spares (name : String) (d d' : Directory) : Prop where
  place : d'.place = d.place
  faultless : d.faults = .none → d'.faults = .none
  file : d'.files.find? name = d.files.find? name
  reserved : name ∈ d.reserved → name ∈ d'.reserved

variable {name other : String} {d d' d'' : Directory}

theorem Spares.refl (name : String) (d : Directory) : Spares name d d :=
  ⟨rfl, id, rfl, id⟩

theorem Spares.trans (h : Spares name d d') (h' : Spares name d' d'') : Spares name d d'' :=
  ⟨h'.place.trans h.place, fun hd => h'.faultless (h.faultless hd), h'.file.trans h.file,
    fun hd => h'.reserved (h.reserved hd)⟩

theorem Spares.contents (h : Spares name d d') : d'.contents? name = d.contents? name := by
  rw [contents?, contents?, h.file]

theorem Spares.opens (h : Spares name d d') {s : Sink} {bytes : Bytes} (hname : s.name = name)
    (hopens : d.Opens s bytes) : d'.Opens s bytes := by
  subst hname
  refine ⟨h.contents.trans hopens.contents, ?_⟩
  rw [← hopens.store, storeOf, storeOf, Table.findD, h.file, h.faultless hopens.faultless,
    hopens.faultless]
  rfl

/-- What touches one file at most lets no call begin to fail. -/
theorem faultless_of_spares {name? : Option String}
    (h : ∀ other, name? ≠ some other → Spares other d d') (hd : d.faults = .none) :
    d'.faults = .none := by
  cases name? with
  | none => exact (h "" (by simp)).faultless hd
  | some name =>
    have hne : name ≠ name ++ "." := fun heq => by
      have hlength := congrArg String.length heq
      simp [String.length_append] at hlength
    exact (h (name ++ ".") (by simpa using hne)).faultless hd

/-- A store of the name is created, or none is. Only the schedule is changed besides. -/
theorem create_cases (d : Directory) (name : String) :
    ∃ faults, (d.faults = .none → faults = .none) ∧
      ((∃ e, d.create name = (.error e, { d with faults })) ∨
        ∃ handle, d.create name =
          (.ok ⟨name, handle⟩, { d with files := d.files.insert name #[], faults })) := by
  refine ⟨(d.faults.take .create).2, fun hd => by rw [hd, Faults.take_none], ?_⟩
  have hattempt : d.attempt .create =
      ((d.faults.take .create).1, { d with faults := (d.faults.take .create).2 }) := rfl
  rw [create, hattempt]
  cases (d.faults.take .create).1 with
  | true => exact .inl ⟨_, rfl⟩
  | false =>
    simp only [createFile]
    cases checkName name with
    | error e => exact .inl ⟨_, rfl⟩
    | ok valid =>
      cases d.place.refusal? name with
      | some failure => exact .inl ⟨_, rfl⟩
      | none =>
        simp only
        split_ifs
        · exact .inl ⟨_, rfl⟩
        · exact .inr ⟨_, rfl⟩

/-- An operation of a store that does not begin to fail. -/
theorem spares_onSink {α : Type} {f : Store → α × Store} {s : Sink}
    (hf : ∀ store : Store, store.faults = .none → (f store).2.faults = .none)
    (hother : other ≠ s.name) : Spares other d (d.onSink f s).2 :=
  ⟨rfl, fun hd => hf _ hd, Table.find?_insert_of_ne _ _ (Ne.symm hother), id⟩

end Directory

namespace Recorder

open Program Directory

/-! ## Its own file -/

/-- The file that is open is the recorder's own. -/
def Confined (r : Recorder) : Prop :=
  ∀ s, r.sink = some s → s.name = r.physicalName

/-- A recorder whose file was not touched has reported what it had reported. -/
theorem Reports.spared {r : Recorder} {d d' : Directory} {rejects : List BadRecord}
    (h : r.Reports d rejects) (hspares : Spares r.physicalName d d') : r.Reports d' rejects := by
  obtain ⟨hcount, hclosed, hholds⟩ := h
  refine ⟨hcount, hclosed, hspares.faultless hholds.faultless, hholds.isName, ?_,
    hspares.contents.trans hholds.contents, hholds.unopened, fun s hs => ?_⟩
  · rw [hspares.place]
    exact hholds.accepted
  · obtain ⟨hopen, hname, bytes, hfile, hopens⟩ := hholds.opened s hs
    exact ⟨hopen, hname, bytes, hfile, hspares.opens hname hopens⟩

variable {name : String} {d₀ d : Directory} {r : Recorder}

/-! ## What every step keeps up -/

/-- What every step of a recorder keeps up: it counts and is closed, tries to make its file and makes
it, and operates on the file, which does not begin to fail. -/
structure Upkept (holds : Recorder → Directory → Prop) : Prop where
  confined : ∀ {r d}, holds r d → r.Confined
  counted : ∀ {r d}, holds r d → ∀ count, holds { r with count } d
  closed : ∀ {r d}, holds r d → holds { r with isClosed := true, sink := none } d
  tried : ∀ {r d}, holds r d → ∀ {faults : Faults}, (d.faults = .none → faults = .none) →
    holds r { d with faults }
  created : ∀ {r d}, holds r d → ∀ {faults : Faults}, (d.faults = .none → faults = .none) →
    holds r { d with files := d.files.insert r.physicalName #[], faults }
  onSink : ∀ {r d}, holds r d → ∀ {α : Type} {f : Store → α × Store} {s : Sink},
    s.name = r.physicalName →
    (∀ store : Store, store.faults = .none → (f store).2.faults = .none) →
    holds { r with sink := some (d.onSink f s).1.2 } (d.onSink f s).2

theorem faultless_flush (store : Store) (h : store.faults = .none) :
    store.flush.2.faults = .none := by
  simp [Store.flush, Store.attempt, h]

theorem faultless_sync (store : Store) (h : store.faults = .none) :
    store.sync.2.faults = .none := by
  simp [Store.sync, Store.attempt, h]

theorem faultless_append (data : Bytes) (store : Store) (h : store.faults = .none) :
    (store.append data).2.faults = .none := by
  simp [Store.append, Store.attempt, Store.write, h]

section Upkeep

variable {holds : Recorder → Directory → Prop}

theorem Upkept.close (h : Upkept holds) (hr : holds r d) :
    r.close.Yields (fun answer d' => holds answer.2 d') d := by
  have hclosed {sink : Option Sink} {d' : Directory} (h' : holds { r with sink } d') :
      holds { r with isClosed := true, sink := none } d' :=
    h.closed (r := { r with sink }) h'
  unfold Recorder.close Recorder.onSink
  cases hsink : r.sink with
  | none => exact .pure (h.closed hr)
  | some s =>
    have h₁ := h.onSink hr (h.confined hr s hsink) faultless_flush
    refine .atomically_bind ?_
    generalize d.onSink Store.flush s = flushed at h₁ ⊢
    obtain ⟨⟨_ | _, s₁⟩, d₁⟩ := flushed
    · exact .pure (hclosed h₁)
    · have h₂ := h.onSink h₁ (h.confined h₁ s₁ rfl) faultless_sync
      refine .atomically_bind ?_
      simp only
      generalize d₁.onSink Store.sync s₁ = synced at h₂ ⊢
      obtain ⟨⟨_ | _, s₂⟩, d₂⟩ := synced <;> exact .pure (hclosed h₂)

theorem Upkept.writeLine (h : Upkept holds) (hr : holds r d) (line : String) :
    (r.writeLine line).Yields (fun answer d' => holds answer.2 d') d := by
  have happended {s : Sink} {d₁ : Directory} (h₁ : holds r d₁) (hname : s.name = r.physicalName) :=
    h.onSink h₁ hname (faultless_append (Bytes.ofText line))
  unfold Recorder.writeLine Recorder.onSink
  cases hsink : r.sink with
  | some s =>
    have h₁ := happended hr (h.confined hr s hsink)
    refine .atomically_bind ?_
    simp only
    generalize d.onSink (fun store => store.append (Bytes.ofText line)) s = appended at h₁ ⊢
    obtain ⟨⟨_ | _, s₁⟩, d₁⟩ := appended <;> exact .pure h₁
  | none =>
    obtain ⟨faults, hfaultless, ⟨e, hcreate⟩ | ⟨handle, hcreate⟩⟩ :=
      Directory.create_cases d r.physicalName <;>
      refine .atomically_bind ?_ <;>
      rw [hcreate]
    · exact .pure (h.tried hr hfaultless)
    · have h₁ := happended (s := ⟨r.physicalName, handle⟩) (h.created hr hfaultless) rfl
      refine .atomically_bind ?_
      simp only
      generalize Directory.onSink (fun store => store.append (Bytes.ofText line)) _ _ = appended
        at h₁ ⊢
      obtain ⟨⟨_ | _, s₁⟩, d₁⟩ := appended <;> exact .pure h₁

theorem Upkept.report (h : Upkept holds) (hr : holds r d) (text code : String) :
    (r.report text code).Yields (fun answer d' => holds answer.2 d') d := by
  by_cases hclosed : r.isClosed = true
  · have hrun : (r.report text code).run d = ((.ok r.isExceeded, r), d) := by
      simp [Recorder.report, hclosed]
    unfold Yields
    rw [hrun]
    exact hr
  unfold Recorder.report
  rw [if_neg hclosed]
  refine .seq (h.writeLine hr _) fun written d₁ h₁ => ?_
  obtain ⟨_ | _, r₁⟩ := written
  · exact .pure h₁
  · simp only
    split_ifs
    · refine .seq (h.close h₁) fun closed d₂ h₂ => ?_
      obtain ⟨_ | _, r₂⟩ := closed <;> exact .pure h₂
    · exact .pure h₁

theorem Upkept.record (h : Upkept holds) (hr : holds r d) (text code : String) :
    (r.record text code).Yields (fun answer d' => holds answer.2 d') d := by
  unfold Recorder.record mergeCount?
  split_ifs
  · exact h.report (h.counted hr _) text code
  · exact .pure hr

end Upkeep

/-! ## Other files -/

/-- A recorder of that name has left everything alone but its own file since the directory was
`d₀`. -/
structure KeepsTo (name : String) (d₀ : Directory) (r : Recorder) (d : Directory) : Prop where
  named : r.physicalName = name
  confined : r.Confined
  spares : ∀ other, other ≠ name → Spares other d₀ d
  reserved : d.reserved = d₀.reserved

theorem KeepsTo.refl (hconfined : r.Confined) (d : Directory) : r.KeepsTo r.physicalName d d :=
  ⟨rfl, hconfined, fun other _ => .refl other d, rfl⟩

/-- No step of a recorder touches another file. -/
theorem upkept_keepsTo (name : String) (d₀ : Directory) :
    Upkept fun r d => r.KeepsTo name d₀ d where
  confined h := h.confined
  counted h _ := ⟨h.named, h.confined, h.spares, h.reserved⟩
  closed h := ⟨h.named, nofun, h.spares, h.reserved⟩
  tried h _ hfaults := ⟨h.named, h.confined,
    fun other hother => (h.spares other hother).trans ⟨rfl, hfaults, rfl, id⟩, h.reserved⟩
  created h _ hfaults := by
    refine ⟨h.named, h.confined, fun other hother => (h.spares other hother).trans
      ⟨rfl, hfaults, ?_, id⟩, h.reserved⟩
    exact Table.find?_insert_of_ne _ _ (by rw [h.named]; exact Ne.symm hother)
  onSink h _ _ s hname hf := by
    refine ⟨h.named, ?_, fun other hother => ?_, h.reserved⟩
    · rintro _ ⟨⟩
      exact hname
    · exact (h.spares other hother).trans (spares_onSink hf (by rw [hname, h.named]; exact hother))

/-- A file is closed without touching another one. -/
theorem KeepsTo.close (h : r.KeepsTo name d₀ d) :
    r.close.Yields (fun answer d' => answer.2.KeepsTo name d₀ d') d :=
  (upkept_keepsTo name d₀).close h

/-- A row is recorded without touching another file. -/
theorem KeepsTo.record (h : r.KeepsTo name d₀ d) (text code : String) :
    (r.record text code).Yields (fun answer d' => answer.2.KeepsTo name d₀ d') d :=
  (upkept_keepsTo name d₀).record h text code

/-- A recorder is let go without touching another file. -/
theorem yields_discard (hconfined : r.Confined) (d : Directory) :
    r.discard.Yields (fun _ d' => ∀ other, other ≠ r.physicalName → Spares other d d') d := by
  unfold Recorder.discard
  refine .seq (KeepsTo.refl hconfined d).close fun closed d₁ hkeeps other hother => ?_
  obtain ⟨hplace, hfaultless, hfile, hreserved⟩ := hkeeps.spares other hother
  refine ⟨hplace, hfaultless, hfile, fun hd => ?_⟩
  simpa [Directory.release, hother] using hreserved hd

/-- A recorder that is let go leaves its file as it is. -/
theorem contents_discard {file : Option Bytes} (h : r.Holds d file) :
    (r.discard.run d).2.contents? r.physicalName = file := by
  obtain ⟨d', hclose, -, hholds⟩ := run_close h
  have hrun : r.discard.run d = ((), d'.release r.physicalName) := by
    simp [Recorder.discard, hclose]
  rw [hrun]
  exact hholds.contents

/-! ## Names -/

/-- A name is reserved that was not, and nothing else is changed. Otherwise nothing is changed at
all. -/
theorem reserveFrom_cases (candidate : Nat → String) (hfaults : d.faults = .none) (fuel n : Nat) :
    (∃ e, (reserveFrom candidate fuel n).run d = (.error e, d) ∧
        (e = .invalidOperation .noFreeName ∨ ∃ cause, e = .storage cause)) ∨
      ∃ m, m < n + fuel ∧ candidate m ∉ d.reserved ∧ (reserveFrom candidate fuel n).run d =
        (.ok (candidate m), { d with reserved := candidate m :: d.reserved }) := by
  induction fuel generalizing n with
  | zero => exact .inl ⟨.invalidOperation .noFreeName, rfl, .inl rfl⟩
  | succ fuel ih =>
    rw [reserveFrom, run_bind, run_atomically, Directory.reserve_of_faultless hfaults]
    obtain ⟨e, he⟩ | hfalse | ⟨-, -, htrue⟩ := Directory.reserveName_cases d (candidate n)
    · exact .inl ⟨.storage e, by rw [he]; rfl, .inr ⟨e, rfl⟩⟩
    · rw [hfalse]
      obtain hrefused | ⟨m, hm, hfree, hrun⟩ := ih (n + 1)
      · exact .inl hrefused
      · exact .inr ⟨m, by omega, hfree, hrun⟩
    · have hfree := ((reserve_eq_true_iff d (candidate n)).mp (by rw [htrue])).2.1
      exact .inr ⟨n, by omega, hfree, by rw [htrue]; rfl⟩

/-- The recorder of a load gets a name that was not reserved. -/
theorem run_new_cases (hfaults : d.faults = .none) (source : String) (tolerance : Int) :
    (∃ e, (Recorder.new source tolerance).run d = (.error e, d) ∧
        (e = .invalidOperation .noFreeName ∨ ∃ cause, e = .storage cause)) ∨
      ∃ m name, m < candidateLimit ∧ name = logicalCandidate (sourceStem source) m ∧
        name ∉ d.reserved ∧ (Recorder.new source tolerance).run d =
          (.ok ⟨name, name, tolerance, 0, none, false⟩,
            { d with reserved := name :: d.reserved }) := by
  unfold Recorder.new
  rw [run_bind]
  obtain ⟨e, hrun, hkind⟩ | ⟨m, hm, hfree, hrun⟩ :=
    reserveFrom_cases (logicalCandidate (sourceStem source)) hfaults candidateLimit 0
  · exact .inl ⟨e, by rw [hrun]; rfl, hkind⟩
  · rw [Nat.zero_add] at hm
    exact .inr ⟨m, _, hm, rfl, hfree, by rw [hrun]; rfl⟩

end Recorder

end TxnEngine
