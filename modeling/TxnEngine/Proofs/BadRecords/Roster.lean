import TxnEngine.Proofs.BadRecords.Continuing

/-!
# Recorders over one directory

A roster holds a directory and every recorder that was ever made over it, in the order in which they
were made. Loads and their workers join it, record, close their files and leave.

Results:
* `Roster.move_act`: all that a request can do to a roster.
* `Roster.sound_run`: behind any requests the reserved names are those of the recorders that are
  still there, each of which has its own.
* `Roster.led_run`: every recorder works for a load, under its logical name.
* `Roster.belongs_of_changed`, `Roster.Belongs.run`: a file that was changed belongs to the recorder
  that did so, whatever is requested later.
-/

namespace TxnEngine

/-! ## Rosters -/

/-- A recorder on a roster. -/
structure Roster.Entry where
  recorder : Recorder
  /-- The number of the load's own entry, that of its coordinator. -/
  load : Nat
  /-- Whether the recorder was not let go yet. -/
  isLive : Bool
deriving DecidableEq

/-- A directory, and all recorders that were made over it so far. -/
structure Roster where
  directory : Directory
  entries : List Roster.Entry

namespace Roster

open Program Recorder

/-- What can be asked for: a recorder for a load that reads a source or for a worker of a load, and
what is done with the recorder of that number. -/
inductive Request where
  | new (source : String) (tolerance : Int)
  | forWorker (n : Nat) (worker : String)
  | record (n : Nat) (text code : String)
  | close (n : Nat)
  | drop (n : Nat)
deriving DecidableEq

/-- The number of the recorder that a request is about. -/
def Request.subject? : Request → Option Nat
  | new _ _ => none
  | forWorker n _ | record n _ _ | close n | drop n => some n

/-- A directory in which nothing is reserved and no call fails. -/
def start (place : Place) (files : Table String Content) : Roster :=
  ⟨⟨place, files, [], .none⟩, []⟩

/-- The entry of that number, if its recorder is still there. -/
def live? (s : Roster) (n : Nat) : Option Entry :=
  s.entries[n]?.filter Entry.isLive

/-- Puts a recorder that was made on the roster. -/
def join (s : Roster) (load : Nat) (made : Except Error Recorder × Directory) : Roster where
  directory := made.2
  entries :=
    match made.1 with
    | .error _ => s.entries
    | .ok r => s.entries ++ [⟨r, load, true⟩]

/-- Sets an entry, and the directory. -/
def put (s : Roster) (n : Nat) (e : Entry) (d : Directory) : Roster :=
  ⟨d, s.entries.set n e⟩

/-- What becomes of the roster by a request. A recorder that is not there can do nothing. -/
def act (s : Roster) : Request → Roster
  | .new source tolerance =>
    s.join s.entries.length ((Recorder.new source tolerance).run s.directory)
  | .forWorker n worker =>
    match s.live? n with
    | none => s
    | some e => s.join e.load ((e.recorder.forWorker worker).run s.directory)
  | .record n text code =>
    match s.live? n with
    | none => s
    | some e =>
      let done := (e.recorder.record text code).run s.directory
      s.put n { e with recorder := done.1.2 } done.2
  | .close n =>
    match s.live? n with
    | none => s
    | some e =>
      let done := e.recorder.close.run s.directory
      s.put n { e with recorder := done.1.2 } done.2
  | .drop n =>
    match s.live? n with
    | none => s
    | some e => s.put n { e with isLive := false } (e.recorder.discard.run s.directory).2

/-- What becomes of the roster by requests one after the other. -/
def run (s : Roster) (requests : List Request) : Roster :=
  requests.foldl act s

@[simp]
theorem run_nil (s : Roster) : s.run [] = s := rfl

@[simp]
theorem run_cons (s : Roster) (q : Request) (rest : List Request) :
    s.run (q :: rest) = (s.act q).run rest := rfl

theorem run_append (s : Roster) (first rest : List Request) :
    s.run (first ++ rest) = (s.run first).run rest :=
  List.foldl_append

section Entries

variable {s : Roster} {n : Nat} {e : Entry}

theorem live?_eq_some_iff : s.live? n = some e ↔ s.entries[n]? = some e ∧ e.isLive = true := by
  rw [live?, Option.filter_eq_some_iff]

theorem live?_join (load : Nat) (r : Recorder) (d : Directory) (n : Nat) :
    (s.join load (.ok r, d)).live? n =
      if n = s.entries.length then some ⟨r, load, true⟩ else s.live? n := by
  unfold live? join
  simp only
  rcases Nat.lt_trichotomy n s.entries.length with hn | rfl | hn
  · rw [List.getElem?_append_left hn, if_neg (by omega)]
  · simp
  · rw [List.getElem?_eq_none (by simp; omega), List.getElem?_eq_none (by omega),
      if_neg (by omega)]

/-- A recorder that is there is the one that joined last, or it was there before. -/
theorem live?_join_cases {load : Nat} {r : Recorder} {d : Directory}
    (hfound : (s.join load (.ok r, d)).live? n = some e) :
    (n = s.entries.length ∧ e = ⟨r, load, true⟩) ∨ s.live? n = some e := by
  rw [live?_join] at hfound
  split_ifs at hfound with hn
  · exact .inl ⟨hn, (Option.some.inj hfound).symm⟩
  · exact .inr hfound

/-- Who was there is still there when another one has joined. -/
theorem live?_join_of_live? {load : Nat} {r : Recorder} {d : Directory} (hlive : s.live? n = some e) :
    (s.join load (.ok r, d)).live? n = some e := by
  have hlength := (List.getElem?_eq_some_iff.mp (live?_eq_some_iff.mp hlive).1).1
  rw [live?_join, if_neg (by omega)]
  exact hlive

theorem live?_put (hlive : s.live? n = some e) (e' : Entry) (d : Directory) (m : Nat) :
    (s.put n e' d).live? m =
      if m = n then (some e').filter Entry.isLive else s.live? m := by
  have hlength : n < s.entries.length :=
    (List.getElem?_eq_some_iff.mp (live?_eq_some_iff.mp hlive).1).1
  unfold live? put
  rw [List.getElem?_set]
  by_cases hm : n = m
  · subst hm
    simp [hlength]
  · rw [if_neg hm, if_neg (Ne.symm hm)]

/-- A recorder that is there has just been set, or it was there before and is another one. -/
theorem live?_put_cases {m : Nat} {e' found : Entry} {d : Directory} (hlive : s.live? n = some e)
    (hfound : (s.put n e' d).live? m = some found) :
    (m = n ∧ found = e' ∧ e'.isLive = true) ∨ (m ≠ n ∧ s.live? m = some found) := by
  rw [live?_put hlive] at hfound
  split_ifs at hfound with hm
  · obtain ⟨heq, hisLive⟩ := Option.filter_eq_some_iff.mp hfound
    cases heq
    exact .inl ⟨hm, rfl, hisLive⟩
  · exact .inr ⟨hm, hfound⟩

end Entries

/-! ## What a request does -/

/-- What the recorder of an entry does to the directory: it works on its own file, and keeps its
names. -/
structure Works (d : Directory) (r : Recorder) (d' : Directory) (r' : Recorder) : Prop where
  continues : r.Continues d r' d'
  confined : r'.Confined
  spares : ∀ other, other ≠ r.physicalName → Directory.Spares other d d'
  reserved : d'.reserved = d.reserved

/-- All that a request can do to a roster. -/
inductive Move (s : Roster) (q : Request) : Roster → Prop
  /-- Nothing happens: no name was to be had, or the recorder is not there. -/
  | idle : Move s q s
  /-- A recorder joins under a free name. -/
  | joins {r : Recorder} {load : Nat} (hfree : s.directory.Free r.physicalName)
    (hsink : r.sink = none)
    (hload : (load = s.entries.length ∧ r.logicalName = r.physicalName) ∨
      ∃ n e, s.live? n = some e ∧ load = e.load ∧ r.logicalName = e.recorder.logicalName) :
    Move s q (s.join load
      (.ok r, { s.directory with reserved := r.physicalName :: s.directory.reserved }))
  /-- A recorder works on its file. -/
  | works {n : Nat} {e : Entry} {r : Recorder} {d : Directory} (hq : q.subject? = some n)
    (hlive : s.live? n = some e) (hworks : Works s.directory e.recorder d r) :
    Move s q (s.put n { e with recorder := r } d)
  /-- A recorder is let go behind its last work, and its name with it. -/
  | leaves {n : Nat} {e : Entry} {r : Recorder} {d : Directory} (hq : q.subject? = some n)
    (hlive : s.live? n = some e) (hworks : Works s.directory e.recorder d r) :
    Move s q (s.put n { e with isLive := false } (d.release e.recorder.physicalName))

/-- The reserved names are those of the recorders that are there, each of which has one of its own.
No call of the directory fails, and an open file is there. -/
structure Sound (s : Roster) : Prop where
  faultless : s.directory.faults = .none
  confined : ∀ n e, s.live? n = some e → e.recorder.Confined
  reserved : ∀ name, name ∈ s.directory.reserved ↔
    ∃ n e, s.live? n = some e ∧ e.recorder.physicalName = name
  distinct : ∀ m n e e', s.live? m = some e → s.live? n = some e' →
    e.recorder.physicalName = e'.recorder.physicalName → m = n
  opened : ∀ n e, s.live? n = some e → e.recorder.sink.isSome = true →
    s.directory.present e.recorder.physicalName = true

theorem sound_start (place : Place) (files : Table String Content) :
    (start place files).Sound := by
  have hnone (n : Nat) : (start place files).live? n = none := rfl
  have hnames : (start place files).directory.reserved = [] := rfl
  exact ⟨rfl, by simp [hnone], by simp [hnone, hnames], by simp [hnone], by simp [hnone]⟩

section Moves

variable {s s' : Roster} {q : Request}

/-- All that a request can do. -/
theorem move_act (h : s.Sound) (q : Request) : Move s q (s.act q) := by
  have hworks {α : Type} {n : Nat} {e : Entry} (hlive : s.live? n = some e)
      {p : Program Directory (α × Recorder)}
      (hcontinues : p.Yields (fun (answer : α × Recorder) d' =>
        e.recorder.Continues s.directory answer.2 d') s.directory)
      (hkeeps : p.Yields (fun (answer : α × Recorder) d' =>
        answer.2.KeepsTo e.recorder.physicalName s.directory d') s.directory) :
      Works s.directory e.recorder (p.run s.directory).2 (p.run s.directory).1.2 :=
    ⟨hcontinues, KeepsTo.confined hkeeps, KeepsTo.spares hkeeps, KeepsTo.reserved hkeeps⟩
  cases q with
  | new source tolerance =>
    obtain ⟨e, hrun⟩ | ⟨name, hfree, hrun⟩ := Recorder.run_new_eq h.faultless source tolerance
    · simp only [act, hrun]
      exact .idle
    · simp only [act, hrun]
      exact .joins (r := ⟨name, name, tolerance, 0, none, false⟩) hfree rfl (.inl ⟨rfl, rfl⟩)
  | forWorker n worker =>
    cases hlive : s.live? n with
    | none => simpa only [act, hlive] using Move.idle
    | some e =>
      obtain ⟨e', hrun⟩ | ⟨name, hfree, hrun⟩ :=
        Recorder.run_forWorker_eq h.faultless e.recorder worker
      · simp only [act, hlive, hrun]
        exact .idle
      · simp only [act, hlive, hrun]
        exact .joins (r := ⟨e.recorder.logicalName, name, e.recorder.tolerance, 0, none, false⟩)
          hfree rfl (.inr ⟨n, e, hlive, rfl, rfl⟩)
  | record n text code =>
    cases hlive : s.live? n with
    | none => simpa only [act, hlive] using Move.idle
    | some e =>
      have hconfined := h.confined n e hlive
      simp only [act, hlive]
      exact .works rfl hlive (hworks hlive
        (Recorder.yields_record hconfined s.directory text code)
        ((KeepsTo.refl hconfined s.directory).record text code))
  | close n =>
    cases hlive : s.live? n with
    | none => simpa only [act, hlive] using Move.idle
    | some e =>
      have hconfined := h.confined n e hlive
      simp only [act, hlive]
      exact .works rfl hlive (hworks hlive (Recorder.yields_close hconfined s.directory)
        (KeepsTo.refl hconfined s.directory).close)
  | drop n =>
    cases hlive : s.live? n with
    | none => simpa only [act, hlive] using Move.idle
    | some e =>
      have hconfined := h.confined n e hlive
      have hdiscard : (e.recorder.discard.run s.directory).2 =
          (e.recorder.close.run s.directory).2.release e.recorder.physicalName := by
        simp [Recorder.discard]
      simp only [act, hlive, hdiscard]
      exact .leaves rfl hlive (hworks hlive (Recorder.yields_close hconfined s.directory)
        (KeepsTo.refl hconfined s.directory).close)

theorem Works.faultless {d d' : Directory} {r r' : Recorder} (h : Works d r d' r')
    (hd : d.faults = .none) : d'.faults = .none := by
  have hspares : ∀ other, some r.physicalName ≠ some other → Directory.Spares other d d' :=
    fun other hother => h.spares other fun heq => hother (heq ▸ rfl)
  exact Directory.faultless_of_spares hspares hd

theorem Sound.joins (h : s.Sound) {r : Recorder} {load : Nat}
    (hfree : s.directory.Free r.physicalName) (hsink : r.sink = none) :
    (s.join load
      (.ok r, { s.directory with reserved := r.physicalName :: s.directory.reserved })).Sound := by
  -- nobody had the name before
  have hunheld {m : Nat} {e : Entry} (hm : s.live? m = some e) :
      e.recorder.physicalName ≠ r.physicalName := fun heq =>
    hfree.1 ((h.reserved _).mpr ⟨m, e, hm, heq⟩)
  have hunopened : r.sink.isSome = false := by rw [hsink]; rfl
  refine ⟨h.faultless, fun m e hm => ?_, fun name => ⟨fun hname => ?_, ?_⟩,
    fun m n e e' hm hn hsame => ?_, fun m e hm hsome => ?_⟩
  · rcases live?_join_cases hm with ⟨-, rfl⟩ | hm
    · intro s hs
      rw [hsink] at hs
      cases hs
    · exact h.confined m e hm
  · rcases List.mem_cons.mp hname with rfl | hname
    · exact ⟨s.entries.length, ⟨r, load, true⟩, by rw [live?_join, if_pos rfl], rfl⟩
    · obtain ⟨m, e, hm, heq⟩ := (h.reserved name).mp hname
      exact ⟨m, e, live?_join_of_live? hm, heq⟩
  · rintro ⟨m, e, hm, rfl⟩
    rcases live?_join_cases hm with ⟨-, rfl⟩ | hm
    · exact List.mem_cons_self
    · exact List.mem_cons_of_mem _ ((h.reserved _).mpr ⟨m, e, hm, rfl⟩)
  · rcases live?_join_cases hm with ⟨rfl, rfl⟩ | hm <;>
      rcases live?_join_cases hn with ⟨rfl, rfl⟩ | hn
    · rfl
    · exact absurd hsame.symm (hunheld hn)
    · exact absurd hsame (hunheld hm)
    · exact h.distinct m n e e' hm hn hsame
  · rcases live?_join_cases hm with ⟨-, rfl⟩ | hm
    · rw [hunopened] at hsome
      cases hsome
    · exact h.opened m e hm hsome

section Working

variable {n m : Nat} {e found : Entry} {r : Recorder} {d : Directory}

/-- Whoever is there while a recorder works was there before, under the same name. -/
theorem live?_of_works (hlive : s.live? n = some e) (hworks : Works s.directory e.recorder d r)
    (hfound : (s.put n { e with recorder := r } d).live? m = some found) :
    ∃ before, s.live? m = some before ∧
      before.recorder.physicalName = found.recorder.physicalName := by
  rcases live?_put_cases hlive hfound with ⟨rfl, rfl, -⟩ | ⟨-, hm⟩
  · exact ⟨e, hlive, hworks.continues.physicalName.symm⟩
  · exact ⟨found, hm, rfl⟩

/-- Whoever is there when a recorder has left was there before, and is another one. -/
theorem live?_of_leaves (hlive : s.live? n = some e)
    (hfound : (s.put n { e with isLive := false } d).live? m = some found) :
    m ≠ n ∧ s.live? m = some found := by
  rcases live?_put_cases hlive hfound with ⟨-, -, hleft⟩ | hm
  · cases hleft
  · exact hm

theorem Sound.works (h : s.Sound) (hlive : s.live? n = some e)
    (hworks : Works s.directory e.recorder d r) :
    (s.put n { e with recorder := r } d).Sound := by
  have hname := hworks.continues.physicalName
  refine ⟨hworks.faultless h.faultless, fun m found hm => ?_, fun name => ?_,
    fun m m' found found' hm hm' hsame => ?_, fun m found hm hsome => ?_⟩
  · rcases live?_put_cases hlive hm with ⟨rfl, rfl, -⟩ | ⟨-, hm⟩
    · exact hworks.confined
    · exact h.confined m found hm
  · change name ∈ d.reserved ↔ _
    rw [hworks.reserved, h.reserved]
    constructor
    · rintro ⟨m, e', hm, rfl⟩
      by_cases hmn : m = n
      · subst hmn
        rw [hlive] at hm
        cases hm
        refine ⟨m, { e with recorder := r }, ?_, hname⟩
        rw [live?_put hlive, if_pos rfl]
        exact Option.filter_eq_some_iff.mpr ⟨rfl, (live?_eq_some_iff.mp hlive).2⟩
      · exact ⟨m, e', by rw [live?_put hlive, if_neg hmn]; exact hm, rfl⟩
    · rintro ⟨m, found, hm, rfl⟩
      obtain ⟨before, hm, heq⟩ := live?_of_works hlive hworks hm
      exact ⟨m, before, hm, heq⟩
  · obtain ⟨e₁, h₁, heq₁⟩ := live?_of_works hlive hworks hm
    obtain ⟨e₂, h₂, heq₂⟩ := live?_of_works hlive hworks hm'
    exact h.distinct m m' e₁ e₂ h₁ h₂ (heq₁.trans (hsame.trans heq₂.symm))
  · rcases live?_put_cases hlive hm with ⟨rfl, rfl, -⟩ | ⟨-, hm⟩
    · change d.present r.physicalName = true
      rw [hname]
      exact hworks.continues.opened (h.opened m e hlive) hsome
    · exact hworks.continues.stays _ (h.opened m found hm hsome)

theorem Sound.leaves (h : s.Sound) (hlive : s.live? n = some e)
    (hworks : Works s.directory e.recorder d r) :
    (s.put n { e with isLive := false } (d.release e.recorder.physicalName)).Sound := by
  refine ⟨hworks.faultless h.faultless, fun m found hm => ?_, fun name => ?_,
    fun m m' found found' hm hm' => ?_, fun m found hm hsome => ?_⟩
  · exact h.confined m found (live?_of_leaves hlive hm).2
  · have hreserved : name ∈ (d.release e.recorder.physicalName).reserved ↔
        name ∈ s.directory.reserved ∧ name ≠ e.recorder.physicalName := by
      simp [Directory.release, hworks.reserved]
    change name ∈ (d.release e.recorder.physicalName).reserved ↔ _
    rw [hreserved, h.reserved]
    constructor
    · rintro ⟨⟨m, e', hm, rfl⟩, hne⟩
      have hmn : m ≠ n := by
        rintro rfl
        rw [hlive] at hm
        cases hm
        exact hne rfl
      exact ⟨m, e', by rw [live?_put hlive, if_neg hmn]; exact hm, rfl⟩
    · rintro ⟨m, found, hm, rfl⟩
      obtain ⟨hmn, hm⟩ := live?_of_leaves hlive hm
      exact ⟨⟨m, found, hm, rfl⟩, fun heq => hmn (h.distinct m n found e hm hlive heq)⟩
  · exact h.distinct m m' found found' (live?_of_leaves hlive hm).2 (live?_of_leaves hlive hm').2
  · exact hworks.continues.stays _ (h.opened m found (live?_of_leaves hlive hm).2 hsome)

end Working

theorem sound_move (h : s.Sound) (hmove : Move s q s') : s'.Sound := by
  cases hmove with
  | idle => exact h
  | joins hfree hsink hload => exact h.joins hfree hsink
  | works hq hlive hworks => exact h.works hlive hworks
  | leaves hq hlive hworks => exact h.leaves hlive hworks

/-! ## Entries stay -/

/-- An entry keeps its load and its names. -/
structure Entry.Keeps (e e' : Entry) : Prop where
  load : e'.load = e.load
  logicalName : e'.recorder.logicalName = e.recorder.logicalName
  physicalName : e'.recorder.physicalName = e.recorder.physicalName

theorem entries_move {n : Nat} {e : Entry} (hmove : Move s q s') (he : s.entries[n]? = some e) :
    ∃ e', s'.entries[n]? = some e' ∧ e.Keeps e' := by
  have hset {m : Nat} {before after : Entry} (hbefore : s.live? m = some before)
      (hkeeps : before.Keeps after) :
      ∃ e', (s.entries.set m after)[n]? = some e' ∧ e.Keeps e' := by
    by_cases hmn : m = n
    · subst hmn
      rw [(live?_eq_some_iff.mp hbefore).1] at he
      cases he
      have hlength := (List.getElem?_eq_some_iff.mp (live?_eq_some_iff.mp hbefore).1).1
      exact ⟨after, by rw [List.getElem?_set, if_pos rfl, if_pos hlength], hkeeps⟩
    · exact ⟨e, by rw [List.getElem?_set, if_neg hmn, he], rfl, rfl, rfl⟩
  cases hmove with
  | idle => exact ⟨e, he, rfl, rfl, rfl⟩
  | joins hfree hsink hload =>
    have hlength := (List.getElem?_eq_some_iff.mp he).1
    exact ⟨e, by rw [join, List.getElem?_append_left hlength, he], rfl, rfl, rfl⟩
  | works hq hlive hworks =>
    exact hset hlive ⟨rfl, hworks.continues.logicalName, hworks.continues.physicalName⟩
  | leaves hq hlive hworks => exact hset hlive ⟨rfl, rfl, rfl⟩

/-! ## Loads -/

/-- Every recorder works for a load on the roster, under its logical name. A load's own entry is its
coordinator's, whose file has that name. -/
structure Led (s : Roster) : Prop where
  le : ∀ (n : Nat) (e : Entry), s.entries[n]? = some e → e.load ≤ n
  own : ∀ (n : Nat) (e : Entry), s.entries[n]? = some e → e.load = n →
    e.recorder.physicalName = e.recorder.logicalName
  coordinator : ∀ (n : Nat) (e : Entry), s.entries[n]? = some e →
    ∃ c, s.entries[e.load]? = some c ∧ c.load = e.load ∧
      c.recorder.logicalName = e.recorder.logicalName

theorem led_start (place : Place) (files : Table String Content) : (start place files).Led :=
  ⟨nofun, nofun, nofun⟩

/-- An entry that is not new was there before, with the same load and names. -/
theorem entries_of_move {n : Nat} {e' : Entry} (hmove : Move s q s')
    (he' : s'.entries[n]? = some e') (hn : n < s.entries.length) :
    ∃ e, s.entries[n]? = some e ∧ e.Keeps e' := by
  obtain ⟨e, he⟩ : ∃ e, s.entries[n]? = some e := ⟨_, List.getElem?_eq_getElem hn⟩
  obtain ⟨found, hfound, hkeeps⟩ := entries_move hmove he
  rw [he'] at hfound
  cases hfound
  exact ⟨e, he, hkeeps⟩

/-- A new entry is the last one, that of a load or of a worker of a load that is there. -/
theorem entries_of_joining {n : Nat} {e : Entry} (hmove : Move s q s')
    (he : s'.entries[n]? = some e) (hn : s.entries.length ≤ n) :
    n = s.entries.length ∧
      ((e.load = n ∧ e.recorder.logicalName = e.recorder.physicalName) ∨
        ∃ (m : Nat) (parent : Entry), s.entries[m]? = some parent ∧ e.load = parent.load ∧
          e.recorder.logicalName = parent.recorder.logicalName) := by
  have hlength := (List.getElem?_eq_some_iff.mp he).1
  have hset {m : Nat} {e' : Entry} {d : Directory} : ¬ n < (s.put m e' d).entries.length := by
    simpa [put] using hn
  cases hmove with
  | idle => omega
  | joins hfree hsink hload =>
    simp only [join, List.length_append, List.length_singleton] at hlength
    obtain rfl : n = s.entries.length := by omega
    rw [join, List.getElem?_concat_length] at he
    cases he
    refine ⟨rfl, hload.imp id ?_⟩
    rintro ⟨m, parent, hparent, hsame, hname⟩
    exact ⟨m, parent, (live?_eq_some_iff.mp hparent).1, hsame, hname⟩
  | works hq hlive hworks => exact absurd hlength hset
  | leaves hq hlive hworks => exact absurd hlength hset

theorem led_move (h : s.Led) (hmove : Move s q s') : s'.Led := by
  refine ⟨fun n e' he' => ?_, fun n e' he' hown => ?_, fun n e' he' => ?_⟩ <;>
    rcases Nat.lt_or_ge n s.entries.length with hn | hn
  · obtain ⟨e, he, hkeeps⟩ := entries_of_move hmove he' hn
    exact hkeeps.load ▸ h.le n e he
  · obtain ⟨rfl, ⟨hown, -⟩ | ⟨m, parent, hparent, hload, -⟩⟩ := entries_of_joining hmove he' hn
    · exact Nat.le_of_eq hown
    · have := h.le m parent hparent
      have := (List.getElem?_eq_some_iff.mp hparent).1
      omega
  · obtain ⟨e, he, hkeeps⟩ := entries_of_move hmove he' hn
    rw [hkeeps.physicalName, hkeeps.logicalName]
    exact h.own n e he (hkeeps.load.symm.trans hown)
  · obtain ⟨rfl, ⟨-, hname⟩ | ⟨m, parent, hparent, hload, -⟩⟩ := entries_of_joining hmove he' hn
    · exact hname.symm
    · have := h.le m parent hparent
      have := (List.getElem?_eq_some_iff.mp hparent).1
      omega
  · obtain ⟨e, he, hkeeps⟩ := entries_of_move hmove he' hn
    obtain ⟨c, hc, hload, hname⟩ := h.coordinator n e he
    obtain ⟨c', hc', hkeeps'⟩ := entries_move hmove hc
    rw [hkeeps.load, hkeeps.logicalName]
    exact ⟨c', hc', hkeeps'.load.trans hload, hkeeps'.logicalName.trans hname⟩
  · obtain ⟨rfl, ⟨hown, -⟩ | ⟨m, parent, hparent, hload, hname⟩⟩ :=
      entries_of_joining hmove he' hn
    · exact ⟨e', by rw [hown]; exact he', rfl, rfl⟩
    · obtain ⟨c, hc, hcload, hcname⟩ := h.coordinator m parent hparent
      obtain ⟨c', hc', hkeeps⟩ := entries_move hmove hc
      rw [hload, hname]
      exact ⟨c', hc', hkeeps.load.trans hcload, hkeeps.logicalName.trans hcname⟩

/-! ## Files stay with their recorder -/

/-- The file is there, and nobody can write to it any more but its owner. -/
structure Belongs (s : Roster) (file : String) (owner : Option Nat) : Prop where
  present : s.directory.present file = true
  held : ∀ n e, s.live? n = some e → e.recorder.physicalName = file → owner = some n

theorem Belongs.move {file : String} {owner : Option Nat} (h : s.Belongs file owner)
    (hmove : Move s q s') : s'.Belongs file owner := by
  cases hmove with
  | idle => exact h
  | joins hfree hsink hload =>
    refine ⟨h.present, fun n e hn hname => ?_⟩
    rcases live?_join_cases hn with ⟨-, rfl⟩ | hn
    · -- the name of a file that is there is not free
      have habsent := hfree.2
      simp only at hname
      rw [hname, h.present] at habsent
      cases habsent
    · exact h.held n e hn hname
  | works hq hlive hworks =>
    refine ⟨hworks.continues.stays file h.present, fun m found hm hname => ?_⟩
    obtain ⟨before, hm, heq⟩ := live?_of_works hlive hworks hm
    exact h.held m before hm (heq.trans hname)
  | leaves hq hlive hworks =>
    refine ⟨hworks.continues.stays file h.present, fun m found hm hname => ?_⟩
    exact h.held m found (live?_of_leaves hlive hm).2 hname

/-- Only a recorder's own file is changed by a request, and belongs to it from then on. -/
theorem belongs_of_changed {file : String} (hs : s.Sound) (hmove : Move s q s')
    (hchanged : s'.directory.contents? file ≠ s.directory.contents? file) :
    ∃ n e, q.subject? = some n ∧ s.live? n = some e ∧ e.recorder.physicalName = file ∧
      s'.Belongs file (some n) := by
  have hown {n : Nat} {e : Entry} {r : Recorder} {d : Directory}
      (hworks : Works s.directory e.recorder d r)
      (hne : d.contents? file ≠ s.directory.contents? file) :
      e.recorder.physicalName = file ∧ d.present file = true := by
    have hname : e.recorder.physicalName = file := by
      by_contra hother
      exact hne (hworks.spares file (Ne.symm hother)).contents
    refine ⟨hname, ?_⟩
    cases hbefore : s.directory.present file with
    | true => exact hworks.continues.stays file hbefore
    | false =>
      rw [(Directory.contents?_eq_none_iff file).mpr hbefore] at hne
      by_contra habsent
      exact hne ((Directory.contents?_eq_none_iff file).mpr (Bool.eq_false_iff.mpr habsent))
  cases hmove with
  | idle => exact absurd rfl hchanged
  | joins hfree hsink hload => exact absurd rfl hchanged
  | @works n e r d hq hlive hworks =>
    obtain ⟨hname, hpresent⟩ := hown (n := n) hworks hchanged
    refine ⟨n, e, hq, hlive, hname, hpresent, fun m found hm hsame => ?_⟩
    obtain ⟨before, hm, heq⟩ := live?_of_works hlive hworks hm
    rw [hs.distinct n m e before hlive hm (by rw [heq, hsame, hname])]
  | @leaves n e r d hq hlive hworks =>
    obtain ⟨hname, hpresent⟩ := hown (n := n) hworks hchanged
    refine ⟨n, e, hq, hlive, hname, hpresent, fun m found hm hsame => ?_⟩
    obtain ⟨-, hm⟩ := live?_of_leaves hlive hm
    rw [hs.distinct n m e found hlive hm (by rw [hsame, hname])]

end Moves

/-! ## Runs -/

section Runs

variable {s : Roster} {file : String}

theorem sound_run (h : s.Sound) (requests : List Request) : (s.run requests).Sound := by
  induction requests generalizing s with
  | nil => exact h
  | cons q rest ih => exact ih (sound_move h (move_act h q))

theorem led_run (hs : s.Sound) (h : s.Led) (requests : List Request) : (s.run requests).Led := by
  induction requests generalizing s with
  | nil => exact h
  | cons q rest ih => exact ih (sound_move hs (move_act hs q)) (led_move h (move_act hs q))

theorem Belongs.run {owner : Option Nat} (hs : s.Sound) (h : s.Belongs file owner)
    (requests : List Request) : (s.run requests).Belongs file owner := by
  induction requests generalizing s with
  | nil => exact h
  | cons q rest ih => exact ih (sound_move hs (move_act hs q)) (h.move (move_act hs q))

theorem entries_run {n : Nat} {e : Entry} (hs : s.Sound) (he : s.entries[n]? = some e)
    (requests : List Request) : ∃ e', (s.run requests).entries[n]? = some e' ∧ e.Keeps e' := by
  induction requests generalizing s e with
  | nil => exact ⟨e, he, rfl, rfl, rfl⟩
  | cons q rest ih =>
    obtain ⟨e₁, he₁, hkeeps⟩ := entries_move (move_act hs q) he
    obtain ⟨e₂, he₂, hkeeps'⟩ := ih (sound_move hs (move_act hs q)) he₁
    exact ⟨e₂, he₂, hkeeps'.load.trans hkeeps.load,
      hkeeps'.logicalName.trans hkeeps.logicalName, hkeeps'.physicalName.trans hkeeps.physicalName⟩

/-- The bytes of a file that belongs to nobody do not change. -/
theorem contents?_run_of_belongs (hs : s.Sound) (h : s.Belongs file none)
    (requests : List Request) :
    (s.run requests).directory.contents? file = s.directory.contents? file := by
  induction requests generalizing s with
  | nil => rfl
  | cons q rest ih =>
    have hmove := move_act hs q
    rw [run_cons, ih (sound_move hs hmove) (h.move hmove)]
    by_contra hchanged
    obtain ⟨n, e, -, hlive, hname, -⟩ := belongs_of_changed hs hmove hchanged
    exact absurd (h.held n e hlive hname) (by simp)

end Runs

end Roster

end TxnEngine
