import Mathlib.Data.Set.Card
import Mathlib.Order.Interval.Set.Nat
import TxnEngine.Proofs.BadRecords.Names
import TxnEngine.Proofs.BadRecords.Sink

/-!
# The first free name

A load is given the first of its candidate names that is neither the name of a file nor reserved.
Whatever its source is called, all candidates are names, and no two of them are the same.

Results:
* `Recorder.isName_logicalCandidate`: every candidate of a load is a name.
* `Recorder.logicalCandidate_injective`: the candidates of a load differ.
* `Recorder.run_new_of_free`, `Recorder.run_new_of_taken`: what a load is given.
* `Recorder.exists_firstFree`: as long as not all candidates are taken, one of them is the first
  that is free.
-/

namespace TxnEngine

theorem Table.mem_map_fst_of_has {κ ν : Type} [DecidableEq κ] {t : Table κ ν} {key : κ}
    (h : t.has key = true) : key ∈ t.map Prod.fst := by
  induction t with
  | nil => cases h
  | cons p rest ih =>
    obtain ⟨k, v⟩ := p
    rw [List.map_cons, List.mem_cons]
    by_cases hkey : k = key
    · exact .inl hkey.symm
    · rw [has, find?, if_neg hkey] at h
      exact .inr (ih h)

namespace Directory

/-- Whether a name can be reserved: there is no file of that name, and nobody has reserved it. -/
def Free (d : Directory) (name : String) : Prop :=
  name ∉ d.reserved ∧ d.present name = false

instance (d : Directory) : DecidablePred d.Free :=
  fun _ => inferInstanceAs (Decidable (_ ∧ _))

variable {d : Directory} {name : String}

theorem reserveName_of_free (hname : isName name = true) (hfree : d.Free name) :
    d.reserveName name = (.ok true, { d with reserved := name :: d.reserved }) := by
  simp [reserveName, checkName, hname, hfree.1, hfree.2]

theorem reserveName_of_taken (hname : isName name = true) (htaken : ¬ d.Free name) :
    d.reserveName name = (.ok false, d) := by
  have htaken' : (decide (name ∈ d.reserved) || d.present name) = true := by
    rw [Free, not_and_or, not_not, Bool.not_eq_false] at htaken
    simpa using htaken
  simp only [reserveName, checkName, hname, if_true, htaken']

end Directory

namespace Recorder

open Program

/-! ## The candidates -/

/-- A character that separates the components of a path. -/
def IsSeparator (c : Char) : Prop :=
  c = '/' ∨ c = '\\'

theorem not_isSeparator_of_all {chars : List Char}
    (h : (chars.all fun c => c ≠ '/' && c ≠ '\\') = true) {c : Char} (hc : c ∈ chars) :
    ¬ IsSeparator c := by
  simpa [IsSeparator] using List.all_eq_true.mp h c hc

theorem not_isSeparator_of_mem_lastComponent {path : List Char} {c : Char}
    (hc : c ∈ lastComponent path) : ¬ IsSeparator c := by
  have htaken := List.mem_takeWhile_imp (List.mem_reverse.mp hc)
  simpa [IsSeparator] using htaken

theorem mem_of_mem_stemOf {name : List Char} {c : Char} (hc : c ∈ stemOf name) :
    c ∈ name ∨ c ∈ "input".toList := by
  unfold stemOf at hc
  split at hc
  · next first rest hfront =>
    have hmem : c ∈ name.reverse.dropWhile (· ≠ '.') := by
      rw [hfront]
      exact List.mem_cons_of_mem _ (List.mem_reverse.mp hc)
    exact .inl (List.mem_reverse.mp ((List.dropWhile_suffix _).subset hmem))
  · split_ifs at hc
    · exact .inr hc
    · exact .inl hc

/-- Whatever a source is called, its stem is a single component. -/
theorem not_isSeparator_of_mem_sourceStem {source : String} {c : Char}
    (hc : c ∈ (sourceStem source).toList) : ¬ IsSeparator c := by
  rw [sourceStem, String.toList_ofList] at hc
  rcases mem_of_mem_stemOf hc with hc | hc
  · exact not_isSeparator_of_mem_lastComponent hc
  · exact not_isSeparator_of_all (by decide) hc

/-- What has no separator in it and is longer than two characters is a name. -/
theorem isName_of_length {name : String} (hlong : 2 < name.length)
    (hplain : ∀ c ∈ name.toList, ¬ IsSeparator c) : Directory.isName name = true := by
  have hne (short : String) (hshort : short.length ≤ 2) : name ≠ short := by
    rintro rfl
    omega
  have hslash : '/' ∉ name.toList := fun hc => hplain _ hc (.inl rfl)
  have hbackslash : '\\' ∉ name.toList := fun hc => hplain _ hc (.inr rfl)
  simp [Directory.isName, hne "" (by decide), hne "." (by decide), hne ".." (by decide), hslash,
    hbackslash]

theorem isName_logicalCandidate (source : String) (n : Nat) :
    Directory.isName (logicalCandidate (sourceStem source) n) = true := by
  have hextension {c : Char} : c ∈ ".bad".toList → ¬ IsSeparator c :=
    not_isSeparator_of_all (by decide)
  have hscore {c : Char} : c ∈ "_".toList → ¬ IsSeparator c :=
    not_isSeparator_of_all (by decide)
  have hnumber {c : Char} (hc : c ∈ (toString n).toList) : ¬ IsSeparator c := by
    obtain ⟨-, hslash, hbackslash, -⟩ := isPlain_of_mem_toString hc
    exact not_or.mpr ⟨hslash, hbackslash⟩
  refine isName_of_length ?_ fun c hc => ?_
  · have hlength : 4 ≤ (logicalCandidate (sourceStem source) n).length := by
      unfold logicalCandidate
      split <;> rw [String.length_append] <;> exact Nat.le_add_left 4 _
    omega
  · unfold logicalCandidate at hc
    split at hc
    · rw [String.toList_append, List.mem_append] at hc
      exact hc.elim not_isSeparator_of_mem_sourceStem hextension
    · simp only [String.toList_append, List.mem_append] at hc
      rcases hc with ((hc | hc) | hc) | hc
      · exact not_isSeparator_of_mem_sourceStem hc
      · exact hscore hc
      · exact hnumber hc
      · exact hextension hc

theorem toString_injective : Function.Injective (toString : Nat → String) := by
  intro m n hmn
  have hdigits : Nat.toDigits 10 m = Nat.toDigits 10 n := by
    have hchars := congrArg String.toList hmn
    rwa [Nat.toString_eq_repr, Nat.toString_eq_repr, Nat.toList_repr, Nat.toList_repr] at hchars
  calc
    m = Nat.ofDigitChars 10 (Nat.toDigits 10 m) 0 := Nat.ofDigitChars_ten_toDigits.symm
    _ = Nat.ofDigitChars 10 (Nat.toDigits 10 n) 0 := by rw [hdigits]
    _ = n := Nat.ofDigitChars_ten_toDigits

theorem logicalCandidate_injective (stem : String) :
    Function.Injective (logicalCandidate stem) := by
  have hnumbered (m : Nat) (hm : 0 < m) :
      logicalCandidate stem m = stem ++ "_" ++ toString m ++ ".bad" := by
    cases m with
    | zero => omega
    | succ m => rfl
  have hzero {m : Nat} (hm : 0 < m) : logicalCandidate stem 0 ≠ logicalCandidate stem m := by
    intro heq
    rw [hnumbered m hm, logicalCandidate] at heq
    have hlength := congrArg String.length heq
    have hscore : "_".length = 1 := by decide
    simp only [String.length_append, hscore] at hlength
    omega
  intro m n hmn
  rcases Nat.eq_zero_or_pos m with rfl | hm <;> rcases Nat.eq_zero_or_pos n with rfl | hn
  · rfl
  · exact absurd hmn (hzero hn)
  · exact absurd hmn.symm (hzero hm)
  · rw [hnumbered m hm, hnumbered n hn] at hmn
    exact toString_injective (by simpa using hmn)

/-! ## The first of them that is free -/

/-- The `n`-th candidate is free, and those in front of it are not. -/
structure IsFirstFree (candidate : Nat → String) (d : Directory) (n : Nat) : Prop where
  free : d.Free (candidate n)
  taken : ∀ m < n, ¬ d.Free (candidate m)

variable {candidate : Nat → String} {d : Directory} {fuel n : Nat}

/-- The first free candidate is reserved, if it is among those that are tried. -/
theorem run_reserveFrom_of_free (hnames : ∀ m, Directory.isName (candidate m) = true)
    (hfaults : d.faults = .none) {start : Nat} (hstart : start ≤ n) (hn : n < start + fuel)
    (h : IsFirstFree candidate d n) :
    (reserveFrom candidate fuel start).run d =
      (.ok (candidate n), { d with reserved := candidate n :: d.reserved }) := by
  induction fuel generalizing start with
  | zero => omega
  | succ fuel ih =>
    rw [reserveFrom, run_bind, run_atomically, Directory.reserve_of_faultless hfaults]
    rcases Nat.eq_or_lt_of_le hstart with rfl | hlt
    · rw [Directory.reserveName_of_free (hnames start) h.free]
      rfl
    · rw [Directory.reserveName_of_taken (hnames start) (h.taken start hlt)]
      exact ih hlt (by omega)

theorem run_reserveFrom_of_taken (hnames : ∀ m, Directory.isName (candidate m) = true)
    (hfaults : d.faults = .none) {start : Nat}
    (htaken : ∀ m, m < start + fuel → ¬ d.Free (candidate m)) :
    (reserveFrom candidate fuel start).run d = (.error (.invalidOperation .noFreeName), d) := by
  induction fuel generalizing start with
  | zero => rfl
  | succ fuel ih =>
    rw [reserveFrom, run_bind, run_atomically, Directory.reserve_of_faultless hfaults,
      Directory.reserveName_of_taken (hnames start) (htaken start (by omega))]
    exact ih fun m hm => htaken m (by omega)

/-- A load is given the first of its candidates that is free. -/
theorem run_new_of_free {source : String} (hfaults : d.faults = .none)
    (h : IsFirstFree (logicalCandidate (sourceStem source)) d n) (hn : n < candidateLimit)
    (tolerance : Int) :
    let name := logicalCandidate (sourceStem source) n
    (Recorder.new source tolerance).run d =
      (.ok ⟨name, name, tolerance, 0, none, false⟩,
        { d with reserved := name :: d.reserved }) := by
  intro name
  unfold Recorder.new
  rw [run_bind, run_reserveFrom_of_free (isName_logicalCandidate source) hfaults (Nat.zero_le n)
    (by omega) h]
  rfl

/-- A load is given no name if all its candidates are taken. -/
theorem run_new_of_taken {source : String} (hfaults : d.faults = .none)
    (htaken : ∀ m < candidateLimit, ¬ d.Free (logicalCandidate (sourceStem source) m))
    (tolerance : Int) :
    (Recorder.new source tolerance).run d = (.error (.invalidOperation .noFreeName), d) := by
  unfold Recorder.new
  rw [run_bind, run_reserveFrom_of_taken (isName_logicalCandidate source) hfaults
    fun m hm => htaken m (by omega)]
  rfl

/-- Only so many names are taken. -/
theorem finite_taken (d : Directory) : {name | ¬ d.Free name}.Finite := by
  refine (List.finite_toSet (d.reserved ++ d.files.map Prod.fst)).subset fun name htaken => ?_
  change ¬ d.Free name at htaken
  rw [Directory.Free, not_and_or, not_not, Bool.not_eq_false] at htaken
  exact List.mem_append.mpr (htaken.imp_right fun hfile => Table.mem_map_fst_of_has hfile)

/-- Of the candidates that are tried there is a first one that is free if any of them is. -/
theorem exists_firstFree_of_free {m : Nat} (hm : m < fuel) (hfree : d.Free (candidate m)) :
    ∃ n < fuel, IsFirstFree candidate d n := by
  have hexists : ∃ n, d.Free (candidate n) := ⟨m, hfree⟩
  exact ⟨Nat.find hexists, Nat.lt_of_le_of_lt (Nat.find_min' hexists hfree) hm,
    Nat.find_spec hexists, fun k hk => Nat.find_min hexists hk⟩

/-- One of the candidates that are tried is free if fewer candidates are taken than are tried. -/
theorem exists_firstFree (hinjective : Function.Injective candidate)
    (hfew : {name | name ∈ Set.range candidate ∧ ¬ d.Free name}.ncard < fuel) :
    ∃ n < fuel, IsFirstFree candidate d n := by
  by_contra hnone
  have hall : candidate '' Set.Iio fuel ⊆
      {name | name ∈ Set.range candidate ∧ ¬ d.Free name} := by
    rintro _ ⟨m, hm, rfl⟩
    exact ⟨⟨m, rfl⟩, fun hfree => hnone (exists_firstFree_of_free hm hfree)⟩
  have hcard := Set.ncard_le_ncard hall ((finite_taken d).subset fun _ h => h.2)
  rw [Set.ncard_image_of_injective _ hinjective, Set.ncard_Iio_nat] at hcard
  omega

end Recorder

end TxnEngine
