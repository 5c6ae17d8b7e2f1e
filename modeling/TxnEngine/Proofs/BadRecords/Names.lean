import Mathlib.Data.List.TakeWhile
import Mathlib.Data.Nat.Digits.Defs
import Mathlib.Data.String.Basic
import TxnEngine.BadRecords

/-!
# Names of bad-record files

A folder takes a file name if it is not too long and has no NUL in it. The candidates for a load
whose source is a short plain name are all of this kind.

Results:
* `Place.refusal?_of_short`: a short name without NUL is taken everywhere.
* `Recorder.sourceStem_of_plain`: a plain name is its own stem.
* `Recorder.accepted_logicalCandidate`: so are the candidates for a short plain source.
-/

namespace TxnEngine

/-- A name without NUL is taken everywhere if it is short enough for the longest encoding of its
characters. -/
theorem Place.refusal?_of_short (p : Place) {name : String} (hnul : '\x00' ∉ name.toList)
    (hshort : 4 * name.length ≤ longestFileName) : p.refusal? name = none := by
  have hbytes (cs : List Char) : String.utf8Len cs ≤ 4 * cs.length := by
    induction cs with
    | nil => exact Nat.zero_le _
    | cons c rest ih =>
      have := c.utf8Size_le_four
      simp only [String.utf8Len_cons, List.length_cons]
      omega
  cases p with
  | memory label => rfl
  | folder path =>
    have hsize : name.utf8ByteSize ≤ 4 * name.length := by
      have := hbytes name.toList
      rwa [← String.utf8ByteSize_ofList, String.ofList_toList, String.length_toList] at this
    have hcontains : name.contains '\x00' = false := by
      simpa [String.contains_char_eq] using hnul
    simp only [refusal?, hcontains, Bool.false_eq_true, if_false]
    rw [if_neg (by omega)]

namespace Recorder

/-- A character that a file name can have anywhere, and that has no meaning in a path. -/
def IsPlain (c : Char) : Prop :=
  c ≠ '.' ∧ c ≠ '/' ∧ c ≠ '\\' ∧ c ≠ '\x00'

instance : DecidablePred IsPlain :=
  fun c => inferInstanceAs (Decidable (c ≠ '.' ∧ c ≠ '/' ∧ c ≠ '\\' ∧ c ≠ '\x00'))

theorem isPlain_of_mem_toString {n : Nat} {c : Char} (hc : c ∈ (toString n).toList) :
    IsPlain c := by
  rw [Nat.toString_eq_repr, Nat.toList_repr] at hc
  have hdigit := Nat.isDigit_of_mem_toDigits (by decide) (by decide) hc
  refine ⟨?_, ?_, ?_, ?_⟩ <;> rintro rfl <;> revert hdigit <;> decide

/-- A plain name is its own stem. -/
theorem sourceStem_of_plain {source : String} (hne : source ≠ "")
    (hplain : ∀ c ∈ source.toList, IsPlain c) : sourceStem source = source := by
  have hlast : lastComponent source.toList = source.toList := by
    rw [lastComponent, List.takeWhile_eq_self_iff.mpr, List.reverse_reverse]
    intro c hc
    obtain ⟨-, hslash, hbackslash, -⟩ := hplain c (List.mem_reverse.mp hc)
    simp [hslash, hbackslash]
  have hdrop : source.toList.reverse.dropWhile (· ≠ '.') = [] := by
    rw [List.dropWhile_eq_nil_iff]
    intro c hc
    simp [(hplain c (List.mem_reverse.mp hc)).1]
  have hsome : source.toList ≠ [] := by simpa using hne
  rw [sourceStem, hlast, stemOf, hdrop]
  simp only [hsome, if_false, String.ofList_toList]

theorem length_toString_le {n e : Nat} (he : 0 < e) (hn : n < 10 ^ e) :
    (toString n).length ≤ e := by
  rw [Nat.toString_eq_repr]
  exact Nat.repr_length n e he hn

/-- The candidates for a short plain source are taken everywhere. -/
theorem accepted_logicalCandidate (p : Place) {source : String} (hne : source ≠ "")
    (hplain : ∀ c ∈ source.toList, IsPlain c) (hshort : source.length ≤ 40) {m : Nat}
    (hm : m < candidateLimit) :
    p.refusal? (logicalCandidate (sourceStem source) m) = none := by
  have hdigits : (toString m).length ≤ 10 :=
    length_toString_le (by decide) (Nat.lt_trans hm (by decide))
  have hnul : '\x00' ∉ source.toList := fun hc => (hplain _ hc).2.2.2 rfl
  have hnul' : '\x00' ∉ (toString m).toList := fun hc => (isPlain_of_mem_toString hc).2.2.2 rfl
  rw [sourceStem_of_plain hne hplain]
  unfold logicalCandidate
  split
  · refine p.refusal?_of_short (by simp [hnul]) ?_
    have hlength : (source ++ ".bad").length = source.length + 4 := String.length_append _ _
    unfold longestFileName
    omega
  · have hplain' : '\x00' ∉ (source ++ "_" ++ toString m ++ ".bad").toList := by
      simp only [String.toList_append, List.mem_append, not_or]
      exact ⟨⟨⟨hnul, by decide⟩, hnul'⟩, by decide⟩
    refine p.refusal?_of_short hplain' ?_
    have hlength : (source ++ "_" ++ toString m ++ ".bad").length =
        source.length + 1 + (toString m).length + 4 := by
      simp only [String.length_append]
      rfl
    unfold longestFileName
    omega

/-- A name that has a number in it. -/
theorem isPlain_of_mem_numbered {front : String} (hfront : ∀ c ∈ front.toList, IsPlain c)
    {n : Nat} : ∀ c ∈ (front ++ toString n).toList, IsPlain c := by
  intro c hc
  rw [String.toList_append, List.mem_append] at hc
  exact hc.elim (hfront c) isPlain_of_mem_toString

end Recorder

end TxnEngine
