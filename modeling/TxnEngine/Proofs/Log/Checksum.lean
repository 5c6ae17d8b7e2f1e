import Mathlib.Data.Nat.Bitwise
import TxnEngine.Checksum

/-!
# A changed byte changes the checksum

The polynomial has its highest bit set. So the highest bit of the register tells whether the
polynomial was added, every shift can be undone, and the register after some bytes determines what
it was before.

Results:
* `shift_injective`, `step_injective`: different registers stay different.
* `crc32_set_eq_iff`: a byte string with one byte set anew has the same checksum only if the byte
  was there before.
-/

namespace TxnEngine.Checksum

theorem and_one_eq_one_iff (c : UInt32) : c &&& 1 = 1 ↔ c.toNat % 2 = 1 := by
  rw [← UInt32.toNat_inj, UInt32.toNat_and]
  exact iff_of_eq (congrArg (· = 1) (Nat.and_one_is_mod c.toNat))

theorem toNat_shiftRight_one (c : UInt32) : (c >>> 1).toNat = c.toNat / 2 := by
  rw [UInt32.toNat_shiftRight]
  exact Nat.shiftRight_one c.toNat

/-- The lowest bit goes to the top. -/
theorem testBit_shift (c : UInt32) : (shift c).toNat.testBit 31 = decide (c.toNat % 2 = 1) := by
  have hsmall : (c.toNat / 2).testBit 31 = false :=
    Nat.testBit_lt_two_pow (by have := c.toNat_lt; omega)
  have htop : polynomial.toNat.testBit 31 = true := by decide
  unfold shift
  by_cases hc : c &&& 1 = 1
  · rw [if_pos hc, UInt32.toNat_xor, Nat.testBit_xor, toNat_shiftRight_one, hsmall, htop,
      decide_eq_true ((and_one_eq_one_iff c).mp hc)]
    rfl
  · rw [if_neg hc, toNat_shiftRight_one, hsmall,
      decide_eq_false (mt (and_one_eq_one_iff c).mpr hc)]

theorem shift_injective {c d : UInt32} (h : shift c = shift d) : c = d := by
  have hlow : (c.toNat % 2 = 1) ↔ (d.toNat % 2 = 1) := by
    rw [← decide_eq_decide, ← testBit_shift, ← testBit_shift, h]
  -- the same was done to both, so it can be undone
  have hhigh : c >>> 1 = d >>> 1 := by
    unfold shift at h
    by_cases hc : c &&& 1 = 1
    · have hd : d &&& 1 = 1 := (and_one_eq_one_iff d).mpr (hlow.mp ((and_one_eq_one_iff c).mp hc))
      rw [if_pos hc, if_pos hd] at h
      exact (UInt32.xor_left_inj _).mp h
    · have hd : ¬d &&& 1 = 1 := fun hd =>
        hc ((and_one_eq_one_iff c).mpr (hlow.mpr ((and_one_eq_one_iff d).mp hd)))
      rwa [if_neg hc, if_neg hd] at h
  have hdiv : c.toNat / 2 = d.toNat / 2 := by
    rw [← toNat_shiftRight_one, ← toNat_shiftRight_one, hhigh]
  rw [← UInt32.toNat_inj]
  omega

/-- A byte taken in leaves different registers different. -/
theorem step_injective {c d : UInt32} {b x : UInt8} (h : step c b = step d x) :
    c ^^^ b.toUInt32 = d ^^^ x.toUInt32 := by
  simp only [step] at h
  iterate 8 replace h := shift_injective h
  exact h

theorem foldl_step_injective {c d : UInt32} {bytes : Bytes}
    (h : bytes.foldl step c = bytes.foldl step d) : c = d := by
  induction bytes generalizing c d with
  | nil => exact h
  | cons b bytes ih => exact (UInt32.xor_left_inj _).mp (step_injective (ih h))

/-- A byte string with one byte set anew has the same checksum only if the byte was there before. -/
theorem crc32_set_eq_iff {bytes : Bytes} {i : Nat} (hi : i < bytes.length) {b : UInt8} :
    crc32 (bytes.set i b) = crc32 bytes ↔ bytes[i] = b := by
  constructor
  · intro h
    have hsplit : bytes = bytes.take i ++ bytes[i] :: bytes.drop (i + 1) := by simp
    have hfold : (bytes.set i b).foldl step 0xFFFFFFFF = bytes.foldl step 0xFFFFFFFF :=
      (UInt32.xor_left_inj _).mp h
    rw [List.set_eq_take_append_cons_drop, if_pos hi, List.foldl_append, List.foldl_cons] at hfold
    conv at hfold => rhs; rw [hsplit, List.foldl_append, List.foldl_cons]
    -- both registers took in the same bytes before and behind
    have hbyte : b.toUInt32 = bytes[i].toUInt32 :=
      (UInt32.xor_right_inj _).mp (step_injective (foldl_step_injective hfold))
    exact (UInt8.toUInt32_inj.mp hbyte).symm
  · rintro rfl
    rw [List.set_getElem_self]

end TxnEngine.Checksum
