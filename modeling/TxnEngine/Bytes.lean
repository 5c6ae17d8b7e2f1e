/-!
# Byte strings

Byte strings are lists of bytes. This module holds the little-endian form of numbers, in which the
least significant byte comes first.

Main statements: `ofLittleEndian_littleEndian`, a number that fits is read back from its bytes, and
`littleEndian_ofLittleEndian`, bytes are written back from their number.
-/

namespace TxnEngine

/-- A byte string. -/
abbrev Bytes := List UInt8

/-- The UTF-8 form of a text. -/
def Bytes.ofText (text : String) : Bytes :=
  text.toUTF8.toList

/-- The `width` low bytes of `n`, the least significant first. -/
def littleEndian : (width n : Nat) → Bytes
  | 0, _ => []
  | width + 1, n => UInt8.ofNat (n % 256) :: littleEndian width (n / 256)

/-- The number whose bytes are given, the least significant first. -/
def ofLittleEndian : Bytes → Nat
  | [] => 0
  | b :: rest => b.toNat + 256 * ofLittleEndian rest

@[simp]
theorem length_littleEndian (width n : Nat) : (littleEndian width n).length = width := by
  induction width generalizing n with
  | zero => rfl
  | succ width ih => simp [littleEndian, ih]

/-- A number below `256 ^ width` is read back from its `width` bytes. -/
theorem ofLittleEndian_littleEndian (width n : Nat) (h : n < Nat.pow 256 width) :
    ofLittleEndian (littleEndian width n) = n := by
  induction width generalizing n with
  | zero =>
    have : n = 0 := by simpa using h
    simp [littleEndian, ofLittleEndian, this]
  | succ width ih =>
    have hd : n / 256 < Nat.pow 256 width := by
      rw [Nat.div_lt_iff_lt_mul (by decide)]
      exact h
    simp only [littleEndian, ofLittleEndian, ih _ hd]
    have : (UInt8.ofNat (n % 256)).toNat = n % 256 := by
      simp
    rw [this]
    omega

theorem ofLittleEndian_lt {width : Nat} {bytes : Bytes} (h : bytes.length = width) :
    ofLittleEndian bytes < Nat.pow 256 width := by
  induction bytes generalizing width with
  | nil =>
    subst h
    simp [ofLittleEndian]
  | cons b rest ih =>
    subst h
    have hb := b.toNat_lt
    have hrest : ofLittleEndian rest < Nat.pow 256 rest.length := ih rfl
    show b.toNat + 256 * ofLittleEndian rest < Nat.pow 256 rest.length * 256
    omega

/-- Bytes are written back from the number they stand for. -/
theorem littleEndian_ofLittleEndian {width : Nat} {bytes : Bytes} (h : bytes.length = width) :
    littleEndian width (ofLittleEndian bytes) = bytes := by
  induction bytes generalizing width with
  | nil =>
    subst h
    rfl
  | cons b rest ih =>
    subst h
    have hb := b.toNat_lt
    have hmod : (b.toNat + 256 * ofLittleEndian rest) % 256 = b.toNat := by omega
    have hdiv : (b.toNat + 256 * ofLittleEndian rest) / 256 = ofLittleEndian rest := by omega
    simp only [ofLittleEndian, List.length_cons, littleEndian, hmod, hdiv, ih rfl,
      UInt8.ofNat_toNat]

end TxnEngine
