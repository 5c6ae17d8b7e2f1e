import TxnEngine.Decimal.Shortest

/-!
# Durations

A duration is a whole number of nanoseconds, at most `2 ^ 64` seconds. This module holds its parts,
its conversions to milliseconds and to floating-point seconds, and the text it is shown by in
messages.
-/

namespace TxnEngine

/-- A span of time in nanoseconds (`Duration`). -/
structure Duration where
  nanos : Nat
deriving DecidableEq, Inhabited

namespace Duration

/-- The nanoseconds of a second. -/
def nanosPerSecond : Nat := 1000000000

/-- Durations reach up to, and not including, this number of seconds. -/
def secondsLimit : Nat := UInt64.size

def ofMillis (ms : Nat) : Duration :=
  ⟨ms * 1000000⟩

def ofSeconds (secs : Nat) : Duration :=
  ⟨secs * nanosPerSecond⟩

/-- Seconds and further nanoseconds, if the whole seconds stay within range. -/
def ofParts? (secs nanos : Nat) : Option Duration :=
  let total := secs * nanosPerSecond + nanos
  if total / nanosPerSecond < secondsLimit then some ⟨total⟩ else none

def zero : Duration := ⟨0⟩

/-- The whole seconds. -/
def seconds (d : Duration) : Nat :=
  d.nanos / nanosPerSecond

/-- The nanoseconds beyond the whole seconds. -/
def subsecond (d : Duration) : Nat :=
  d.nanos % nanosPerSecond

/-- The whole milliseconds, at most the largest 64-bit number (`duration_millis`). -/
def millis (d : Duration) : UInt64 :=
  let ms := d.nanos / 1000000
  if ms < UInt64.size then UInt64.ofNat ms else UInt64.ofNat (UInt64.size - 1)

instance : LE Duration := ⟨fun a b => a.nanos ≤ b.nanos⟩

instance : LT Duration := ⟨fun a b => a.nanos < b.nanos⟩

instance (a b : Duration) : Decidable (a ≤ b) :=
  inferInstanceAs (Decidable (a.nanos ≤ b.nanos))

instance (a b : Duration) : Decidable (a < b) :=
  inferInstanceAs (Decidable (a.nanos < b.nanos))

/-! ## Text -/

/-- The digits of `n` among `width` places, with the zeros at the end left out. -/
def fraction (width n : Nat) : List Char :=
  let digits := Nat.toDigits 10 n
  let padded := List.replicate (width - digits.length) '0' ++ digits
  (padded.reverse.dropWhile (· = '0')).reverse

/-- A whole number and a fraction of `width` places, without a point if the fraction is zero. -/
def decimal (whole width n : Nat) : String :=
  if n = 0 then toString whole
  else toString whole ++ "." ++ String.ofList (fraction width n)

/-- The duration in the largest of the units s, ms, µs and ns that leaves a whole part. -/
def text (d : Duration) : String :=
  if 0 < d.seconds then decimal d.seconds 9 d.subsecond ++ "s"
  else if 1000000 ≤ d.nanos then decimal (d.nanos / 1000000) 6 (d.nanos % 1000000) ++ "ms"
  else if 1000 ≤ d.nanos then decimal (d.nanos / 1000) 3 (d.nanos % 1000) ++ "µs"
  else toString d.nanos ++ "ns"

/-! ## Floating-point seconds -/

/-- The duration in floating-point seconds (`Duration::as_secs_f64`): the whole seconds and the rest
are each rounded before they are added. -/
def toFloat (d : Duration) : Float :=
  Float.ofNat d.seconds + Float.ofNat d.subsecond / Float.ofNat nanosPerSecond

/-- The quotient rounded to the nearest integer, a half to the even one. -/
def roundQuotient (numerator denominator : Nat) : Nat :=
  let q := numerator / denominator
  let twice := 2 * (numerator % denominator)
  if twice < denominator then q
  else if denominator < twice then q + 1
  else if q % 2 = 0 then q else q + 1

/-- The duration nearest to a number of seconds (`Duration::from_secs_f64`). There is none for a
negative number, for a number beyond the limit of seconds, or for what is not a number. -/
def ofFloat? (secs : Float) : Option Duration :=
  if secs.isNaN ∨ secs.isInf ∨ secs < 0 then none
  else
    let b := Decimal.Binary.ofBits secs.toBits
    let nanos := roundQuotient ((b.mantissa <<< b.exponent.toNat) * nanosPerSecond)
      (1 <<< (-b.exponent).toNat)
    if nanos / nanosPerSecond < secondsLimit then some ⟨nanos⟩ else none

end Duration

end TxnEngine
