/-!
# Shortest decimal text of a floating-point number

A finite binary64 number is `m * 2 ^ q` for a natural `m`. The real numbers that round to it form an
interval around it, whose ends belong to it exactly when `m` is even. The decimal written for the
number has the fewest digits that lie in the interval, and of two such decimals the nearer, or the
larger if both are equally near.

The search goes through the grids of one digit, two digits, and so on: if any point of a grid lies
in the interval, one of the number's two neighbours on that grid does.
-/

namespace TxnEngine.Decimal

/-- A finite positive binary64 number: `mantissa * 2 ^ exponent`. The number below it is half a step
nearer when `narrowBelow` holds. -/
structure Binary where
  mantissa : Nat
  exponent : Int
  narrowBelow : Bool

/-- The magnitude of a finite number from its bits. -/
def Binary.ofBits (bits : UInt64) : Binary :=
  let field := (bits >>> 52).toNat % 2048
  let fraction := bits.toNat % (1 <<< 52)
  if field = 0 then ⟨fraction, -1074, false⟩
  else ⟨fraction + (1 <<< 52), field - 1075, fraction = 0 ∧ 1 < field⟩

/-- A number and the ends of its interval over a common denominator. -/
structure Interval where
  low : Nat
  value : Nat
  high : Nat
  denominator : Nat
  closed : Bool

/-- The interval of the real numbers that round to `b`. -/
def Binary.interval (b : Binary) : Interval :=
  let up := b.exponent.toNat
  let down := (-b.exponent).toNat
  let scale := 1 <<< up
  { low := (4 * b.mantissa - if b.narrowBelow then 1 else 2) * scale
    value := 4 * b.mantissa * scale
    high := (4 * b.mantissa + 2) * scale
    denominator := 4 <<< down
    closed := b.mantissa % 2 = 0 }

/-- A decimal number `digits * 10 ^ exponent`. -/
structure Scaled where
  digits : Nat
  exponent : Int

namespace Interval

/-- The interval multiplied by `10 ^ (-e)`, so that the grid of step `10 ^ e` becomes the integers. -/
def onGrid (i : Interval) (e : Int) : Interval :=
  let times := Nat.pow 10 (-e).toNat
  { i with
    low := i.low * times
    value := i.value * times
    high := i.high * times
    denominator := i.denominator * Nat.pow 10 e.toNat }

/-- Whether the integer `c` lies in the interval. -/
def holds (i : Interval) (c : Nat) : Bool :=
  let x := c * i.denominator
  if i.closed then decide (i.low ≤ x) && decide (x ≤ i.high)
  else decide (i.low < x) && decide (x < i.high)

/-- The nearest integer neighbour of the value that lies in the interval, if one does; of two that are
equally near the larger. -/
def nearest? (i : Interval) : Option Nat :=
  let c := i.value / i.denominator
  match i.holds c, i.holds (c + 1) with
  | false, false => none
  | true, false => some c
  | false, true => some (c + 1)
  | true, true =>
    let twice := 2 * (i.value - c * i.denominator)
    if twice < i.denominator then some c else some (c + 1)

/-- The number of digits of the value's integer part. -/
def integerDigits (i : Interval) : Nat :=
  (Nat.toDigits 10 (i.value / i.denominator)).length

/-- How many places behind the point the value's first digit stands, among at most `fuel` places. -/
def leadingPlace (i : Interval) : (fuel place : Nat) → Nat
  | 0, place => place
  | fuel + 1, place =>
    if i.denominator ≤ i.value * Nat.pow 10 place then place else leadingPlace i fuel (place + 1)

/-- The exponent `k` with `10 ^ (k - 1) ≤ value < 10 ^ k`, for a positive value. -/
def magnitude (i : Interval) : Int :=
  if i.denominator ≤ i.value then i.integerDigits else 1 - (i.leadingPlace 400 1 : Nat)

/-- The first grid with a hit, from `digits` digits on. A hit at the upper end of the decade is
written with a single digit. -/
def search (i : Interval) (k : Int) : (fuel digits : Nat) → Scaled
  | 0, digits =>
    let e := k - digits
    let g := i.onGrid e
    ⟨g.value / g.denominator, e⟩
  | fuel + 1, digits =>
    let e := k - digits
    match (i.onGrid e).nearest? with
    | some c => if c = Nat.pow 10 digits then ⟨1, k⟩ else ⟨c, e⟩
    | none => search i k fuel (digits + 1)

end Interval

/-- The shortest decimal that reads back as the number. -/
def Binary.shortest (b : Binary) : Scaled :=
  if b.mantissa = 0 then ⟨0, 0⟩
  else b.interval.search b.interval.magnitude 17 1

/-- The positional text of a decimal number: no exponent, and no point in an integer. -/
def Scaled.positional (d : Scaled) : List Char :=
  let digits := Nat.toDigits 10 d.digits
  if 0 ≤ d.exponent then
    if d.digits = 0 then ['0'] else digits ++ List.replicate d.exponent.toNat '0'
  else
    let places := (-d.exponent).toNat
    let padded := List.replicate (places + 1 - digits.length) '0' ++ digits
    padded.take (padded.length - places) ++ '.' :: padded.drop (padded.length - places)

/-- The text of a floating-point number: `NaN`, `inf` and `-inf`, or a positional decimal with the
fewest digits that read back. -/
def text (x : Float) : String :=
  let bits := x.toBits
  let sign := if bits >>> 63 = 1 then "-" else ""
  if x.isNaN then "NaN"
  else if x.isInf then sign ++ "inf"
  else sign ++ String.ofList (Binary.ofBits bits).shortest.positional

end TxnEngine.Decimal
