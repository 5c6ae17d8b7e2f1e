/-!
# JSON values

JSON values that keep apart what the engine's forms keep apart: an integer literal is not a number
with a fraction or an exponent, and an object keeps its members in order, also if a key is repeated.
-/

namespace TxnEngine

/-- A JSON value. -/
inductive Json where
  | null
  | bool (value : Bool)
  /-- An integer literal. Minus zero is not one. -/
  | int (value : Int)
  /-- Any other number: `digits * 10 ^ exponent`, with a sign. -/
  | decimal (isNegative : Bool) (digits : Nat) (exponent : Int)
  | string (value : String)
  /-- A string whose escapes do not denote a text, or an object with such a key. -/
  | broken
  | array (items : List Json)
  | object (members : List (String × Json))
deriving Inhabited

namespace Json

/-- The members of an object under a key, in order. -/
def members (key : String) : List (String × Json) → List Json
  | [] => []
  | (k, v) :: rest => if k = key then v :: members key rest else members key rest

/-- The value of an object's member, `null` if there is none. Of repeated members the last counts. -/
def get (j : Json) (key : String) : Json :=
  match j with
  | object ms => ((members key ms).getLast?).getD null
  | _ => null

def bool? : Json → Option Bool
  | bool b => some b
  | _ => none

def string? : Json → Option String
  | string s => some s
  | _ => none

def array? : Json → Option (List Json)
  | array items => some items
  | _ => none

def int? : Json → Option Int
  | int i => some i
  | _ => none

/-- An integer literal from zero up to, and not including, `limit`. -/
def natBelow? (limit : Nat) : Json → Option Nat
  | int i => if 0 ≤ i ∧ i < limit then some i.toNat else none
  | _ => none

/-- An unsigned integer of 64 bits. -/
def word? (j : Json) : Option Nat :=
  j.natBelow? UInt64.size

/-- A signed integer of 64 bits. -/
def signedWord? : Json → Option Int
  | int i => if Int64.minValue.toInt ≤ i ∧ i ≤ Int64.maxValue.toInt then some i else none
  | _ => none

/-! ## Binary64 numbers

A number is taken to binary64 in two roundings: its leading digits, as far as they fit 64 bits, are
rounded, and the outcome is scaled by a power of ten. For few digits and small powers the first is
exact, and the number is the nearest one; for others it can be a neighbour of it.
-/

/-- The leading digits of `n` that fit 64 bits, and the count of the digits behind them. -/
def leadingWord (n : Nat) : Nat × Nat :=
  if n < UInt64.size then (n, 0)
  else
    let (m, behind) := leadingWord (n / 10)
    (m, behind + 1)
termination_by n
decreasing_by
  have : 0 < UInt64.size := by decide
  omega

/-- `10 ^ n`, rounded. -/
def powerOfTen (n : Nat) : Float :=
  Float.ofScientific 1 false n

/-- The greatest `n` for which `10 ^ n` is in the range of binary64. -/
def maxPower : Nat := 308

/-- `m * 10 ^ exponent` for an `m` of 64 bits, `none` above the range. -/
def scaled? (m : Nat) (exponent : Int) : Option Float :=
  let x := Float.ofNat m
  let n := exponent.natAbs
  if m = 0 then some x
  else if 0 ≤ exponent then
    let y := x * powerOfTen n
    if n ≤ maxPower ∧ y.isFinite then some y else none
  else if n ≤ maxPower then some (x / powerOfTen n)
  else if n ≤ 2 * maxPower then some (x / powerOfTen maxPower / powerOfTen (n - maxPower))
  else some 0

/-- The number as a binary64 number. -/
def float? : Json → Option Float
  | int i => signed (i < 0) i.natAbs 0
  | decimal isNegative digits exponent => signed isNegative digits exponent
  | _ => none
where
  signed (isNegative : Bool) (digits : Nat) (exponent : Int) : Option Float :=
    let (m, behind) := leadingWord digits
    (scaled? m (exponent + behind)).map fun x => if isNegative then -x else x

def isNull : Json → Bool
  | null => true
  | _ => false

mutual

/-- How deeply a value is nested. -/
def depth : Json → Nat
  | array items => itemsDepth items + 1
  | object ms => membersDepth ms + 1
  | _ => 0

/-- How deeply an array's items are nested. -/
def itemsDepth : List Json → Nat
  | [] => 0
  | item :: rest => max (depth item) (itemsDepth rest)

/-- How deeply an object's members are nested. -/
def membersDepth : List (String × Json) → Nat
  | [] => 0
  | (_, value) :: rest => max (depth value) (membersDepth rest)

end

mutual

/-- Whether nothing in a value is broken, and no number beyond the range of binary64. -/
def isSound : Json → Bool
  | broken => false
  | int i => decide (i.natAbs < UInt64.size) || (float? (int i)).isSome
  | decimal isNegative digits exponent => (float? (decimal isNegative digits exponent)).isSome
  | array items => areItemsSound items
  | object ms => areMembersSound ms
  | _ => true

/-- Whether nothing in an array's items is broken. -/
def areItemsSound : List Json → Bool
  | [] => true
  | item :: rest => isSound item && areItemsSound rest

/-- Whether nothing in an object's members is broken. -/
def areMembersSound : List (String × Json) → Bool
  | [] => true
  | (_, value) :: rest => isSound value && areMembersSound rest

end

/-- A natural number as an integer literal. -/
def nat (n : Nat) : Json := int n

/-- A value, or `null` if there is none. -/
def ofOption {α : Type} (f : α → Json) : Option α → Json
  | some a => f a
  | none => null

end Json

end TxnEngine
