import TxnEngine.Json.Value
import TxnEngine.Text.Hex

/-!
# Reading JSON

The grammar of JSON, without extensions: no leading zeros, no unescaped control characters, nothing
behind the value but blanks. Escaped surrogates have to come in pairs; a string in which they do not
is read as broken, and so is an object with such a key. What is broken can only be passed over.
-/

namespace TxnEngine.Json

/-- The rest behind blanks. -/
def skipBlanks (cs : List Char) : List Char :=
  cs.dropWhile fun c => c = ' ' || c = '\t' || c = '\n' || c = '\r'

/-! ## Strings -/

/-- The number that four hexadecimal digits stand for, and the rest behind them. -/
def readUnit? : List Char → Option (Nat × List Char)
  | a :: b :: c :: d :: rest => do
    let a ← Text.hexDigit? a
    let b ← Text.hexDigit? b
    let c ← Text.hexDigit? c
    let d ← Text.hexDigit? d
    return (((a * 16 + b) * 16 + c) * 16 + d, rest)
  | _ => none

/-- The character of an escape that is a single letter. -/
def letterEscape? (c : Char) : Option Char :=
  if c = '"' || c = '\\' || c = '/' then some c
  else if c = 'b' then some '\x08'
  else if c = 'f' then some '\x0c'
  else if c = 'n' then some '\n'
  else if c = 'r' then some '\r'
  else if c = 't' then some '\t'
  else none

/-- A string's characters, the last first; `none` once an escape denotes no character. -/
abbrev Collected := Option (List Char)

def Collected.push (text : Collected) (c : Char) : Collected :=
  text.map (c :: ·)

/-- The characters of a string up to its closing quote, and the rest behind it. -/
def readStringTail : (fuel : Nat) → Collected → List Char → Option (Json × List Char)
  | 0, _, _ => none
  | fuel + 1, text, cs =>
    match cs with
    | [] => none
    | '"' :: rest =>
      match text with
      | some chars => some (string (String.ofList chars.reverse), rest)
      | none => some (broken, rest)
    | '\\' :: 'u' :: rest =>
      match readUnit? rest with
      | none => none
      | some (unit, rest) =>
        if 0xD800 ≤ unit ∧ unit < 0xDC00 then
          match rest with
          | '\\' :: 'u' :: behind =>
            match readUnit? behind with
            | none => none
            | some (low, behind) =>
              if 0xDC00 ≤ low ∧ low < 0xE000 then
                readStringTail fuel
                  (text.push (Char.ofNat (0x10000 + (unit - 0xD800) * 1024 + (low - 0xDC00))))
                  behind
              else readStringTail fuel none rest
          | _ => readStringTail fuel none rest
        else if 0xDC00 ≤ unit ∧ unit < 0xE000 then readStringTail fuel none rest
        else readStringTail fuel (text.push (Char.ofNat unit)) rest
    | '\\' :: c :: rest =>
      match letterEscape? c with
      | some c => readStringTail fuel (text.push c) rest
      | none => none
    | c :: rest => if c.toNat < 0x20 then none else readStringTail fuel (text.push c) rest

/-- A string behind its opening quote, of less than `fuel` characters. -/
def readString (fuel : Nat) (cs : List Char) : Option (Json × List Char) :=
  readStringTail fuel (some []) cs

/-! ## Numbers -/

/-- The digits in front, as a number with its count of digits, and the rest. -/
def readDigits (cs : List Char) : (Nat × Nat) × List Char :=
  let digits := cs.takeWhile Char.isDigit
  ((digits.foldl (fun n c => n * 10 + (c.toNat - 48)) 0, digits.length), cs.dropWhile Char.isDigit)

/-- An exponent, if one is there. -/
def readExponent (cs : List Char) : Option (Option Int × List Char) :=
  match cs with
  | c :: rest =>
    if c = 'e' || c = 'E' then
      let (negative, rest) :=
        match rest with
        | '-' :: rest => (true, rest)
        | '+' :: rest => (false, rest)
        | _ => (false, rest)
      let ((n, count), rest) := readDigits rest
      if count = 0 then none
      else some (some (if negative then -(n : Int) else n), rest)
    else some (none, cs)
  | [] => some (none, [])

/-- A number, its sign already read. -/
def readNumber (negative : Bool) (cs : List Char) : Option (Json × List Char) := do
  let ((whole, count), rest) := readDigits cs
  if count = 0 then failure
  if cs.head? = some '0' ∧ 1 < count then failure
  let (fraction, places, rest) ←
    match rest with
    | '.' :: rest =>
      let ((n, count), rest) := readDigits rest
      if count = 0 then none else some (n, count, rest)
    | _ => some (0, 0, rest)
  let (exponent, rest) ← readExponent rest
  if places = 0 ∧ exponent = none ∧ !(negative ∧ whole = 0) then
    return (int (if negative then -(whole : Int) else whole), rest)
  else
    return (decimal negative (whole * Nat.pow 10 places + fraction) (exponent.getD 0 - places), rest)

/-! ## Values -/

/-- The rest behind a word, if the word is in front. -/
def stripWord (word : String) (cs : List Char) : Option (List Char) :=
  if word.toList.isPrefixOf cs then some (cs.drop word.length) else none

mutual

/-- A value and the rest behind it. Twice the length of the text is fuel enough: no character takes
more than two steps, and no string has more characters than there are left. -/
def readValue : (fuel : Nat) → List Char → Option (Json × List Char)
  | 0, _ => none
  | fuel + 1, cs =>
    match skipBlanks cs with
    | [] => none
    | '"' :: rest => readString fuel rest
    | '[' :: rest =>
      match skipBlanks rest with
      | ']' :: rest => some (array [], rest)
      | rest => readItems fuel [] rest
    | '\x7b' :: rest =>
      match skipBlanks rest with
      | '\x7d' :: rest => some (object [], rest)
      | rest => readMembers fuel (some []) rest
    | '-' :: rest => readNumber true rest
    | c :: rest =>
      if c.isDigit then readNumber false (c :: rest)
      else if c = 't' then (stripWord "true" (c :: rest)).map fun rest => (bool true, rest)
      else if c = 'f' then (stripWord "false" (c :: rest)).map fun rest => (bool false, rest)
      else if c = 'n' then (stripWord "null" (c :: rest)).map fun rest => (null, rest)
      else none

/-- The items of an array up to its closing bracket. -/
def readItems : (fuel : Nat) → List Json → List Char → Option (Json × List Char)
  | 0, _, _ => none
  | fuel + 1, items, cs =>
    match readValue fuel cs with
    | none => none
    | some (item, rest) =>
      match skipBlanks rest with
      | ',' :: rest => readItems fuel (item :: items) rest
      | ']' :: rest => some (array (item :: items).reverse, rest)
      | _ => none

/-- The members of an object up to its closing brace; `none` once a key is broken. -/
def readMembers :
    (fuel : Nat) → Option (List (String × Json)) → List Char → Option (Json × List Char)
  | 0, _, _ => none
  | fuel + 1, ms, cs =>
    match skipBlanks cs with
    | '"' :: rest =>
      match readString fuel rest with
      | some (key, rest) =>
        match skipBlanks rest with
        | ':' :: rest =>
          match readValue fuel rest with
          | none => none
          | some (value, rest) =>
            let ms := do return (← key.string?, value) :: (← ms)
            match skipBlanks rest with
            | ',' :: rest => readMembers fuel ms rest
            | '\x7d' :: rest => some (ms.elim broken fun ms => object ms.reverse, rest)
            | _ => none
        | _ => none
      | none => none
    | _ => none

end

/-- The value that a text denotes. -/
def read? (text : String) : Option Json :=
  let cs := text.toList
  match readValue (2 * cs.length + 2) cs with
  | some (value, rest) => if skipBlanks rest = [] then some value else none
  | none => none

end TxnEngine.Json
