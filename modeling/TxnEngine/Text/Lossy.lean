import TxnEngine.Bytes

/-!
# Lossy UTF-8

Any byte string can be shown as text: well-formed UTF-8 is decoded, and each maximal piece that
could have begun a character but does not end one is shown as a single U+FFFD.

The decoder reads byte by byte. Between two bytes it either stands before a character or waits for
continuation bytes, the first of which can be confined to a narrower range than the others, because
overlong forms, surrogates and numbers above U+10FFFF are not characters.
-/

namespace TxnEngine.Text.Lossy

/-- The character that stands for what cannot be decoded. -/
def replacement : Char := '\ufffd'

/-- Where the decoder stands between two bytes. -/
inductive Position where
  /-- Before a character. -/
  | start
  /-- Within a character: `missing` more bytes are due, the next one in `[low, high]`, and `value`
  holds the bits read so far. -/
  | inside (missing : Nat) (low high : Nat) (value : Nat)

/-- What a byte that begins a character leads to: the text it completes and the new position. -/
def opening (b : Nat) : List Char × Position :=
  if b < 0x80 then ([Char.ofNat b], .start)
  else if 0xC2 ≤ b ∧ b ≤ 0xDF then ([], .inside 1 0x80 0xBF (b - 0xC0))
  else if b = 0xE0 then ([], .inside 2 0xA0 0xBF 0)
  else if b = 0xED then ([], .inside 2 0x80 0x9F 0xD)
  else if 0xE1 ≤ b ∧ b ≤ 0xEF then ([], .inside 2 0x80 0xBF (b - 0xE0))
  else if b = 0xF0 then ([], .inside 3 0x90 0xBF 0)
  else if 0xF1 ≤ b ∧ b ≤ 0xF3 then ([], .inside 3 0x80 0xBF (b - 0xF0))
  else if b = 0xF4 then ([], .inside 3 0x80 0x8F 4)
  else ([replacement], .start)

/-- The text that a byte completes and the position behind it. A byte that does not continue the
open character ends it as a replacement and is read again as the start of another. -/
def step (position : Position) (b : Nat) : List Char × Position :=
  match position with
  | .start => opening b
  | .inside missing low high value =>
    if low ≤ b ∧ b ≤ high then
      let value := value * 64 + b % 64
      if missing ≤ 1 then ([Char.ofNat value], .start)
      else ([], .inside (missing - 1) 0x80 0xBF value)
    else
      let (text, after) := opening b
      (replacement :: text, after)

/-- The characters of a byte string from a position on. -/
def decodeFrom : Position → Bytes → List Char
  | .start, [] => []
  | .inside .., [] => [replacement]
  | position, b :: rest =>
    let (text, after) := step position b.toNat
    text ++ decodeFrom after rest

/-- The text of a byte string. -/
def decode (bytes : Bytes) : String :=
  String.ofList (decodeFrom .start bytes)

end TxnEngine.Text.Lossy
