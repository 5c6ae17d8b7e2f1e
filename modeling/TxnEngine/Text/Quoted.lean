import TxnEngine.Text.Hex
import TxnEngine.Text.Unprintable

/-!
# Quoted text

A text as it is shown inside messages: in double quotes, with a backslash in front of a quote or
another backslash, with the usual letters for tab, newline, carriage return and NUL, and with the
number of a character that is not shown as itself in braces.
-/

namespace TxnEngine.Text

/-- The escape that gives a character's number. -/
def numberEscape (c : Char) : List Char :=
  ['\\', 'u', '\x7b'] ++ Nat.toDigits 16 c.toNat ++ ['\x7d']

/-- The form of a character between quotes. -/
def quotedChar (c : Char) : List Char :=
  if c = '\x00' then ['\\', '0']
  else if c = '\t' then ['\\', 't']
  else if c = '\r' then ['\\', 'r']
  else if c = '\n' then ['\\', 'n']
  else if c = '"' then ['\\', '"']
  else if c = '\\' then ['\\', '\\']
  else if c.toNat < 0x20 ∨ c.toNat = 0x7F then numberEscape c
  else if c.toNat < 0x80 then [c]
  else if isUnprintable c then numberEscape c
  else [c]

/-- A text in quotes. -/
def quoted (text : String) : String :=
  String.ofList ('"' :: (text.toList.flatMap quotedChar ++ ['"']))

end TxnEngine.Text
