import TxnEngine.Json.Value
import TxnEngine.Text.Hex

/-!
# Writing JSON

JSON values as compact text. Quotes, backslashes and control characters are escaped, every other
character is written as itself.
-/

namespace TxnEngine.Json

/-- The form of a character between quotes. -/
def printChar (c : Char) : List Char :=
  if c = '"' then ['\\', '"']
  else if c = '\\' then ['\\', '\\']
  else if c.toNat < 0x20 then ['\\', 'u'] ++ Text.hexPadded 4 c.toNat
  else [c]

/-- A text in quotes. -/
def printString (s : String) : String :=
  String.ofList ('"' :: (s.toList.flatMap printChar ++ ['"']))

/-- The decimal text of an integer. -/
def printInt : Int → String
  | .ofNat n => toString n
  | .negSucc n => "-" ++ toString (n + 1)

mutual

/-- A text followed by the text of a value. -/
def printOnto (text : String) : Json → String
  | null => text ++ "null"
  | bool true => text ++ "true"
  | bool false => text ++ "false"
  | int i => text ++ printInt i
  | decimal isNegative digits exponent =>
    text ++ (if isNegative then "-" else "") ++ toString digits ++ "e" ++ printInt exponent
  | string s => text ++ printString s
  | broken => text ++ "null"
  | array items => printItemsOnto (text ++ "[") items ++ "]"
  | object ms => printMembersOnto (text ++ "\x7b") ms ++ "\x7d"

/-- A text followed by the texts of an array's items. -/
def printItemsOnto (text : String) : List Json → String
  | [] => text
  | [item] => printOnto text item
  | item :: rest => printItemsOnto (printOnto text item ++ ",") rest

/-- A text followed by the texts of an object's members. -/
def printMembersOnto (text : String) : List (String × Json) → String
  | [] => text
  | [(k, v)] => printOnto (text ++ printString k ++ ":") v
  | (k, v) :: rest =>
    printMembersOnto (printOnto (text ++ printString k ++ ":") v ++ ",") rest

end

/-- The text of a value. -/
def print (j : Json) : String := printOnto "" j

end TxnEngine.Json
