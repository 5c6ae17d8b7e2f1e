import TxnEngine.Error
import TxnEngine.Json.Reader
import TxnEngine.Text.Hex

/-!
# Requests

A request is a JSON value with fields. Reading a field gives its value or a refusal; a field that is
missing or `null` takes a default where there is one.

Numbers are integer literals of the width that the field has. A byte string is a text, hexadecimal
digits or a repeated byte string; a duration is a number of milliseconds, or seconds and nanoseconds.
-/

namespace TxnEngine

/-- Why a request is not granted. -/
inductive Refusal where
  /-- It cannot be understood. -/
  | unreadable
  /-- A result is out of range. -/
  | outOfRange
  /-- A text is not the JSON form of a value. -/
  | malformed
  | storage (cause : StorageError)
  | engine (cause : Error)
deriving DecidableEq, Inhabited

/-- A value, or the reason why there is none. -/
abbrev Reply := Except Refusal

namespace Reply

variable {α : Type}

/-- A value that has to be there. -/
def ofOption : Option α → Reply α
  | some a => .ok a
  | none => .error .unreadable

/-- A result that has to be in range. -/
def inRange : Option α → Reply α
  | some a => .ok a
  | none => .error .outOfRange

def ofStorage : Except StorageError α → Reply α
  | .ok a => .ok a
  | .error e => .error (.storage e)

def ofEngine : Except Error α → Reply α
  | .ok a => .ok a
  | .error e => .error (.engine e)

end Reply

namespace Json

variable {α : Type}

/-! ## Fields -/

/-- A field that has to be there. -/
def field (j : Json) (key : String) (read : Json → Reply α) : Reply α :=
  read (j.get key)

/-- A field with a value that stands for its absence. -/
def fieldD (j : Json) (key : String) (read : Json → Reply α) (default : α) : Reply α :=
  if (j.get key).isNull then .ok default else read (j.get key)

/-- A field that may be missing. -/
def field? (j : Json) (key : String) (read : Json → Reply α) : Reply (Option α) :=
  if (j.get key).isNull then .ok none else (read (j.get key)).map some

/-! ## Plain values -/

def readText (j : Json) : Reply String := .ofOption j.string?

def readBool (j : Json) : Reply Bool := .ofOption j.bool?

/-- An unsigned number of 64 bits. -/
def readWord (j : Json) : Reply Nat := .ofOption j.word?

/-- A signed number of 64 bits. -/
def readSigned (j : Json) : Reply Int := .ofOption j.signedWord?

/-- An unsigned number below a limit. -/
def readBelow (limit : Nat) (j : Json) : Reply Nat := .ofOption (j.natBelow? limit)

/-- An unsigned number of 32 bits. -/
def readSmall (j : Json) : Reply Nat := j.readBelow UInt32.size

def readMillis (j : Json) : Reply Millis := j.readWord.map UInt64.ofNat

def readArray (j : Json) : Reply (List Json) := .ofOption j.array?

def readList (read : Json → Reply α) (j : Json) : Reply (List α) := do
  (← j.readArray).mapM read

def textAt (j : Json) (key : String) : Reply String := j.field key readText

def textAtD (j : Json) (key default : String) : Reply String := j.fieldD key readText default

def wordAt (j : Json) (key : String) : Reply Nat := j.field key readWord

def wordAtD (j : Json) (key : String) (default : Nat) : Reply Nat := j.fieldD key readWord default

def signedAtD (j : Json) (key : String) (default : Int) : Reply Int :=
  j.fieldD key readSigned default

def flagAtD (j : Json) (key : String) (default : Bool) : Reply Bool :=
  j.fieldD key readBool default

def millisAtD (j : Json) (key : String) (default : Millis) : Reply Millis :=
  j.fieldD key readMillis default

/-- A piece written `n` times over, which is refused when it would not fit in memory. -/
def repeated (n : Nat) (piece : Bytes) : Reply Bytes :=
  if piece.isEmpty then .ok []
  else if piece.length * n < 1 <<< 63 then .ok (List.replicate n piece).flatten
  else .error .outOfRange

/-- The byte string that a value of at most the given depth stands for. -/
def readBytesWithin : (depth : Nat) → Json → Reply Bytes
  | _, string s => .ok (.ofText s)
  | depth + 1, object ms =>
    let j := object ms
    if !(j.get "hex").isNull then do .ofOption (Text.ofHex? (← j.textAt "hex"))
    else do
      let piece ← readBytesWithin depth (j.get "repeat")
      repeated (← j.wordAt "n") piece
  | _, _ => .error .unreadable

def readBytes (j : Json) : Reply Bytes := readBytesWithin j.depth j

def bytesAt (j : Json) (key : String) : Reply Bytes := j.field key readBytes

def bytesAtD (j : Json) (key : String) (default : Bytes) : Reply Bytes :=
  j.fieldD key readBytes default

def readDuration (j : Json) : Reply Duration :=
  match j with
  | object _ => do
    .inRange (Duration.ofParts? (← j.wordAtD "secs" 0) (← j.fieldD "nanos" readSmall 0))
  | _ => j.readWord.map .ofMillis

/-- A number, or the name of what is not one. -/
def readFloat (j : Json) : Reply Float :=
  match j with
  | string "NaN" => .ok (0.0 / 0.0)
  | string "inf" => .ok (1.0 / 0.0)
  | string "-inf" => .ok (-1.0 / 0.0)
  | _ => .ofOption j.float?

/-! ## Whole requests -/

/-- The deepest nesting of a request. -/
def deepestRequest : Nat := 127

/-- The request that a text denotes: a sound value that is not nested too deeply. -/
def request? (text : String) : Option Json :=
  (read? text).filter fun j => decide (j.depth ≤ deepestRequest) && j.isSound

/-! ## Keys -/

/-- A number written in decimal digits. -/
def wordOfDigits (s : String) : Reply Nat := do
  let n ← .ofOption (if s.all Char.isDigit then s.toNat? else none)
  if n < UInt64.size then return n else throw .unreadable

end Json

end TxnEngine
