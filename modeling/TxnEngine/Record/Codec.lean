import TxnEngine.Checksum
import TxnEngine.Error

/-!
# The durable form of a record

A record is written as an envelope: the magic bytes `KTXN`, a version, the length of the payload,
the payload and its CRC-32. The payload holds the id, a state byte, the begin timestamp, a flag that
tells whether a commit timestamp follows, the time of the last keep-alive and a byte of flags of
which only the lowest bit has a meaning. All numbers are little-endian.

Reading a payload takes its fields from the front with `Reader`, a step that either fails or leaves
a rest.
-/

namespace TxnEngine

namespace Record

/-- The bytes every envelope begins with. -/
def magic : Bytes := [0x4B, 0x54, 0x58, 0x4E]

/-- The version of the envelope. -/
def version : Nat := 1

/-- The bytes in front of the payload. -/
def headerLength : Nat := 10

/-- The bytes behind the payload. -/
def trailerLength : Nat := 4

end Record

/-- The byte that stands for a state (`TxnState::as_byte`). -/
def TxnState.toByte : TxnState → UInt8
  | active => 1
  | committed => 2
  | rolledBack => 3
  | error => 4

/-- The state that a byte stands for (`TxnState::from_byte`). -/
def TxnState.ofByte? (b : UInt8) : Option TxnState :=
  if b = 1 then some active
  else if b = 2 then some committed
  else if b = 3 then some rolledBack
  else if b = 4 then some error
  else none

@[simp]
theorem TxnState.ofByte?_toByte (s : TxnState) : ofByte? s.toByte = some s := by
  cases s <;> rfl

namespace Record

/-! ## Writing -/

/-- The eight bytes of a 64-bit number. -/
def wordBytes (w : UInt64) : Bytes :=
  littleEndian 8 w.toNat

/-- The commit timestamp behind its flag. -/
def commitBytes : Option Timestamp → Bytes
  | some ts => 1 :: wordBytes ts.val
  | none => [0]

/-- The payload of a record (`TxnRecord::encode_payload`). -/
def encodePayload (r : Record) : Bytes :=
  wordBytes r.id.val ++ [r.state.toByte] ++ wordBytes r.beginTs.val ++ commitBytes r.commitTs ++
    wordBytes r.lastKeepAlive ++ [if r.readOnly then 1 else 0]

/-- The envelope around a payload. -/
def envelope (payload : Bytes) : Bytes :=
  magic ++ littleEndian 2 version ++ littleEndian 4 payload.length ++ payload ++
    littleEndian 4 (Checksum.crc32 payload).toNat

/-- The envelope of a record (`TxnRecord::encode`). -/
def encode (r : Record) : Bytes :=
  envelope r.encodePayload

/-! ## Reading -/

/-- A step that takes a value off the front of a byte string. -/
abbrev Reader (α : Type) := Bytes → Except Corruption (α × Bytes)

/-- Takes one byte. -/
def readByte : Reader UInt8
  | [] => .error .unexpectedEnd
  | b :: rest => .ok (b, rest)

/-- Takes a 64-bit number. -/
def readWord : Reader UInt64 := fun bytes =>
  if bytes.length < 8 then .error .unexpectedEnd
  else .ok (UInt64.ofNat (ofLittleEndian (bytes.take 8)), bytes.drop 8)

/-- Takes a state byte. -/
def readState : Reader TxnState := fun bytes => do
  let (b, rest) ← readByte bytes
  match TxnState.ofByte? b with
  | some state => return (state, rest)
  | none => throw (.unknownState b)

/-- Takes the flag in front of a commit timestamp, and the timestamp if the flag announces one. -/
def readCommit : Reader (Option Timestamp) := fun bytes => do
  let (flag, rest) ← readByte bytes
  if flag = 0 then return (none, rest)
  else if flag = 1 then
    let (ts, rest) ← readWord rest
    return (some ⟨ts⟩, rest)
  else throw (.invalidCommitFlag flag)

/-- The record that a payload holds (`TxnRecord::decode_payload`). Nothing may follow its last
field, and a commit timestamp is there exactly in a committed record. -/
def decodePayload (payload : Bytes) : Except Corruption Record := do
  let (id, rest) ← readWord payload
  let (state, rest) ← readState rest
  let (beginTs, rest) ← readWord rest
  let (commitTs, rest) ← readCommit rest
  let (lastKeepAlive, rest) ← readWord rest
  let (flags, rest) ← readByte rest
  if rest ≠ [] then
    throw (.trailingBytes (payload.length - rest.length) payload.length)
  if commitTs.isSome ≠ decide (state = .committed) then
    throw (.inconsistentCommit ⟨id⟩ state commitTs)
  return { id := ⟨id⟩, state, beginTs := ⟨beginTs⟩, commitTs, lastKeepAlive,
           readOnly := flags &&& 1 = 1 }

/-- The length of the payload that an envelope's header announces (`parse_header`). -/
def decodeHeader (bytes : Bytes) : Except Corruption Nat :=
  if bytes.length < headerLength then .error .truncatedHeader
  else if bytes.take 4 ≠ magic then .error .badMagic
  else
    let found := ofLittleEndian ((bytes.drop 4).take 2)
    if found ≠ version then .error (.unsupportedVersion found)
    else .ok (ofLittleEndian ((bytes.drop 6).take 4))

/-- Checks a payload against the checksum written behind it (`verify_checksum`). -/
def checkPayload (payload trailer : Bytes) : Except Corruption Unit :=
  let expected := UInt32.ofNat (ofLittleEndian trailer)
  let actual := Checksum.crc32 payload
  if actual ≠ expected then .error (.checksumMismatch expected actual) else .ok ()

/-- The record whose envelope is at the front of a byte string, and the length of the envelope
(`TxnRecord::decode`). -/
def decode (bytes : Bytes) : Except Corruption (Record × Nat) := do
  let length ← decodeHeader bytes
  let total := headerLength + length + trailerLength
  if bytes.length < total then throw .truncatedEnvelope
  let payload := (bytes.drop headerLength).take length
  checkPayload payload ((bytes.drop (headerLength + length)).take trailerLength)
  let record ← decodePayload payload
  return (record, total)

end Record

end TxnEngine
