import TxnEngine.Bytes

/-!
# CRC-32

The cyclic redundancy check of 32 bits with the reflected polynomial `0xEDB88320`: the register
starts with all bits set, takes the bytes one at a time, least significant bit first, and is
inverted at the end.
-/

namespace TxnEngine.Checksum

/-- The reflected polynomial. -/
def polynomial : UInt32 := 0xEDB88320

/-- One shift of the register: the bit that leaves it decides whether the polynomial is added. -/
def shift (c : UInt32) : UInt32 :=
  if c &&& 1 = 1 then (c >>> 1) ^^^ polynomial else c >>> 1

/-- The register after taking one byte. -/
def step (c : UInt32) (b : UInt8) : UInt32 :=
  let x := c ^^^ b.toUInt32
  shift (shift (shift (shift (shift (shift (shift (shift x)))))))

/-- The CRC-32 of a byte string (`crc32fast::hash`). -/
def crc32 (bytes : Bytes) : UInt32 :=
  (bytes.foldl step 0xFFFFFFFF) ^^^ 0xFFFFFFFF

end TxnEngine.Checksum
