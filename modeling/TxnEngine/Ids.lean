import TxnEngine.Bytes
import TxnEngine.Text.Hex

/-!
# Identifiers

Timestamps, transaction ids, table ids, cell locations and partition addresses, with the text each
is shown by. A transaction is named by the timestamp it began at, which is also the snapshot it
reads.
-/

namespace TxnEngine

/-- A logical timestamp, handed out by the oracle (`Timestamp`). -/
structure Timestamp where
  val : UInt64
deriving DecidableEq, Inhabited

namespace Timestamp

instance : LE Timestamp := ⟨fun a b => a.val ≤ b.val⟩

instance : LT Timestamp := ⟨fun a b => a.val < b.val⟩

instance (a b : Timestamp) : Decidable (a ≤ b) :=
  inferInstanceAs (Decidable (a.val ≤ b.val))

instance (a b : Timestamp) : Decidable (a < b) :=
  inferInstanceAs (Decidable (a.val < b.val))

/-- The text `ts:` and the number. -/
def text (ts : Timestamp) : String :=
  "ts:" ++ toString ts.val.toNat

/-- The timestamp after this one; after the last comes zero. -/
def next (ts : Timestamp) : Timestamp :=
  ⟨ts.val + 1⟩

end Timestamp

/-- The name of a transaction (`TransactionId`): the timestamp it began at. -/
structure TxnId where
  val : UInt64
deriving DecidableEq, Inhabited

namespace TxnId

instance : LE TxnId := ⟨fun a b => a.val ≤ b.val⟩

instance : LT TxnId := ⟨fun a b => a.val < b.val⟩

instance (a b : TxnId) : Decidable (a ≤ b) :=
  inferInstanceAs (Decidable (a.val ≤ b.val))

instance (a b : TxnId) : Decidable (a < b) :=
  inferInstanceAs (Decidable (a.val < b.val))

/-- The transaction that begins at `ts` (`TransactionId::from_begin`). -/
def ofBegin (ts : Timestamp) : TxnId :=
  ⟨ts.val⟩

/-- The timestamp the transaction began at, its snapshot (`TransactionId::begin_timestamp`). -/
def beginTs (id : TxnId) : Timestamp :=
  ⟨id.val⟩

/-- The text `txn:` and the number. -/
def text (id : TxnId) : String :=
  "txn:" ++ toString id.val.toNat

end TxnId

/-- The number of a table. -/
structure TableId where
  val : UInt32
deriving DecidableEq, Inhabited

/-- The text `tbl:` and the number. -/
def TableId.text (id : TableId) : String :=
  "tbl:" ++ toString id.val.toNat

/-- Where a cell lies (`CellLocation`): a row of a table. -/
structure CellLocation where
  table : TableId
  rowKey : Bytes
deriving DecidableEq, Inhabited

/-- The table, a slash and the row key in hexadecimal. -/
def CellLocation.text (loc : CellLocation) : String :=
  loc.table.text ++ "/" ++ Text.hex loc.rowKey

/-- The route to a partition (`PartitionAddress`). The generation grows when a stale route is
dropped. -/
structure PartitionAddress where
  partition : String
  server : String
  generation : Nat
deriving DecidableEq, Inhabited

/-- The text `partition@server#generation`. -/
def PartitionAddress.text (address : PartitionAddress) : String :=
  address.partition ++ "@" ++ address.server ++ "#" ++ toString address.generation

end TxnEngine
