import TxnEngine.Ids

/-!
# Transactions as their owners see them

The value that an owner holds and hands to every operation on its transaction. It is not the record:
others can finish the record behind its back.
-/

namespace TxnEngine

/-- What the owner knows of its transaction (`TransactionState`). -/
inductive Phase where
  | active
  | committed
  | aborted
deriving DecidableEq, Inhabited

/-- A transaction in its owner's hands (`Transaction`). -/
structure Transaction where
  id : TxnId
  phase : Phase
  readOnly : Bool
  /-- Whether the transaction has a record. -/
  isPersisted : Bool
  commitTs : Option Timestamp
deriving DecidableEq, Inhabited

namespace Transaction

/-- A transaction that has just begun (`Transaction::new`). A read-only one has no record. -/
def new (id : TxnId) (readOnly : Bool) : Transaction :=
  ⟨id, .active, readOnly, !readOnly, none⟩

/-- The timestamp the transaction reads at (`Transaction::snapshot`). -/
def snapshot (t : Transaction) : Timestamp :=
  t.id.beginTs

/-- Whether the owner may still use the transaction (`Transaction::is_active`). -/
def isActive (t : Transaction) : Bool :=
  t.phase = .active

/-- The transaction with a record, allowed to write (`Transaction::mark_elevated`). -/
def elevated (t : Transaction) : Transaction :=
  { t with readOnly := false, isPersisted := true }

/-- The transaction with its commit timestamp (`Transaction::mark_committed`). -/
def committedAt (t : Transaction) (ts : Timestamp) : Transaction :=
  { t with phase := .committed, commitTs := some ts }

/-- The transaction given up (`Transaction::mark_aborted`). -/
def abort (t : Transaction) : Transaction :=
  { t with phase := .aborted }

end Transaction

end TxnEngine
