import TxnEngine.Error
import TxnEngine.Table

/-!
# Version stamps

A version of a cell can carry the final status of its writer, so that later readers need not ask for
it. A stamp is never replaced by a different one.
-/

namespace TxnEngine

/-- The stamp of a version (`CellStamp`): its writer and, once resolved, the writer's final
status. -/
structure CellStamp where
  txnId : TxnId
  status : Option FinalStatus
deriving DecidableEq, Inhabited

namespace CellStamp

/-- The stamp of a version whose writer is not known to have finished (`CellStamp::unresolved`). -/
def unresolved (id : TxnId) : CellStamp := ⟨id, none⟩

/-- The stamp of a version whose writer has finished (`CellStamp::resolved`). -/
def resolved (id : TxnId) (status : FinalStatus) : CellStamp := ⟨id, some status⟩

end CellStamp

/-- The final statuses stamped on versions (`MemoryStamps`). -/
structure Stamps where
  table : Table (CellLocation × TxnId) FinalStatus
deriving DecidableEq, Inhabited

namespace Stamps

def empty : Stamps := ⟨[]⟩

/-- The stamp of the version that a transaction wrote at a place (`MemoryStamps::cell_stamp`). -/
def cell (s : Stamps) (loc : CellLocation) (id : TxnId) : CellStamp :=
  ⟨id, s.table.find? (loc, id)⟩

/-- Stamps a version (`MemoryStamps::stamp`). To stamp it again is no error, to stamp it differently
is. -/
def stamp (s : Stamps) (loc : CellLocation) (id : TxnId) (status : FinalStatus) :
    Except Error Unit × Stamps :=
  match s.table.find? (loc, id) with
  | some existing =>
    if existing = status then (.ok (), s)
    else (.error (.corruption (.stampConflict loc id existing status)), s)
  | none => (.ok (), ⟨s.table.insert (loc, id) status⟩)

/-- The number of stamped versions (`MemoryStamps::len`). -/
def length (s : Stamps) : Nat :=
  s.table.length

end Stamps

end TxnEngine
