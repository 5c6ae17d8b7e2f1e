import TxnEngine.Storage.Error

/-!
# Scheduled faults

Any primitive of a store or a directory can fail without doing anything. Which of the upcoming
calls fail is data: a schedule per primitive, made of runs of calls that all fail or all succeed, so
that every pattern of failures is an ordinary value.
-/

namespace TxnEngine

/-- The primitives that can fail. -/
inductive Primitive where
  | read
  | append
  /-- An append that stops half-way. -/
  | tornAppend
  | flush
  | size
  | sync
  | truncate
  | reserve
  | create
deriving DecidableEq, Inhabited

namespace Primitive

/-- The name of the primitive in failure messages. -/
def text : Primitive → String
  | read => "read"
  | append => "append"
  | tornAppend => "torn_append"
  | flush => "flush"
  | size => "size"
  | sync => "sync"
  | truncate => "truncate"
  | reserve => "reserve"
  | create => "create"

/-- The primitives of a store. -/
def ofStore : List Primitive :=
  [read, append, tornAppend, flush, size, sync, truncate]

/-- The primitives of a directory and of the stores in it. -/
def ofDirectory : List Primitive :=
  [reserve, create] ++ ofStore

end Primitive

/-- A number of calls to come, and whether they fail. -/
structure FaultRun where
  fails : Bool
  calls : Nat
deriving DecidableEq, Inhabited

/-- For each primitive, which of its upcoming calls fail; calls beyond the runs succeed. -/
structure Faults where
  schedule : Primitive → List FaultRun

namespace Faults

/-- No call fails. -/
def none : Faults := ⟨fun _ => []⟩

instance : Inhabited Faults := ⟨none⟩

/-- Lets the next `times` calls of a primitive fail, ahead of what is scheduled already. -/
def add (f : Faults) (p : Primitive) (times : Nat) : Faults :=
  ⟨fun q => if q = p then ⟨true, times⟩ :: f.schedule q else f.schedule q⟩

/-- Uses up one call: whether it fails, and the runs that are left. -/
def takeRun : List FaultRun → Bool × List FaultRun
  | [] => (false, [])
  | ⟨_, 0⟩ :: rest => takeRun rest
  | ⟨fails, calls + 1⟩ :: rest => (fails, ⟨fails, calls⟩ :: rest)

/-- Uses up one call of a primitive: whether it fails, and what is left of the schedule. -/
def take (f : Faults) (p : Primitive) : Bool × Faults :=
  let (fails, rest) := takeRun (f.schedule p)
  (fails, ⟨fun q => if q = p then rest else f.schedule q⟩)

@[simp]
theorem take_none (p : Primitive) : none.take p = (false, none) := by
  simp [take, none, takeRun]

end Faults

/-- The failure of a primitive. -/
def Primitive.failure (p : Primitive) : StorageError :=
  .io (.described ("injected " ++ p.text ++ " failure"))

end TxnEngine
