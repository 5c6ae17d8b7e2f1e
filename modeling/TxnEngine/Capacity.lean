/-!
# Capacities

Room for workers and for queued jobs is reserved as a whole before the first of them is there. It is
reserved only if its size in bytes can be an address.
-/

namespace TxnEngine.Capacity

/-- One more than the largest size in bytes that room can have. -/
def sizeLimit : Nat := 1 <<< 63

/-- The bytes taken by a worker's handle. -/
def workerSize : Nat := 24

/-- The bytes taken by a place in the queue of the resolver. -/
def jobSize : Nat := 48

/-- Whether there can be room for `count` entries of `size` bytes each. -/
def hasRoom (count size : Nat) : Bool :=
  decide (count * size < sizeLimit)

/-- Whether there can be a keep-alive registry with that number of workers and a dispatcher. -/
def admitsKeepAlive (workers : Nat) : Bool :=
  hasRoom (workers + 1) workerSize

/-- Whether there can be a resolver with a queue of that capacity, which is one at least, and with
that number of workers. -/
def admitsResolver (capacity workers : Nat) : Bool :=
  hasRoom (max capacity 1) jobSize && hasRoom workers workerSize

end TxnEngine.Capacity
