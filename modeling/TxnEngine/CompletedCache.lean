import TxnEngine.Clock
import TxnEngine.Table

/-!
# The cache of finished records

A bounded map from ids to finished records, with a queue of its keys that says which one has to
leave when room is needed. A finished record never changes, so a record held stays right for ever;
its age is limited all the same.
-/

namespace TxnEngine

/-- A cached record and the last time it was put in. -/
structure CachedRecord where
  record : Record
  since : Instant
deriving DecidableEq, Inhabited

/-- A bounded first-in first-out cache of finished records (`CompletedTxnCache`). -/
structure CompletedCache where
  capacity : Nat
  maxAge : Duration
  entries : Table TxnId CachedRecord
  /-- The cached ids, the oldest first. -/
  order : List TxnId
  hits : Nat
  misses : Nat
deriving DecidableEq, Inhabited

namespace CompletedCache

/-- The empty cache (`CompletedTxnCache::new`). -/
def new (capacity : Nat) (maxAge : Duration) : CompletedCache :=
  ⟨capacity, maxAge, [], [], 0, 0⟩

/-- The number of records held (`CompletedTxnCache::len`). -/
def length (c : CompletedCache) : Nat :=
  List.length c.entries

/-- The record held for an id, if it is not too old at `now` (`CompletedTxnCache::get`). Counts a
hit or a miss. -/
def get (c : CompletedCache) (id : TxnId) (now : Instant) : Option Record × CompletedCache :=
  match c.entries.find? id with
  | some entry =>
    if now - entry.since ≤ c.maxAge.nanos then (some entry.record, { c with hits := c.hits + 1 })
    else (none, { c with misses := c.misses + 1 })
  | none => (none, { c with misses := c.misses + 1 })

/-- Drops records from the front of the queue until there is room for another one. -/
def makeRoom (capacity : Nat) :
    Table TxnId CachedRecord → List TxnId → Table TxnId CachedRecord × List TxnId
  | entries, [] => (entries, [])
  | entries, oldest :: rest =>
    if entries.length < capacity then (entries, oldest :: rest)
    else makeRoom capacity (entries.erase oldest) rest

/-- Puts a finished record in at `now` (`CompletedTxnCache::insert`). An id already held keeps its
record and its place in the queue and only has its time renewed. -/
def insert (c : CompletedCache) (r : Record) (now : Instant) : Bool × CompletedCache :=
  if c.capacity = 0 || !r.isFinished then (false, c)
  else
    match c.entries.find? r.id with
    | some entry => (true, { c with entries := c.entries.insert r.id { entry with since := now } })
    | none =>
      let (entries, order) := makeRoom c.capacity c.entries c.order
      (true, { c with entries := entries.insert r.id ⟨r, now⟩, order := order ++ [r.id] })

/-- Drops every record (`CompletedTxnCache::clear`). The counts of hits and misses stay. -/
def clear (c : CompletedCache) : CompletedCache :=
  { c with entries := [], order := [] }

end CompletedCache

end TxnEngine
