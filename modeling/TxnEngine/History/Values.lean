import TxnEngine.History.Step

/-!
# Histories of single values

A wall clock with an oracle, tallies of statistics, one record, a cache of finished records, and
stamps.
-/

namespace TxnEngine.History

open Json (nat)

/-! ## Clock and oracle -/

/-- A wall clock and an oracle. -/
structure Sources where
  clock : Clock
  oracle : Oracle

namespace Sources

/-- Moves the clock, and answers the time. -/
def move (j : Json) (f : Clock → Millis → Clock) : Step Sources Json := do
  let ms ← j.field "ms" Json.readMillis
  modify fun s => { s with clock := f s.clock ms }
  return .ofMillis (← get).clock.now

def step (j : Json) : Step Sources Json := do
  match action j with
  | "advance" => move j Clock.advance
  | "set" => move j Clock.set
  | "next" =>
    let drawn ← applyOn Sources.oracle (fun oracle s => { s with oracle }) Oracle.draw
    return (← Reply.ofEngine drawn).toJson
  | "peek" => return (← get).oracle.next.toJson
  | "system_after_2020" => return .bool true
  | _ => throw .unreadable

end Sources

/-! ## Tallies -/

/-- Tallies in slots. -/
structure Tallies where
  slots : List (Option Tally)

namespace Tallies

/-- Changes the tally in a slot, and answers it. A change that did not fit stays where it stopped. -/
def change (j : Json) (f : Tally → Bool × Tally) : Step Tallies Json := do
  let n ← j.wordAt "a"
  let (fitted, t) := f (← slot (← get).slots n)
  modify fun s => ⟨s.slots.set n (some t)⟩
  unless fitted do throw .outOfRange
  return .object [("contributions", nat t.contributions), ("total", t.total.toJson)]

def step (j : Json) : Step Tallies Json := do
  let listed := j.field "stats" (Json.readList WriteStats.read)
  match action j with
  | "new" =>
    let s ← get
    set (Tallies.mk (s.slots ++ [some .empty]))
    return nat s.slots.length
  | "add" =>
    let stats ← j.field "stats" WriteStats.read
    change j fun t => t.add stats
  | "extend" =>
    let stats ← listed
    change j fun t => t.extend stats
  | "absorb" =>
    let child ← slot (← get).slots (← j.wordAt "child")
    change j fun t => t.absorb child
  | "finish" =>
    let n ← j.wordAt "a"
    let t ← slot (← get).slots n
    modify fun s => ⟨s.slots.set n none⟩
    return .object [("json", t.toJson), ("total", t.total.toJson)]
  | "sum" =>
    return (← Reply.inRange (WriteStats.sum? (← listed))).toJson
  | "merge" =>
    let stats ← listed
    let total ← Reply.inRange (WriteStats.sum? stats)
    let finished ← Reply.inRange total.rowsFinished?
    return .object [("total", total.toJson), ("same", .bool (stats.foldl (· + ·) .zero = total)),
      ("finished", nat finished), ("empty", .bool total.isEmpty)]
  | _ => throw .unreadable

end Tallies

/-! ## One record -/

/-- A step on a record; `start` is the record to go back to. -/
def recordStep (start : Record) (j : Json) : Step Record Json := do
  match action j with
  | "apply" =>
    let outcome := (← get).apply (← Transition.read j)
    set outcome.record
    return outcome.toJson
  | "status" =>
    let now ← j.millisAtD "now" 0
    let timeout ← j.millisAtD "timeout_ms" 0
    let r ← get
    return .object ((r.status now timeout).members ++
      [("expired", .bool (r.isExpired now timeout)), ("finished", .bool r.isFinished)])
  | "reset" =>
    set start
    return start.toJson
  | "encode" =>
    let r ← get
    return .object [("payload", r.encodePayload.toJson), ("envelope", r.encode.toJson)]
  | _ => throw .unreadable

/-! ## The cache -/

/-- A cache and the stopwatch that it is used by. -/
structure TimedCache where
  cache : CompletedCache
  stopwatch : Stopwatch

namespace TimedCache

/-- An operation of the cache at the present time. -/
def timed {α : Type} (f : CompletedCache → Instant → α × CompletedCache) : Step TimedCache α :=
  modifyGet fun s =>
    let (now, stopwatch) := s.stopwatch.read
    let (a, cache) := f s.cache now
    (a, ⟨cache, stopwatch⟩)

/-- The longest a history may sleep at a time. -/
def longestSleep : Nat := 50

def step (j : Json) : Step TimedCache Json := do
  match action j with
  | "insert" =>
    let r ← j.field "record" Record.read
    return .bool (← timed fun c now => c.insert r now)
  | "get" =>
    let id ← j.field "id" TxnId.read
    return .ofOption Record.toJson (← timed fun c now => c.get id now)
  | "stats" =>
    let c := (← get).cache
    return .object (c.members ++ [("len", nat c.length), ("empty", .bool (c.length = 0))])
  | "clear" =>
    modify fun s => { s with cache := s.cache.clear }
    return .okay
  | "sleep" =>
    let ms ← j.wordAt "ms"
    modify fun s => { s with stopwatch := s.stopwatch.wait (.ofMillis (min ms longestSleep)) }
    return .okay
  | _ => throw .unreadable

end TimedCache

/-! ## Stamps -/

/-- The steps on stamps. `readId` tells how ids are written. -/
def stampStep (readId : Json → Reply TxnId) (j : Json) : Shared Stamps :=
  match action j with
  | "stamp" => some do
    let loc ← j.field "loc" CellLocation.read
    let id ← j.field "id" readId
    let status ← j.field "status" FinalStatus.read
    return fun s =>
      let (stamped, s) := s.stamp loc id status
      ((Reply.ofEngine stamped).map fun _ => .okay, s)
  | "cell" => some do
    let loc ← j.field "loc" CellLocation.read
    let id ← j.field "id" readId
    return fun s => (.ok (s.cell loc id).toJson, s)
  | "stamps" => some (.ok fun s =>
      (.ok (.object [("len", nat s.length), ("empty", .bool (s.length = 0))]), s))
  | _ => none

/-- A step on stamps alone. -/
def stampsStep (j : Json) : Step Stamps Json :=
  match stampStep TxnId.read j with
  | some step => doShared id (fun s _ => s) step
  | none => throw .unreadable

end TxnEngine.History
