import TxnEngine.Duration
import TxnEngine.Error

/-!
# Sources of time and order

Three sources feed the engine. The wall clock decides about expiry and can be moved at will. The
oracle hands out timestamps, each once. The stopwatch measures how old a cached fact is; time passes
between any two of its readings.
-/

namespace TxnEngine

/-- A wall clock (`ManualClock`). It wraps around after the largest 64-bit number of
milliseconds. -/
structure Clock where
  now : Millis
deriving DecidableEq, Inhabited

namespace Clock

/-- Lets time pass (`ManualClock::advance`). -/
def advance (c : Clock) (ms : Millis) : Clock :=
  ⟨c.now + ms⟩

/-- Sets the time (`ManualClock::set`). -/
def set (_ : Clock) (ms : Millis) : Clock :=
  ⟨ms⟩

end Clock

/-- A source of timestamps (`MonotonicOracle`). -/
structure Oracle where
  /-- The timestamp that comes next. -/
  next : Timestamp
  /-- Refusals that the next calls meet instead, in order; they use no timestamp up. -/
  refusals : List Error
deriving DecidableEq, Inhabited

namespace Oracle

/-- The oracle whose first timestamp is `first` (`MonotonicOracle::starting_at`). -/
def startingAt (first : UInt64) : Oracle :=
  ⟨⟨first⟩, []⟩

/-- The first timestamp of a new oracle. -/
def firstTimestamp : UInt64 := 1

/-- Hands out the next timestamp (`MonotonicOracle::next`). -/
def draw (o : Oracle) : Except Error Timestamp × Oracle :=
  match o.refusals with
  | refusal :: rest => (.error refusal, { o with refusals := rest })
  | [] => (.ok o.next, { o with next := o.next.next })

end Oracle

/-- A point of elapsed time, in nanoseconds. There is no last instant: that a platform has one, and
that `Instant + Duration` stops the caller beyond it, is left out. -/
abbrev Instant := Nat

/-- A measure of elapsed time. -/
structure Stopwatch where
  elapsed : Instant
deriving DecidableEq, Inhabited

namespace Stopwatch

/-- Lets time pass. -/
def wait (w : Stopwatch) (d : Duration) : Stopwatch :=
  ⟨w.elapsed + d.nanos⟩

/-- The time that goes by with every reading. -/
def tick : Duration := ⟨1000⟩

/-- Reads the stopwatch. -/
def read (w : Stopwatch) : Instant × Stopwatch :=
  (w.elapsed, w.wait tick)

end Stopwatch

end TxnEngine
