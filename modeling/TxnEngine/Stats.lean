/-!
# Write statistics

What happened to the rows of a write. Statistics are added field by field, in order, and the addition
stops at the first field whose sum does not fit into 64 bits; a `Tally` adds up the statistics of
many contributors and counts them.

Main statement: `merge_of_fits`, an addition whose sums all fit is the sum field by field.
-/

namespace TxnEngine

/-- What happened to the rows of a write (`WriteStats`). -/
structure WriteStats where
  /-- Rows written. -/
  written : Nat
  /-- Rows sent again. -/
  retried : Nat
  /-- Rows still failing after the last attempt. -/
  thrown : Nat
  /-- Answers that the receiving side was overloaded. -/
  regionTooBusy : Nat
  /-- Rows written in an attempt that also had failures. -/
  partialRows : Nat
  /-- Rows to be sent again after an attempt that also had successes. -/
  partialRetried : Nat
  /-- Rows rejected in an attempt that also had successes. -/
  partialIgnored : Nat
  /-- Rows rejected and reported. -/
  ignored : Nat
deriving DecidableEq, Inhabited

namespace WriteStats

def zero : WriteStats := ⟨0, 0, 0, 0, 0, 0, 0, 0⟩

/-- The sum, field by field (`Add` of `WriteStats`). -/
def add (a b : WriteStats) : WriteStats where
  written := a.written + b.written
  retried := a.retried + b.retried
  thrown := a.thrown + b.thrown
  regionTooBusy := a.regionTooBusy + b.regionTooBusy
  partialRows := a.partialRows + b.partialRows
  partialRetried := a.partialRetried + b.partialRetried
  partialIgnored := a.partialIgnored + b.partialIgnored
  ignored := a.ignored + b.ignored

instance : Add WriteStats := ⟨add⟩

/-- The fields in order. -/
def fields (s : WriteStats) : List Nat :=
  [s.written, s.retried, s.thrown, s.regionTooBusy, s.partialRows, s.partialRetried,
    s.partialIgnored, s.ignored]

/-- Whether every field fits into 64 bits. -/
def fits (s : WriteStats) : Bool :=
  s.fields.all fun n => decide (n < UInt64.size)

/-- The statistics with the given fields. -/
def ofFields : List Nat → WriteStats
  | [a, b, c, d, e, f, g, h] => ⟨a, b, c, d, e, f, g, h⟩
  | _ => zero

/-- Adds numbers one after the other. The first sum that does not fit ends the addition, and leaves
the numbers from there on as they were. Tells whether all sums fitted. -/
def addWords : List Nat → List Nat → Bool × List Nat
  | a :: as, b :: bs =>
    if a + b < UInt64.size then
      let (fitted, rest) := addWords as bs
      (fitted, (a + b) :: rest)
    else (false, a :: as)
  | as, _ => (true, as)

/-- Adds `b` to `a`, as far as the sums fit (`WriteStats::merge`). Tells whether all of them did. -/
def merge (a b : WriteStats) : Bool × WriteStats :=
  let (fitted, fields) := addWords a.fields b.fields
  (fitted, ofFields fields)

/-- The sum, if every field of it fits. -/
def merge? (a b : WriteStats) : Option WriteStats :=
  match merge a b with
  | (true, sum) => some sum
  | (false, _) => none

theorem merge_of_fits (a b : WriteStats) (h : (a + b).fits = true) :
    a.merge b = (true, a + b) := by
  obtain ⟨a1, a2, a3, a4, a5, a6, a7, a8⟩ := a
  obtain ⟨b1, b2, b3, b4, b5, b6, b7, b8⟩ := b
  change (add _ _).fits = true at h
  change merge _ _ = (true, add _ _)
  simp only [fits, fields, add, List.all_cons, List.all_nil, Bool.and_true, Bool.and_eq_true,
    decide_eq_true_eq] at h
  obtain ⟨h1, h2, h3, h4, h5, h6, h7, h8⟩ := h
  simp only [merge, fields, addWords, if_pos h1, if_pos h2, if_pos h3, if_pos h4, if_pos h5,
    if_pos h6, if_pos h7, if_pos h8, ofFields, add]

/-- The sum of a list, if every field fits on the way (`Sum` of `WriteStats`). -/
def sum? (stats : List WriteStats) : Option WriteStats :=
  stats.foldlM merge? zero

/-- The rows whose fate is decided, if their number fits (`WriteStats::rows_finished`). -/
def rowsFinished? (s : WriteStats) : Option Nat :=
  let rows := s.written + s.thrown + s.ignored
  if rows < UInt64.size then some rows else none

/-- Whether nothing was counted (`WriteStats::is_empty`). -/
def isEmpty (s : WriteStats) : Bool :=
  s = zero

end WriteStats

/-- The sum of the statistics of a number of contributors (`WriteStatsAggregator`). -/
structure Tally where
  total : WriteStats
  contributions : Nat
deriving DecidableEq, Inhabited

namespace Tally

def empty : Tally := ⟨.zero, 0⟩

/-- Counts contributors, if their number fits. Tells whether it did. -/
def count (t : Tally) (contributors : Nat) : Bool × Tally :=
  if t.contributions + contributors < UInt64.size then
    (true, { t with contributions := t.contributions + contributors })
  else (false, t)

/-- Adds statistics of a number of contributors, as far as that fits. Tells whether all of it did:
the contributors are counted only behind a complete addition. -/
def takeIn (t : Tally) (stats : WriteStats) (contributors : Nat) : Bool × Tally :=
  match t.total.merge stats with
  | (true, total) => { t with total }.count contributors
  | (false, total) => (false, { t with total })

/-- Counts one more contributor in (`WriteStatsAggregator::add`). -/
def add (t : Tally) (stats : WriteStats) : Bool × Tally :=
  t.takeIn stats 1

/-- Counts a list of contributors in, up to the first that does not fit
(`WriteStatsAggregator::extend`). -/
def extend (t : Tally) : List WriteStats → Bool × Tally
  | [] => (true, t)
  | stats :: rest =>
    match t.add stats with
    | (true, t) => extend t rest
    | (false, t) => (false, t)

/-- Counts in what another tally has counted (`WriteStatsAggregator::absorb`). -/
def absorb (t child : Tally) : Bool × Tally :=
  t.takeIn child.total child.contributions

end Tally

end TxnEngine
