import TxnEngine.Clock

/-!
# Deadlines

When each registered transaction is next due for a renewal. The deadlines are kept in ascending
order; an id has at most one. Taking the due ones moves those of live transactions one interval
ahead and drops the others, which can then be scheduled anew. Time goes on without end here: the last
instant of a platform is left out.
-/

namespace TxnEngine

/-- A transaction and the time it is due. -/
structure Deadline where
  due : Instant
  id : TxnId
deriving DecidableEq, Inhabited

/-- Whether `a` comes before `b`: the earlier deadline, of two at the same time the smaller id. -/
def Deadline.before (a b : Deadline) : Bool :=
  decide (a.due < b.due) || (decide (a.due = b.due) && decide (a.id < b.id))

/-- Puts a deadline at its place among ascending ones. -/
def Deadline.insertSorted (d : Deadline) : List Deadline → List Deadline
  | [] => [d]
  | e :: rest => if d.before e then d :: e :: rest else e :: insertSorted d rest

/-- The pending deadlines in ascending order, and the ids that have one (`Deadlines`). -/
structure Deadlines where
  pending : List Deadline
  scheduled : List TxnId
deriving DecidableEq, Inhabited

namespace Deadlines

def empty : Deadlines := ⟨[], []⟩

/-- Gives an id its deadline, unless it has one (`Deadlines::schedule`). -/
def schedule (d : Deadlines) (id : TxnId) (due : Instant) : Bool × Deadlines :=
  if id ∈ d.scheduled then (false, d)
  else (true, ⟨Deadline.insertSorted ⟨due, id⟩ d.pending, id :: d.scheduled⟩)

/-- The time from `now` to the earliest deadline, or `idle` if there is none (`Deadlines::wait`). -/
def wait (d : Deadlines) (now : Instant) (idle : Duration) : Duration :=
  match d.pending with
  | [] => idle
  | first :: _ => ⟨first.due - now⟩

/-- Takes the due deadlines off the front, at most `fuel` of them (the loop of
`Deadlines::take_due`). The live ones go back one interval ahead of `now`. That `now + interval` may
lie beyond the last instant of a platform, which stops the caller, is left out. -/
def drain (now : Instant) (interval : Duration) (isLive : TxnId → Bool) :
    (fuel : Nat) → Deadlines → List TxnId × Deadlines
  | 0, d => ([], d)
  | fuel + 1, d =>
    match d.pending with
    | [] => ([], d)
    | first :: rest =>
      if now < first.due then ([], d)
      else if isLive first.id then
        let again : Deadline := ⟨now + interval.nanos, first.id⟩
        let (taken, d) := drain now interval isLive fuel ⟨again.insertSorted rest, d.scheduled⟩
        (first.id :: taken, d)
      else drain now interval isLive fuel ⟨rest, d.scheduled.erase first.id⟩

/-- The live ids that are due at `now`, in the order of their deadlines, and the deadlines that are
left (`Deadlines::take_due`). With a positive interval no id is taken twice, so there are as many
steps as deadlines. -/
def takeDue (d : Deadlines) (now : Instant) (interval : Duration) (isLive : TxnId → Bool) :
    List TxnId × Deadlines :=
  drain now interval isLive (d.pending.length + 1) d

end Deadlines

end TxnEngine
