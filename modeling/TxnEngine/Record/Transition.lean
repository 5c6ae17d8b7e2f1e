import TxnEngine.Record

/-!
# Transitions of a record

The five ways a record is asked to change. A request is applied, leaves the record as it is because
it asks for what already holds, or is rejected. A live record found expired by a commit or a renewal
is rejected with its rolled-back image.

Main statement: `apply_finished`, no request changes a finished record.
-/

namespace TxnEngine

/-- A request to change a record (`Transition`). -/
inductive Transition where
  | commit (ts : Timestamp) (now timeout : Millis)
  | rollback
  | fail
  /-- The owner is still there at `now`. -/
  | keepAlive (now timeout : Millis)
  /-- Roll back what has expired at `now`. -/
  | abandon (now timeout : Millis)
deriving DecidableEq, Inhabited

/-- The answer to a request, with the image of the record behind it (`TransitionOutcome`). -/
inductive TransitionOutcome where
  | applied (record : Record)
  | unchanged (record : Record)
  | rejected (record : Record)
deriving DecidableEq, Inhabited

namespace TransitionOutcome

/-- The image behind the request (`TransitionOutcome::record`). -/
def record : TransitionOutcome → Record
  | applied r | unchanged r | rejected r => r

/-- Whether the request was granted (`TransitionOutcome::is_accepted`). -/
def isAccepted : TransitionOutcome → Bool
  | rejected _ => false
  | _ => true

end TransitionOutcome

namespace Record

/-- The answer of the record to a request (`TxnRecord::apply`). -/
def apply (r : Record) : Transition → TransitionOutcome
  | .commit ts now timeout =>
    match r.state with
    | .active =>
      if r.isExpired now timeout then .rejected { r with state := .rolledBack }
      else .applied { r with state := .committed, commitTs := some ts }
    | _ => .rejected r
  | .rollback =>
    match r.state with
    | .active => .applied { r with state := .rolledBack }
    | .rolledBack => .unchanged r
    | _ => .rejected r
  | .fail =>
    match r.state with
    | .active => .applied { r with state := .error }
    | .error => .unchanged r
    | _ => .rejected r
  | .keepAlive now timeout =>
    match r.state with
    | .active =>
      if r.isExpired now timeout then .rejected { r with state := .rolledBack }
      else .applied { r with lastKeepAlive := max r.lastKeepAlive now }
    | _ => .rejected r
  | .abandon now timeout =>
    match r.state with
    | .active =>
      if r.isExpired now timeout then .applied { r with state := .rolledBack } else .rejected r
    | .rolledBack => .unchanged r
    | _ => .rejected r

/-- No request changes a finished record, and none is applied to it. -/
theorem apply_finished (r : Record) (t : Transition) (h : r.isFinished = true) :
    r.apply t = .unchanged r ∨ r.apply t = .rejected r := by
  cases hs : r.state <;> cases t <;> simp_all [apply, isFinished, TxnState.isFinished]

end Record

end TxnEngine
