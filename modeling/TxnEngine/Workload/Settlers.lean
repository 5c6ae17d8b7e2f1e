import TxnEngine.Workload.Fixture

/-!
# Settlers

Several parties that settle one writer's transaction, and a crash in the middle of things: what is
left of three transactions, one committed, one rolled back and one live, when the engine is opened
again and the live one expires.
-/

namespace TxnEngine.Workload

open Program

variable {σ : Type}

/-- How far a writer has got when it is settled. -/
inductive WriterEnd where
  | live
  | expired
  | committed
  | rolledBack
deriving DecidableEq, Inhabited

/-- Begins a transaction and brings it to its end. -/
def writerAt (ending : WriterEnd) : Program (Engine σ) (Except Error Transaction) := do
  match ← Engine.beginTransaction with
  | .error e => return .error e
  | .ok t =>
    match ending with
    | .live => return .ok t
    | .expired =>
      Engine.onManager (Manager.onKeepAlive (KeepAlive.unregister t.id))
      Fixture.expireAll
      return .ok t
    | .committed =>
      let (answer, t) ← Engine.commit t
      return answer.map fun _ => t
    | .rolledBack =>
      let (answer, t) ← Engine.rollback t
      return answer.map fun _ => t

/-- A number of parties settle a transaction. -/
def settleRepeatedly (id : TxnId) :
    Nat → Program Manager (List (Except Error (Option FinalStatus)))
  | 0 => return []
  | n + 1 => do
    let seen ← Manager.settle id
    return seen :: (← settleRepeatedly id n)

/-- A writer is brought to its end, and a number of parties settle it, or the transaction that was
chosen instead (`race_settlers`). -/
def settlers (ending : WriterEnd) (chosen : Option TxnId) (parties : Nat) :
    Program (Engine σ) (Except Error (List (Except Error (Option FinalStatus)))) := do
  match ← writerAt ending with
  | .error e => return .error e
  | .ok t => return .ok (← Engine.onManager (settleRepeatedly (chosen.getD t.id) parties))

/-! ## Opening again -/

/-- What is left after an engine was opened again. -/
structure Recovery where
  /-- The statuses of the committed, the rolled back and the live transaction. -/
  before : List (Except Error TxnStatus)
  /-- What settling the live one answers after it has expired, if the log was kept. -/
  settled : Option (Except Error (Option FinalStatus))
  /-- The id of a transaction begun after all. -/
  next : TxnId

/-- Three transactions of which one commits and one rolls back. -/
def threeWriters : Program (Engine σ) (Except Error (List TxnId)) := do
  match ← writerAt .live, ← writerAt .live, ← writerAt .live with
  | .ok a, .ok b, .ok c =>
    let _ ← Engine.commit a
    let _ ← Engine.rollback b
    return .ok [a.id, b.id, c.id]
  | .error e, _, _ | _, .error e, _ | _, _, .error e => return .error e

/-- The statuses of a list of transactions. -/
def statuses : List TxnId → Program (Engine σ) (List (Except Error TxnStatus))
  | [] => return []
  | id :: rest => do
    let status ← Engine.status id
    return status :: (← statuses rest)

/-- What an engine finds of three transactions after it was opened again. An engine in memory is not
opened again. -/
def recovery (f : Fixture) : Except Error Recovery := do
  let (ids, f) := f.run threeWriters
  let ids ← ids
  let keepsLog := f.logKind = .file
  let (reopened, f) := if keepsLog then f.reopen else (.ok (), f)
  reopened
  let (before, f) := f.run (statuses ids)
  let (_, f) := f.run Fixture.expireAll
  let (settled, f) :=
    match (if keepsLog then ids.getLast? else none) with
    | some id =>
      let (answer, f) := f.run (Engine.onManager (Manager.settle id))
      (some answer, f)
    | none => (none, f)
  let (next, _) := f.run Engine.beginTransaction
  return ⟨before, settled, (← next).id⟩

end TxnEngine.Workload
