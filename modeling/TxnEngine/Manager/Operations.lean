import TxnEngine.Manager

/-!
# Operations of the transaction manager

Beginning, ending and observing transactions, each as a program of atomic actions in the order in
which they take effect. An operation on a transaction answers with the transaction as its owner has
it from then on, also when it fails.

A commit draws its timestamp first and is decided by the record: it succeeds if the record is live
and not expired. A transaction without a record commits at its own snapshot.
-/

namespace TxnEngine

namespace Manager

open Program

/-! ## Beginning -/

/-- Begins a transaction with a record (`TransactionManager::begin`). -/
def begin : Program Manager (Except Error Transaction) := do
  match ← drawTimestamp with
  | .error e => return .error e
  | .ok ts =>
    let now ← readClock
    let record := Record.start ts now false
    match ← createRecord record with
    | .error e => return .error e
    | .ok () =>
      track record.id
      count .begin
      return .ok (.new record.id false)

/-- Begins a transaction that only reads and has no record
(`TransactionManager::begin_read_only`). -/
def beginReadOnly : Program Manager (Except Error Transaction) := do
  match ← drawTimestamp with
  | .error e => return .error e
  | .ok ts =>
    let id := TxnId.ofBegin ts
    enter id
    count .begin
    return .ok (.new id true)

/-- Gives a read-only transaction a record and lets it write (`TransactionManager::elevate`). -/
def elevate (t : Transaction) : Program Manager (Except Error Unit × Transaction) := do
  if !t.isActive then return (.error (.invalidOperation .notActive), t)
  else if t.isPersisted then return (.ok (), t)
  else
    let now ← readClock
    let record := Record.start t.snapshot now true
    match ← createRecord record with
    | .error e => return (.error e, t)
    | .ok () =>
      track record.id
      return (.ok (), t.elevated)

/-! ## Ending -/

/-- Commits a transaction, and answers its commit timestamp (`TransactionManager::commit`). -/
def commit (t : Transaction) : Program Manager (Except Error Timestamp × Transaction) := do
  if !t.isActive then return (.error (.invalidOperation .notActive), t)
  else if !t.isPersisted then
    untrack t.id
    count .commit
    return (.ok t.snapshot, t.committedAt t.snapshot)
  else
    match ← drawTimestamp with
    | .error e => return (.error e, t)
    | .ok ts =>
      let now ← readClock
      let timeout ← Program.read fun m => m.timeout
      match ← transition t.id (.commit ts now timeout) with
      | .error e => return (.error e, t)
      | .ok (.applied record) =>
        untrack t.id
        remember record
        count .commit
        return (.ok ts, t.committedAt ts)
      | .ok (.unchanged record) | .ok (.rejected record) =>
        untrack t.id
        remember record
        count .conflict
        return (.error (.conflict t.id record.state), t.abort)

/-- Rolls a transaction back (`TransactionManager::rollback`). To roll back once more is no
error. -/
def rollback (t : Transaction) : Program Manager (Except Error Unit × Transaction) := do
  match t.phase with
  | .aborted => return (.ok (), t)
  | .committed => return (.error (.conflict t.id .committed), t)
  | .active =>
    if !t.isPersisted then
      untrack t.id
      return (.ok (), t.abort)
    else
      match ← transition t.id .rollback with
      | .error e => return (.error e, t)
      | .ok outcome =>
        untrack t.id
        remember outcome.record
        match outcome with
        | .applied _ =>
          count .rollback
          return (.ok (), t.abort)
        | .unchanged _ => return (.ok (), t.abort)
        | .rejected record =>
          count .conflict
          return (.error (.conflict t.id record.state), t.abort)

/-- Ends a transaction because its owner failed (`TransactionManager::fail`). -/
def fail (t : Transaction) : Program Manager (Except Error Unit × Transaction) := do
  if !t.isActive then return (.ok (), t)
  else if !t.isPersisted then
    untrack t.id
    return (.ok (), t.abort)
  else
    match ← transition t.id .fail with
    | .error e => return (.error e, t)
    | .ok outcome =>
      untrack t.id
      remember outcome.record
      match outcome with
      | .applied _ =>
        count .failure
        return (.ok (), t.abort)
      | _ => return (.ok (), t.abort)

/-! ## Observing -/

/-- The record of a transaction, from the cache or from the log (`TransactionManager::lookup`). -/
def lookup (id : TxnId) : Program Manager (Except Error Record) := do
  match ← cached id with
  | some record =>
    count .cacheHit
    return .ok record
  | none =>
    count .cacheMiss
    match ← getRecord id with
    | none => return .error (.transactionNotFound id)
    | some record =>
      if record.isFinished then remember record
      return .ok record

/-- The status of a transaction (`TransactionManager::status`): its record, judged by the clock as
it is after the look-up. -/
def status (id : TxnId) : Program Manager (Except Error TxnStatus) := do
  match ← lookup id with
  | .error e => return .error e
  | .ok record =>
    let now ← readClock
    let timeout ← Program.read fun m => m.timeout
    return .ok (record.status now timeout)

/-- Whether a reader at `snapshot` sees what `candidate` wrote
(`TransactionManager::is_visible_at`). A reader sees its own writes. A candidate that began at or
after the snapshot cannot have committed before it. -/
def isVisibleAt (snapshot : Timestamp) (own : Option TxnId) (candidate : TxnId) :
    Program Manager (Except Error Bool) := do
  if own = some candidate then return .ok true
  else if snapshot ≤ candidate.beginTs then return .ok false
  else
    match ← status candidate with
    | .error e => return .error e
    | .ok (.committed ts) => return .ok (decide (ts ≤ snapshot))
    | .ok _ => return .ok false

/-- Whether a transaction sees what `candidate` wrote (`TransactionManager::is_visible`). -/
def isVisible (reader : Transaction) (candidate : TxnId) : Program Manager (Except Error Bool) :=
  isVisibleAt reader.snapshot (some reader.id) candidate

/-- The final status of a transaction, if it has one (`TransactionManager::settle`). An expired
transaction is given one: it is rolled back in the log. The clock is read before the record. -/
def settle (id : TxnId) : Program Manager (Except Error (Option FinalStatus)) := do
  let now ← readClock
  match ← lookup id with
  | .error e => return .error e
  | .ok record =>
    let timeout ← Program.read fun m => m.timeout
    let status := record.status now timeout
    if status ≠ .abandoned then return .ok status.final?
    else
      match ← transition id (.abandon now timeout) with
      | .error e => return .error e
      | .ok outcome =>
        let settled := outcome.record
        if let .applied _ := outcome then
          count .abandon
          untrack id
        remember settled
        return .ok (settled.status now timeout).final?

end Manager

end TxnEngine
