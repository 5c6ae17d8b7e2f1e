import TxnEngine.Workload.Fixture

/-!
# Scenarios

Small histories with a known outcome: a load of ten rows of which two are sent twice and one is
refused, a writer and a reader after it, writers that commit between the snapshots of readers, and a
writer that its owner abandons.
-/

namespace TxnEngine.Workload

open Program

variable {σ α : Type}

/-! ## Rows -/

/-- The key of the partition that the rows belong to. -/
def partitionKey : Bytes :=
  .ofText "orders"

/-- The key of row `i` (`row_key`). -/
def rowKey (i : Nat) : Bytes :=
  .ofText ("row-" ++ toString i)

/-- An order of item `i`. -/
def numberedRow (i : Nat) : Mutation :=
  (Mutation.insert (rowKey i) (.ofText (toString i ++ "|item-" ++ toString i))).withSourceText
    (toString i ++ ",item-" ++ toString i)

/-- The first `n` orders (`numbered_rows`). -/
def numberedRows (n : Nat) : List Mutation :=
  (List.range n).map numberedRow

/-- The outcome of an order whose item was ordered before (`unique_violation`). -/
def uniqueViolation : Outcome :=
  .constraint
    { kind := .unique
      message := some "duplicate key value violates unique constraint"
      context := some ⟨"orders_sku_key", some "orders", ["sku"]⟩ }

/-- The script by which rows 3 and 7 of ten are busy once and row 5 is refused
(`script_ten_row_load`). -/
def scriptTenRows (s : ScriptedSubstrate) : ScriptedSubstrate :=
  ((s.script (rowKey 3) [.ofCode .regionTooBusy]).script (rowKey 7)
    [.ofCode .regionTooBusy]).script (rowKey 5) [uniqueViolation]

/-- Ten scripted rows as one batch of a transaction. -/
def tenRowLoad (permissive : Bool) (tolerance : Int) :
    Program (Engine ScriptedSubstrate) (Except Error BatchResult) := do
  Program.modify fun e => { e with writes.substrate := scriptTenRows e.writes.substrate }
  match ← Engine.beginTransaction with
  | .error e => return .error e
  | .ok t =>
    let (answer, _) ← Engine.submitWriteBatch t (numberedRows 10) permissive tolerance
    return answer

/-! ## Histories -/

/-- A step of a history that ends at its first refusal. -/
def step (p : Program (Engine σ) (Except Error α)) : ExceptT Error (Program (Engine σ)) α :=
  ExceptT.mk p

/-- The commit of a transaction as a step of a history. -/
def commitStep (t : Transaction) : ExceptT Error (Program (Engine σ)) Timestamp :=
  ExceptT.mk do
    let (answer, _) ← Engine.commit t
    return answer

/-- What a writer and a reader that begins after it are answered. -/
structure Walkthrough where
  batch : Except Error BatchResult
  /-- The writer's status in front of its commit. -/
  before : TxnStatus
  commitTs : Timestamp
  /-- Whether the reader sees the writer. -/
  isVisible : Bool

/-- A writer that carries one batch and commits, and a reader that begins after it. -/
def walkthrough [Substrate σ] (rows : List Mutation) (permissive : Bool) (tolerance : Int) :
    Program (Engine σ) (Except Error Walkthrough) := ExceptT.run do
  let writer ← step Engine.beginTransaction
  let (batch, writer) ← ExceptT.lift (Engine.submitWriteBatch writer rows permissive tolerance)
  let before ← step (Engine.status writer.id)
  let commitTs ← commitStep writer
  let reader ← step Engine.beginReadOnly
  let isVisible ← step (Engine.isVisible reader writer.id)
  return ⟨batch, before, commitTs, isVisible⟩

/-- What readers see whose snapshots lie before, between and after two commits
(`check_snapshot_ordering`): each sees exactly the commits before its snapshot. Answers whether that
is so. -/
def snapshotOrdering : Program (Engine σ) (Except Error Bool) := ExceptT.run do
  let a ← step Engine.beginTransaction
  let b ← step Engine.beginTransaction
  let before ← step Engine.beginReadOnly
  let commitA ← commitStep a
  let between ← step Engine.beginReadOnly
  let commitB ← commitStep b
  let after ← step Engine.beginReadOnly
  let sees ← [(before, a), (before, b), (between, a), (between, b), (after, a), (after, b)].mapM
    fun (reader, writer) => step (Engine.isVisible reader writer.id)
  return commitA < between.snapshot && between.snapshot < commitB &&
    sees = [false, false, true, false, true, true]

/-- A writer that is no longer kept alive and has expired (`check_abandoned_writer_invisible`): it
is invisible and has a final status. Answers whether that is so. -/
def abandonedWriter : Program (Engine σ) (Except Error Bool) := ExceptT.run do
  let writer ← step Engine.beginTransaction
  ExceptT.lift do
    Engine.onManager (Manager.onKeepAlive (KeepAlive.unregister writer.id))
    Fixture.expireAll
  let reader ← step Engine.beginReadOnly
  let seen ← step (Engine.isVisible reader writer.id)
  let status ← step (Engine.onManager (Manager.status writer.id))
  return !seen && status.final?.isSome

/-- The scenario of that name. -/
def scenario? (name : String) : Option (Program (Engine σ) (Except Error Bool)) :=
  if name = "snapshot_ordering" then some snapshotOrdering
  else if name = "abandoned_writer" then some abandonedWriter
  else none

end TxnEngine.Workload
