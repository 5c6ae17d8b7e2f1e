import TxnEngine.Error
import TxnEngine.Table
import TxnEngine.Text.Lossy

/-!
# Write substrates

What a write pipeline hands over and gets back. A substrate writes the rows of a call to a partition
and reports an outcome for each, or one for all of them; a locator knows the way to a partition.

`Substrate` is the interface, `ScriptedSubstrate` a substrate that answers as it was told to.
-/

namespace TxnEngine

/-- What is done to a row. -/
inductive MutationKind where
  | insert
  | upsert
  | update
  | delete
deriving DecidableEq, Inhabited

/-- A change of one row (`Mutation`). -/
structure Mutation where
  rowKey : Bytes
  kind : MutationKind
  payload : Bytes
  /-- The text the row was read from. -/
  sourceText : Option String
deriving DecidableEq, Inhabited

namespace Mutation

/-- An insertion without source text (`Mutation::insert`). -/
def insert (rowKey payload : Bytes) : Mutation :=
  ⟨rowKey, .insert, payload, none⟩

/-- A deletion, which has no payload (`Mutation::delete`). -/
def delete (rowKey : Bytes) : Mutation :=
  ⟨rowKey, .delete, [], none⟩

/-- The change with the text it was read from (`Mutation::with_source_text`). -/
def withSourceText (m : Mutation) (text : String) : Mutation :=
  { m with sourceText := some text }

/-- The text by which a rejected row is reported (`Mutation::report_text`): its source text, or else
its payload. -/
def reportText (m : Mutation) : String :=
  match m.sourceText with
  | some text => text
  | none => Text.Lossy.decode m.payload

end Mutation

/-- The answer to a call (`BatchResponse`): an outcome for all its rows, or one for each. -/
structure BatchResponse where
  overall : Option Outcome
  outcomes : List Outcome
deriving DecidableEq, Inhabited

namespace BatchResponse

/-- The outcome of a row for which none is reported. -/
def unreported : Outcome :=
  .notRun (some "no outcome reported")

/-- The outcome of the row at `index` of the call (`BatchResponse::outcome_for`). -/
def outcomeFor (r : BatchResponse) (index : Nat) : Outcome :=
  match r.overall with
  | some outcome => outcome
  | none => (r.outcomes[index]?).getD unreported

end BatchResponse

/-- A system that writes rows (`Substrate`). -/
class Substrate (σ : Type) where
  /-- Writes rows to a partition on behalf of a transaction. -/
  write : PartitionAddress → TxnId → List Mutation → σ → Except Error BatchResponse × σ

/-! ## The locator -/

/-- A locator with a single partition (`StaticLocator`). Dropping the route moves on to the next
generation. -/
structure Locator where
  partition : String
  server : String
  generation : Nat
  invalidations : Nat
  /-- Refusals that the next calls meet instead, in order. -/
  refusals : List Error
deriving DecidableEq, Inhabited

namespace Locator

/-- A locator that has not been used (`StaticLocator::new`). -/
def new (partition server : String) : Locator :=
  ⟨partition, server, 0, 0, []⟩

/-- The locator of an engine that is given none. -/
def localDefault : Locator :=
  new "p0" "local"

/-- The route to the partition of a key (`StaticLocator::locate`). -/
def locate (l : Locator) : Except Error PartitionAddress × Locator :=
  match l.refusals with
  | refusal :: rest => (.error refusal, { l with refusals := rest })
  | [] => (.ok ⟨l.partition, l.server, l.generation⟩, l)

/-- Drops the route (`StaticLocator::invalidate`). -/
def invalidate (l : Locator) : Locator :=
  { l with generation := l.generation + 1, invalidations := l.invalidations + 1 }

end Locator

/-! ## The scripted substrate -/

/-- A call as it arrived. -/
structure RecordedCall where
  address : PartitionAddress
  txn : TxnId
  rowKeys : List Bytes
deriving DecidableEq, Inhabited

/-- A substrate that answers as it was told to (`ScriptedSubstrate`). Prepared answers come first
and leave no trace. Then a call is recorded and meets the next call error, the next overall outcome,
or the script of each of its rows, in this order; a row without a script succeeds. -/
structure ScriptedSubstrate where
  prepared : List BatchResponse
  callErrors : List Error
  overalls : List Outcome
  scripts : Table Bytes (List Outcome)
  /-- Every recorded call, the last first. -/
  calls : List RecordedCall
  /-- The key of every row that was written, the last first. -/
  written : List Bytes
deriving DecidableEq, Inhabited

namespace ScriptedSubstrate

def empty : ScriptedSubstrate := ⟨[], [], [], [], [], []⟩

/-- Puts outcomes at the end of a row's script (`ScriptedSubstrate::script`). -/
def script (s : ScriptedSubstrate) (rowKey : Bytes) (outcomes : List Outcome) : ScriptedSubstrate :=
  { s with scripts := s.scripts.insert rowKey (s.scripts.findD rowKey [] ++ outcomes) }

/-- Notes that a row was written. -/
def markWritten (s : ScriptedSubstrate) (rowKey : Bytes) : ScriptedSubstrate :=
  { s with written := rowKey :: s.written }

/-- The outcome of one row by its script. -/
def answerRow (s : ScriptedSubstrate) (rowKey : Bytes) : Outcome × ScriptedSubstrate :=
  match s.scripts.find? rowKey with
  | some (outcome :: rest) =>
    let s := { s with scripts := s.scripts.insert rowKey rest }
    (outcome, if outcome.isSuccess then s.markWritten rowKey else s)
  | _ => (.success, s.markWritten rowKey)

/-- The outcomes of rows by their scripts, in order. -/
def answerRows (s : ScriptedSubstrate) : List Bytes → List Outcome × ScriptedSubstrate
  | [] => ([], s)
  | rowKey :: rest =>
    let (outcome, s) := s.answerRow rowKey
    let (outcomes, s) := s.answerRows rest
    (outcome :: outcomes, s)

/-- The answer to a call (`ScriptedSubstrate::write`). -/
def answer (s : ScriptedSubstrate) (address : PartitionAddress) (txn : TxnId)
    (rows : List Mutation) : Except Error BatchResponse × ScriptedSubstrate :=
  match s.prepared with
  | response :: rest => (.ok response, { s with prepared := rest })
  | [] =>
    let rowKeys := rows.map Mutation.rowKey
    let s := { s with calls := RecordedCall.mk address txn rowKeys :: s.calls }
    match s.callErrors with
    | e :: rest => (.error e, { s with callErrors := rest })
    | [] =>
      match s.overalls with
      | outcome :: rest =>
        let s := { s with overalls := rest }
        (.ok ⟨some outcome, []⟩, if outcome.isSuccess then rowKeys.foldl markWritten s else s)
      | [] =>
        let (outcomes, s) := s.answerRows rowKeys
        (.ok ⟨none, outcomes⟩, s)

instance : Substrate ScriptedSubstrate where
  write address txn rows s := s.answer address txn rows

/-- The number of calls that carried a row (`ScriptedSubstrate::attempts_for`). -/
def attemptsFor (s : ScriptedSubstrate) (rowKey : Bytes) : Nat :=
  (s.calls.filter fun c => c.rowKeys.contains rowKey).length

/-- How often a row was written (`ScriptedSubstrate::writes_of`). -/
def writesOf (s : ScriptedSubstrate) (rowKey : Bytes) : Nat :=
  s.written.count rowKey

/-- The number of different keys in a list in which equal keys stand together. -/
def differentKeys : List Bytes → Nat
  | [] => 0
  | [_] => 1
  | a :: b :: rest => (if a = b then 0 else 1) + differentKeys (b :: rest)

/-- The number of rows written at least once (`ScriptedSubstrate::distinct_rows_written`). -/
def distinctRowsWritten (s : ScriptedSubstrate) : Nat :=
  differentKeys (s.written.mergeSort fun a b => decide (a ≤ b))

end ScriptedSubstrate

end TxnEngine
