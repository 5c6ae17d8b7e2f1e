import TxnEngine.BadRecords
import TxnEngine.Json.Value
import TxnEngine.Metrics
import TxnEngine.Stamps
import TxnEngine.Stats

/-!
# The JSON forms of the engine's values

A structure is an object of its fields; it is also read from an array of exactly its fields in
order. Fields that the structure does not have are passed over, a repeated field is refused, and a
missing field stands for `null` if the field is optional. A case without content is its name, and is
also read from an object with that name and `null`; a case with content is an object of one member.
-/

namespace TxnEngine

namespace Json

/-! ## Structures and cases -/

/-- A field of a structure. -/
structure Field where
  name : String
  isOptional : Bool

/-- A field that has to be there. -/
def needed (name : String) : Field := ⟨name, false⟩

/-- A field that stands for `null` where it is missing. -/
def optional (name : String) : Field := ⟨name, true⟩

/-- The value of a field among members. -/
def fieldOf? (ms : List (String × Json)) (f : Field) : Option Json :=
  match members f.name ms with
  | [value] => some value
  | [] => if f.isOptional then some null else none
  | _ => none

/-- The values of a structure's fields, in order. -/
def fields? (fs : List Field) : Json → Option (List Json)
  | object ms => fs.mapM (fieldOf? ms)
  | array items => if items.length = fs.length then some items else none
  | _ => none

/-- The name of a case and its content, `null` where only the name is given. -/
def case? : Json → Option (String × Option Json)
  | string name => some (name, none)
  | object [(name, content)] => some (name, some content)
  | _ => none

/-- The case without content of that name. -/
def bareCase? (j : Json) : Option String :=
  match j.case? with
  | some (name, none) => some name
  | some (name, some null) => some name
  | _ => none

/-- A case with content. -/
def tagged (name : String) (content : Json) : Json :=
  object [(name, content)]

/-- A value that may be missing, as `null`. -/
def option? {α : Type} (f : Json → Option α) : Json → Option (Option α)
  | null => some none
  | j => (f j).map some

end Json

open Json (nat needed optional tagged)

/-! ## Identifiers -/

def Timestamp.toJson (ts : Timestamp) : Json := nat ts.val.toNat

def Timestamp.ofJson? (j : Json) : Option Timestamp :=
  j.word?.map fun n => ⟨UInt64.ofNat n⟩

def TxnId.toJson (id : TxnId) : Json := nat id.val.toNat

def TxnId.ofJson? (j : Json) : Option TxnId :=
  j.word?.map fun n => ⟨UInt64.ofNat n⟩

def TableId.toJson (id : TableId) : Json := nat id.val.toNat

def TableId.ofJson? (j : Json) : Option TableId :=
  (j.natBelow? UInt32.size).map fun n => ⟨UInt32.ofNat n⟩

/-! ## Records and stamps -/

/-- The name of a state in its JSON form. -/
def TxnState.caseName : TxnState → String
  | active => "Active"
  | committed => "Committed"
  | rolledBack => "RolledBack"
  | error => "Error"

def TxnState.toJson (s : TxnState) : Json := .string s.caseName

def TxnState.ofJson? (j : Json) : Option TxnState := do
  let name ← j.bareCase?
  TxnState.all.find? fun s => s.caseName = name

def FinalStatus.toJson : FinalStatus → Json
  | committed ts => tagged "Committed" ts.toJson
  | rolledBack => .string "RolledBack"

def FinalStatus.ofJson? (j : Json) : Option FinalStatus :=
  match j.case? with
  | some ("Committed", some content) => (Timestamp.ofJson? content).map .committed
  | some ("RolledBack", none) | some ("RolledBack", some .null) => some .rolledBack
  | _ => none

def CellStamp.toJson (s : CellStamp) : Json :=
  .object [("txn_id", s.txnId.toJson), ("status", .ofOption FinalStatus.toJson s.status)]

def CellStamp.ofJson? (j : Json) : Option CellStamp := do
  match ← j.fields? [needed "txn_id", optional "status"] with
  | [txnId, status] =>
    return ⟨← TxnId.ofJson? txnId, ← Json.option? FinalStatus.ofJson? status⟩
  | _ => none

/-! ## Outcomes -/

/-- The name of a kind in its JSON form. -/
def ConstraintKind.caseName : ConstraintKind → String
  | primaryKey => "PrimaryKey"
  | unique => "Unique"
  | foreignKey => "ForeignKey"
  | check => "Check"
  | notNull => "NotNull"

/-- The kind of that name. -/
def ConstraintKind.ofCaseName? (name : String) : Option ConstraintKind :=
  [primaryKey, unique, foreignKey, check, notNull].find? fun k => k.caseName = name

def ConstraintKind.toJson (k : ConstraintKind) : Json := .string k.caseName

def ConstraintKind.ofJson? (j : Json) : Option ConstraintKind := do
  ofCaseName? (← j.bareCase?)

def ConstraintContext.toJson (c : ConstraintContext) : Json :=
  .object [("constraint", .string c.constraint), ("table", .ofOption .string c.table),
    ("columns", .array (c.columns.map .string))]

def ConstraintContext.ofJson? (j : Json) : Option ConstraintContext := do
  match ← j.fields? [needed "constraint", optional "table", needed "columns"] with
  | [constraint, table, columns] =>
    return ⟨← constraint.string?, ← Json.option? Json.string? table,
      ← (← columns.array?).mapM Json.string?⟩
  | _ => none

def ConstraintViolation.toJson (v : ConstraintViolation) : Json :=
  .object [("kind", v.kind.toJson), ("message", .ofOption .string v.message),
    ("context", .ofOption ConstraintContext.toJson v.context)]

def ConstraintViolation.ofJson? (j : Json) : Option ConstraintViolation := do
  match ← j.fields? [needed "kind", optional "message", optional "context"] with
  | [kind, message, context] =>
    return ⟨← ConstraintKind.ofJson? kind, ← Json.option? Json.string? message,
      ← Json.option? ConstraintContext.ofJson? context⟩
  | _ => none

/-- The name of a code in its JSON form. -/
def OutcomeCode.caseName : OutcomeCode → String
  | success => "Success"
  | partialRow => "Partial"
  | notRun => "NotRun"
  | wrongRegion => "WrongRegion"
  | notServingRegion => "NotServingRegion"
  | regionTooBusy => "RegionTooBusy"
  | pipelineTooBusy => "PipelineTooBusy"
  | indexNotSetup => "IndexNotSetup"
  | interrupted => "Interrupted"
  | writeConflict => "WriteConflict"
  | constraint _ => "Constraint"

/-- The codes other than violated constraints. -/
def OutcomeCode.plain : List OutcomeCode :=
  [success, partialRow, notRun, wrongRegion, notServingRegion, regionTooBusy, pipelineTooBusy,
    indexNotSetup, interrupted, writeConflict]

/-- The code of that name, other than a violated constraint. -/
def OutcomeCode.ofCaseName? (name : String) : Option OutcomeCode :=
  plain.find? fun c => c.caseName = name

def OutcomeCode.toJson : OutcomeCode → Json
  | constraint kind => tagged "Constraint" kind.toJson
  | code => .string code.caseName

def OutcomeCode.ofJson? (j : Json) : Option OutcomeCode :=
  match j.case? with
  | some ("Constraint", some content) => (ConstraintKind.ofJson? content).map .constraint
  | _ => do ofCaseName? (← j.bareCase?)

def Outcome.toJson : Outcome → Json
  | success => .string "Success"
  | constraint v => tagged "Constraint" v.toJson
  | o => tagged o.code.caseName (.ofOption .string o.message?)

/-- The outcome with a plain code and an optional message. Success has no content but `null`. -/
def Outcome.ofContent? (code : OutcomeCode) (content : Json) : Option Outcome :=
  match code with
  | .success => if content.isNull then some .success else none
  | _ => do
    match ← Json.option? Json.string? content with
    | some message => return (Outcome.ofCode code).withMessage message
    | none => return Outcome.ofCode code

def Outcome.ofJson? (j : Json) : Option Outcome :=
  match j.case? with
  | some ("Success", none) => some .success
  | some ("Constraint", some content) => (ConstraintViolation.ofJson? content).map .constraint
  | some (name, some content) => do Outcome.ofContent? (← OutcomeCode.ofCaseName? name) content
  | _ => none

/-! ## Statistics, counters and reports -/

/-- The names of the fields of write statistics, in order. -/
def WriteStats.fieldNames : List String :=
  ["written", "retried", "thrown", "region_too_busy", "partial_rows", "partial_retried",
    "partial_ignored", "ignored"]

def WriteStats.toJson (s : WriteStats) : Json :=
  .object (fieldNames.zip (s.fields.map nat))

def WriteStats.ofJson? (j : Json) : Option WriteStats := do
  match ← (← j.fields? (fieldNames.map needed)).mapM Json.word? with
  | [written, retried, thrown, regionTooBusy, partialRows, partialRetried, partialIgnored,
      ignored] =>
    return ⟨written, retried, thrown, regionTooBusy, partialRows, partialRetried, partialIgnored,
      ignored⟩
  | _ => none

def Tally.toJson (t : Tally) : Json :=
  .object [("total", t.total.toJson), ("contributions", nat t.contributions)]

def Tally.ofJson? (j : Json) : Option Tally := do
  match ← j.fields? [needed "total", needed "contributions"] with
  | [total, contributions] => return ⟨← WriteStats.ofJson? total, ← contributions.word?⟩
  | _ => none

/-- The names of the counters, in order. -/
def Metrics.fieldNames : List String :=
  ["begun", "committed", "rolled_back", "failed", "abandoned", "conflicts", "keep_alive_renewals",
    "keep_alive_failures", "cache_hits", "cache_misses", "resolver_submitted", "resolver_resolved",
    "resolver_dropped", "resolver_failed"]

/-- The counters in order. -/
def Metrics.fields (m : Metrics) : List Nat :=
  [m.begun, m.committed, m.rolledBack, m.failed, m.abandoned, m.conflicts, m.keepAliveRenewals,
    m.keepAliveFailures, m.cacheHits, m.cacheMisses, m.resolverSubmitted, m.resolverResolved,
    m.resolverDropped, m.resolverFailed]

def Metrics.toJson (m : Metrics) : Json :=
  .object (fieldNames.zip (m.fields.map nat))

def Metrics.ofJson? (j : Json) : Option Metrics := do
  match ← (← j.fields? (fieldNames.map needed)).mapM Json.word? with
  | [begun, committed, rolledBack, failed, abandoned, conflicts, renewals, renewalFailures, hits,
      misses, submitted, resolved, dropped, resolveFailures] =>
    return ⟨begun, committed, rolledBack, failed, abandoned, conflicts, renewals, renewalFailures,
      hits, misses, submitted, resolved, dropped, resolveFailures⟩
  | _ => none

def BadRecordSummary.toJson (s : BadRecordSummary) : Json :=
  .object [("file", .string s.file), ("count", nat s.count), ("tolerance", .int s.tolerance),
    ("exceeded", .bool s.exceeded)]

def BadRecordSummary.ofJson? (j : Json) : Option BadRecordSummary := do
  match ← j.fields? [needed "file", needed "count", needed "tolerance", needed "exceeded"] with
  | [file, count, tolerance, exceeded] =>
    return ⟨← file.string?, ← count.word?, ← tolerance.signedWord?, ← exceeded.bool?⟩
  | _ => none

end TxnEngine
