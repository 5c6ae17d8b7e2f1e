import TxnEngine.Config
import TxnEngine.Json.Forms
import TxnEngine.Json.Request
import TxnEngine.Record.Transition
import TxnEngine.Storage.Faults
import TxnEngine.Substrate

/-!
# Values of the engine in requests

Records, transitions, outcomes, rows, errors and configurations as requests describe them. The
descriptions are shorter than the JSON forms: most fields have a default.
-/

namespace TxnEngine

open Json (readText readSmall readMillis readDuration readFloat readBytes)

/-- A value that is described by an object. -/
def Json.described {α : Type} (read : Json → Reply α) (j : Json) : Reply α :=
  match j with
  | .object _ => read j
  | _ => .error .unreadable

/-! ## Identifiers -/

def Timestamp.read (j : Json) : Reply Timestamp := .ofOption (Timestamp.ofJson? j)

def TxnId.read (j : Json) : Reply TxnId := .ofOption (TxnId.ofJson? j)

def TableId.read (j : Json) : Reply TableId := .ofOption (TableId.ofJson? j)

def CellLocation.read : Json → Reply CellLocation :=
  Json.described fun j => do
    return ⟨← j.fieldD "table" TableId.read ⟨0⟩, ← j.bytesAt "key"⟩

/-! ## Outcomes -/

def ConstraintContext.read : Json → Reply ConstraintContext :=
  Json.described fun j => do
    return ⟨← j.textAtD "constraint" "", ← j.field? "table" readText,
      ← j.fieldD "columns" (Json.readList readText) []⟩

/-- The outcome named by its code or, for a violated constraint, by the constraint's kind. -/
def Outcome.named (name : String) : Reply Outcome :=
  match OutcomeCode.ofCaseName? name, ConstraintKind.ofCaseName? name with
  | some code, _ => .ok (.ofCode code)
  | none, some kind => .ok (.ofCode (.constraint kind))
  | none, none => .error .unreadable

/-- The outcome with a context, which only a violated constraint has. -/
def Outcome.withContext (context : Option ConstraintContext) : Outcome → Outcome
  | constraint v => constraint { v with context }
  | o => o

def Outcome.read (j : Json) : Reply Outcome :=
  match j with
  | .string name => Outcome.named name
  | _ => j.described fun j => do
    let o ← Outcome.named (← j.textAt "code")
    let o := o.withContext (← j.field? "context" ConstraintContext.read)
    match ← j.field? "message" readText with
    | some message => return o.withMessage message
    | none => return o

/-! ## Records -/

def TxnState.read (j : Json) : Reply TxnState := do
  let name ← j.readText
  .ofOption (TxnState.all.find? fun s => s.caseName = name)

def Record.read : Json → Reply Record :=
  Json.described fun j => do
    let beginTs ← j.field "begin_ts" Timestamp.read
    return {
      id := ← j.fieldD "id" TxnId.read (.ofBegin beginTs)
      state := ← j.fieldD "state" TxnState.read .active
      beginTs
      commitTs := ← j.field? "commit_ts" Timestamp.read
      lastKeepAlive := ← j.millisAtD "last_keep_alive" 0
      readOnly := ← j.flagAtD "read_only" false }

def Transition.read (j : Json) : Reply Transition := do
  let now := j.millisAtD "now" 0
  let timeout := j.millisAtD "timeout_ms" 0
  match ← j.textAt "t" with
  | "Commit" => return .commit (← j.field "commit_ts" Timestamp.read) (← now) (← timeout)
  | "Rollback" => return .rollback
  | "Fail" => return .fail
  | "KeepAlive" => return .keepAlive (← now) (← timeout)
  | "Abandon" => return .abandon (← now) (← timeout)
  | _ => throw .unreadable

def FinalStatus.read (j : Json) : Reply FinalStatus :=
  match j with
  | .string "RolledBack" => .ok .rolledBack
  | _ => j.described fun j => do return .committed (← j.field "Committed" Timestamp.read)

/-! ## Rows, statistics and reports -/

def MutationKind.caseName : MutationKind → String
  | insert => "Insert"
  | upsert => "Upsert"
  | update => "Update"
  | delete => "Delete"

def MutationKind.read (j : Json) : Reply MutationKind := do
  let name ← j.readText
  .ofOption ([insert, upsert, update, delete].find? fun k => k.caseName = name)

def Mutation.read : Json → Reply Mutation :=
  Json.described fun j => do
    if !(j.get "delete").isNull then return .delete (← j.bytesAt "delete")
    else
      return ⟨← j.bytesAt "k", ← j.fieldD "kind" MutationKind.read .insert, ← j.bytesAtD "v" [],
        ← j.field? "src" readText⟩

def WriteStats.read : Json → Reply WriteStats :=
  Json.described fun j => do
    return ⟨← j.wordAtD "written" 0, ← j.wordAtD "retried" 0, ← j.wordAtD "thrown" 0,
      ← j.wordAtD "region_too_busy" 0, ← j.wordAtD "partial_rows" 0,
      ← j.wordAtD "partial_retried" 0, ← j.wordAtD "partial_ignored" 0, ← j.wordAtD "ignored" 0⟩

def BadRecordSummary.read : Json → Reply BadRecordSummary :=
  Json.described fun j => do
    return ⟨← j.textAtD "file" "", ← j.wordAtD "count" 0, ← j.signedAtD "tolerance" 0,
      ← j.flagAtD "exceeded" false⟩

/-! ## Errors and faults -/

def StorageError.read (j : Json) : Reply StorageError := do
  match ← j.textAt "kind" with
  | "Io" => return .io (.described (← j.textAtD "message" ""))
  | "ReadPastEnd" =>
    return .readPastEnd (← j.wordAt "offset") (← j.wordAt "len") (← j.wordAt "size")
  | "InvalidTruncate" => return .invalidTruncate (← j.wordAt "size") (← j.wordAt "requested")
  | "AlreadyExists" => return .alreadyExists (← j.textAt "name")
  | "InvalidName" => return .invalidName (← j.textAt "name")
  | _ => throw .unreadable

def Error.read (j : Json) : Reply Error := do
  let message := j.textAtD "message" ""
  let outcome := j.field "outcome" Outcome.read
  match ← j.textAt "kind" with
  | "Storage" => return .storage (← j.field "storage" StorageError.read)
  | "Io" => return .io (.described (← message))
  | "Conflict" => return .conflict (← j.field "txn" TxnId.read) (← j.field "state" TxnState.read)
  | "TransactionNotFound" => return .transactionNotFound (← j.field "txn" TxnId.read)
  | "WriteRejected" => return .writeRejected (← j.wordAtD "row" 0) (← outcome)
  | "WriteAborted" => return .writeAborted (← j.wordAtD "row" 0) (← outcome)
  | "RetriesExhausted" =>
    return .retriesExhausted (← j.wordAt "rows") (← j.field "attempts" readSmall) (← outcome)
  | "BadRecordToleranceExceeded" =>
    return .toleranceExceeded (← j.wordAt "count") (← j.signedAtD "tolerance" 0) (← j.textAt "file")
  | "Substrate" => return .substrate (← message) (← j.flagAtD "retryable" false)
  | "Corruption" => return .corruption (.described (← message))
  | "InvalidOperation" => return .invalidOperation (.described (← message))
  | "InvalidConfig" => return .invalidConfig (.described (← message))
  | "Shutdown" => return .shutdown
  | _ => throw .unreadable

/-- One of the given primitives, by its name. -/
def Primitive.named (among : List Primitive) (j : Json) : Reply Primitive := do
  let name ← j.readText
  .ofOption (among.find? fun p => p.text = name)

/-! ## Configurations -/

def RetryConfig.read : Json → Reply RetryConfig :=
  Json.described fun j => do
    if !(j.get "no_delay").isNull then return .noDelay (← j.field "no_delay" readSmall)
    else
      let d := RetryConfig.default
      return ⟨← j.fieldD "max_attempts" readSmall d.maxAttempts,
        ← j.fieldD "initial" readDuration d.initialDelay, ← j.fieldD "max" readDuration d.maxDelay,
        ← j.fieldD "multiplier" readFloat d.multiplier, ← j.flagAtD "jitter" d.addJitter⟩

/-- A configuration by the fields in which it differs from a base. -/
def Config.readOver (base : Config) : Json → Reply Config :=
  Json.described fun j => do
    return {
      keepAliveInterval := ← j.fieldD "interval" readDuration base.keepAliveInterval
      transactionTimeout := ← j.fieldD "timeout" readDuration base.transactionTimeout
      keepAliveWorkers := ← j.wordAtD "ka_workers" base.keepAliveWorkers
      cacheCapacity := ← j.wordAtD "cache_capacity" base.cacheCapacity
      cacheMaxAge := ← j.fieldD "cache_max_age" readDuration base.cacheMaxAge
      resolverQueueCapacity := ← j.wordAtD "queue" base.resolverQueueCapacity
      resolverWorkers := ← j.wordAtD "resolver_workers" base.resolverWorkers
      retry := ← j.fieldD "retry" RetryConfig.read base.retry }

def WriteOptions.read (j : Json) : Reply WriteOptions := do
  return ⟨← j.flagAtD "permissive" false, ← j.signedAtD "tolerance" 0, ← j.field? "source" readText⟩

end TxnEngine
