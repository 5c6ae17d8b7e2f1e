import TxnEngine.Engine
import TxnEngine.Json.Arguments

/-!
# Answers

The JSON forms in which the engine's values are answered. A refusal is answered by its kind and its
message; the message of a failure that the operating system reports is left out, because it depends
on the system. Random identifiers at the end of a physical name, or of a name that is listed, are
hidden for the same reason.
-/

namespace TxnEngine

open Json (nat)

/-! ## Refusals -/

/-- A refusal by its kind, with its message unless it is to be left out. -/
def Json.refusal (kind message : String) (isWordless : Bool) : Json :=
  .object (("error", .string kind) :: if isWordless then [] else [("message", .string message)])

def StorageError.kind : StorageError → String
  | io _ => "Io"
  | readPastEnd .. => "ReadPastEnd"
  | invalidTruncate .. => "InvalidTruncate"
  | alreadyExists _ => "AlreadyExists"
  | invalidName _ => "InvalidName"

/-- Whether the operating system is at the bottom of the error. -/
def StorageError.isSystem : StorageError → Bool
  | io failure => failure.isSystem
  | _ => false

def StorageError.toJson (e : StorageError) : Json :=
  .refusal e.kind e.message e.isSystem

def Error.kind : Error → String
  | storage _ => "Storage"
  | io _ => "Io"
  | conflict .. => "Conflict"
  | transactionNotFound _ => "TransactionNotFound"
  | writeRejected .. => "WriteRejected"
  | writeAborted .. => "WriteAborted"
  | retriesExhausted .. => "RetriesExhausted"
  | toleranceExceeded .. => "BadRecordToleranceExceeded"
  | substrate .. => "Substrate"
  | corruption _ => "Corruption"
  | invalidOperation _ => "InvalidOperation"
  | invalidConfig _ => "InvalidConfig"
  | shutdown => "Shutdown"
  | outOfRange => "Panic"

/-- Whether the answer names the kind alone: the operating system words the message, or no one. -/
def Error.isWordless (e : Error) : Bool :=
  e = .outOfRange || e.isSystem

def Error.toJson (e : Error) : Json :=
  .refusal e.kind e.message e.isWordless

def Refusal.toJson : Refusal → Json
  | unreadable => .object [("error", .string "BadInput")]
  | outOfRange => Error.outOfRange.toJson
  | malformed => .object [("error", .string "Json")]
  | storage cause => cause.toJson
  | engine cause => cause.toJson

/-- The answer that a reply comes to. -/
def Reply.answer : Reply Json → Json
  | .ok j => j
  | .error refusal => refusal.toJson

/-- The answer to an operation of the engine. -/
def Json.ofExcept {α : Type} (f : α → Json) : Except Error α → Json
  | .ok a => f a
  | .error e => e.toJson

/-- The answer of an operation that has nothing to say. -/
def Json.okay : Json := .string "ok"

/-! ## Plain values -/

def Bytes.toJson (bytes : Bytes) : Json := .string (Text.hex bytes)

def Duration.toJson (d : Duration) : Json :=
  .object [("secs", nat d.seconds), ("nanos", nat d.subsecond)]

/-- The bits of a floating-point number. -/
def Json.ofFloat (x : Float) : Json :=
  .string (String.ofList (Text.hexPadded 16 x.toBits.toNat))

def Json.ofMillis (ms : Millis) : Json := nat ms.toNat

/-! ## Records and transactions -/

def Record.toJson (r : Record) : Json :=
  .object [("id", r.id.toJson), ("state", r.state.toJson), ("begin_ts", r.beginTs.toJson),
    ("commit_ts", .ofOption Timestamp.toJson r.commitTs),
    ("last_keep_alive", .ofMillis r.lastKeepAlive), ("read_only", .bool r.readOnly)]

def TransitionOutcome.caseName : TransitionOutcome → String
  | applied _ => "Applied"
  | unchanged _ => "Unchanged"
  | rejected _ => "Rejected"

def TransitionOutcome.toJson (o : TransitionOutcome) : Json :=
  .object [("outcome", .string o.caseName), ("accepted", .bool o.isAccepted),
    ("record", o.record.toJson)]

def TxnStatus.caseName : TxnStatus → String
  | active => "Active"
  | committed _ => "Committed"
  | rolledBack => "RolledBack"
  | error => "Error"
  | abandoned => "Abandoned"

def TxnStatus.members (s : TxnStatus) : List (String × Json) :=
  [("status", .string s.caseName), ("final", .ofOption FinalStatus.toJson s.final?),
    ("commit_ts", .ofOption Timestamp.toJson s.commitTs?)]

def TxnStatus.toJson (s : TxnStatus) : Json := .object s.members

def Phase.caseName : Phase → String
  | active => "Active"
  | committed => "Committed"
  | aborted => "Aborted"

def Transaction.toJson (t : Transaction) : Json :=
  .object [("id", t.id.toJson), ("snapshot", t.snapshot.toJson),
    ("state", .string t.phase.caseName), ("active", .bool t.isActive),
    ("read_only", .bool t.readOnly), ("commit_ts", .ofOption Timestamp.toJson t.commitTs)]

/-- What a log holds, with the size of the stored log. -/
def Log.toJson (l : Log) (size : Nat) : Json :=
  .object [("len", nat l.length), ("empty", .bool (l.length = 0)),
    ("active", .array (l.activeIds.map TxnId.toJson)), ("log_size", nat size)]

/-! ## Configurations -/

def RetryConfig.toJson (c : RetryConfig) : Json :=
  .object [("max_attempts", nat c.maxAttempts), ("initial", c.initialDelay.toJson),
    ("max", c.maxDelay.toJson), ("jitter", .bool c.addJitter),
    ("multiplier", .ofFloat c.multiplier)]

def Config.toJson (c : Config) : Json :=
  .object [("interval", c.keepAliveInterval.toJson), ("timeout", c.transactionTimeout.toJson),
    ("ka_workers", nat c.keepAliveWorkers), ("cache_capacity", nat c.cacheCapacity),
    ("cache_max_age", c.cacheMaxAge.toJson), ("queue", nat c.resolverQueueCapacity),
    ("resolver_workers", nat c.resolverWorkers), ("retry", c.retry.toJson)]

def WriteOptions.toJson (o : WriteOptions) : Json :=
  .object [("permissive", .bool o.isPermissive), ("tolerance", .int o.tolerance),
    ("source_name", .ofOption .string o.sourceName)]

/-! ## Writing -/

def BatchResult.toJson (r : BatchResult) : Json :=
  .object [("state", .string r.state.text), ("written", nat r.written), ("stats", r.stats.toJson),
    ("outcomes", .array (r.outcomes.map Outcome.toJson)),
    ("bad_records", .ofOption BadRecordSummary.toJson r.badRecords),
    ("failed", .array (r.failedRows.map nat))]

def RecordedCall.toJson (c : RecordedCall) : Json :=
  .object [("address", .string c.address.text), ("txn", c.txn.toJson),
    ("keys", .array (c.rowKeys.map Bytes.toJson))]

/-- Whether a text is a random identifier of version 4 without hyphens. -/
def Recorder.isRandomId (cs : List Char) : Bool :=
  cs.length = 32 && cs.all (fun c => c.isDigit || ('a' ≤ c && c ≤ 'f')) && cs[12]? = some '4' &&
    ['8', '9', 'a', 'b'].any fun c => cs[16]? = some c

/-- A name whose random identifier at the end is hidden. -/
def Recorder.masked (name : String) : String :=
  let cs := name.toList
  let head := cs.take (cs.length - 32)
  if head.getLast? = some '.' && isRandomId (cs.drop (cs.length - 32)) then
    String.ofList head ++ "<uuid>"
  else name

def Recorder.members (p : Place) (r : Recorder) : List (String × Json) :=
  [("count", nat r.count), ("file", .string (r.file p)),
    ("physical", .string (masked (r.physicalFile p))), ("tolerance", .int r.tolerance),
    ("exceeded", .bool r.isExceeded), ("closed", .bool r.isClosed)]

def Recorder.toJson (p : Place) (r : Recorder) : Json := .object (r.members p)

def Pipeline.members (p : Place) (q : Pipeline) : List (String × Json) :=
  [("state", .string q.state.text), ("stats", q.stats.toJson),
    ("recorder", .ofOption (Recorder.toJson p) q.recorder), ("options", q.options.toJson)]

/-- The names of the stores of a directory as they are listed: in ascending order of what is shown
of them. -/
def Directory.shownNames (d : Directory) : List String :=
  (d.names.map Recorder.masked).mergeSort fun a b => !decide (b < a)

/-! ## The engine -/

def CompletedCache.members (c : CompletedCache) : List (String × Json) :=
  [("hits", nat c.hits), ("misses", nat c.misses), ("entries", nat c.length)]

/-- The state of an engine in numbers. -/
def Engine.toJson {σ : Type} (e : Engine σ) : Json :=
  let m := e.manager
  .object [("metrics", m.metrics.toJson), ("cache", .object m.cache.members),
    ("active", nat m.activeCount), ("oldest", .ofOption TxnId.toJson m.oldestActive),
    ("open", .bool e.isOpen), ("stamps", nat e.stamps.length),
    ("files", .array (e.writes.directory.names.map .string)), ("registered", nat m.keepAlive.registered.length)]

end TxnEngine
