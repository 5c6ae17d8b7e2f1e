import TxnEngine.Duration
import TxnEngine.Outcome
import TxnEngine.Record
import TxnEngine.Storage.Error

/-!
# Errors

Every refusal of the engine as its cause, with the wording of each in one place
(`Error.message`). `Error.isRetryable` tells which failures of a substrate call are worth another
attempt.
-/

namespace TxnEngine

/-- Why bytes are not a record, or a stored fact contradicts another. -/
inductive Corruption where
  | truncatedHeader
  | badMagic
  | unsupportedVersion (version : Nat)
  | truncatedEnvelope
  | truncatedBody
  | checksumMismatch (expected actual : UInt32)
  | unexpectedEnd
  | unknownState (byte : UInt8)
  | invalidCommitFlag (byte : UInt8)
  | trailingBytes (expected actual : Nat)
  | inconsistentCommit (id : TxnId) (state : TxnState) (commitTs : Option Timestamp)
  /-- A version is stamped with one final status and refuses another. -/
  | stampConflict (loc : CellLocation) (id : TxnId) (existing refused : FinalStatus)
  | described (message : String)
deriving DecidableEq, Inhabited

/-- Eight hexadecimal digits. -/
def wordText (w : UInt32) : String :=
  String.ofList (Text.hexPadded 8 w.toNat)

/-- The text of an optional timestamp in messages about inconsistent records. -/
def commitTsText : Option Timestamp → String
  | none => "None"
  | some ts => "Some(Timestamp(" ++ toString ts.val.toNat ++ "))"

def Corruption.message : Corruption → String
  | truncatedHeader => "truncated record header"
  | badMagic => "bad record magic"
  | unsupportedVersion version => "unsupported record version " ++ toString version
  | truncatedEnvelope => "truncated record envelope"
  | truncatedBody => "truncated record body"
  | checksumMismatch expected actual =>
    "checksum mismatch: expected " ++ wordText expected ++ ", got " ++ wordText actual
  | unexpectedEnd => "unexpected end of record"
  | unknownState byte => "unknown state byte " ++ toString byte.toNat
  | invalidCommitFlag byte => "invalid commit flag " ++ toString byte.toNat
  | trailingBytes expected actual =>
    "trailing bytes in record: expected " ++ toString expected ++ " bytes, got " ++ toString actual
  | inconsistentCommit id state commitTs =>
    "record " ++ id.text ++ " is " ++ state.text ++ " but commit timestamp is " ++
      commitTsText commitTs
  | stampConflict loc id existing refused =>
    "version " ++ loc.text ++ " of " ++ id.text ++ " already stamped " ++ existing.text ++
      ", refusing " ++ refused.text
  | described message => message

/-- A request that the engine cannot carry out in its present state. -/
inductive Misuse where
  | notActive
  | readOnly
  | alreadyExists (id : TxnId)
  /-- Every candidate name for a bad-record file is taken. -/
  | noFreeName
  | described (message : String)
deriving DecidableEq, Inhabited

def Misuse.message : Misuse → String
  | notActive => "transaction not active"
  | readOnly => "read-only transaction cannot write"
  | alreadyExists id => "transaction " ++ id.text ++ " already exists"
  | noFreeName => "no free bad-record file name"
  | described message => message

/-- Why a configuration is refused. -/
inductive ConfigFault where
  | intervalZero
  /-- The scheduler was started on its own with no interval. -/
  | schedulerIntervalZero
  | intervalTooLong (interval timeout : Duration)
  | noWorkers
  | noQueue
  | noAttempts
  /-- The backoff multiplier, as it is shown. -/
  | multiplier (shown : String)
  | recorderMissing
  | described (message : String)
deriving DecidableEq, Inhabited

def ConfigFault.message : ConfigFault → String
  | intervalZero => "keep_alive_interval must be positive"
  | schedulerIntervalZero => "keep-alive interval must be positive"
  | intervalTooLong interval timeout =>
    "keep_alive_interval (" ++ interval.text ++ ") must be shorter than transaction_timeout (" ++
      timeout.text ++ ")"
  | noWorkers => "worker pools need at least one thread"
  | noQueue => "resolver_queue_capacity must be positive"
  | noAttempts => "retry.max_attempts must be at least 1"
  | multiplier shown =>
    "retry.backoff_multiplier must be finite and at least 1.0, got " ++ shown
  | recorderMissing => "permissive writes need a bad-record recorder"
  | described message => message

/-- The refusals of the engine (`CoreError`). -/
inductive Error where
  | storage (cause : StorageError)
  | io (failure : IoFailure)
  /-- The record is already in another final state. -/
  | conflict (id : TxnId) (state : TxnState)
  | transactionNotFound (id : TxnId)
  /-- A strict write met a row that is refused for good. -/
  | writeRejected (row : Nat) (outcome : Outcome)
  /-- A row's outcome stopped the whole batch. -/
  | writeAborted (row : Nat) (outcome : Outcome)
  /-- A strict write ran out of attempts; the outcome is that of the first pending row. -/
  | retriesExhausted (rows attempts : Nat) (outcome : Outcome)
  | toleranceExceeded (count : Nat) (tolerance : Int) (file : String)
  | substrate (message : String) (retryable : Bool)
  | corruption (cause : Corruption)
  | invalidOperation (cause : Misuse)
  | invalidConfig (cause : ConfigFault)
  /-- The engine was shut down. -/
  | shutdown
  /-- A count, a delay or a size does not fit into its word. The operation stops where it is: what it
  did is not undone, and nothing behind it is done. -/
  | outOfRange
deriving DecidableEq, Inhabited

namespace Error

def message : Error → String
  | storage cause => "storage error: " ++ cause.message
  | io failure => "I/O error: " ++ failure.message
  | conflict id state => "transaction " ++ id.text ++ " conflict: record is " ++ state.text
  | transactionNotFound id => "transaction not found: " ++ id.text
  | writeRejected row outcome => "row " ++ toString row ++ " rejected: " ++ outcome.text
  | writeAborted row outcome => "batch aborted at row " ++ toString row ++ ": " ++ outcome.text
  | retriesExhausted rows attempts outcome =>
    toString rows ++ " row(s) still failing after " ++ toString attempts ++ " attempt(s): " ++
      outcome.text
  | toleranceExceeded count tolerance file =>
    toString count ++ " bad record(s) exceed tolerance " ++ toString tolerance ++ ", see " ++ file
  | substrate message _ => "substrate error: " ++ message
  | corruption cause => "corrupt record: " ++ cause.message
  | invalidOperation cause => "invalid operation: " ++ cause.message
  | invalidConfig cause => "invalid configuration: " ++ cause.message
  | shutdown => "engine is shut down"
  | outOfRange => "out of range"

/-- Whether another attempt at the same call can succeed (`CoreError::is_retryable`). -/
def isRetryable : Error → Bool
  | substrate _ retryable => retryable
  | storage _ | io _ => true
  | _ => false

/-- Whether the operating system is at the bottom of the error. -/
def isSystem : Error → Bool
  | storage (.io failure) | io failure => failure.isSystem
  | _ => false

end Error

end TxnEngine
