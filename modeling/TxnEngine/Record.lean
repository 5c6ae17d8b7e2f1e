import TxnEngine.Ids

/-!
# Transaction records

The durable image of a transaction: its state, its timestamps and the wall-clock time it was last
kept alive. A live record that is not kept alive for longer than the timeout is abandoned, which
shows in its status before anything is written back.
-/

namespace TxnEngine

/-- Wall-clock time in milliseconds, and spans of it. -/
abbrev Millis := UInt64

/-- The state of a record (`TxnState`). -/
inductive TxnState where
  | active
  | committed
  | rolledBack
  /-- Ended by a failure of its owner. -/
  | error
deriving DecidableEq, Inhabited

namespace TxnState

/-- Whether the state is final (`TxnState::is_finished`). -/
def isFinished : TxnState → Bool
  | active => false
  | _ => true

def text : TxnState → String
  | active => "ACTIVE"
  | committed => "COMMITTED"
  | rolledBack => "ROLLED_BACK"
  | error => "ERROR"

/-- All states. -/
def all : List TxnState :=
  [active, committed, rolledBack, error]

end TxnState

/-- How a transaction ended, as far as readers care (`FinalStatus`). -/
inductive FinalStatus where
  | committed (ts : Timestamp)
  | rolledBack
deriving DecidableEq, Inhabited

/-- The text used in messages about stamps. -/
def FinalStatus.text : FinalStatus → String
  | committed ts => "Committed(Timestamp(" ++ toString ts.val.toNat ++ "))"
  | rolledBack => "RolledBack"

/-- What a record means at a given time (`TxnStatus`). -/
inductive TxnStatus where
  | active
  | committed (ts : Timestamp)
  | rolledBack
  | error
  /-- Live in the log, and expired. -/
  | abandoned
deriving DecidableEq, Inhabited

namespace TxnStatus

/-- The final status, if the transaction can no longer commit (`TxnStatus::final_status`). -/
def final? : TxnStatus → Option FinalStatus
  | active => none
  | committed ts => some (.committed ts)
  | rolledBack | error | abandoned => some .rolledBack

/-- The commit timestamp, if the transaction committed (`TxnStatus::commit_timestamp`). -/
def commitTs? : TxnStatus → Option Timestamp
  | committed ts => some ts
  | _ => none

end TxnStatus

/-- The durable image of a transaction (`TxnRecord`). -/
structure Record where
  id : TxnId
  state : TxnState
  beginTs : Timestamp
  commitTs : Option Timestamp
  lastKeepAlive : Millis
  readOnly : Bool
deriving DecidableEq, Inhabited

namespace Record

/-- The record of a transaction that begins at `ts` (`TxnRecord::begin`). -/
def start (ts : Timestamp) (now : Millis) (readOnly : Bool) : Record where
  id := .ofBegin ts
  state := .active
  beginTs := ts
  commitTs := none
  lastKeepAlive := now
  readOnly := readOnly

/-- Whether the state is final (`TxnRecord::is_finished`). -/
def isFinished (r : Record) : Bool :=
  r.state.isFinished

/-- The time since the record was last kept alive, zero if that lies in the future. -/
def idleTime (r : Record) (now : Millis) : Millis :=
  if r.lastKeepAlive ≤ now then now - r.lastKeepAlive else 0

/-- Whether a live record has not been kept alive for longer than the timeout
(`TxnRecord::is_expired`). -/
def isExpired (r : Record) (now timeout : Millis) : Bool :=
  r.state = .active && timeout < r.idleTime now

/-- What the record means at time `now` (`TxnRecord::status`). -/
def status (r : Record) (now timeout : Millis) : TxnStatus :=
  match r.state with
  | .active => if r.isExpired now timeout then .abandoned else .active
  | .committed =>
    match r.commitTs with
    | some ts => .committed ts
    | none => .error
  | .rolledBack => .rolledBack
  | .error => .error

/-- The invariant of every stored record: it has a commit timestamp exactly when it is committed. -/
def Consistent (r : Record) : Prop :=
  r.commitTs.isSome = true ↔ r.state = .committed

instance (r : Record) : Decidable r.Consistent :=
  inferInstanceAs (Decidable (_ ↔ _))

end Record

end TxnEngine
