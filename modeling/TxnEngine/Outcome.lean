/-!
# Row outcomes

What a write substrate reports for a row: success, a condition that passes and is worth another
attempt, an interruption that ends the whole batch, or a refusal of this row for good.

Every code belongs to exactly one of the four classes (`class_cases`).
-/

namespace TxnEngine

/-- The kind of a violated constraint (`ConstraintKind`). -/
inductive ConstraintKind where
  | primaryKey
  | unique
  | foreignKey
  | check
  | notNull
deriving DecidableEq, Inhabited

/-- The name of the kind in reports (`ConstraintKind::error_code`). -/
def ConstraintKind.errorCode : ConstraintKind → String
  | primaryKey => "PRIMARY_KEY"
  | unique => "UNIQUE"
  | foreignKey => "FOREIGN_KEY"
  | check => "CHECK"
  | notNull => "NOT_NULL"

/-- Which constraint was violated, and where (`ConstraintContext`). -/
structure ConstraintContext where
  constraint : String
  table : Option String
  columns : List String
deriving DecidableEq, Inhabited

/-- The constraint's name and, where the table is known, the table with its columns. -/
def ConstraintContext.text (c : ConstraintContext) : String :=
  "constraint " ++ c.constraint ++
    match c.table with
    | some table => " on " ++ table ++ "(" ++ ", ".intercalate c.columns ++ ")"
    | none => ""

/-- A violated constraint. -/
structure ConstraintViolation where
  kind : ConstraintKind
  message : Option String
  context : Option ConstraintContext
deriving DecidableEq, Inhabited

/-- What an outcome says, without its message (`OutcomeCode`). -/
inductive OutcomeCode where
  | success
  /-- Some of the row's work was done. -/
  | partialRow
  | notRun
  | wrongRegion
  | notServingRegion
  | regionTooBusy
  | pipelineTooBusy
  | indexNotSetup
  | interrupted
  | writeConflict
  | constraint (kind : ConstraintKind)
deriving DecidableEq, Inhabited

namespace OutcomeCode

/-- Whether the row is worth another attempt (`OutcomeCode::can_retry`). -/
def canRetry : OutcomeCode → Bool
  | partialRow | notRun | wrongRegion | notServingRegion | regionTooBusy | pipelineTooBusy => true
  | _ => false

/-- Whether the whole batch has to stop (`OutcomeCode::should_cancel`). -/
def shouldCancel : OutcomeCode → Bool
  | interrupted | writeConflict => true
  | _ => false

/-- Whether the route to the partition is stale (`OutcomeCode::refresh_cache`). -/
def refreshCache : OutcomeCode → Bool
  | wrongRegion | notServingRegion => true
  | _ => false

/-- Whether the row was written (`OutcomeCode::is_success`). -/
def isSuccess : OutcomeCode → Bool
  | success => true
  | _ => false

/-- Whether the receiving side was overloaded (`OutcomeCode::is_busy`). -/
def isBusy : OutcomeCode → Bool
  | regionTooBusy | pipelineTooBusy => true
  | _ => false

/-- Whether the row is refused for good (`OutcomeCode::is_terminal_reject`). -/
def isTerminalReject (code : OutcomeCode) : Bool :=
  !code.isSuccess && !code.canRetry && !code.shouldCancel

/-- The name of the code in reports (`OutcomeCode::error_code`). -/
def errorCode : OutcomeCode → String
  | success => "SUCCESS"
  | partialRow => "PARTIAL"
  | notRun => "NOT_RUN"
  | wrongRegion => "WRONG_REGION"
  | notServingRegion => "NOT_SERVING_REGION"
  | regionTooBusy => "REGION_TOO_BUSY"
  | pipelineTooBusy => "PIPELINE_TOO_BUSY"
  | indexNotSetup => "INDEX_NOT_SETUP"
  | interrupted => "INTERRUPTED"
  | writeConflict => "WRITE_CONFLICT"
  | constraint kind => kind.errorCode

/-- Success, another attempt, a stop and a refusal exclude each other, and one of them holds. -/
theorem class_cases (code : OutcomeCode) :
    [code.isSuccess, code.canRetry, code.shouldCancel, code.isTerminalReject].count true = 1 := by
  cases code <;> rfl

end OutcomeCode

/-- The outcome of one row (`WriteOutcome`). -/
inductive Outcome where
  | success
  | partialRow (message : Option String)
  | notRun (message : Option String)
  | wrongRegion (message : Option String)
  | notServingRegion (message : Option String)
  | regionTooBusy (message : Option String)
  | pipelineTooBusy (message : Option String)
  | indexNotSetup (message : Option String)
  | interrupted (message : Option String)
  | writeConflict (message : Option String)
  | constraint (violation : ConstraintViolation)
deriving DecidableEq, Inhabited

namespace Outcome

/-- The outcome with the given code and no message (`WriteOutcome::from_code`). -/
def ofCode : OutcomeCode → Outcome
  | .success => success
  | .partialRow => partialRow none
  | .notRun => notRun none
  | .wrongRegion => wrongRegion none
  | .notServingRegion => notServingRegion none
  | .regionTooBusy => regionTooBusy none
  | .pipelineTooBusy => pipelineTooBusy none
  | .indexNotSetup => indexNotSetup none
  | .interrupted => interrupted none
  | .writeConflict => writeConflict none
  | .constraint kind => constraint ⟨kind, none, none⟩

/-- What the outcome says (`WriteOutcome::code`). -/
def code : Outcome → OutcomeCode
  | success => .success
  | partialRow _ => .partialRow
  | notRun _ => .notRun
  | wrongRegion _ => .wrongRegion
  | notServingRegion _ => .notServingRegion
  | regionTooBusy _ => .regionTooBusy
  | pipelineTooBusy _ => .pipelineTooBusy
  | indexNotSetup _ => .indexNotSetup
  | interrupted _ => .interrupted
  | writeConflict _ => .writeConflict
  | constraint v => .constraint v.kind

/-- The outcome with the message replaced (`WriteOutcome::with_message`). A success carries none. -/
def withMessage (text : String) : Outcome → Outcome
  | success => success
  | partialRow _ => partialRow (some text)
  | notRun _ => notRun (some text)
  | wrongRegion _ => wrongRegion (some text)
  | notServingRegion _ => notServingRegion (some text)
  | regionTooBusy _ => regionTooBusy (some text)
  | pipelineTooBusy _ => pipelineTooBusy (some text)
  | indexNotSetup _ => indexNotSetup (some text)
  | interrupted _ => interrupted (some text)
  | writeConflict _ => writeConflict (some text)
  | constraint v => constraint { v with message := some text }

/-- The message of an outcome that has one (`WriteOutcome::message`). -/
def message? : Outcome → Option String
  | success => none
  | partialRow m | notRun m | wrongRegion m | notServingRegion m | regionTooBusy m
  | pipelineTooBusy m | indexNotSetup m | interrupted m | writeConflict m => m
  | constraint v => v.message

/-- Which constraint was violated, if one was (`WriteOutcome::constraint_context`). -/
def context? : Outcome → Option ConstraintContext
  | constraint v => v.context
  | _ => none

def canRetry (o : Outcome) : Bool := o.code.canRetry

def shouldCancel (o : Outcome) : Bool := o.code.shouldCancel

def refreshCache (o : Outcome) : Bool := o.code.refreshCache

def isSuccess (o : Outcome) : Bool := o.code.isSuccess

def isBusy (o : Outcome) : Bool := o.code.isBusy

def isTerminalReject (o : Outcome) : Bool := o.code.isTerminalReject

/-- The code, the message behind a colon and the context in parentheses. -/
def text (o : Outcome) : String :=
  o.code.errorCode ++
    (match o.message? with
      | some message => ": " ++ message
      | none => "") ++
    match o.context? with
      | some context => " (" ++ context.text ++ ")"
      | none => ""

@[simp]
theorem code_ofCode (code : OutcomeCode) : (ofCode code).code = code := by
  cases code <;> rfl

@[simp]
theorem code_withMessage (text : String) (o : Outcome) : (o.withMessage text).code = o.code := by
  cases o <;> rfl

end Outcome

end TxnEngine
