import TxnEngine.Workload.Fixture

/-!
# Stress

Many small transactions, each a strict batch, by several writers; what became of them; and the
number of operations in a second that this makes.
-/

namespace TxnEngine.Workload

open Program

variable {σ : Type}

/-- How much stress (`StressConfig`). -/
structure StressPlan where
  /-- The transactions of each writer. -/
  transactions : Nat
  writers : Nat
  rowsPerBatch : Nat
deriving DecidableEq, Inhabited

/-- The stress that is applied where nothing else is asked for. -/
def StressPlan.default : StressPlan := ⟨50, 4, 8⟩

/-- How many transactions committed and how many failed (`StressTestResult`). -/
structure StressCount where
  succeeded : Nat
  failed : Nat
deriving DecidableEq, Inhabited

namespace StressCount

def total (c : StressCount) : Nat :=
  c.succeeded + c.failed

/-- The total, if it fits into 64 bits. -/
def total? (c : StressCount) : Option Nat :=
  if c.total < UInt64.size then some c.total else none

/-- Counts one more transaction. -/
def add (c : StressCount) (succeeded : Bool) : StressCount :=
  if succeeded then { c with succeeded := c.succeeded + 1 } else { c with failed := c.failed + 1 }

/-- The transactions of a second, zero if no time went by. -/
def perSecond (c : StressCount) (d : Duration) : Float :=
  if 0 < d.toFloat then Float.ofNat c.total / d.toFloat else 0

end StressCount

/-- The rows of a writer's transaction number `n`. -/
def stressRows (plan : StressPlan) (writer n : Nat) : List Mutation :=
  (List.range plan.rowsPerBatch).map fun i =>
    .insert (.ofText ("w" ++ toString writer ++ "-t" ++ toString n ++ "-r" ++ toString i))
      (.ofText "v")

/-- A writer's transaction number `n`. Answers whether it committed. -/
def stressTransaction [Substrate σ] (plan : StressPlan) (writer n : Nat) :
    Program (Engine σ) Bool := do
  match ← Engine.transaction fun t => Engine.submitWriteBatch t (stressRows plan writer n) false 0
    with
  | .ok _ => return true
  | .error _ => return false

/-- A list of transactions, each with its writer and number, one after the other. -/
def stressAll [Substrate σ] (plan : StressPlan) :
    List (Nat × Nat) → StressCount → Program (Engine σ) StressCount
  | [], c => return c
  | (writer, n) :: rest, c => do
    let succeeded ← stressTransaction plan writer n
    stressAll plan rest (c.add succeeded)

/-- The writers one after the other (`stress_write_transactions`). -/
def stress [Substrate σ] (plan : StressPlan) : Program (Engine σ) StressCount :=
  stressAll plan
    ((List.range plan.writers).flatMap fun writer =>
      (List.range plan.transactions).map fun n => (writer, n)) ⟨0, 0⟩

end TxnEngine.Workload
