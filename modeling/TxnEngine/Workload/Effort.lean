/-!
# Effort

How long a trial waits for a condition, and how many random cases a property is checked on.
-/

namespace TxnEngine.Workload

/-- The number of random cases of a check, and how many steps a failing case may be made smaller
(`PropTestConfig`). -/
structure CheckEffort where
  cases : Nat
  shrinkSteps : Nat
deriving DecidableEq, Inhabited

namespace CheckEffort

def default : CheckEffort := ⟨256, 1000⟩

def quick : CheckEffort := ⟨32, 100⟩

def thorough : CheckEffort := ⟨1024, 10000⟩

end CheckEffort

/-- How often a condition is asked at most: every 5 ms for 5 s, and once at the end. -/
def askLimit : Nat := 1001

/-- Asks a condition with the number of the call until it holds, at most `left` more times. Answers
whether it held and how often it was asked. -/
def awaitFrom (holds : Nat → Bool) : (left asked : Nat) → Bool × Nat
  | 0, asked => (false, asked)
  | left + 1, asked =>
    if holds (asked + 1) then (true, asked + 1) else awaitFrom holds left (asked + 1)

/-- Waits until a condition holds (`wait_until`). -/
def await (holds : Nat → Bool) : Bool × Nat :=
  awaitFrom holds askLimit 0

end TxnEngine.Workload
