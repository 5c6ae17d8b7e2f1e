import Mathlib.Data.List.Nodup
import TxnEngine.Pipeline
import TxnEngine.Proofs.Manager.Alone

/-!
# The pauses between attempts

In front of every attempt but the first a batch waits. With jitter the delay depends on a random
number, and the numbers of a batch follow on each other: nothing else draws any. So the random
numbers at the start of a batch decide in front of which attempt the delay is out of range.

Results:
* `RetryConfig.draws`: how many random numbers are drawn in front of an attempt.
* `RetryConfig.Fits`: the delay in front of an attempt can be represented.
* `RetryConfig.fits_iff_of_steady`: without jitter it does not depend on random numbers.
* `Pipeline.random_attempt`: an attempt draws no random number.
-/

namespace TxnEngine

namespace RetryConfig

variable {c : RetryConfig} {random : Nat → Float}

/-- How many random numbers are drawn by a batch before the delay in front of the given attempt. -/
def draws (c : RetryConfig) (attempt : Nat) : Nat :=
  (List.range attempt).countP c.isJittered

theorem draws_succ (c : RetryConfig) (attempt : Nat) :
    c.draws (attempt + 1) = c.draws attempt + (c.isJittered attempt).toNat := by
  rw [draws, List.range_succ, List.countP_append, draws, List.countP_singleton]
  cases c.isJittered attempt <;> rfl

/-- The delay in front of an attempt of a batch can be represented, when `random` are the random
numbers at the start of the batch. -/
def Fits (c : RetryConfig) (random : Nat → Float) (attempt : Nat) : Prop :=
  c.drawnDelay? (random (c.draws attempt)) attempt ≠ none

/-- None of the random numbers takes the delay in front of an attempt out of range. -/
def Suits (c : RetryConfig) (random : Nat → Float) : Prop :=
  ∀ attempt < c.maxAttempts, ∀ n, c.drawnDelay? (random n) attempt ≠ none

/-- The first attempt is made at once. -/
theorem drawnDelay?_zero (c : RetryConfig) (draw : Float) : c.drawnDelay? draw 0 ≠ none := by
  simp [drawnDelay?, isJittered, delay?]

theorem isJittered_of_steady (hsteady : c.addJitter = false) (attempt : Nat) :
    c.isJittered attempt = false := by
  simp [isJittered, hsteady]

theorem suits_of_steady (hsteady : c.addJitter = false)
    (h : ∀ attempt < c.maxAttempts, c.delay? attempt ≠ none) (random : Nat → Float) :
    c.Suits random := by
  intro attempt hlt n
  rw [drawnDelay?, isJittered_of_steady hsteady, if_neg Bool.false_ne_true]
  exact h attempt hlt

/-- Without jitter it does not depend on random numbers whether a delay can be represented. -/
theorem fits_iff_of_steady (hsteady : c.addJitter = false) (random : Nat → Float) (attempt : Nat) :
    c.Fits random attempt ↔ c.delay? attempt ≠ none := by
  rw [Fits, drawnDelay?, isJittered_of_steady hsteady, if_neg Bool.false_ne_true]

end RetryConfig

namespace Pipeline

open Program

variable {σ : Type}

/-- The write side behind the delay in front of an attempt. -/
def paused (retry : RetryConfig) (made : Nat) (w : WriteSide σ) : WriteSide σ :=
  { w with random := fun n => w.random (n + (retry.isJittered made).toNat) }

@[simp]
theorem run_pause (retry : RetryConfig) (made : Nat) (w : WriteSide σ) :
    (pause retry made).run w = (retry.drawnDelay? (w.random 0) made, paused retry made w) := rfl

/-- What a program yields that goes on behind the delay in front of an attempt. -/
theorem yields_pause_bind {α : Type} {retry : RetryConfig} {made : Nat} {w : WriteSide σ}
    {q : Option Duration → Program (WriteSide σ) α} {post : α → WriteSide σ → Prop}
    (h : (q (retry.drawnDelay? (w.random 0) made)).Yields post (paused retry made w)) :
    (pause retry made >>= q).Yields post w :=
  h

/-- The write side of a batch that has come to an attempt draws the numbers that the attempts before
have left of those at its start. -/
def Drawn (retry : RetryConfig) (random : Nat → Float) (made : Nat) (w : WriteSide σ) : Prop :=
  w.random = fun n => random (n + retry.draws made)

theorem drawn_start (retry : RetryConfig) (w : WriteSide σ) : Drawn retry w.random 0 w := rfl

variable {retry : RetryConfig} {random : Nat → Float} {made : Nat} {w w' : WriteSide σ}

theorem Drawn.pause (h : Drawn retry random made w) :
    Drawn retry random (made + 1) (paused retry made w) := by
  unfold Drawn paused at *
  simp only [h, RetryConfig.draws_succ]
  exact funext fun n => congrArg random (by omega)

/-- The random number that is drawn next. -/
theorem Drawn.head (h : Drawn retry random made w) : w.random 0 = random (retry.draws made) :=
  (congrFun h 0).trans (congrArg random (Nat.zero_add _))

theorem Drawn.congr (h : Drawn retry random made w) (hrandom : w'.random = w.random) :
    Drawn retry random made w' :=
  hrandom.trans h

/-! ## An attempt -/

/-- No action of the program draws a random number. -/
def Undrawn {α : Type} (p : Program (WriteSide σ) α) : Prop :=
  p.Acts fun w w' => w'.random = w.random

theorem undrawn_onDirectory {α : Type} (p : Program Directory α) :
    Undrawn (onDirectory p : Program (WriteSide σ) α) := by
  unfold Undrawn onDirectory
  refine .focus (fun _ _ => ?_) p
  rfl

theorem undrawn_rejectRow (permissive mixed : Bool) (row : BatchRow) (o : Outcome) (b : BatchRun) :
    Undrawn (rejectRow permissive mixed row o b : Program (WriteSide σ) _) := by
  unfold rejectRow
  split
  · exact .pure _
  · refine .bind (undrawn_onDirectory _) fun ⟨exceeded, recorder⟩ => ?_
    match exceeded with
    | .error e => exact .pure _
    | .ok true => exact .bind (.atomically fun _ => rfl) fun _ => .pure _
    | .ok false => exact .pure _

theorem undrawn_sortRows (permissive mixed : Bool) (outcomes : List (BatchRow × Outcome))
    (b : BatchRun) :
    Undrawn (sortRows permissive mixed outcomes b : Program (WriteSide σ) _) := by
  induction outcomes generalizing b with
  | nil => exact .pure _
  | cons x rest ih =>
    obtain ⟨row, o⟩ := x
    simp only [sortRows]
    split_ifs
    · exact ih _
    · refine .bind (ih _) fun ⟨answer, b⟩ => ?_
      cases answer <;> exact .pure _
    · refine .bind (undrawn_rejectRow permissive mixed row o b) fun ⟨answer, b⟩ => ?_
      cases answer with
      | error e => exact .pure _
      | ok _ => exact ih _

theorem undrawn_attempt [Substrate σ] (permissive : Bool) (txn : TxnId) (pending : List BatchRow)
    (b : BatchRun) : Undrawn (attempt permissive txn pending b : Program (WriteSide σ) _) := by
  unfold attempt
  refine .bind (.atomically fun _ => rfl) fun route => ?_
  cases route with
  | error e => exact .pure _
  | ok address =>
    refine .bind (.atomically fun _ => rfl) fun answer => ?_
    cases answer with
    | error e =>
      simp only
      split_ifs <;> exact .pure _
    | ok response =>
      simp only
      split
      · exact .pure _
      · refine .bind (undrawn_sortRows _ _ _ _) fun ⟨answer, b⟩ => ?_
        cases answer with
        | error e => exact .pure _
        | ok pending =>
          simp only
          split_ifs
          · exact .bind (.atomically fun _ => rfl) fun _ => .pure _
          · exact .pure _

/-- An attempt draws no random number. -/
theorem random_attempt [Substrate σ] (permissive : Bool) (txn : TxnId) (pending : List BatchRow)
    (b : BatchRun) (w : WriteSide σ) :
    ((attempt permissive txn pending b).run w).2.random = w.random :=
  Acts.run_eq (undrawn_attempt permissive txn pending b) w

end Pipeline

end TxnEngine
