import TxnEngine.Json.Answer

/-!
# Steps of a history

A history is a list of steps, each a JSON object whose member `do` names what is done. The steps are
done in order on a state, and each is answered; a step that is refused is answered by the refusal,
and the next one is done all the same.

What a step makes is kept in numbered slots, in the order in which it was made. A slot can be
emptied, and is not used again.
-/

namespace TxnEngine.History

/-- A step over the state `σ`. A refusal keeps what was done before it. -/
abbrev Step (σ : Type) := ExceptT Refusal (StateM σ)

variable {σ τ α : Type}

/-- Does one step: its answer and the state behind it. -/
def answer (step : Step σ Json) (s : σ) : Json × σ :=
  let (reply, s) := step.run s
  (Reply.answer reply, s)

/-- Does steps in order: their answers and the state behind the last. -/
def answers (step : Json → Step σ Json) : List Json → σ → List Json × σ
  | [], s => ([], s)
  | j :: rest, s =>
    let (first, s) := answer (step j) s
    let (others, s) := answers step rest s
    (first :: others, s)

/-- The answer to a request that holds the steps of a history. -/
def run (request : Json) (step : Json → Step σ Json) (s : σ) : Reply Json := do
  let steps ← request.field "steps" Json.readArray
  return .object [("steps", .array (answers step steps s).1)]

/-- What a step does. -/
def action (j : Json) : String := ((j.get "do").string?).getD ""

/-- What is in a slot. -/
def slot (slots : List (Option α)) (n : Nat) : Reply α :=
  .ofOption slots[n]?.join

/-- Runs a program on the part of the state seen by `get` and written by `put`. -/
def runOn (get : σ → τ) (put : τ → σ → σ) (p : Program τ α) : Step σ α :=
  modifyGet fun s =>
    let (a, t) := p.run (get s)
    (a, put t s)

/-- Applies an operation to the part of the state seen by `get` and written by `put`. -/
def applyOn (get : σ → τ) (put : τ → σ → σ) (f : τ → α × τ) : Step σ α :=
  modifyGet fun s =>
    let (a, t) := f (get s)
    (a, put t s)

/-- A step that several histories share: what it does to their common part, or that it is not one
of theirs. -/
abbrev Shared (τ : Type) := Option (Reply (τ → Reply Json × τ))

/-- Does a shared step on the part of the state seen by `get` and written by `put`. -/
def doShared (get : σ → τ) (put : τ → σ → σ) (step : Reply (τ → Reply Json × τ)) : Step σ Json := do
  let reply ← applyOn get put (← step)
  reply

end TxnEngine.History
