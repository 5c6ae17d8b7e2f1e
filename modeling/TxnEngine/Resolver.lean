import TxnEngine.Program
import TxnEngine.Stamps

/-!
# The read resolver

A reader that had to ask for a writer's status submits the version for stamping. Submissions wait in
a bounded queue; a full queue drops them. Workers take them in order, settle the writer and stamp the
version; a writer that is still live leaves it unstamped.
-/

namespace TxnEngine

/-- A version to be stamped. -/
structure ResolveJob where
  location : CellLocation
  txnId : TxnId
deriving DecidableEq, Inhabited

/-- What became of a submission. -/
inductive Submission where
  | accepted
  | dropped
  /-- The resolver has been shut down. -/
  | closed
deriving DecidableEq, Inhabited

/-- What became of a job. -/
inductive Resolution where
  | resolved
  /-- The writer is live. -/
  | left
  | failed (cause : Error)
deriving DecidableEq, Inhabited

/-- The queue of submissions and the jobs that workers hold (`ReadResolver`). -/
structure Resolver where
  capacity : Nat
  workers : Nat
  isRunning : Bool
  queue : List ResolveJob
  held : List ResolveJob
deriving DecidableEq, Inhabited

namespace Resolver

/-- A resolver has room for one submission and one worker at least (`ReadResolver::start`). -/
def start (capacity workers : Nat) : Resolver :=
  ⟨max capacity 1, max workers 1, true, [], []⟩

/-- Puts a job into the queue if there is room (`ReadResolver::submit`). -/
def submit (r : Resolver) (job : ResolveJob) : Submission × Resolver :=
  if !r.isRunning then (.closed, r)
  else if r.queue.length < r.capacity then (.accepted, { r with queue := r.queue ++ [job] })
  else (.dropped, r)

/-- An idle worker takes the next job. -/
def take (r : Resolver) : Resolver :=
  match r.queue with
  | [] => r
  | job :: rest =>
    if r.held.length < r.workers then { r with queue := rest, held := r.held ++ [job] } else r

/-- A worker receives the next job, if there is one. -/
def receive (r : Resolver) : Option ResolveJob × Resolver :=
  match r.queue with
  | [] => (none, r)
  | job :: rest => (some job, { r with queue := rest })

/-- All accepted jobs, in the order in which they are worked off, and the resolver without them. -/
def drain (r : Resolver) : List ResolveJob × Resolver :=
  (r.held ++ r.queue, { r with queue := [], held := [] })

/-- Takes no more submissions (`ReadResolver::shutdown`). -/
def close (r : Resolver) : Resolver :=
  { r with isRunning := false }

/-- A worker's job (the loop of `work`): the writer is settled, and a final status is stamped on the
version. -/
def resolve {σ : Type} (settle : TxnId → Program σ (Except Error (Option FinalStatus)))
    (stamp : CellLocation → TxnId → FinalStatus → Program σ (Except Error Unit))
    (job : ResolveJob) : Program σ Resolution := do
  match ← settle job.txnId with
  | .error e => return .failed e
  | .ok none => return .left
  | .ok (some status) =>
    match ← stamp job.location job.txnId status with
    | .error e => return .failed e
    | .ok () => return .resolved

/-- The resolver as it is shown in messages (`Debug` of `ReadResolver`). -/
def text (r : Resolver) : String :=
  "ReadResolver \x7b running: " ++ (if r.isRunning then "true" else "false") ++ " \x7d"

end Resolver

end TxnEngine
