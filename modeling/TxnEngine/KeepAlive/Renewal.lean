import TxnEngine.Manager

/-!
# Renewing registered transactions

What a worker does with an id that fell due: if the id is still registered, its record is kept alive
at the present time. An id whose record is finished, expired or missing leaves the registry; any
other failure is counted, and the id is tried again at its next deadline.

`Manager.round` is one full turn of the registry: every registration reaches the dispatcher, an
interval goes by, and the workers renew what is due.
-/

namespace TxnEngine

namespace Manager

open Program

/-- Keeps a registered transaction alive (`Renewer::renew`). -/
def renew (id : TxnId) : Program Manager Unit := do
  let now ← readClock
  if !(← Program.read fun m => m.keepAlive.isConnected) then count .renewalFailure
  else
    let timeout ← Program.read fun m => m.timeout
    match ← transition id (.keepAlive now timeout) with
    | .ok (.applied _) => count .renewal
    | .ok (.unchanged _) => return ()
    | .ok (.rejected _) => onKeepAlive (KeepAlive.unregister id)
    | .error (.transactionNotFound _) => onKeepAlive (KeepAlive.unregister id)
    | .error _ => count .renewalFailure

/-- A worker's turn (the loop of `Renewer::run`): it takes the next due id, and renews it if it is
still registered. -/
def work : Program Manager Unit := do
  match ← onKeepAlive (atomically KeepAlive.takeWork) with
  | none => return ()
  | some id =>
    if ← Program.read fun m => m.keepAlive.isRegistered id then renew id

/-- The dispatcher takes every announced registration. -/
def receiveAll (m : Manager) : Manager :=
  let now := m.stopwatch.elapsed
  m.keepAlive.announced.foldl
    (fun m _ => { m with keepAlive := m.keepAlive.receive now }) m

/-- The workers take all work. -/
def workAll (m : Manager) : Manager :=
  m.keepAlive.work.foldl (fun m _ => (work.run m).2) m

/-- One turn of the registry: registrations are received, an interval goes by, and what is due is
renewed. -/
def round (m : Manager) : Manager :=
  let m := m.receiveAll
  let m := { m with stopwatch := m.stopwatch.wait m.keepAlive.interval }
  let m := { m with keepAlive := m.keepAlive.dispatch m.stopwatch.elapsed }
  m.workAll

end Manager

end TxnEngine
