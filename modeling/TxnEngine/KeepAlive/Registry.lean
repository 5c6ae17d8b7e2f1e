import TxnEngine.KeepAlive.Deadlines
import TxnEngine.Program

/-!
# The keep-alive registry

Transactions that want to be kept alive are registered. A new registration travels as a message to
the dispatcher, which gives the id its first deadline; ids that fall due travel as messages to the
workers, which renew those that are still registered. Registering, unregistering, dispatching and
working are done by different parties, so each is split into its atomic actions.
-/

namespace TxnEngine

/-- The registered transactions and the messages under way (`KeepAliveScheduler`). -/
structure KeepAlive where
  interval : Duration
  /-- Whether registrations are still taken. -/
  isRunning : Bool
  registered : List TxnId
  /-- Registrations on their way to the dispatcher. -/
  announced : List TxnId
  deadlines : Deadlines
  /-- Due ids on their way to the workers. -/
  work : List TxnId
  /-- Whether the workers can reach the records. -/
  isConnected : Bool
deriving DecidableEq, Inhabited

namespace KeepAlive

/-- A registry without registrations. -/
def start (interval : Duration) : KeepAlive :=
  ⟨interval, true, [], [], .empty, [], true⟩

/-- A registry without registrations (`KeepAliveScheduler::start`). Its interval has to be
positive. -/
def startChecked (interval : Duration) : Except ConfigFault KeepAlive :=
  if interval = .zero then .error .schedulerIntervalZero else .ok (start interval)

/-- Whether an id is kept alive (`KeepAliveScheduler::is_registered`). -/
def isRegistered (k : KeepAlive) (id : TxnId) : Bool :=
  k.registered.contains id

/-! ## The callers' actions -/

/-- Adds an id to the registered ones, and tells whether it is new. -/
def enlist (id : TxnId) (k : KeepAlive) : Bool × KeepAlive :=
  if id ∈ k.registered then (false, k) else (true, { k with registered := id :: k.registered })

/-- Sends a registration to the dispatcher, and tells whether it was taken. -/
def announce (id : TxnId) (k : KeepAlive) : Bool × KeepAlive :=
  if k.isRunning then (true, { k with announced := k.announced ++ [id] }) else (false, k)

/-- Takes an id out of the registered ones. -/
def discard (id : TxnId) (k : KeepAlive) : KeepAlive :=
  { k with registered := k.registered.filter (· ≠ id) }

/-- Registers an id (`KeepAliveScheduler::register`): one that is new is announced, and discarded
again if no one takes it. -/
def register (id : TxnId) : Program KeepAlive Unit := do
  if ← Program.atomically (enlist id) then
    unless ← Program.atomically (announce id) do
      Program.modify (discard id)

/-- Keeps an id alive no longer (`KeepAliveScheduler::unregister`). -/
def unregister (id : TxnId) : Program KeepAlive Unit :=
  Program.modify (discard id)

/-! ## The dispatcher's actions -/

/-- Receives one registration and gives it a deadline one interval ahead of `now` (`dispatch` at a
message). An interval that leads beyond the last instant, where the dispatcher stops, is left
out. -/
def receive (now : Instant) (k : KeepAlive) : KeepAlive :=
  match k.announced with
  | [] => k
  | id :: rest =>
    { k with
      announced := rest
      deadlines := (k.deadlines.schedule id (now + k.interval.nanos)).2 }

/-- Sends what is due at `now` to the workers (`dispatch` behind a message or a wait). -/
def dispatch (now : Instant) (k : KeepAlive) : KeepAlive :=
  let (due, deadlines) := k.deadlines.takeDue now k.interval k.isRegistered
  { k with deadlines, work := k.work ++ due }

/-! ## The workers' actions -/

/-- Receives the next due id (in `Renewer::run`). -/
def takeWork (k : KeepAlive) : Option TxnId × KeepAlive :=
  match k.work with
  | [] => (none, k)
  | id :: rest => (some id, { k with work := rest })

/-! ## The end -/

/-- Takes no more registrations and forgets those there are (`KeepAliveScheduler::shutdown`). -/
def shutdown (k : KeepAlive) : KeepAlive :=
  { k with isRunning := false, registered := [], announced := [], deadlines := .empty, work := [] }

/-- The registry as it is shown in messages (`Debug` of `KeepAliveScheduler`). -/
def text (k : KeepAlive) : String :=
  "KeepAliveScheduler \x7b interval: " ++ k.interval.text ++ ", registered: " ++
    toString k.registered.length ++ " \x7d"

end KeepAlive

end TxnEngine
