import TxnEngine.History.World

/-!
# Steps on transactions

The steps of an engine's history that begin, end and observe transactions, and write batches on
their behalf.
-/

namespace TxnEngine.History.World

open Json (nat)

/-- Whether a transaction sees a version. The stamp of the version is unresolved, the one that is
stored, or resolved as the step says; what was submitted for stamping is worked off. -/
def versionStep (j : Json) : Act Json := do
  let reader ← txn j
  let writer ← id j "writer"
  let loc ← j.field "loc" CellLocation.read
  let stamp : CellStamp ←
    match j.get "status" with
    | .null => pure (.unresolved writer)
    | .string "stored" => pure ((← get).engine.stamps.cell loc writer)
    | status => pure (.resolved writer (← FinalStatus.read status))
  let seen ← onEngine <|
    if (j.get "via").string? = some "no_resolver" then
      Engine.versionVisible false reader loc stamp
    else Engine.isVisibleVersion reader loc stamp
  onEngine Engine.resolveAll
  return .bool (← Reply.ofEngine seen)

/-- Whether a transaction is kept alive, after it was let go if the step asks for that. -/
def keepAliveStep (j : Json) : Act Json := do
  let id ← id j "id"
  if ← j.flagAtD "unregister" false then
    onManager (Manager.onKeepAlive (KeepAlive.unregister id))
  requireEngine
  let k := (← get).engine.manager.keepAlive
  return .object [("registered", .bool (k.isRegistered id)), ("count", nat k.registered.length)]

/-- Writes a batch on behalf of a transaction. -/
def batchStep (j : Json) : Act Json := do
  let _ ← j.bytesAt "key"
  let rows ← j.field "rows" (Json.readList Mutation.read)
  let permissive ← j.flagAtD "permissive" false
  let tolerance ← j.signedAtD "tolerance" 0
  let result ← withTxn j fun t => onEngine (Engine.submitWriteBatch t rows permissive tolerance)
  return result.toJson

/-- The steps that observe transactions. -/
def readingStep (j : Json) : Option (Act Json) :=
  match action j with
  | "txn" => some do return (← txn j).toJson
  | "status" => some do
    let id ← id j "id"
    return (← Reply.ofEngine (← either j (Engine.status id) (Manager.status id))).toJson
  | "settle" => some do
    let settled ← onManager (Manager.settle (← id j "id"))
    return .ofOption FinalStatus.toJson (← Reply.ofEngine settled)
  | "is_visible" => some do
    let t ← txn j
    let candidate ← id j "candidate"
    let seen ← either j (Engine.isVisible t candidate) (Manager.isVisible t candidate)
    return .bool (← Reply.ofEngine seen)
  | "is_visible_at" => some do
    let snapshot ← j.field "snapshot" Timestamp.read
    let own ← j.field? "own" TxnId.read
    let candidate ← id j "candidate"
    let seen ← onManager (Manager.isVisibleAt snapshot own candidate)
    return .bool (← Reply.ofEngine seen)
  | "is_visible_version" => some (versionStep j)
  | "keep_alive" => some (keepAliveStep j)
  | _ => none

/-- The steps that begin, change and end transactions. -/
def endingStep (j : Json) : Option (Act Json) :=
  match action j with
  | "begin" => some do addTxn (← either j Engine.beginTransaction Manager.begin)
  | "begin_read_only" => some do addTxn (← either j Engine.beginReadOnly Manager.beginReadOnly)
  | "elevate" => some do
    withTxn j fun t => either j (Engine.elevate t) (Manager.elevate t)
    return (← txn j).toJson
  | "commit" => some do
    let ts ← withTxn j fun t => either j (Engine.commit t) (Manager.commit t)
    return ts.toJson
  | "rollback" => some do
    withTxn j fun t => either j (Engine.rollback t) (Manager.rollback t)
    return .okay
  | "fail_txn" => some do
    withTxn j fun t => onManager (Manager.fail t)
    return .okay
  | "batch" => some (batchStep j)
  | _ => none

end TxnEngine.History.World
