import TxnEngine.History.World
import TxnEngine.Workload.Load

/-!
# Steps on pipelines and recorders

The steps of an engine's history that make, use and finish write pipelines and bad-record recorders
of the engine's write side.
-/

namespace TxnEngine.History.World

open Json (nat)

/-- The recorder that a step describes: that of a new load, or of a worker of one there is. -/
def newRecorder (j : Json) : Act Recorder := do
  if (j.get "of").isNull then
    let source ← j.textAt "source"
    let tolerance ← j.signedAtD "tolerance" 0
    Reply.ofEngine (← onParts (Engine.newRecorder source tolerance))
  else
    let (_, r) ← recorder j "of"
    let worker ← j.field "worker" readWorker
    Reply.ofEngine (← onParts (Workload.onSinks (r.forWorker worker)))

/-- Makes a pipeline, with the engine's retries or with those that the step asks for. -/
def newPipeline (j : Json) : Act Json := do
  let options ← WriteOptions.read j
  if ← j.flagAtD "raw" false then
    let retry ← j.fieldD "retry" RetryConfig.read (.noDelay 3)
    let described := j.get "recorder"
    let recorder ← if described.isNull then pure none else some <$> newRecorder described
    addPipeline (← onParts (Engine.newPipeline retry options recorder))
  else addPipeline (← onEngine (Engine.writePipeline options))

/-- Carries a batch. -/
def submitStep (j : Json) : Act Json := do
  let (n, p) ← pipeline j
  let t ← txn j
  let _ ← j.bytesAt "key"
  let rows ← j.field "rows" (Json.readList Mutation.read)
  let (result, p) ← onParts (Engine.onWrites (p.submit t rows))
  putPipeline n (some p)
  return (← Reply.ofEngine result).toJson

/-- Finishes a pipeline. Its recorder, or none, gets a slot. -/
def finishStep (j : Json) : Act Json := do
  let (n, p) ← pipeline j
  putPipeline n none
  let (stats, recorder) ← Reply.ofEngine (← onParts (Engine.onWrites p.finish))
  let r ← addRecorder recorder
  return .object [("stats", stats.toJson),
    ("recorder", .ofOption (Recorder.toJson (← place)) recorder), ("r", nat r)]

/-- The steps on pipelines. -/
def pipelineStep (j : Json) : Option (Act Json) :=
  match action j with
  | "pipeline" => some (newPipeline j)
  | "submit" => some (submitStep j)
  | "pipeline_info" => some do
    let (_, p) ← pipeline j
    return .object (p.members (← place))
  | "pipeline_debug" => some do
    let (_, p) ← pipeline j
    return .string p.text
  | "finish" => some (finishStep j)
  | "drop_pipeline" => some do
    let (n, p) ← pipeline j
    onParts (Engine.onWrites p.discard)
    putPipeline n none
    return .okay
  | _ => none

/-- The steps on recorders. -/
def recorderStep (j : Json) : Option (Act Json) :=
  match action j with
  | "recorder" => some do
    let r ← newRecorder j
    let n ← addRecorder (some r)
    return .object (("r", nat n) :: r.members (← place))
  | "recorder_info" => some do
    let (_, r) ← recorder j "r"
    return r.toJson (← place)
  | "recorder_merge" => some do
    let (n, r) ← recorder j "r"
    let (m, other) ← recorder j "other"
    if n = m then throw .unreadable
    match r.mergeCount? other.count with
    | none =>
      onParts (Workload.onSinks other.discard)
      modify fun w => { w with recorders := w.recorders.set m none }
      throw .outOfRange
    | some r =>
      modify fun w => { w with recorders := w.recorders.set n (some r) }
      return r.toJson (← place)
  | _ => none

end TxnEngine.History.World
