/-!
# Counters

What the engine counts about itself.
-/

namespace TxnEngine

/-- The counters of an engine (`TxnMetrics`). -/
structure Metrics where
  begun : Nat
  committed : Nat
  rolledBack : Nat
  failed : Nat
  /-- Expired transactions rolled back by someone else than their owner. -/
  abandoned : Nat
  conflicts : Nat
  keepAliveRenewals : Nat
  keepAliveFailures : Nat
  cacheHits : Nat
  cacheMisses : Nat
  resolverSubmitted : Nat
  resolverResolved : Nat
  resolverDropped : Nat
  resolverFailed : Nat
deriving DecidableEq, Inhabited

namespace Metrics

/-- Nothing counted. -/
def zero : Metrics :=
  ⟨0, 0, 0, 0, 0, 0, 0, 0, 0, 0, 0, 0, 0, 0⟩

/-- The events that are counted. -/
inductive Event where
  | begin
  | commit
  | rollback
  | failure
  | abandon
  | conflict
  | renewal
  | renewalFailure
  | cacheHit
  | cacheMiss
  | submit
  | resolve
  | drop
  | resolveFailure
deriving DecidableEq

/-- Counts one event. -/
def count (m : Metrics) : Event → Metrics
  | .begin => { m with begun := m.begun + 1 }
  | .commit => { m with committed := m.committed + 1 }
  | .rollback => { m with rolledBack := m.rolledBack + 1 }
  | .failure => { m with failed := m.failed + 1 }
  | .abandon => { m with abandoned := m.abandoned + 1 }
  | .conflict => { m with conflicts := m.conflicts + 1 }
  | .renewal => { m with keepAliveRenewals := m.keepAliveRenewals + 1 }
  | .renewalFailure => { m with keepAliveFailures := m.keepAliveFailures + 1 }
  | .cacheHit => { m with cacheHits := m.cacheHits + 1 }
  | .cacheMiss => { m with cacheMisses := m.cacheMisses + 1 }
  | .submit => { m with resolverSubmitted := m.resolverSubmitted + 1 }
  | .resolve => { m with resolverResolved := m.resolverResolved + 1 }
  | .drop => { m with resolverDropped := m.resolverDropped + 1 }
  | .resolveFailure => { m with resolverFailed := m.resolverFailed + 1 }

end Metrics

end TxnEngine
