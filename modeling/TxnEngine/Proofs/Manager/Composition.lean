import TxnEngine.Proofs.Manager.Lookup
import TxnEngine.Proofs.Manager.Snapshots

/-!
# What the operations are made of

Every operation of transaction management is a sequence of a few shared actions. What holds of each
of these actions, and of a sequence if it holds of its parts, holds of every operation. So nothing
has to be shown of the operations one by one. The fewer of the actions an operation is made of, the
less has to be shown.

Results:
* `Observing.isVisibleAt` and others: the operations that only look records up.
* `Aborting.rollback` and others: those that renew a transaction or end it, and look nothing up.
* `Beginning.begin` and others: those that make a transaction active.
* `Composed.settle` and others: all that make no transaction active.
* `Tracking.program`: all operations.
-/

namespace TxnEngine

namespace Manager

open Program

theorem run_onKeepAlive {α : Type} (p : Program KeepAlive α) (m : Manager) :
    (onKeepAlive p).run m =
      ((p.run m.keepAlive).1, { m with keepAlive := (p.run m.keepAlive).2 }) := by
  unfold onKeepAlive
  refine run_focus (fun _ _ => ?_) (fun _ => ?_) (fun _ _ _ => ?_) p m <;> rfl

/-- A property of programs that sequences inherit, and that reading anything but the cache has and
writing down what was found. -/
structure Sequenced (P : ∀ α : Type, Program Manager α → Prop) : Prop where
  pure : ∀ {α : Type} (a : α), P α (Pure.pure a)
  bind : ∀ {α β : Type} {p : Program Manager α} {q : α → Program Manager β},
    P α p → (∀ a, P β (q a)) → P β (p >>= q)
  read : ∀ {α : Type} (f : Manager → α), (∀ m, f m.uncached = f m) → P α (Program.read f)
  remember : ∀ r, P _ (remember r)
  count : ∀ event, P _ (count event)

/-- Asking the cache has the property as well. -/
structure Observing (P : ∀ α : Type, Program Manager α → Prop) : Prop extends Sequenced P where
  cached : ∀ id, P _ (cached id)

/-- The actions that renew transactions, or end them without a commit, have the property as well. -/
structure Aborting (P : ∀ α : Type, Program Manager α → Prop) : Prop extends Sequenced P where
  transition : ∀ id t, (∀ ts now timeout, t ≠ .commit ts now timeout) → P _ (transition id t)
  leave : ∀ id, P _ (leave id)
  unregister : ∀ id, P _ (onKeepAlive (KeepAlive.unregister id))
  takeWork : P _ (onKeepAlive (atomically KeepAlive.takeWork))

/-- The actions that begin transactions have the property as well. -/
structure Beginning (P : ∀ α : Type, Program Manager α → Prop) : Prop extends Sequenced P where
  drawTimestamp : P _ drawTimestamp
  createRecord : ∀ r, P _ (createRecord r)
  enter : ∀ id, P _ (enter id)
  register : ∀ id, P _ (onKeepAlive (KeepAlive.register id))

/-- A property of programs that sequences inherit, and that the actions have which end, observe and
renew transactions. -/
structure Composed (P : ∀ α : Type, Program Manager α → Prop) : Prop where
  pure : ∀ {α : Type} (a : α), P α (Pure.pure a)
  bind : ∀ {α β : Type} {p : Program Manager α} {q : α → Program Manager β},
    P α p → (∀ a, P β (q a)) → P β (p >>= q)
  read : ∀ {α : Type} (f : Manager → α), P α (Program.read f)
  drawTimestamp : P _ drawTimestamp
  transition : ∀ id t, P _ (transition id t)
  cached : ∀ id, P _ (cached id)
  remember : ∀ r, P _ (remember r)
  count : ∀ event, P _ (count event)
  leave : ∀ id, P _ (leave id)
  unregister : ∀ id, P _ (onKeepAlive (KeepAlive.unregister id))
  takeWork : P _ (onKeepAlive (atomically KeepAlive.takeWork))

/-- The actions that begin transactions have the property as well. -/
structure Tracking (P : ∀ α : Type, Program Manager α → Prop) : Prop extends Composed P where
  createRecord : ∀ r, P _ (createRecord r)
  enter : ∀ id, P _ (enter id)
  register : ∀ id, P _ (onKeepAlive (KeepAlive.register id))

theorem Sequenced.map {P : ∀ α : Type, Program Manager α → Prop} (h : Sequenced P) {α β : Type}
    (f : α → β) {p : Program Manager α} (hp : P α p) : P β (f <$> p) := by
  rw [map_eq_pure_bind]
  exact h.bind hp fun a => h.pure (f a)

namespace Observing

variable {P : ∀ α : Type, Program Manager α → Prop} (h : Observing P)
include h

theorem lookup (id : TxnId) : P _ (lookup id) := by
  refine h.bind (h.cached id) fun found => ?_
  cases found with
  | some r => exact h.bind (h.count _) fun _ => h.pure _
  | none =>
    refine h.bind (h.count _) fun _ => h.bind (h.read _ fun _ => rfl) fun record => ?_
    cases record with
    | none => exact h.pure _
    | some r =>
      simp only
      split_ifs
      · exact h.bind (h.remember r) fun _ => h.pure _
      · exact h.pure _

theorem status (id : TxnId) : P _ (status id) := by
  refine h.bind (h.lookup id) fun answer => ?_
  cases answer with
  | error e => exact h.pure _
  | ok r =>
    exact h.bind (h.read _ fun _ => rfl) fun _ => h.bind (h.read _ fun _ => rfl) fun _ => h.pure _

theorem isVisibleAt (snapshot : Timestamp) (own : Option TxnId) (candidate : TxnId) :
    P _ (isVisibleAt snapshot own candidate) := by
  unfold Manager.isVisibleAt
  split_ifs
  · exact h.pure _
  · exact h.pure _
  · refine h.bind (h.status candidate) fun answer => ?_
    rcases answer with e | status
    · exact h.pure _
    · cases status <;> exact h.pure _

end Observing

namespace Aborting

variable {P : ∀ α : Type, Program Manager α → Prop} (h : Aborting P)
include h

theorem untrack (id : TxnId) : P _ (untrack id) :=
  h.bind (h.leave id) fun _ => h.unregister id

/-- A commit has the property if drawing its timestamp and asking the log for it do. -/
theorem commit (t : Transaction) (hdraw : P _ drawTimestamp)
    (hcommit : ∀ ts now timeout, P _ (Manager.transition t.id (.commit ts now timeout))) :
    P _ (commit t) := by
  unfold Manager.commit
  split_ifs
  · exact h.pure _
  · exact h.bind (h.untrack _) fun _ => h.bind (h.count _) fun _ => h.pure _
  · refine h.bind hdraw fun answer => ?_
    cases answer with
    | error e => exact h.pure _
    | ok ts =>
      refine h.bind (h.read _ fun _ => rfl) fun _ => h.bind (h.read _ fun _ => rfl) fun _ =>
        h.bind (hcommit _ _ _) fun answer => ?_
      rcases answer with e | outcome
      · exact h.pure _
      · cases outcome <;>
          exact h.bind (h.untrack _) fun _ => h.bind (h.remember _) fun _ =>
            h.bind (h.count _) fun _ => h.pure _

theorem rollback (t : Transaction) : P _ (rollback t) := by
  unfold Manager.rollback
  cases t.phase with
  | aborted | committed => exact h.pure _
  | active =>
    simp only
    split_ifs
    · exact h.bind (h.untrack _) fun _ => h.pure _
    · refine h.bind (h.transition _ _ nofun) fun answer => ?_
      cases answer with
      | error e => exact h.pure _
      | ok outcome =>
        refine h.bind (h.untrack _) fun _ => h.bind (h.remember _) fun _ => ?_
        cases outcome with
        | unchanged r => exact h.pure _
        | applied r | rejected r => exact h.bind (h.count _) fun _ => h.pure _

theorem fail (t : Transaction) : P _ (fail t) := by
  unfold Manager.fail
  split_ifs
  · exact h.pure _
  · exact h.bind (h.untrack _) fun _ => h.pure _
  · refine h.bind (h.transition _ _ nofun) fun answer => ?_
    cases answer with
    | error e => exact h.pure _
    | ok outcome =>
      refine h.bind (h.untrack _) fun _ => h.bind (h.remember _) fun _ => ?_
      cases outcome with
      | applied r => exact h.bind (h.count _) fun _ => h.pure _
      | unchanged r | rejected r => exact h.pure _

/-- A settlement has the property if asking the cache does. -/
theorem settle (hcached : ∀ id, P _ (cached id)) (id : TxnId) : P _ (settle id) := by
  have hobserving : Observing P := { h with cached := hcached }
  unfold Manager.settle
  refine h.bind (h.read _ fun _ => rfl) fun _ => h.bind (hobserving.lookup id) fun answer => ?_
  cases answer with
  | error e => exact h.pure _
  | ok r =>
    refine h.bind (h.read _ fun _ => rfl) fun _ => ?_
    simp only
    split_ifs
    · exact h.pure _
    · refine h.bind (h.transition _ _ nofun) fun answer => ?_
      rcases answer with e | outcome
      · exact h.pure _
      · cases outcome with
        | applied r =>
          exact h.bind (h.count _) fun _ => h.bind (h.untrack _) fun _ =>
            h.bind (h.remember _) fun _ => h.pure _
        | unchanged r | rejected r => exact h.bind (h.remember _) fun _ => h.pure _

theorem renew (id : TxnId) : P _ (renew id) := by
  unfold Manager.renew
  refine h.bind (h.read _ fun _ => rfl) fun _ => h.bind (h.read _ fun _ => rfl) fun connected => ?_
  split_ifs
  · exact h.count _
  · refine h.bind (h.read _ fun _ => rfl) fun _ => h.bind (h.transition _ _ nofun) fun answer => ?_
    split
    · exact h.count _
    · exact h.pure _
    · exact h.unregister _
    · exact h.unregister _
    · exact h.count _

theorem work : P _ work := by
  refine h.bind h.takeWork fun due => ?_
  cases due with
  | none => exact h.pure _
  | some id =>
    refine h.bind (h.read _ fun _ => rfl) fun registered => ?_
    split_ifs
    · exact h.renew id
    · exact h.pure _

end Aborting

namespace Beginning

variable {P : ∀ α : Type, Program Manager α → Prop} (h : Beginning P)
include h

theorem track (id : TxnId) : P _ (track id) :=
  h.bind (h.enter id) fun _ => h.register id

theorem begin : P _ begin := by
  refine h.bind h.drawTimestamp fun answer => ?_
  cases answer with
  | error e => exact h.pure _
  | ok ts =>
    refine h.bind (h.read _ fun _ => rfl) fun now => h.bind (h.createRecord _) fun answer => ?_
    cases answer with
    | error e => exact h.pure _
    | ok _ => exact h.bind (h.track _) fun _ => h.bind (h.count _) fun _ => h.pure _

theorem beginReadOnly : P _ beginReadOnly := by
  refine h.bind h.drawTimestamp fun answer => ?_
  cases answer with
  | error e => exact h.pure _
  | ok ts => exact h.bind (h.enter _) fun _ => h.bind (h.count _) fun _ => h.pure _

theorem elevate (t : Transaction) : P _ (elevate t) := by
  unfold Manager.elevate
  split_ifs
  · exact h.pure _
  · exact h.pure _
  · refine h.bind (h.read _ fun _ => rfl) fun _ => h.bind (h.createRecord _) fun answer => ?_
    cases answer with
    | error e => exact h.pure _
    | ok _ => exact h.bind (h.track _) fun _ => h.pure _

end Beginning

namespace Composed

variable {P : ∀ α : Type, Program Manager α → Prop} (h : Composed P)
include h

theorem sequenced : Sequenced P where
  pure := h.pure
  bind := h.bind
  read := fun f _ => h.read f
  remember := h.remember
  count := h.count

theorem observing : Observing P :=
  { h.sequenced with cached := h.cached }

theorem aborting : Aborting P :=
  { h.sequenced with
    transition := fun id t _ => h.transition id t
    leave := h.leave
    unregister := h.unregister
    takeWork := h.takeWork }

theorem map {α β : Type} (f : α → β) {p : Program Manager α} (hp : P α p) : P β (f <$> p) :=
  h.sequenced.map f hp

theorem status (id : TxnId) : P _ (status id) :=
  h.observing.status id

theorem isVisibleAt (snapshot : Timestamp) (own : Option TxnId) (candidate : TxnId) :
    P _ (isVisibleAt snapshot own candidate) :=
  h.observing.isVisibleAt snapshot own candidate

theorem commit (t : Transaction) : P _ (commit t) :=
  h.aborting.commit t h.drawTimestamp fun _ _ _ => h.transition _ _

theorem rollback (t : Transaction) : P _ (rollback t) :=
  h.aborting.rollback t

theorem fail (t : Transaction) : P _ (fail t) :=
  h.aborting.fail t

theorem settle (id : TxnId) : P _ (settle id) :=
  h.aborting.settle h.cached id

theorem renew (id : TxnId) : P _ (renew id) :=
  h.aborting.renew id

theorem work : P _ work :=
  h.aborting.work

end Composed

/-- The operations that are a single action of their own: those of the dispatcher, the shutdown, and
the passing of time. -/
def Op.isPlain : Op → Bool
  | .receive | .dispatch | .shutdown | .setClock _ | .wait _ => true
  | _ => false

namespace Tracking

variable {P : ∀ α : Type, Program Manager α → Prop} (h : Tracking P)
include h

theorem beginning : Beginning P :=
  { h.sequenced with
    drawTimestamp := h.drawTimestamp
    createRecord := h.createRecord
    enter := h.enter
    register := h.register }

/-- Every operation has the property, if those have it that are a single action of their own. -/
theorem program {op : Op} (hplain : op.isPlain = true → P _ op.program) : P _ op.program := by
  cases op with
  | begin => exact h.map _ h.beginning.begin
  | beginReadOnly => exact h.map _ h.beginning.beginReadOnly
  | elevate t => exact h.map _ (h.beginning.elevate t)
  | commit t => exact h.map _ (h.commit t)
  | rollback t => exact h.map _ (h.rollback t)
  | fail t => exact h.map _ (h.fail t)
  | status id => exact h.map _ (h.status id)
  | isVisible reader candidate => exact h.map _ (h.isVisibleAt _ _ _)
  | isVisibleAt snapshot own candidate => exact h.map _ (h.isVisibleAt _ _ _)
  | settle id => exact h.map _ (h.settle id)
  | work => exact h.map _ h.work
  | receive | dispatch | shutdown | setClock now | wait d => exact hplain rfl

end Tracking

end Manager

end TxnEngine
