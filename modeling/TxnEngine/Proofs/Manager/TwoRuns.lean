import TxnEngine.Proofs.Manager.Composition

/-!
# Operations that are run twice

Every operation, run from two states that differ in their caches only, answers the same and leaves
states that differ in their caches only, whatever time passes in front of each action of either run.
An operation that looks nothing up does not use the cache; one that does is told the same, because
either cache agrees with the log.

Results:
* `agrees_atomically`: actions that are the same without a cache.
* `aborting_transparent`, `beginning_transparent`: the operations that look nothing up.
* `agrees_status`, `agrees_settle` and the like: the operations that look a record up.
-/

namespace TxnEngine

namespace Manager

open Program

variable {m m' : Manager}

/-! ## Actions -/

/-- An action that is the same without a cache. -/
theorem agrees_atomically {α : Type} {action : Manager → α × Manager}
    (haction : ∀ m : Manager, (action m).1 = (action m.uncached).1 ∧
      (action m).2.uncached = (action m.uncached).2.uncached)
    (hview : m.uncached = m'.uncached) :
    (atomically action).Agrees TimePasses uncached m m' := by
  refine .atomically (fun _ _ h => uncached_of_timePasses h) (fun s t hst => ?_) hview
  obtain ⟨hs, hs'⟩ := haction s
  obtain ⟨ht, ht'⟩ := haction t
  rw [hs, hs', ht, ht', hst]
  exact ⟨rfl, rfl⟩

/-- From states that differ in their caches only, the program answers the same and leaves such
states. -/
def Transparent {α : Type} (p : Program Manager α) : Prop :=
  ∀ m m' : Manager, m.uncached = m'.uncached → p.Agrees TimePasses uncached m m'

theorem transparent_atomically {α : Type} {action : Manager → α × Manager}
    (haction : ∀ m : Manager, (action m).1 = (action m.uncached).1 ∧
      (action m).2.uncached = (action m.uncached).2.uncached) : Transparent (atomically action) :=
  fun _ _ hview => agrees_atomically haction hview

theorem Transparent.bind {α β : Type} {p : Program Manager α} {q : α → Program Manager β}
    (hp : Transparent p) (hq : ∀ a, Transparent (q a)) : Transparent (p >>= q) :=
  fun m m' hview => .bind (hp m m' hview) fun a s t hst => hq a s t hst

/-- A program of the keep-alive registry. -/
theorem transparent_onKeepAlive {α : Type} (p : Program KeepAlive α) :
    Transparent (onKeepAlive p) := by
  unfold onKeepAlive
  induction p with
  | done a => exact fun _ _ hview => .pure hview a
  | call action next ih =>
    exact .bind (q := fun b => (next b).focus _ _) (transparent_atomically fun _ => ⟨rfl, rfl⟩) ih

/-! ## Operations that look nothing up -/

theorem sequenced_transparent : Sequenced fun _ p => Transparent p where
  pure := fun a _ _ hview => .pure hview a
  bind := .bind
  read := fun _ hf => transparent_atomically fun m => ⟨(hf m).symm, rfl⟩
  remember := fun _ => transparent_atomically fun _ => ⟨rfl, rfl⟩
  count := fun event => transparent_atomically fun _ => ⟨rfl, by cases event <;> rfl⟩

theorem aborting_transparent : Aborting fun _ p => Transparent p :=
  { sequenced_transparent with
    transition := fun _ _ _ => transparent_atomically fun _ => ⟨rfl, rfl⟩
    leave := fun _ => transparent_atomically fun _ => ⟨rfl, rfl⟩
    unregister := fun _ => transparent_onKeepAlive _
    takeWork := transparent_onKeepAlive _ }

theorem beginning_transparent : Beginning fun _ p => Transparent p :=
  { sequenced_transparent with
    drawTimestamp := transparent_atomically fun _ => ⟨rfl, rfl⟩
    createRecord := fun _ => transparent_atomically fun _ => ⟨rfl, rfl⟩
    enter := fun _ => transparent_atomically fun _ => ⟨rfl, rfl⟩
    register := fun _ => transparent_onKeepAlive _ }

theorem transparent_commit (t : Transaction) : Transparent (commit t) :=
  aborting_transparent.commit t beginning_transparent.drawTimestamp fun _ _ _ =>
    transparent_atomically fun _ => ⟨rfl, rfl⟩

/-! ## Operations that look a record up -/

section LookUps

variable (hview : m.uncached = m'.uncached) (hm : m.Coherent) (hm' : m'.Coherent)

include hview hm hm'

theorem agrees_lookup (id : TxnId) : (lookup id).Agrees TimePasses uncached m m' := by
  intro answer s answer' s' hpass hpass'
  obtain ⟨rfl, hs⟩ := passes_lookup hm hpass
  obtain ⟨rfl, hs'⟩ := passes_lookup hm' hpass'
  obtain ⟨hlog, -, -⟩ := eq_of_uncached_eq hview
  exact ⟨by rw [retrieve, retrieve, hlog], by rw [hs, hs', hview]⟩

theorem agrees_status (id : TxnId) : (status id).Agrees TimePasses uncached m m' := by
  unfold status
  refine .bind (agrees_lookup hview hm hm' id) fun answer s t hst => ?_
  cases answer with
  | error e => exact .pure hst _
  | ok r =>
    have hread {α : Type} := @sequenced_transparent.read α
    exact Transparent.bind (hread _ fun _ => rfl) (fun _ => .bind (hread _ fun _ => rfl) fun _ =>
      sequenced_transparent.pure _) s t hst

theorem agrees_isVisibleAt (snapshot : Timestamp) (own : Option TxnId) (candidate : TxnId) :
    (isVisibleAt snapshot own candidate).Agrees TimePasses uncached m m' := by
  unfold isVisibleAt
  split_ifs
  · exact .pure hview _
  · exact .pure hview _
  · refine .bind (agrees_status hview hm hm' candidate) fun answer s t hst => ?_
    rcases answer with e | status
    · exact .pure hst _
    · cases status <;> exact .pure hst _

theorem agrees_settle (id : TxnId) : (settle id).Agrees TimePasses uncached m m' := by
  unfold settle
  -- the clock is read first, and the cache goes on agreeing with the log meanwhile
  refine .read_bind fun s t hs ht => ?_
  have hst : s.uncached = t.uncached := by
    rw [uncached_of_timePasses hs, uncached_of_timePasses ht, hview]
  obtain ⟨-, hclock, -⟩ := eq_of_uncached_eq hst
  refine ⟨by rw [hclock], ?_⟩
  obtain ⟨hs, -⟩ := coherent_of_timePasses hs hm
  obtain ⟨ht, -⟩ := coherent_of_timePasses ht hm'
  refine .bind (agrees_lookup hst hs ht id) fun answer s t hst => ?_
  have h := aborting_transparent
  cases answer with
  | error e => exact .pure hst _
  | ok r =>
    refine h.bind (h.read _ fun _ => rfl) (fun timeout => ?_) s t hst
    simp only
    split_ifs
    · exact h.pure _
    · refine h.bind (h.transition _ _ nofun) fun answer => ?_
      rcases answer with e | outcome
      · exact h.pure _
      · cases outcome with
        | applied r =>
          exact h.bind (h.count _) fun _ => h.bind (h.untrack id) fun _ =>
            h.bind (h.remember _) fun _ => h.pure _
        | unchanged r | rejected r => exact h.bind (h.remember _) fun _ => h.pure _

end LookUps

end Manager

end TxnEngine
