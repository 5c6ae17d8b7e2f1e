import TxnEngine.Proofs.Concurrency.Drift
import TxnEngine.Proofs.Manager.Operations

/-!
# Looking a record up without company

Whether a record comes from the cache or from the log makes no difference: the cache holds nothing
but finished records of the log. So what a look-up answers that runs alone can be read off the log,
whatever the time is and whatever the cache holds.

Results:
* `passes_lookup`: what a look-up answers while time passes, and that it leaves all but the cache
  and its counters alone.
* `run_lookup`, `run_status`: what a look-up and a status answer that run alone.
-/

namespace TxnEngine

namespace Manager

open Program

variable {m : Manager}

/-- Time passes. -/
def TimePasses (m m' : Manager) : Prop :=
  ∃ stopwatch, m' = { m with stopwatch }

/-- All of the state but the time, the cache, and how often the cache was asked with what success. -/
def uncached (m : Manager) : Manager :=
  { m with
    stopwatch := default
    cache := .new 0 .zero
    metrics := { m.metrics with cacheHits := 0, cacheMisses := 0 } }

/-- The record of a transaction, as the log has it. -/
def retrieve (m : Manager) (id : TxnId) : Except Error Record :=
  match m.log.get? id with
  | none => .error (.transactionNotFound id)
  | some r => .ok r

theorem TimePasses.refl (m : Manager) : TimePasses m m :=
  ⟨m.stopwatch, rfl⟩

theorem uncached_of_timePasses {m' : Manager} (h : TimePasses m m') :
    m'.uncached = m.uncached := by
  obtain ⟨stopwatch, rfl⟩ := h
  rfl

theorem eq_of_uncached_eq {m' : Manager} (h : m.uncached = m'.uncached) :
    m.log = m'.log ∧ m.clock = m'.clock ∧ m.timeout = m'.timeout := by
  simp only [uncached, Manager.mk.injEq] at h
  exact ⟨h.1, h.2.2.1, h.2.2.2.2.2.2.2.2⟩

theorem coherent_of_timePasses {m' : Manager} (h : TimePasses m m') (hm : m.Coherent) :
    m'.Coherent ∧ Preserves m m' := by
  obtain ⟨stopwatch, rfl⟩ := h
  exact ⟨⟨hm.valid, hm.cached⟩, discipline.refl m⟩

/-- A look-up that is not interrupted answers with the record of the log. -/
theorem passes_lookup (hm : m.Coherent) {id : TxnId} {answer : Except Error Record} {m' : Manager}
    (h : (lookup id).Passes TimePasses m answer m') :
    answer = m.retrieve id ∧ m'.uncached = m.uncached := by
  unfold lookup at h
  obtain ⟨held, m₁, ⟨_, ⟨stopwatch, rfl⟩, hheld, rfl⟩, h⟩ := passes_bind.mp h
  cases held with
  | some r =>
    obtain ⟨_, -, ⟨_, ⟨_, rfl⟩, -, rfl⟩, rfl, rfl⟩ := passes_bind.mp h
    obtain ⟨entry, hentry, rfl⟩ := CompletedCache.find?_of_get hheld.symm
    obtain ⟨-, hget⟩ := hm.cached id entry hentry
    exact ⟨by rw [retrieve, hget], rfl⟩
  | none =>
    obtain ⟨_, -, ⟨_, ⟨_, rfl⟩, -, rfl⟩, h⟩ := passes_bind.mp h
    obtain ⟨found, -, ⟨_, ⟨_, rfl⟩, hfound, rfl⟩, h⟩ := passes_bind.mp h
    change found = m.log.get? id at hfound
    cases found with
    | none =>
      obtain ⟨rfl, rfl⟩ := h
      exact ⟨by rw [retrieve, ← hfound], rfl⟩
    | some r =>
      have hretrieve : m.retrieve id = .ok r := by rw [retrieve, ← hfound]
      simp only at h
      split_ifs at h
      · obtain ⟨_, -, ⟨_, ⟨_, rfl⟩, -, rfl⟩, rfl, rfl⟩ := passes_bind.mp h
        exact ⟨hretrieve.symm, rfl⟩
      · obtain ⟨rfl, rfl⟩ := h
        exact ⟨hretrieve.symm, rfl⟩

/-- A look-up that runs alone answers with the record of the log. -/
theorem run_lookup (hm : m.Coherent) (id : TxnId) :
    ((lookup id).run m).1 = m.retrieve id ∧ ((lookup id).run m).2.uncached = m.uncached :=
  passes_lookup hm (.of_run .refl _ m)

/-- A status that is asked for alone is that of the record of the log at the present time. -/
theorem run_status (hm : m.Coherent) (id : TxnId) :
    ((status id).run m).1 =
      (m.retrieve id).map fun r => r.status m.clock.now m.timeout := by
  obtain ⟨hanswer, hsame⟩ := run_lookup hm id
  unfold status
  rw [run_bind, hanswer]
  cases m.retrieve id with
  | error e => rfl
  | ok r =>
    obtain ⟨-, hclock, htimeout⟩ := eq_of_uncached_eq hsame
    simp only [readClock, run_bind, run_read, hclock, htimeout]
    rfl

end Manager

end TxnEngine
