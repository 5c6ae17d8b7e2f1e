import Mathlib.Algebra.BigOperators.Group.List.Basic
import Mathlib.Algebra.Ring.Nat
import TxnEngine.Stats

/-!
# Rolling statistics up

Workers never share counters: their statistics are added up behind them, in whichever order they
come to an end, and possibly part by part. Each addition stops at a field whose sum does not fit
into 64 bits. As no number is negative, a part fits if the whole does, so that neither the order nor
the shape decides whether the additions stop.

**Limit.** A tally counts its contributors in 64 bits as well, which an addition of bare statistics
does not. Absorbing a copy of itself, a tally of zeroed statistics runs out of contributors after 64
times, while adding the zeroed statistics to themselves never fails.

Results:
* `WriteStats.merge?_eq`: statistics can be added iff their field-wise sum fits.
* `Rollup.tally?_eq`, `Addition.total?_eq`: what comes of tallies and of bare additions.
* `Rollup.combined_alike`: every way to combine the same statistics comes to the same.
* `Rollup.not_forall_combined_alike`: a tally and an addition of the same statistics part ways where
  the contributors cannot be counted.
-/

namespace TxnEngine

namespace WriteStats

/-! ## Field-wise sums -/

/-- The field-wise sum of statistics. -/
def total (stats : List WriteStats) : WriteStats :=
  stats.foldl (· + ·) zero

/-- The counters, in the order of the fields. -/
def counters : List (WriteStats → Nat) :=
  [written, retried, thrown, regionTooBusy, partialRows, partialRetried, partialIgnored, ignored]

instance : Zero WriteStats := ⟨zero⟩

instance : AddCommMonoid WriteStats where
  add_assoc a b c := by
    change add (add a b) c = add a (add b c)
    simp only [add, Nat.add_assoc]
  zero_add a := by
    change add zero a = a
    simp only [add, zero, Nat.zero_add]
  add_zero a := by
    change add a zero = a
    simp only [add, zero, Nat.add_zero]
  add_comm a b := by
    change add a b = add b a
    simp only [add, Nat.add_comm]
  nsmul := nsmulRec

theorem total_eq_sum (stats : List WriteStats) : total stats = stats.sum :=
  List.sum_eq_foldl.symm

theorem total_append (stats more : List WriteStats) :
    total (stats ++ more) = total stats + total more := by
  simp only [total_eq_sum, List.sum_append]

theorem total_singleton (s : WriteStats) : total [s] = s := by
  rw [total_eq_sum, List.sum_singleton]

theorem total_perm {stats stats' : List WriteStats} (h : stats.Perm stats') :
    total stats = total stats' := by
  rw [total_eq_sum, total_eq_sum, h.sum_eq]

section Counters

variable {counter : WriteStats → Nat}

theorem counter_add (h : counter ∈ counters) (a b : WriteStats) :
    counter (a + b) = counter a + counter b := by
  simp only [counters, List.mem_cons, List.not_mem_nil, or_false] at h
  rcases h with rfl | rfl | rfl | rfl | rfl | rfl | rfl | rfl <;> rfl

/-- Each counter of a sum is the sum of that counter. -/
theorem counter_total (h : counter ∈ counters) (stats : List WriteStats) :
    counter (total stats) = (stats.map counter).sum := by
  induction stats with
  | nil =>
    simp only [counters, List.mem_cons, List.not_mem_nil, or_false] at h
    rcases h with rfl | rfl | rfl | rfl | rfl | rfl | rfl | rfl <;> rfl
  | cons s rest ih =>
    rw [← List.singleton_append, total_append, total_singleton, counter_add h, ih]
    rfl

end Counters

/-! ## What fits -/

theorem fits_iff {s : WriteStats} :
    s.fits = true ↔ ∀ counter ∈ counters, counter s < UInt64.size := by
  have hfields : s.fields = counters.map fun counter => counter s := rfl
  simp [fits, hfields]

theorem fits_zero : zero.fits = true := by
  decide

/-- What fits with something added to it fits. -/
theorem fits_of_fits_add {a b : WriteStats} (h : (a + b).fits = true) : a.fits = true := by
  rw [fits_iff] at h ⊢
  intro counter hcounter
  have hlt := h counter hcounter
  rw [counter_add hcounter] at hlt
  exact Nat.lt_of_le_of_lt (Nat.le_add_right _ _) hlt

theorem fits_of_fits_foldl {s : WriteStats} {stats : List WriteStats}
    (h : (stats.foldl (· + ·) s).fits = true) : s.fits = true := by
  induction stats generalizing s with
  | nil => exact h
  | cons first rest ih => exact fits_of_fits_add (ih h)

theorem ignored_lt_of_fits {s : WriteStats} (h : s.fits = true) : s.ignored < UInt64.size :=
  fits_iff.mp h ignored (by simp [counters])

/-- The statistics, if they fit. -/
def fitting? (s : WriteStats) : Option WriteStats :=
  if s.fits = true then some s else none

theorem fitting?_of_fits {s : WriteStats} (h : s.fits = true) : s.fitting? = some s :=
  if_pos h

/-! ## One addition -/

theorem addWords_fst (as bs : List Nat) :
    (addWords as bs).1 = (List.zipWith (· + ·) as bs).all fun n => decide (n < UInt64.size) := by
  induction as generalizing bs with
  | nil => rw [addWords, List.zipWith_nil_left] <;> simp
  | cons a as ih =>
    cases bs with
    | nil => rw [addWords, List.zipWith_nil_right] <;> simp
    | cons b bs =>
      rw [addWords, List.zipWith_cons_cons, List.all_cons]
      split_ifs with hfits
      · rw [decide_eq_true hfits, Bool.true_and]
        exact ih bs
      · rw [decide_eq_false hfits, Bool.false_and]

theorem merge_fst (a b : WriteStats) : (a.merge b).1 = (a + b).fits :=
  addWords_fst a.fields b.fields

/-- Statistics can be added iff every field of the sum fits. -/
theorem merge?_eq (a b : WriteStats) : merge? a b = (a + b).fitting? := by
  by_cases hfits : (a + b).fits = true
  · rw [merge?, merge_of_fits a b hfits, fitting?_of_fits hfits]
  · have hfst := merge_fst a b
    rw [fitting?, if_neg hfits, merge?]
    generalize a.merge b = result at hfst
    obtain ⟨_ | _, sum⟩ := result
    · rfl
    · exact absurd hfst.symm hfits

/-- A sum that does not fit does not fit with more added to it either. -/
theorem fitting?_bind_merge? (a b : WriteStats) :
    (a.fitting?.bind fun a => merge? a b) = (a + b).fitting? := by
  by_cases ha : a.fits = true
  · rw [fitting?_of_fits ha, Option.bind_some, merge?_eq]
  · have hsum : ¬ (a + b).fits = true := fun h => ha (fits_of_fits_add h)
    rw [fitting?, fitting?, if_neg ha, if_neg hsum, Option.bind_none]

theorem fitting?_bind_fitting? (a b : WriteStats) :
    (a.fitting?.bind fun a => b.fitting?.bind fun b => merge? a b) = (a + b).fitting? := by
  by_cases hb : b.fits = true
  · simp only [fitting?_of_fits hb, Option.bind_some, fitting?_bind_merge?]
  · have hsum : ¬ (a + b).fits = true := fun h => hb (fits_of_fits_add (add_comm a b ▸ h))
    simp only [fitting?, if_neg hb, if_neg hsum, Option.bind_none, Option.bind_fun_none]

theorem fitting?_bind_foldlM (a : WriteStats) (stats : List WriteStats) :
    (a.fitting?.bind fun a => stats.foldlM merge? a) = (a + total stats).fitting? := by
  induction stats generalizing a with
  | nil =>
    have hsum : a + total [] = a := add_zero a
    rw [hsum]
    exact Option.bind_fun_some _
  | cons s rest ih =>
    rw [← List.singleton_append, total_append, total_singleton, ← add_assoc, ← ih (a + s),
      ← fitting?_bind_merge?, Option.bind_assoc]
    rfl

/-- Adding zeroed statistics changes nothing. -/
theorem merge_zero {s : WriteStats} (h : s.fits = true) : s.merge zero = (true, s) := by
  have hsum : s + zero = s := add_zero s
  rw [merge_of_fits s zero (by rwa [hsum]), hsum]

end WriteStats

open WriteStats

/-! ## Bare additions -/

/-- A way to add statistics up without a tally. -/
inductive Addition where
  | zero
  | given (stats : WriteStats)
  /-- The second sum is added to the first. -/
  | merge (a b : Addition)
  /-- A list is added up from its front. -/
  | sum (stats : List WriteStats)

namespace Addition

/-- The statistics that are added up. -/
def stats : Addition → List WriteStats
  | zero => []
  | given s => [s]
  | merge a b => a.stats ++ b.stats
  | sum stats => stats

/-- What the additions come to, if all of them succeed. -/
def total? : Addition → Option WriteStats
  | zero => some .zero
  | given s => some s
  | merge a b => do merge? (← a.total?) (← b.total?)
  | sum stats => sum? stats

/-- Additions succeed iff the field-wise sum fits, and then come to that. -/
theorem total?_eq (a : Addition) (h : ∀ s ∈ a.stats, s.fits = true) :
    a.total? = (total a.stats).fitting? := by
  induction a with
  | zero => exact (fitting?_of_fits fits_zero).symm
  | given s =>
    rw [stats, total_singleton, fitting?_of_fits (h s (List.mem_singleton_self s))]
    rfl
  | merge a b iha ihb =>
    have hparts := List.forall_mem_append.mp h
    rw [stats, total_append, ← fitting?_bind_fitting?, ← iha hparts.1, ← ihb hparts.2]
    rfl
  | sum stats =>
    have hsum := fitting?_bind_foldlM .zero stats
    rw [fitting?_of_fits fits_zero, Option.bind_some] at hsum
    exact hsum.trans (congrArg fitting? (zero_add (total stats)))

end Addition

/-! ## Tallies -/

namespace Tally

variable {t : Tally}

/-- The tally, if its numbers fit. -/
def fitting? (t : Tally) : Option Tally :=
  if t.total.fits = true ∧ t.contributions < UInt64.size then some t else none

/-- The tally behind a step, unless a number did not fit. -/
def whole? : Bool × Tally → Option Tally
  | (true, t) => some t
  | (false, _) => none

/-- Contributors whose numbers fit with those of the tally are counted in. -/
theorem takeIn_of_fits {s : WriteStats} {n : Nat} (hfits : (t.total + s).fits = true)
    (hroom : t.contributions + n < UInt64.size) :
    t.takeIn s n = (true, ⟨t.total + s, t.contributions + n⟩) := by
  rw [takeIn, merge_of_fits _ _ hfits]
  exact if_pos hroom

/-- Contributors are counted in iff all sums fit. -/
theorem whole?_takeIn (t : Tally) (s : WriteStats) (n : Nat) :
    whole? (t.takeIn s n) = fitting? ⟨t.total + s, t.contributions + n⟩ := by
  by_cases hfits : (t.total + s).fits = true
  · by_cases hroom : t.contributions + n < UInt64.size
    · rw [takeIn_of_fits hfits hroom, fitting?, if_pos ⟨hfits, hroom⟩]
      rfl
    · rw [fitting?, if_neg fun h => hroom h.2, takeIn, merge_of_fits _ _ hfits]
      simp only [count, if_neg hroom, whole?]
  · have hfst := merge_fst t.total s
    rw [fitting?, if_neg fun h => hfits h.1, takeIn]
    generalize t.total.merge s = result at hfst
    obtain ⟨_ | _, sum⟩ := result
    · rfl
    · exact absurd hfst.symm hfits

theorem fitting?_bind_takeIn (t : Tally) (s : WriteStats) (n : Nat) :
    (t.fitting?.bind fun t => whole? (t.takeIn s n)) =
      fitting? ⟨t.total + s, t.contributions + n⟩ := by
  by_cases ht : t.total.fits = true ∧ t.contributions < UInt64.size
  · rw [fitting?, if_pos ht, Option.bind_some, whole?_takeIn]
  · have hsum : ¬ ((t.total + s).fits = true ∧ t.contributions + n < UInt64.size) :=
      fun h => ht ⟨fits_of_fits_add h.1, Nat.lt_of_le_of_lt (Nat.le_add_right _ _) h.2⟩
    rw [fitting?, fitting?, if_neg ht, if_neg hsum, Option.bind_none]

theorem fitting?_bind_absorb (t child : Tally) :
    (t.fitting?.bind fun t => child.fitting?.bind fun child => whole? (t.absorb child)) =
      fitting? ⟨t.total + child.total, t.contributions + child.contributions⟩ := by
  by_cases hchild : child.total.fits = true ∧ child.contributions < UInt64.size
  · have hsome : child.fitting? = some child := if_pos hchild
    simp only [hsome, Option.bind_some]
    exact fitting?_bind_takeIn t child.total child.contributions
  · have hsum : ¬ ((t.total + child.total).fits = true ∧
        t.contributions + child.contributions < UInt64.size) :=
      fun h => hchild ⟨fits_of_fits_add (add_comm t.total child.total ▸ h.1),
        Nat.lt_of_le_of_lt (Nat.le_add_left _ _) h.2⟩
    simp only [fitting?, if_neg hchild, if_neg hsum, Option.bind_none, Option.bind_fun_none]

/-- A list is counted in one by one. -/
theorem whole?_extend (t : Tally) (s : WriteStats) (rest : List WriteStats) :
    whole? (t.extend (s :: rest)) = (whole? (t.add s)).bind fun t => whole? (t.extend rest) := by
  rw [extend]
  generalize t.add s = result
  obtain ⟨_ | _, t'⟩ := result <;> rfl

theorem fitting?_bind_extend (t : Tally) (stats : List WriteStats) :
    (t.fitting?.bind fun t => whole? (t.extend stats)) =
      fitting? ⟨t.total + .total stats, t.contributions + stats.length⟩ := by
  induction stats generalizing t with
  | nil =>
    have hsum : t.total + .total [] = t.total := add_zero t.total
    rw [hsum]
    exact Option.bind_fun_some _
  | cons s rest ih =>
    have hone := fitting?_bind_takeIn t s 1
    have hrest := ih ⟨t.total + s, t.contributions + 1⟩
    rw [← hone, Option.bind_assoc] at hrest
    rw [← List.singleton_append, total_append, total_singleton, ← add_assoc, List.singleton_append,
      List.length_cons, Nat.add_comm rest.length, ← Nat.add_assoc, ← hrest]
    simp only [whole?_extend]
    rfl

/-- Absorbing an empty tally changes nothing. -/
theorem absorb_empty (hfits : t.total.fits = true) (hroom : t.contributions < UInt64.size) :
    t.absorb .empty = (true, t) := by
  have hsum : t.total + WriteStats.zero = t.total := add_zero t.total
  exact takeIn_of_fits (s := .zero) (n := 0) (by rwa [hsum]) hroom

end Tally

/-- A way to build a tally. -/
inductive Rollup where
  | new
  | add (r : Rollup) (stats : WriteStats)
  | extend (r : Rollup) (stats : List WriteStats)
  | absorb (r child : Rollup)

namespace Rollup

/-- The statistics that are counted in, also through other tallies. -/
def contributors : Rollup → List WriteStats
  | new => []
  | add r stats => r.contributors ++ [stats]
  | extend r stats => r.contributors ++ stats
  | absorb r child => r.contributors ++ child.contributors

/-- The tally, if all additions succeed. -/
def tally? : Rollup → Option Tally
  | new => some .empty
  | add r stats => do Tally.whole? ((← r.tally?).add stats)
  | extend r stats => do Tally.whole? ((← r.tally?).extend stats)
  | absorb r child => do Tally.whole? ((← r.tally?).absorb (← child.tally?))

/-- A tally can be built iff the field-wise sum and the number of its contributors fit. -/
theorem tally?_eq (r : Rollup) :
    r.tally? = Tally.fitting? ⟨total r.contributors, r.contributors.length⟩ := by
  induction r with
  | new => exact (if_pos (by decide)).symm
  | add r s ih =>
    rw [contributors, total_append, total_singleton, List.length_append,
      List.length_singleton, ← Tally.fitting?_bind_takeIn ⟨_, _⟩, ← ih]
    rfl
  | extend r stats ih =>
    rw [contributors, total_append, List.length_append, ← Tally.fitting?_bind_extend ⟨_, _⟩, ← ih]
    rfl
  | absorb r child ihr ihchild =>
    rw [contributors, total_append, List.length_append,
      ← Tally.fitting?_bind_absorb ⟨_, _⟩ ⟨_, _⟩, ← ihr, ← ihchild]
    rfl

/-! ## Every order and every shape -/

/-- Whichever way the same statistics are combined: a tally comes to their field-wise sum and to
their number, if all of these fit, and cannot be built otherwise; bare additions come to the
field-wise sum, if that fits, and fail otherwise. An empty tally and zeroed statistics change
nothing. -/
theorem combined_alike (stats : List WriteStats) (hwords : ∀ s ∈ stats, s.fits = true) :
    (∀ r : Rollup, r.contributors.Perm stats → r.tally? =
      if (total stats).fits = true ∧ stats.length < UInt64.size then
        some ⟨total stats, stats.length⟩ else none) ∧
    (∀ a : Addition, a.stats.Perm stats → a.total? =
      if (total stats).fits = true then some (total stats) else none) ∧
    (∀ counter ∈ counters, counter (total stats) = (stats.map counter).sum) ∧
    (∀ t : Tally, t.total.fits = true → t.contributions < UInt64.size →
      t.absorb .empty = (true, t)) ∧
    ∀ s : WriteStats, s.fits = true → s.merge .zero = (true, s) := by
  refine ⟨fun r hr => ?_, fun a ha => ?_, fun counter hcounter => counter_total hcounter stats,
    fun t => Tally.absorb_empty, fun s => merge_zero⟩
  · rw [tally?_eq, total_perm hr, hr.length_eq]
    rfl
  · rw [a.total?_eq fun s hs => hwords s (ha.mem_iff.mp hs), total_perm ha]
    rfl

/-- Three workers, of which one has been counted in by itself and two through another tally. -/
theorem combined_alike_threeWorkers :
    let first : WriteStats := ⟨5, 1, 0, 1, 2, 1, 0, 0⟩
    let second : WriteStats := ⟨0, 0, 1, 3, 0, 0, 0, 0⟩
    let third : WriteStats := ⟨7, 2, 0, 0, 1, 2, 1, 1⟩
    (∀ s ∈ [first, second, third], s.fits = true) ∧
      ((new.add third).absorb (new.extend [second, first])).tally? =
        some ⟨⟨12, 3, 1, 4, 3, 3, 1, 1⟩, 3⟩ ∧
      ((Addition.given second).merge (.sum [third, first])).total? =
        some ⟨12, 3, 1, 4, 3, 3, 1, 1⟩ := by
  intro first second third
  have hwords : ∀ s ∈ [first, second, third], s.fits = true := by decide
  obtain ⟨hrollup, haddition, -⟩ := combined_alike [first, second, third] hwords
  exact ⟨hwords, (hrollup _ (by decide)).trans (by decide),
    (haddition _ (by decide)).trans (by decide)⟩

end Rollup

/-! ## Where the contributors cannot be counted -/

/-- A tally that has absorbed a copy of itself a number of times. -/
def Rollup.doubled (s : WriteStats) : (times : Nat) → Rollup
  | 0 => new.add s
  | times + 1 => (doubled s times).absorb (doubled s times)

/-- Statistics that were added to themselves a number of times. -/
def Addition.doubled (s : WriteStats) : (times : Nat) → Addition
  | 0 => given s
  | times + 1 => (doubled s times).merge (doubled s times)

theorem Rollup.contributors_doubled (s : WriteStats) (times : Nat) :
    (Rollup.doubled s times).contributors = List.replicate (2 ^ times) s := by
  induction times with
  | zero => rfl
  | succ times ih =>
    rw [doubled, contributors, ih, List.replicate_append_replicate, Nat.pow_succ, Nat.mul_two]

theorem Addition.stats_doubled (s : WriteStats) (times : Nat) :
    (Addition.doubled s times).stats = List.replicate (2 ^ times) s := by
  induction times with
  | zero => rfl
  | succ times ih =>
    rw [doubled, stats, ih, List.replicate_append_replicate, Nat.pow_succ, Nat.mul_two]

theorem WriteStats.total_replicate_zero (n : Nat) : total (List.replicate n .zero) = .zero := by
  rw [total_eq_sum, List.sum_replicate]
  exact nsmul_zero n

/-- It is not true that a tally and a bare addition of the same statistics come to the same total or
fail together: zeroed statistics that are doubled 64 times are too many to be counted, and add up to
zeroed statistics. -/
theorem Rollup.not_forall_combined_alike :
    ¬ ∀ (r : Rollup) (a : Addition), r.contributors.Perm a.stats →
      (∀ s ∈ a.stats, s.fits = true) → r.tally?.map Tally.total = a.total? := by
  intro hall
  have hwords : ∀ s ∈ (Addition.doubled .zero 64).stats, s.fits = true := by
    intro s hs
    rw [Addition.stats_doubled] at hs
    rw [List.eq_of_mem_replicate hs]
    exact fits_zero
  have hsame : (doubled .zero 64).contributors.Perm (Addition.doubled .zero 64).stats := by
    rw [contributors_doubled, Addition.stats_doubled]
  have htally : (doubled .zero 64).tally? = none := by
    rw [tally?_eq, contributors_doubled, List.length_replicate, Tally.fitting?,
      if_neg fun h => absurd h.2 (by decide)]
  have htotal : (Addition.doubled .zero 64).total? = some .zero := by
    rw [Addition.total?_eq _ hwords, Addition.stats_doubled, total_replicate_zero,
      fitting?_of_fits fits_zero]
  have hequal := hall _ _ hsame hwords
  rw [htally, htotal] at hequal
  cases hequal

end TxnEngine
