import TxnEngine.Storage.Store

/-!
# Which calls fail

A schedule of faults decides of every call to come whether it fails: `Faults.fails f p n` says so of
call number `n` of the primitive `p`, counted from now. Using one call up moves the count of its own
primitive on, and no other.

Results:
* `fst_take`, `fails_take_self`, `fails_take_of_ne`: what using a call up does to the count.
* `size_faulty`, `read_faulty`, `flush_faulty`, `sync_faulty`, `truncate_faulty`: what the calls of
  a store do under any schedule.
-/

namespace TxnEngine

/-- A failure tells which primitive failed. -/
theorem Primitive.failure_injective {p q : Primitive} (h : p.failure = q.failure) : p = q := by
  have htext : p.text = q.text := by simpa [failure] using h
  cases p <;> cases q <;> first | rfl | exact absurd htext (by decide)

namespace Faults

/-- Whether call number `n` fails by some runs of calls. -/
def failsIn : List FaultRun → Nat → Bool
  | [], _ => false
  | run :: rest, n => if n < run.calls then run.fails else failsIn rest (n - run.calls)

/-- Whether call number `n` of a primitive fails, counted from now. -/
def fails (f : Faults) (p : Primitive) (n : Nat) : Bool :=
  failsIn (f.schedule p) n

theorem fst_takeRun (runs : List FaultRun) : (takeRun runs).1 = failsIn runs 0 := by
  fun_induction takeRun runs with
  | case1 => rfl
  | case2 fails rest ih => simpa [failsIn] using ih
  | case3 fails calls rest => simp [failsIn]

theorem failsIn_takeRun (runs : List FaultRun) (n : Nat) :
    failsIn (takeRun runs).2 n = failsIn runs (n + 1) := by
  fun_induction takeRun runs with
  | case1 => rfl
  | case2 fails rest ih => simpa [failsIn] using ih
  | case3 fails calls rest =>
    simp only [failsIn]
    by_cases hn : n < calls
    · rw [if_pos hn, if_pos (by omega)]
    · rw [if_neg hn, if_neg (by omega), Nat.add_sub_add_right]

variable (f : Faults) (p : Primitive)

theorem fst_take : (f.take p).1 = f.fails p 0 :=
  fst_takeRun (f.schedule p)

theorem fails_take_self (n : Nat) : (f.take p).2.fails p n = f.fails p (n + 1) := by
  simp only [fails, take, if_true]
  exact failsIn_takeRun _ n

theorem fails_take_of_ne {q : Primitive} (hq : q ≠ p) : (f.take p).2.fails q = f.fails q := by
  funext n
  simp only [fails, take, if_neg hq]

end Faults

namespace Store

variable (h : Handle) (bytes : Bytes) (f : Faults)

theorem size_faulty :
    (holding h bytes f).size =
      (if f.fails .size 0 then .error Primitive.size.failure else .ok bytes.length,
        holding h bytes (f.take .size).2) := by
  rw [size, attempt_holding, Faults.fst_take]
  cases f.fails .size 0 with
  | true => rfl
  | false => simp [holding, size_handle_holding]

theorem read_faulty (offset len : Nat) :
    (holding h bytes f).read offset len =
      (if f.fails .read 0 then .error Primitive.read.failure
        else if bytes.length < offset + len then .error (.readPastEnd offset len bytes.length)
        else .ok ((bytes.drop offset).take len), holding h bytes (f.take .read).2) := by
  rw [read, attempt_holding, Faults.fst_take]
  cases f.fails .read 0 with
  | true => rfl
  | false => simp [holding, Handle.read_of_size (size_handle_holding h bytes)]

theorem flush_faulty :
    (holding h bytes f).flush =
      (if f.fails .flush 0 then .error Primitive.flush.failure else .ok (),
        holding h bytes (f.take .flush).2) := by
  rw [flush, attempt_holding, Faults.fst_take]
  cases f.fails .flush 0 <;> rfl

theorem sync_faulty :
    (holding h bytes f).sync =
      (if f.fails .sync 0 then .error Primitive.sync.failure else .ok (),
        holding h bytes (f.take .sync).2) := by
  rw [sync, attempt_holding, Faults.fst_take]
  cases f.fails .sync 0 <;> rfl

theorem truncate_faulty {newSize : Nat} (hle : newSize ≤ bytes.length) :
    (holding h bytes f).truncate newSize =
      if f.fails .truncate 0 then
        (.error Primitive.truncate.failure, holding h bytes (f.take .truncate).2)
      else (.ok (), holding h (bytes.take newSize) (f.take .truncate).2) := by
  have hmin : min newSize bytes.length = newSize := by omega
  rw [truncate, attempt_holding, Faults.fst_take]
  cases f.fails .truncate 0 with
  | true => rfl
  | false =>
    simp [holding, Handle.truncate_of_size (size_handle_holding h bytes), Nat.not_lt.mpr hle, hmin]

end Store

end TxnEngine
