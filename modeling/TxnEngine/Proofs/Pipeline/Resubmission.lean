import TxnEngine.Proofs.Manager.Alone
import TxnEngine.Proofs.Pipeline.Reporting

/-!
# Resubmission and routing

A batch makes one call after the other until no row is left to be sent or no attempt is left. To say
what the calls carry and where they go, each is kept with its route, its rows and its answer. The
answers decide everything: a row is carried again while every call before left it worth another
attempt, and each call in which a row is told that the route is stale makes the next route newer.

Results:
* `carried`: the rows that a call has to carry, by the answers to the calls before it.
* `mem_carried_iff`, `not_mem_carried`: these are the rows that every earlier call left worth
  another attempt, and no others.
* `tries_attempt`, `yields_attempt`: an attempt is one call, whose answer decides all that follows.
* `yields_attempts`: the calls that a batch has made tell how it stands.
* `submit_resubmits`: the calls of a batch.
-/

namespace TxnEngine

/-- A call of a substrate with the route it took, and its answer. -/
structure RoutedCall where
  address : PartitionAddress
  txn : TxnId
  rows : List Mutation
  answer : Except Error BatchResponse
deriving DecidableEq

/-- A substrate that keeps every call, in order. -/
structure Routed (σ : Type) where
  inner : σ
  calls : List RoutedCall

instance {σ : Type} [Substrate σ] : Substrate (Routed σ) where
  write address txn rows s :=
    let (answer, inner) := Substrate.write address txn rows s.inner
    (answer, ⟨inner, s.calls ++ [⟨address, txn, rows, answer⟩]⟩)

theorem Routed.write_eq {σ : Type} [Substrate σ] (address : PartitionAddress) (txn : TxnId)
    (rows : List Mutation) (s : Routed σ) : Substrate.write address txn rows s =
      let done := Substrate.write address txn rows s.inner
      (done.1, ⟨done.2, s.calls ++ [⟨address, txn, rows, done.1⟩]⟩) :=
  rfl

theorem Routed.fronts {σ : Type} [Substrate σ] :
    Substrate.Fronts (Routed.inner : Routed σ → σ) :=
  fun _ _ _ _ => rfl

/-- The same write side, where the calls from here on are kept. -/
def WriteSide.routed {σ : Type} (w : WriteSide σ) : WriteSide (Routed σ) :=
  { w with substrate := ⟨w.substrate, []⟩ }

namespace RoutedCall

/-- Whether the call left the row in the given position worth another attempt. A call that failed
did the same to all its rows. -/
def retries (c : RoutedCall) (position : Nat) : Bool :=
  match c.answer with
  | .ok response => (response.outcomeFor position).canRetry
  | .error e => e.isRetryable

/-- Whether a row of the call was told that the route is stale. -/
def isStale (c : RoutedCall) : Bool :=
  match c.answer with
  | .ok response =>
    (List.range c.rows.length).any fun position => (response.outcomeFor position).refreshCache
  | .error _ => false

/-- The rows of the call that it left worth another attempt, in order. -/
def leaves (c : RoutedCall) (rows : List BatchRow) : List BatchRow :=
  (rows.zipIdx.filter fun x => c.retries x.2).map Prod.fst

theorem leaves_sublist (c : RoutedCall) (rows : List BatchRow) : (c.leaves rows).Sublist rows := by
  have hsublist := (List.filter_sublist (p := fun x : BatchRow × Nat => c.retries x.2)
    (l := rows.zipIdx)).map Prod.fst
  rwa [List.zipIdx_map_fst] at hsublist

theorem mem_leaves {c : RoutedCall} {rows : List BatchRow} {row : BatchRow} :
    row ∈ c.leaves rows ↔ ∃ position, rows[position]? = some row ∧ c.retries position = true := by
  simp only [leaves, List.mem_map, List.mem_filter, Prod.exists, exists_and_right, exists_eq_right,
    List.mk_mem_zipIdx_iff_getElem?]

end RoutedCall

namespace Pipeline

open Program

/-! ## What is carried -/

/-- The rows of a batch that its first `k` calls left to be sent. -/
def carried (rows : List Mutation) (calls : List RoutedCall) (k : Nat) : List BatchRow :=
  (calls.take k).foldl (fun left c => c.leaves left) (batchRows rows)

/-- The number of rows carried by all calls but the first. -/
def resent (calls : List RoutedCall) : Nat :=
  ((calls.drop 1).map fun c => c.rows.length).sum

section Carried

variable {rows : List Mutation} {calls : List RoutedCall} {c : RoutedCall} {row : BatchRow}
  {j k : Nat}

theorem carried_succ (h : calls[k]? = some c) :
    carried rows calls (k + 1) = c.leaves (carried rows calls k) := by
  rw [carried, List.take_add_one, h, List.foldl_append]
  rfl

theorem carried_succ_of_none (h : calls[k]? = none) :
    carried rows calls (k + 1) = carried rows calls k := by
  rw [carried, List.take_add_one, h, Option.toList_none, List.append_nil]
  rfl

/-- Later calls do not change what earlier ones had to carry. -/
theorem carried_append (h : k ≤ calls.length) (later : List RoutedCall) :
    carried rows (calls ++ later) k = carried rows calls k := by
  rw [carried, List.take_append_of_le_length h]
  rfl

theorem carried_sublist_of_le (rows : List Mutation) (calls : List RoutedCall) (h : j ≤ k) :
    (carried rows calls k).Sublist (carried rows calls j) := by
  induction h with
  | refl => exact .refl _
  | @step k _ ih =>
    cases hcall : calls[k]? with
    | none =>
      rw [carried_succ_of_none hcall]
      exact ih
    | some c =>
      rw [carried_succ hcall]
      exact (c.leaves_sublist _).trans ih

theorem carried_sublist (rows : List Mutation) (calls : List RoutedCall) (k : Nat) :
    (carried rows calls k).Sublist (batchRows rows) :=
  carried_sublist_of_le rows calls (Nat.zero_le k)

theorem nodup_carried (rows : List Mutation) (calls : List RoutedCall) (k : Nat) :
    (carried rows calls k).Nodup := by
  have hbatch : (batchRows rows).Nodup := .of_map BatchRow.index <| by
    rw [index_batchRows]
    exact List.nodup_range
  exact hbatch.sublist (carried_sublist rows calls k)

/-- A row is carried if every earlier call left it worth another attempt. -/
theorem mem_carried_iff (hk : k ≤ calls.length) :
    row ∈ carried rows calls k ↔ row ∈ batchRows rows ∧ ∀ j c, j < k → calls[j]? = some c →
      ∃ position, (carried rows calls j)[position]? = some row ∧ c.retries position = true := by
  induction k with
  | zero => exact ⟨fun h => ⟨h, fun j _ hj => absurd hj (Nat.not_lt_zero j)⟩, fun h => h.1⟩
  | succ k ih =>
    have hcall : calls[k]? = some calls[k] := List.getElem?_eq_getElem hk
    rw [carried_succ hcall, RoutedCall.mem_leaves]
    constructor
    · rintro ⟨position, hposition, hretries⟩
      obtain ⟨hrow, hearlier⟩ := (ih (Nat.le_of_succ_le hk)).mp (List.mem_of_getElem? hposition)
      refine ⟨hrow, fun j c hj hc => ?_⟩
      rcases Nat.lt_succ_iff_lt_or_eq.mp hj with hj | rfl
      · exact hearlier j c hj hc
      · obtain rfl : calls[j] = c := Option.some.inj (hcall.symm.trans hc)
        exact ⟨position, hposition, hretries⟩
    · rintro ⟨-, hearlier⟩
      exact hearlier k calls[k] (Nat.lt_succ_self k) hcall

/-- A row that a call decided is not carried any more. -/
theorem not_mem_carried {position : Nat} (hj : j < k) (hc : calls[j]? = some c)
    (hposition : (carried rows calls j)[position]? = some row)
    (hdecided : c.retries position = false) : row ∉ carried rows calls k := by
  intro hrow
  have hrow := (carried_sublist_of_le rows calls hj).mem hrow
  rw [carried_succ hc, RoutedCall.mem_leaves] at hrow
  obtain ⟨position', hposition', hretries⟩ := hrow
  obtain ⟨hlt, hrow⟩ := List.getElem?_eq_some_iff.mp hposition
  obtain ⟨hlt', hrow'⟩ := List.getElem?_eq_some_iff.mp hposition'
  obtain rfl : position = position' :=
    (nodup_carried rows calls j).getElem_inj_iff.mp (hrow.trans hrow'.symm)
  exact Bool.false_ne_true (hdecided.symm.trans hretries)

theorem carried_nil_calls (rows : List Mutation) (k : Nat) :
    carried rows [] k = batchRows rows := by
  rw [carried, List.take_nil]
  rfl

end Carried

/-! ## The calls of a batch -/

/-- The calls made on behalf of a transaction carry what is left of the batch, along the route of
the moment. -/
structure Sends (rows : List Mutation) (txn : TxnId) (route : Locator) (calls : List RoutedCall) :
    Prop where
  carries : ∀ (k : Nat) (c : RoutedCall), calls[k]? = some c →
    c.txn = txn ∧ c.rows = (carried rows calls k).map BatchRow.mutation
  routes : ∀ (k : Nat) (c : RoutedCall), calls[k]? = some c → c.address =
    ⟨route.partition, route.server, route.generation + (calls.take k).countP RoutedCall.isStale⟩

/-- The calls of a whole batch, of at most `limit`. -/
structure Resubmits (rows : List Mutation) (txn : TxnId) (route : Locator) (limit : Nat)
    (calls : List RoutedCall) : Prop extends Sends rows txn route calls where
  /-- The first call carries all rows. -/
  first : ∃ c, calls[0]? = some c ∧ c.rows = rows
  /-- Rows keep their order. -/
  ordered : ∀ k, (carried rows calls k).Sublist (batchRows rows)
  /-- A row is carried again if every earlier call left it worth another attempt. -/
  again : ∀ (k : Nat) (row : BatchRow), k ≤ calls.length → (row ∈ carried rows calls k ↔
    row ∈ batchRows rows ∧ ∀ (j : Nat) (c : RoutedCall), j < k → calls[j]? = some c →
      ∃ position : Nat, (carried rows calls j)[position]? = some row ∧ c.retries position = true)
  /-- A row that was written or refused for good is never carried again. -/
  decided : ∀ (j k : Nat) (c : RoutedCall) (response : BatchResponse) (position : Nat)
    (row : BatchRow), j < k → calls[j]? = some c → c.answer = .ok response →
    (carried rows calls j)[position]? = some row →
    (response.outcomeFor position).isSuccess = true ∨
      (response.outcomeFor position).isTerminalReject = true → row ∉ carried rows calls k
  bounded : calls.length ≤ limit

namespace Sends

variable {rows : List Mutation} {txn : TxnId} {route : Locator} {calls : List RoutedCall}
  {c : RoutedCall}

theorem nil : Sends rows txn route [] := by
  refine ⟨fun k c hc => ?_, fun k c hc => ?_⟩ <;> cases hc

/-- One more call. -/
theorem concat (h : Sends rows txn route calls) (htxn : c.txn = txn)
    (hrows : c.rows = (carried rows calls calls.length).map BatchRow.mutation)
    (haddress : c.address = ⟨route.partition, route.server,
      route.generation + calls.countP RoutedCall.isStale⟩) :
    Sends rows txn route (calls ++ [c]) := by
  have hcases {k : Nat} {x : RoutedCall} (hx : (calls ++ [c])[k]? = some x) :
      k ≤ calls.length ∧ (calls[k]? = some x ∨ k = calls.length ∧ x = c) := by
    rcases Nat.lt_trichotomy k calls.length with hlt | rfl | hgt
    · rw [List.getElem?_append_left hlt] at hx
      exact ⟨Nat.le_of_lt hlt, .inl hx⟩
    · rw [List.getElem?_concat_length] at hx
      exact ⟨Nat.le_refl _, .inr ⟨rfl, (Option.some.inj hx).symm⟩⟩
    · have hbehind : (calls ++ [c]).length ≤ k := by simpa using Nat.succ_le_of_lt hgt
      rw [List.getElem?_eq_none hbehind] at hx
      cases hx
  refine ⟨fun k x hx => ?_, fun k x hx => ?_⟩
  · obtain ⟨hle, hx | ⟨rfl, rfl⟩⟩ := hcases hx
    · rw [carried_append hle]
      exact h.carries k x hx
    · rw [carried_append hle]
      exact ⟨htxn, hrows⟩
  · obtain ⟨hle, hx | ⟨rfl, rfl⟩⟩ := hcases hx
    · rw [List.take_append_of_le_length hle]
      exact h.routes k x hx
    · rw [List.take_append_of_le_length hle, List.take_length]
      exact haddress

theorem resubmits (h : Sends rows txn route calls) {limit : Nat} (hfirst : calls ≠ [])
    (hlimit : calls.length ≤ limit) : Resubmits rows txn route limit calls := by
  refine { h with
    first := ?_
    ordered := carried_sublist rows calls
    again := fun k row hk => mem_carried_iff hk
    decided := fun j k c response position row hj hc hanswer hposition hclass => ?_
    bounded := hlimit }
  · obtain ⟨c, rest, rfl⟩ := List.exists_cons_of_ne_nil hfirst
    refine ⟨c, rfl, ((h.carries 0 c rfl).2).trans ?_⟩
    simp [carried, batchRows, Function.comp_def, List.zipIdx_map_fst]
  · refine not_mem_carried hj hc hposition ?_
    rw [RoutedCall.retries, hanswer]
    rcases hclass with hsuccess | hreject
    · exact (Outcome.isTerminalReject_of_isSuccess hsuccess).2.1
    · by_contra hretry
      have := (Outcome.class_of_canRetry (Bool.not_eq_false _ |>.mp hretry)).2.1
      exact Bool.false_ne_true (this.symm.trans hreject)

end Sends

/-! ## One attempt -/

/-- The rows that an answer leaves pending. -/
theorem deferred_answered (response : BatchResponse) (pending : List BatchRow) {c : RoutedCall}
    (hanswer : c.answer = .ok response) :
    deferred (answered response pending) = c.leaves pending := by
  simp only [deferred, answered, List.filter_map, List.map_map, RoutedCall.leaves,
    RoutedCall.retries, hanswer]
  rfl

theorem leaves_of_error {c : RoutedCall} {e : Error} (hanswer : c.answer = .error e)
    (hretry : e.isRetryable = true) (pending : List BatchRow) : c.leaves pending = pending := by
  simp [RoutedCall.leaves, RoutedCall.retries, hanswer, hretry, List.zipIdx_map_fst]

theorem needsRefresh_answered (response : BatchResponse) (pending : List BatchRow) {c : RoutedCall}
    (hanswer : c.answer = .ok response) (hrows : c.rows = pending.map BatchRow.mutation) :
    needsRefresh (answered response pending) = c.isStale := by
  have hany : needsRefresh (answered response pending) =
      (pending.zipIdx.map Prod.snd).any fun i => (response.outcomeFor i).refreshCache := by
    simp only [needsRefresh, answered, List.any_map]
    rfl
  rw [hany, List.zipIdx_map_snd, RoutedCall.isStale, hanswer, hrows, List.length_map,
    List.range_eq_range']

/-- What is done to the files is no call, and leaves the route as it is. -/
theorem yields_onDirectory {σ α : Type} (p : Program Directory α) (w : WriteSide σ) :
    (onDirectory p).Yields (fun _ w' => w'.substrate = w.substrate ∧ w'.locator = w.locator) w := by
  unfold Yields
  rw [run_onDirectory]
  exact ⟨rfl, rfl⟩

/-- Sorting the outcomes of a call makes no other call and leaves the route as it is. -/
theorem yields_sortRows {σ : Type} (permissive mixed : Bool)
    (outcomes : List (BatchRow × Outcome)) (b : BatchRun) (w : WriteSide σ) :
    (sortRows permissive mixed outcomes b).Yields (fun done w' =>
      done.2.counts.retried = b.counts.retried ∧ w'.substrate = w.substrate ∧
        w'.locator = w.locator ∧ ∀ pending, done.1 = .ok pending → pending = deferred outcomes)
      w := by
  induction outcomes generalizing b w with
  | nil =>
    refine .pure ⟨rfl, rfl, rfl, ?_⟩
    rintro _ ⟨⟩
    rfl
  | cons x rest ih =>
    obtain ⟨row, o⟩ := x
    rw [deferred_cons]
    simp only [sortRows]
    split_ifs with hretry hsuccess hsuccess
    · have hnot := (Outcome.class_of_canRetry hretry).1
      exact absurd hsuccess (by simp [hnot])
    · refine .seq (ih (deferRow mixed row o b) w) fun done w₁ h => ?_
      obtain ⟨hcount, hside, hroute, hdone⟩ := h
      obtain ⟨answer, b₁⟩ := done
      cases answer with
      | error e => exact .pure ⟨hcount, hside, hroute, fun _ h => by cases h⟩
      | ok pending =>
        refine .pure ⟨hcount, hside, hroute, ?_⟩
        rintro _ ⟨⟩
        rw [hdone pending rfl]
    · exact ih (acceptRow mixed row o b) w
    · have hreject : (rejectRow permissive mixed row o b).Yields (fun done w' =>
          done.2.counts.retried = b.counts.retried ∧ w'.substrate = w.substrate ∧
            w'.locator = w.locator) w := by
        unfold rejectRow
        split
        · exact .pure ⟨rfl, rfl, rfl⟩
        · refine .seq (yields_onDirectory _ w) fun reported w₁ h => ?_
          obtain ⟨exceeded, recorder⟩ := reported
          rcases exceeded with e | _ | _
          · exact .pure ⟨rfl, h⟩
          · exact .pure ⟨rfl, h⟩
          · exact .atomically_bind (.pure ⟨rfl, h⟩)
      refine .seq hreject fun done w₁ h => ?_
      obtain ⟨hcount, hside, hroute⟩ := h
      obtain ⟨answer, b₁⟩ := done
      cases answer with
      | error e => exact .pure ⟨hcount, hside, hroute, fun _ h => by cases h⟩
      | ok _ =>
        have hrest := ih b₁ w₁
        unfold Yields at hrest ⊢
        rwa [hcount, hside, hroute] at hrest

variable {σ : Type} [Substrate σ]

/-- What becomes of an attempt whose call is `c`, from behind the call on. -/
inductive Tries (permissive : Bool) (pending : List BatchRow) (b : BatchRun)
    (w : WriteSide (Routed σ)) (c : RoutedCall) :
    Except Error (List BatchRow) × BatchRun → WriteSide (Routed σ) → Prop
  | failed {e : Error} (hanswer : c.answer = .error e) (hfinal : e.isRetryable = false) :
    Tries permissive pending b w c (.error e, { b with state := .aborted }) w
  | postponed {e : Error} (hanswer : c.answer = .error e) (hretry : e.isRetryable = true) :
    Tries permissive pending b w c
      (.ok pending, b.noteAll pending (.notRun (some e.message))) w
  | cancelled {response : BatchResponse} {found : BatchRow × Outcome}
    (hanswer : c.answer = .ok response)
    (hfound : (answered response pending).find? (fun x => x.2.shouldCancel) = some found) :
    Tries permissive pending b w c
      (.error (.writeAborted found.1.index found.2), { b with state := .aborted }) w
  | sorted {response : BatchResponse} {done : Except Error (List BatchRow) × BatchRun}
    {w₁ w' : WriteSide (Routed σ)} (hanswer : c.answer = .ok response)
    (hcancel : ∀ x ∈ answered response pending, x.2.shouldCancel = false)
    (hsort : (sortRows permissive (isMixed (answered response pending))
      (answered response pending) b).run w = (done, w₁))
    (hroute : w' =
      if done.1.isOk && c.isStale then { w₁ with locator := w₁.locator.invalidate } else w₁) :
    Tries permissive pending b w c done w'

omit [Substrate σ] in
/-- No further call is made behind the call of an attempt. -/
theorem Tries.substrate {permissive : Bool} {pending : List BatchRow} {b : BatchRun}
    {w w' : WriteSide (Routed σ)} {c : RoutedCall} {done : Except Error (List BatchRow) × BatchRun}
    (h : Tries permissive pending b w c done w') : w'.substrate = w.substrate := by
  cases h with
  | failed | postponed | cancelled => rfl
  | @sorted response _ w₁ _ hanswer hcancel hsort hroute =>
    have hsorted := yields_sortRows permissive (isMixed (answered response pending))
      (answered response pending) b w
    unfold Yields at hsorted
    rw [hsort] at hsorted
    rw [hroute]
    split_ifs <;> exact hsorted.2.1

/-- An attempt is one call, which carries the pending rows along the route of the moment. -/
theorem tries_attempt (permissive : Bool) (txn : TxnId) (pending : List BatchRow) (b : BatchRun)
    {w : WriteSide (Routed σ)} (hroutes : w.locator.refusals = []) :
    (attempt permissive txn pending b).Yields (fun done w' => ∃ (c : RoutedCall) (s : σ),
      c.address = ⟨w.locator.partition, w.locator.server, w.locator.generation⟩ ∧ c.txn = txn ∧
        c.rows = pending.map BatchRow.mutation ∧
        Tries permissive pending b { w with substrate := ⟨s, w.substrate.calls ++ [c]⟩ } c done w')
      w := by
  have hlocate := run_locate hroutes
  obtain ⟨answer, s, hwrite⟩ : ∃ answer s, Substrate.write
      ⟨w.locator.partition, w.locator.server, w.locator.generation⟩ txn
      (pending.map BatchRow.mutation) w.substrate.inner = (answer, s) := ⟨_, _, rfl⟩
  let c : RoutedCall := ⟨⟨w.locator.partition, w.locator.server, w.locator.generation⟩, txn,
    pending.map BatchRow.mutation, answer⟩
  have hcall : Substrate.write ⟨w.locator.partition, w.locator.server, w.locator.generation⟩ txn
      (pending.map BatchRow.mutation) w.substrate =
        (answer, (⟨s, w.substrate.calls ++ [c]⟩ : Routed σ)) := by
    rw [Routed.write_eq, hwrite]
  unfold Yields
  refine ⟨c, s, rfl, rfl, rfl, ?_⟩
  cases answer with
  | error e =>
    rw [run_attempt_of_error hlocate hcall]
    split_ifs with hretry
    · exact .postponed rfl hretry
    · exact .failed rfl (Bool.not_eq_true _ |>.mp hretry)
  | ok response =>
    cases hfind : (answered response pending).find? fun x => x.2.shouldCancel with
    | some found =>
      rw [run_attempt_of_cancel hlocate hcall hfind]
      exact .cancelled rfl hfind
    | none =>
      have hcancel : ∀ x ∈ answered response pending, x.2.shouldCancel = false := by
        simpa using hfind
      obtain ⟨⟨answer', b'⟩, w', hsort⟩ : ∃ done w', (sortRows permissive
          (isMixed (answered response pending)) (answered response pending) b).run
          { w with substrate := (⟨s, w.substrate.calls ++ [c]⟩ : Routed σ) } = (done, w') :=
        ⟨_, _, rfl⟩
      rw [run_attempt_of_answers hlocate hcall rfl hcancel hsort,
        needsRefresh_answered response pending (c := c) rfl rfl]
      exact .sorted rfl hcancel hsort rfl

/-- If the batch goes on behind an attempt, the answer decides which rows stay pending and whether
the route is dropped. -/
theorem yields_attempt (permissive : Bool) (txn : TxnId) (pending : List BatchRow) (b : BatchRun)
    {w : WriteSide (Routed σ)} (hroutes : w.locator.refusals = []) :
    (attempt permissive txn pending b).Yields (fun done w' => ∃ c : RoutedCall,
      w'.substrate.calls = w.substrate.calls ++ [c] ∧
        c.address = ⟨w.locator.partition, w.locator.server, w.locator.generation⟩ ∧ c.txn = txn ∧
        c.rows = pending.map BatchRow.mutation ∧ done.2.counts.retried = b.counts.retried ∧
        ∀ pending', done.1 = .ok pending' → pending' = c.leaves pending ∧
          w'.locator = if c.isStale then w.locator.invalidate else w.locator) w := by
  have hattempt := tries_attempt permissive txn pending b hroutes
  unfold Yields at hattempt ⊢
  obtain ⟨c, s, haddress, htxn, hrows, htries⟩ := hattempt
  generalize (attempt permissive txn pending b).run w = ran at htries ⊢
  obtain ⟨done, w'⟩ := ran
  refine ⟨c, congrArg Routed.calls htries.substrate, haddress, htxn, hrows, ?_⟩
  cases htries with
  | failed hanswer hfinal => exact ⟨rfl, nofun⟩
  | @postponed e hanswer hretry =>
    have hfresh : c.isStale = false := by rw [RoutedCall.isStale, hanswer]
    refine ⟨?_, ?_⟩
    · exact congrArg WriteStats.retried (noteAll_recorder b pending _).2
    · rintro _ ⟨⟩
      rw [hfresh]
      exact ⟨(leaves_of_error hanswer hretry pending).symm, rfl⟩
  | cancelled hanswer hfound => exact ⟨rfl, nofun⟩
  | @sorted response _ w₁ _ hanswer hcancel hsort hbehind =>
    have hsorted := yields_sortRows permissive (isMixed (answered response pending))
      (answered response pending) b
      { w with substrate := (⟨s, w.substrate.calls ++ [c]⟩ : Routed σ) }
    unfold Yields at hsorted
    rw [hsort] at hsorted
    obtain ⟨hcount, -, hroute, hdone⟩ := hsorted
    refine ⟨hcount, fun pending' hpending' => ?_⟩
    refine ⟨(hdone pending' hpending').trans (deferred_answered response pending hanswer), ?_⟩
    have hok : done.1.isOk = true := by rw [show done.1 = .ok pending' from hpending']; rfl
    rw [hbehind, hok, Bool.true_and]
    split_ifs
    · exact congrArg Locator.invalidate hroute
    · exact hroute

/-! ## All attempts -/

theorem resent_concat {calls : List RoutedCall} (h : calls ≠ []) (c : RoutedCall) :
    resent (calls ++ [c]) = resent calls + c.rows.length := by
  rw [resent, List.drop_append_of_le_length (List.length_pos_iff.mpr h), List.map_append,
    List.sum_append]
  simp [resent]

/-- How a batch stands that started with the given route and has made these calls. -/
structure Underway (rows : List Mutation) (txn : TxnId) (route : Locator)
    (calls : List RoutedCall) (pending : List BatchRow) (w : WriteSide (Routed σ)) : Prop where
  made : w.substrate.calls = calls
  sends : Sends rows txn route calls
  pending : pending = carried rows calls calls.length
  route : w.locator.partition = route.partition ∧ w.locator.server = route.server ∧
    w.locator.generation = route.generation + calls.countP RoutedCall.isStale
  unrefused : w.locator.refusals = []

theorem Underway.attempt {rows : List Mutation} {txn : TxnId} {route : Locator}
    {calls : List RoutedCall} {pending : List BatchRow} {w : WriteSide (Routed σ)}
    (h : Underway rows txn route calls pending w) (permissive : Bool) (b : BatchRun) :
    (attempt permissive txn pending b).Yields (fun done w' => ∃ c : RoutedCall,
      w'.substrate.calls = calls ++ [c] ∧ Sends rows txn route (calls ++ [c]) ∧
        c.rows.length = pending.length ∧ done.2.counts.retried = b.counts.retried ∧
        ∀ pending', done.1 = .ok pending' → Underway rows txn route (calls ++ [c]) pending' w')
      w := by
  have hattempt := yields_attempt permissive txn pending b h.unrefused
  obtain ⟨hpartition, hserver, hgeneration⟩ := h.route
  rw [hpartition, hserver, hgeneration, h.made] at hattempt
  unfold Yields at hattempt ⊢
  obtain ⟨c, hcalls, haddress, htxn, hrows, hcount, hdone⟩ := hattempt
  have hsends := h.sends.concat htxn (h.pending ▸ hrows) haddress
  refine ⟨c, hcalls, hsends, by rw [hrows, List.length_map], hcount, fun pending' hpending' => ?_⟩
  obtain ⟨hleaves, hlocator⟩ := hdone pending' hpending'
  refine ⟨hcalls, hsends, ?_, ?_, ?_⟩
  · rw [List.length_append, List.length_singleton, carried_succ List.getElem?_concat_length,
      carried_append (Nat.le_refl _), ← h.pending]
    exact hleaves
  · rw [hlocator, List.countP_append, List.countP_singleton]
    split_ifs
    · exact ⟨hpartition, hserver, by rw [Locator.invalidate, hgeneration, Nat.add_assoc]⟩
    · exact h.route
  · rw [hlocator]
    split_ifs <;> exact h.unrefused

omit [Substrate σ] in
/-- The delay in front of an attempt does nothing to the calls or the route. -/
theorem Underway.paused {rows : List Mutation} {txn : TxnId} {route : Locator}
    {calls : List RoutedCall} {pending : List BatchRow} {w : WriteSide (Routed σ)}
    (h : Underway rows txn route calls pending w) (retry : RetryConfig) (made : Nat) :
    Underway rows txn route calls pending (paused retry made w) :=
  ⟨h.made, h.sends, h.pending, h.route, h.unrefused⟩

/-- The calls behind all attempts. A batch that goes on has nothing left to send or no attempt left;
rows that are sent again are counted, unless the batch stops out of range. -/
structure Attempted (rows : List Mutation) (txn : TxnId) (route : Locator) (limit : Nat)
    (calls : List RoutedCall) {α : Type} (answer : Except Error α) (retried : Nat) : Prop where
  sends : Sends rows txn route calls
  bounded : calls.length ≤ limit
  retried : answer ≠ .error .outOfRange → retried = resent calls
  exhausted : ∀ a, answer = .ok a → carried rows calls calls.length = [] ∨ calls.length = limit

/-- The attempts of a batch go on from the calls it has made. The rows of an attempt whose delay is
out of range are counted as sent again, but the attempt is not made. -/
theorem yields_attempts (retry : RetryConfig) (permissive : Bool) {rows : List Mutation}
    {txn : TxnId} {route : Locator} (left : Nat) {calls : List RoutedCall} {pending : List BatchRow}
    {b : BatchRun} {w : WriteSide (Routed σ)} (h : Underway rows txn route calls pending w)
    (hretried : b.counts.retried = resent calls) :
    (attempts retry permissive txn left calls.length pending b).Yields (fun done w' =>
      calls <+: w'.substrate.calls ∧
        (left = 0 ∨ pending = [] ∨ w'.substrate.calls ≠ []) ∧
        Attempted rows txn route (calls.length + left) w'.substrate.calls done.1
          done.2.counts.retried) w := by
  induction left generalizing calls pending b w with
  | zero =>
    refine .pure ?_
    rw [h.made]
    exact ⟨List.prefix_rfl, .inl rfl, h.sends, Nat.le_refl _, fun _ => hretried,
      fun _ _ => .inr rfl⟩
  | succ left ih =>
    simp only [attempts]
    split_ifs with hempty
    · have hempty : pending = [] := List.isEmpty_iff.mp hempty
      refine .pure ?_
      rw [h.made]
      exact ⟨List.prefix_rfl, .inr (.inl hempty), h.sends, Nat.le_add_right _ _,
        fun _ => hretried, fun _ _ => .inl (h.pending ▸ hempty)⟩
    refine yields_pause_bind ?_
    cases hdelay : retry.drawnDelay? (w.random 0) calls.length with
    | none =>
      -- The first attempt is made at once, so calls were made before.
      have hne : calls ≠ [] := by
        rintro rfl
        exact retry.drawnDelay?_zero _ hdelay
      refine .pure ?_
      rw [(h.paused retry calls.length).made]
      exact ⟨List.prefix_rfl, .inr (.inr hne), h.sends, Nat.le_add_right _ _,
        fun hout => absurd rfl hout, fun _ h => by cases h⟩
    | some delay =>
      refine .seq ((h.paused retry calls.length).attempt permissive
        (startAttempt calls.length pending b)) fun done w₁ hone => ?_
      obtain ⟨c, hcalls, hsends, hlength, hcount, hgoes⟩ := hone
      have hretried₁ : done.2.counts.retried = resent (calls ++ [c]) := by
        rw [hcount, startAttempt_counts]
        split_ifs with hfirst
        · obtain rfl := List.length_eq_zero_iff.mp hfirst
          exact hretried
        · have hne : calls ≠ [] := fun hnil => hfirst (List.length_eq_zero_iff.mpr hnil)
          rw [resent_concat hne, hlength, ← hretried]
      have hmade : (calls ++ [c]).length = calls.length + 1 := List.length_append
      obtain ⟨answer, b₁⟩ := done
      cases answer with
      | error e =>
        refine .pure ?_
        rw [hcalls]
        exact ⟨List.prefix_append _ _, .inr (.inr (by simp)), hsends, by omega,
          fun _ => hretried₁, fun _ h => by cases h⟩
      | ok pending' =>
        have hrest := ih (hgoes pending' rfl) hretried₁
        rw [hmade, Nat.add_assoc, Nat.add_comm 1 left] at hrest
        unfold Yields at hrest ⊢
        obtain ⟨hextends, -, hattempted⟩ := hrest
        refine ⟨(List.prefix_append _ _).trans hextends, .inr (.inr fun hnil => ?_), hattempted⟩
        rw [hnil] at hextends
        simpa using List.prefix_nil.mp hextends

/-! ## A batch -/

/-- The end of a batch counts the rows still pending, and nothing else. -/
theorem conclude_counts (permissive : Bool) (pending : List BatchRow) (made : Nat) (p : Place)
    (b : BatchRun) :
    (conclude permissive pending made p b).2.counts =
        { b.counts with thrown := b.counts.thrown + pending.length } ∧
      (conclude permissive pending made p b).1 ≠ .error .outOfRange ∧
      ∀ r, (conclude permissive pending made p b).1 = .ok r →
        r.stats = (conclude permissive pending made p b).2.counts := by
  unfold conclude
  cases pending with
  | nil =>
    refine ⟨rfl, nofun, ?_⟩
    rintro _ ⟨⟩
    rfl
  | cons first rest =>
    simp only
    split_ifs
    · refine ⟨rfl, nofun, ?_⟩
      rintro _ ⟨⟩
      rfl
    · exact ⟨rfl, nofun, nofun⟩

/-- The calls of a batch, from the first on. -/
theorem yields_run (p : Pipeline) (hattempts : 0 < p.retry.maxAttempts) (txn : TxnId)
    {rows : List Mutation} (hrows : rows ≠ []) {w : WriteSide σ}
    (hroutes : w.locator.refusals = []) :
    (p.run txn rows).Yields (fun done w' => w'.substrate.calls ≠ [] ∧
      Attempted rows txn w.locator p.retry.maxAttempts w'.substrate.calls done.1
        done.2.counts.retried ∧
      ∀ r, done.1 = .ok r → r.stats.retried = done.2.counts.retried) w.routed := by
  have hstart : Underway rows txn w.locator [] (batchRows rows) w.routed :=
    ⟨rfl, .nil, (carried_nil_calls rows _).symm, ⟨rfl, rfl, rfl⟩, hroutes⟩
  have hbatch : batchRows rows ≠ [] := by
    simpa [batchRows] using hrows
  unfold Pipeline.run
  refine .seq (yields_attempts p.retry _ p.retry.maxAttempts hstart rfl)
    fun done w₁ h => ?_
  obtain ⟨-, hsome, hattempted⟩ := h
  rw [List.length_nil, Nat.zero_add] at hattempted
  have hsome : w₁.substrate.calls ≠ [] := by
    rcases hsome with hzero | hnil | hsome
    · exact absurd hzero (Nat.pos_iff_ne_zero.mp hattempts)
    · exact absurd hnil hbatch
    · exact hsome
  obtain ⟨answer, b⟩ := done
  cases answer with
  | error e =>
    refine .pure ⟨hsome, ⟨hattempted.sends, hattempted.bounded, fun he => ?_, fun _ h => by cases h⟩,
      fun _ h => by cases h⟩
    refine hattempted.retried fun heq => he ?_
    cases heq
    rfl
  | ok ended =>
    refine .atomically_bind (.pure ?_)
    obtain ⟨hcounts, -, hstats⟩ := conclude_counts p.options.isPermissive ended.1 ended.2
      w₁.directory.place b
    have hretried := congrArg WriteStats.retried hcounts
    refine ⟨hsome, ⟨hattempted.sends, hattempted.bounded, fun _ => ?_, fun r _ => ?_⟩,
      fun r hr => ?_⟩
    · exact hretried.trans (hattempted.retried fun h => by cases h)
    · exact hattempted.exhausted ended rfl
    · exact congrArg WriteStats.retried (hstats r hr)

/-- The calls of a batch over a route that nobody else drops. The first call carries all rows, and
each later one the rows that all calls before it left worth another attempt, in the order of the
batch: what was written or refused for good is never sent again. There are at most as many calls as
attempts are allowed, and each takes a route that is newer by the number of earlier calls in which a
row was told that it is stale. The rows of all calls but the first are counted as sent again. A
batch that does not end with an error has nothing left to send, or no attempt left. An answer out of
range stands for a batch that does not return. -/
theorem submit_resubmits (p : Pipeline) (hattempts : 0 < p.retry.maxAttempts) {t : Transaction}
    (hactive : t.isActive = true) (hwrites : t.readOnly = false) {rows : List Mutation}
    (hrows : rows ≠ []) (w : WriteSide σ) (hroutes : w.locator.refusals = []) :
    let ran := (p.submit t rows).run w.routed
    let calls := ran.2.substrate.calls
    (p.submit t rows).run w = (ran.1, ran.2.seen Routed.inner) ∧
    Resubmits rows t.id w.locator p.retry.maxAttempts calls ∧
    (ran.1.1 ≠ .error .outOfRange → ran.1.2.stats.retried = p.stats.retried + resent calls) ∧
    ∀ r, ran.1.1 = .ok r → r.stats.retried = resent calls ∧
      (carried rows calls calls.length = [] ∨ calls.length = p.retry.maxAttempts) := by
  intro ran calls
  have hyields := yields_run p hattempts t.id hrows hroutes
  have hran : ran = _ := run_submit p hactive hwrites rows w.routed
  unfold Yields at hyields
  obtain ⟨⟨⟨answer, b⟩, w'⟩, hrun⟩ : ∃ done, (p.run t.id rows).run w.routed = done := ⟨_, rfl⟩
  rw [hrun] at hyields hran
  obtain ⟨hsome, hattempted, hstats⟩ := hyields
  have hcalls : calls = w'.substrate.calls := congrArg (fun x => x.2.substrate.calls) hran
  refine ⟨submit_mirrors Routed.fronts p t rows w.routed, ?_, ?_, ?_⟩
  · rw [hcalls]
    exact hattempted.sends.resubmits hsome hattempted.bounded
  · rw [hran, hcalls]
    intro hreturns
    rw [← hattempted.retried hreturns]
    cases answer with
    | error e => rw [(p.absorb_error (fun he => hreturns (congrArg Except.error he)) b).1]; rfl
    | ok r => rfl
  · rw [hran, hcalls]
    intro r hr
    refine ⟨(hstats r hr).trans (hattempted.retried ?_), hattempted.exhausted r hr⟩
    rw [show answer = .ok r from hr]
    nofun

/-- Of two rows one is written and one is told that the route is stale. The second call carries that
row alone, along the next route. -/
theorem submit_resubmits_staleRoute :
    let p : Pipeline := ⟨.noDelay 2, .strict, none, .zero, .succeeded⟩
    let t : Transaction := .new ⟨7⟩ false
    let rows : List Mutation := [.insert [1] [97], .insert [2] [98]]
    let w : WriteSide ScriptedSubstrate :=
      ⟨ScriptedSubstrate.empty.script [2] [.wrongRegion none], .localDefault, .memory "bad/",
        fun _ => 0⟩
    let ran := (p.submit t rows).run w.routed
    0 < p.retry.maxAttempts ∧ t.isActive = true ∧ t.readOnly = false ∧ rows ≠ [] ∧
      w.locator.refusals = [] ∧ Resubmits rows t.id w.locator 2 ran.2.substrate.calls ∧
      ran.2.substrate.calls.map (fun c => (c.rows, c.address.generation)) =
        [(rows, 0), ([.insert [2] [98]], 1)] ∧
      ran.1.2.stats.retried = 1 := by
  intro p t rows w
  have hrows : rows ≠ [] := List.cons_ne_nil _ _
  have hran := submit_resubmits p (by decide) (t := t) rfl rfl hrows w rfl
  have hcalls : ((p.submit t rows).run w.routed).2.substrate.calls.map
      (fun c => (c.rows, c.address.generation)) = [(rows, 0), ([.insert [2] [98]], 1)] := by
    decide +kernel
  have hreturns : ((p.submit t rows).run w.routed).1.1 ≠ .error .outOfRange := by decide +kernel
  generalize (p.submit t rows).run w.routed = ran at hran hcalls hreturns ⊢
  obtain ⟨-, hresubmits, hcounted, -⟩ := hran
  refine ⟨by decide, rfl, rfl, hrows, rfl, hresubmits, hcalls, (hcounted hreturns).trans ?_⟩
  have hresent : resent ran.2.substrate.calls =
      (((ran.2.substrate.calls.map fun c => (c.rows, c.address.generation)).drop 1).map
        fun call => call.1.length).sum := by
    rw [resent, ← List.map_drop, List.map_map]
    rfl
  rw [hresent, hcalls]
  rfl

end Pipeline

end TxnEngine
