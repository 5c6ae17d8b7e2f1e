import TxnEngine.Proofs.Pipeline.Tallies
import TxnEngine.Proofs.Pipeline.Upkeep

/-!
# How a batch ends

A batch ends at the first call that fails for good, that cancels it, or that refuses a row which a
strict batch or the tolerance does not bear. Everything that was told before is counted, and of the
last call just the rows in front. A batch that no call ends runs out of rows or out of attempts.

Results:
* `Stops`: a call ends its batch with an error, when so many of its rows were processed.
* `Stops.unique`: the error and the number of rows are determined.
* `comes_attempt`, `ends_attempts`: what one call and all calls do to a batch.
* `submit_ends`: which error ends a batch, and what it leaves counted and reported.
-/

namespace TxnEngine

/-- The outcome that a call leaves in the given position. A call that failed has run no row. -/
def RoutedCall.outcomeAt (c : RoutedCall) (position : Nat) : Outcome :=
  match c.answer with
  | .ok response => response.outcomeFor position
  | .error e => .notRun (some e.message)

namespace Pipeline

open Program

/-- The rows that a sequence of calls left to be sent. -/
def leftBy (rows : List Mutation) (calls : List RoutedCall) : List BatchRow :=
  carried rows calls calls.length

/-- How many rows were refused when the row of `c` in the given position was processed. -/
def refusedBy (before : List RoutedCall) (c : RoutedCall) (position : Nat) : Nat :=
  (refused (toldOf before ++ c.told.take (position + 1))).length

/-! ## The first row of a kind -/

/-- Of the rows of a call whose position has a property, the one with the smallest index. -/
structure IsFirst (sent : List BatchRow) (has : Nat → Bool) (position : Nat) (row : BatchRow) :
    Prop where
  found : sent[position]? = some row
  holds : has position = true
  least : ∀ i other, sent[i]? = some other → has i = true → row.index ≤ other.index

section First

variable {sent : List BatchRow} {has : Nat → Bool} {position i j : Nat} {row other : BatchRow}

theorem ordered_carried (rows : List Mutation) (calls : List RoutedCall) (k : Nat) :
    (carried rows calls k).Pairwise fun x y => x.index < y.index := by
  have hbatch : (batchRows rows).Pairwise fun x y => x.index < y.index := by
    have hrange : ((batchRows rows).map BatchRow.index).Pairwise (· < ·) := by
      rw [index_batchRows]
      exact List.pairwise_lt_range
    exact List.pairwise_map.mp hrange
  exact hbatch.sublist (carried_sublist rows calls k)

theorem index_lt (hsent : sent.Pairwise fun x y => x.index < y.index) (hi : sent[i]? = some row)
    (hj : sent[j]? = some other) (hlt : i < j) : row.index < other.index := by
  obtain ⟨hi', rfl⟩ := List.getElem?_eq_some_iff.mp hi
  obtain ⟨hj', rfl⟩ := List.getElem?_eq_some_iff.mp hj
  exact List.pairwise_iff_getElem.mp hsent i j hi' hj' hlt

/-- Rows are sent in the order of their indices. -/
theorem isFirst_of_position (hsent : sent.Pairwise fun x y => x.index < y.index)
    (hrow : sent[position]? = some row) (hhas : has position = true)
    (hbefore : ∀ i, i < position → has i = false) : IsFirst sent has position row := by
  refine ⟨hrow, hhas, fun i other hother hi => ?_⟩
  rcases Nat.lt_trichotomy i position with hlt | rfl | hgt
  · rw [hbefore i hlt] at hi
    cases hi
  · rw [Option.some.inj (hrow.symm.trans hother)]
  · exact Nat.le_of_lt (index_lt hsent hrow hother hgt)

theorem IsFirst.le (h : IsFirst sent has position row)
    (hsent : sent.Pairwise fun x y => x.index < y.index) (hi : sent[i]? = some other)
    (hhas : has i = true) : position ≤ i := by
  by_contra hlt
  have := index_lt hsent hi h.found (Nat.lt_of_not_le hlt)
  exact absurd (h.least i other hi hhas) (Nat.not_le.mpr this)

theorem IsFirst.unique (h : IsFirst sent has position row)
    (hsent : sent.Pairwise fun x y => x.index < y.index) (h' : IsFirst sent has i other) :
    position = i ∧ row = other := by
  obtain rfl : position = i :=
    Nat.le_antisymm (h.le hsent h'.found h'.holds) (h'.le hsent h.found h.holds)
  exact ⟨rfl, Option.some.inj (h.found.symm.trans h'.found)⟩

/-- What is found first is the first of its kind. -/
theorem isFirst_of_find? (hsent : sent.Pairwise fun x y => x.index < y.index)
    (hfind : (sent.zipIdx.find? fun x => has x.2) = some (row, position)) :
    IsFirst sent has position row := by
  obtain ⟨hhas, k, hk, hget, hbefore⟩ := List.find?_eq_some_iff_getElem.mp hfind
  rw [List.getElem_zipIdx, Prod.mk.injEq, Nat.zero_add] at hget
  obtain ⟨rfl, rfl⟩ := hget
  have hk : k < sent.length := by simpa using hk
  refine isFirst_of_position hsent (List.getElem?_eq_getElem hk) hhas fun i hi => ?_
  have hnone := hbefore i hi
  rw [List.getElem_zipIdx, Nat.zero_add] at hnone
  simpa using hnone

end First

/-! ## Calls that end a batch -/

/-- The call `c` behind the calls in `before` ends the batch with an error, when the first `n` of
its rows were processed. -/
inductive Stops (p : Pipeline) (d₀ : Directory) (rows : List Mutation) (before : List RoutedCall)
    (c : RoutedCall) : Error → Nat → Prop
  /-- The call fails for good. -/
  | failed {e : Error} (hanswer : c.answer = .error e) (hfinal : e.isRetryable = false) :
    Stops p d₀ rows before c e 0
  /-- A row cancels the batch, and none is processed. -/
  | aborted {response : BatchResponse} {position : Nat} {row : BatchRow}
    (hanswer : c.answer = .ok response)
    (hfirst : IsFirst (leftBy rows before) (fun i => (response.outcomeFor i).shouldCancel)
      position row) :
    Stops p d₀ rows before c (.writeAborted row.index (response.outcomeFor position)) 0
  /-- Otherwise a strict batch ends at the first row that is refused for good. -/
  | rejected {response : BatchResponse} {position : Nat} {row : BatchRow}
    (hanswer : c.answer = .ok response)
    (hgoes : ∀ i, i < (leftBy rows before).length → (response.outcomeFor i).shouldCancel = false)
    (hstrict : p.options.isPermissive = false)
    (hfirst : IsFirst (leftBy rows before) (fun i => (response.outcomeFor i).isTerminalReject)
      position row) :
    Stops p d₀ rows before c (.writeRejected row.index (response.outcomeFor position)) position
  /-- Otherwise a permissive batch ends at the first row that is refused for good and leaves the
  count above the tolerance, and reports that row. -/
  | exceeded {response : BatchResponse} {r : Recorder} {position : Nat} {row : BatchRow}
    (hanswer : c.answer = .ok response)
    (hgoes : ∀ i, i < (leftBy rows before).length → (response.outcomeFor i).shouldCancel = false)
    (hpermissive : p.options.isPermissive = true) (hrecorder : p.recorder = some r)
    (hfirst : IsFirst (leftBy rows before) (fun i => (response.outcomeFor i).isTerminalReject &&
      exceedsTolerance (r.count + refusedBy before c i) r.tolerance) position row)
    (hroom : r.count + refusedBy before c position < UInt64.size) :
    Stops p d₀ rows before c (.toleranceExceeded (r.count + refusedBy before c position) r.tolerance
      (r.file d₀.place)) (position + 1)

/-- No call ends the batch. -/
def Calm (p : Pipeline) (d₀ : Directory) (rows : List Mutation) (calls : List RoutedCall) : Prop :=
  ∀ (before after : List RoutedCall) (c : RoutedCall) (e : Error) (n : Nat),
    calls = before ++ c :: after → ¬ Stops p d₀ rows before c e n

/-- There are more refused rows than the recorder can count. -/
def Overflows (p : Pipeline) (calls : List RoutedCall) : Prop :=
  p.options.isPermissive = true ∧ ∃ r, p.recorder = some r ∧ refused (toldOf calls) ≠ [] ∧
    UInt64.size ≤ r.count + (refused (toldOf calls)).length

section Stopping

variable {p : Pipeline} {d₀ : Directory} {rows : List Mutation} {before calls : List RoutedCall}
  {c : RoutedCall} {e e' : Error} {n n' : Nat}

/-- The error that ends a batch is determined, and so are the rows that are processed before. -/
theorem Stops.unique (h : Stops p d₀ rows before c e n) (h' : Stops p d₀ rows before c e' n') :
    e = e' ∧ n = n' := by
  have hsent := ordered_carried rows before before.length
  have hok {response response' : BatchResponse} (hanswer : c.answer = .ok response)
      (hanswer' : c.answer = .ok response') : response = response' :=
    Except.ok.inj (hanswer.symm.trans hanswer')
  -- A call fails or answers, cancels or goes on, and its batch is strict or permissive.
  have hfails {e : Error} {response : BatchResponse} (hanswer : c.answer = .error e)
      (hanswer' : c.answer = .ok response) : False := by
    rw [hanswer] at hanswer'
    cases hanswer'
  have hcancels {response : BatchResponse} {j : Nat} {row : BatchRow}
      (hgoes : ∀ i, i < (leftBy rows before).length → (response.outcomeFor i).shouldCancel = false)
      (hfirst : IsFirst (leftBy rows before) (fun i => (response.outcomeFor i).shouldCancel)
        j row) : False := by
    have := hgoes j (List.getElem?_eq_some_iff.mp hfirst.found).1
    exact Bool.false_ne_true (this.symm.trans hfirst.holds)
  have hmode (hstrict : p.options.isPermissive = false)
      (hpermissive : p.options.isPermissive = true) : False :=
    Bool.false_ne_true (hstrict.symm.trans hpermissive)
  cases h with
  | failed hanswer =>
    cases h' with
    | failed hanswer' => exact ⟨Except.error.inj (hanswer.symm.trans hanswer'), rfl⟩
    | aborted hanswer' | rejected hanswer' | exceeded hanswer' =>
      exact (hfails hanswer hanswer').elim
  | aborted hanswer hfirst =>
    cases h' with
    | failed hanswer' => exact (hfails hanswer' hanswer).elim
    | aborted hanswer' hfirst' =>
      obtain rfl := hok hanswer hanswer'
      obtain ⟨rfl, rfl⟩ := hfirst.unique hsent hfirst'
      exact ⟨rfl, rfl⟩
    | rejected hanswer' hgoes' | exceeded hanswer' hgoes' =>
      exact (hcancels (hok hanswer hanswer' ▸ hgoes') hfirst).elim
  | rejected hanswer hgoes hstrict hfirst =>
    cases h' with
    | failed hanswer' => exact (hfails hanswer' hanswer).elim
    | aborted hanswer' hfirst' => exact (hcancels (hok hanswer hanswer' ▸ hgoes) hfirst').elim
    | rejected hanswer' _ _ hfirst' =>
      obtain rfl := hok hanswer hanswer'
      obtain ⟨rfl, rfl⟩ := hfirst.unique hsent hfirst'
      exact ⟨rfl, rfl⟩
    | exceeded _ _ hpermissive => exact (hmode hstrict hpermissive).elim
  | exceeded hanswer hgoes hpermissive hrecorder hfirst =>
    cases h' with
    | failed hanswer' => exact (hfails hanswer' hanswer).elim
    | aborted hanswer' hfirst' => exact (hcancels (hok hanswer hanswer' ▸ hgoes) hfirst').elim
    | rejected _ _ hstrict => exact (hmode hstrict hpermissive).elim
    | exceeded hanswer' _ _ hrecorder' hfirst' =>
      obtain rfl := hok hanswer hanswer'
      obtain rfl := Option.some.inj (hrecorder.symm.trans hrecorder')
      obtain ⟨rfl, rfl⟩ := hfirst.unique hsent hfirst'
      exact ⟨rfl, rfl⟩

theorem calm_nil : Calm p d₀ rows [] := by
  intro before after c e n h
  simp at h

/-- A call is the last one or one of those before. -/
theorem split_concat {α : Type} {l before after : List α} {x y : α}
    (h : l ++ [x] = before ++ y :: after) :
    (before = l ∧ y = x ∧ after = []) ∨ ∃ rest, after = rest ++ [x] ∧ l = before ++ y :: rest := by
  rcases List.eq_nil_or_concat after with rfl | ⟨rest, z, rfl⟩
  · obtain ⟨rfl, hx⟩ := List.append_inj' h rfl
    exact .inl ⟨rfl, (List.singleton_inj.mp hx).symm, rfl⟩
  · rw [List.concat_eq_append, ← List.cons_append, ← List.append_assoc] at h
    obtain ⟨hl, hx⟩ := List.append_inj' h rfl
    obtain rfl := List.singleton_inj.mp hx
    exact .inr ⟨rest, List.concat_eq_append, hl⟩

theorem calm_concat (h : Calm p d₀ rows calls) (hc : ∀ e n, ¬ Stops p d₀ rows calls c e n) :
    Calm p d₀ rows (calls ++ [c]) := by
  intro before after x e n hsplit
  rcases split_concat hsplit with ⟨rfl, rfl, rfl⟩ | ⟨rest, rfl, hcalls⟩
  · exact hc e n
  · exact h before rest x e n hcalls

end Stopping

/-! ## One attempt -/

/-- How a batch stands that goes on behind these calls. -/
structure Standing (p : Pipeline) (d₀ : Directory) (file : Option Bytes) (rows : List Mutation)
    (calls : List RoutedCall) (b : BatchRun) (d : Directory) : Prop
    extends Booked p d₀ file (resent calls) (toldOf calls) b d where
  bears : Bears p (refused (toldOf calls)).length
  calm : Calm p d₀ rows calls
  size : b.latest.size = rows.length
  /-- The rows of the last call have its outcomes. -/
  latest : ∀ (before : List RoutedCall) (c : RoutedCall), calls = before ++ [c] →
    ∀ (i : Nat) (row : BatchRow), (leftBy rows before)[i]? = some row →
      b.latest[row.index]? = some (some (c.outcomeAt i))

/-- What becomes of a batch at the call `c`. -/
inductive Comes (p : Pipeline) (d₀ : Directory) (file : Option Bytes) (rows : List Mutation)
    (calls : List RoutedCall) (c : RoutedCall) :
    Except Error (List BatchRow) × BatchRun → Directory → Prop
  | stopped {e : Error} {n : Nat} {b : BatchRun} {d : Directory}
    (hstops : Stops p d₀ rows calls c e n)
    (hbooked : Booked p d₀ file (resent (calls ++ [c])) (toldOf calls ++ c.told.take n) b d) :
    Comes p d₀ file rows calls c (.error e, b) d
  | overflows {b : BatchRun} {d : Directory} (hcalm : Calm p d₀ rows (calls ++ [c]))
    (hfull : Overflows p (calls ++ [c])) : Comes p d₀ file rows calls c (.error .outOfRange, b) d
  | goesOn {pending : List BatchRow} {b : BatchRun} {d : Directory}
    (hstanding : Standing p d₀ file rows (calls ++ [c]) b d) :
    Comes p d₀ file rows calls c (.ok pending, b) d

theorem getElem?_answered (response : BatchResponse) (rows : List BatchRow) (i : Nat) :
    (answered response rows)[i]? = rows[i]?.map fun row => (row, response.outcomeFor i) := by
  rw [answered, List.getElem?_map, List.getElem?_zipIdx, Option.map_map]
  simp [Function.comp_def]

theorem mem_answered (response : BatchResponse) {rows : List BatchRow} {i : Nat} {row : BatchRow}
    (hrow : rows[i]? = some row) : (row, response.outcomeFor i) ∈ answered response rows := by
  refine List.mem_of_getElem? (i := i) ?_
  rw [getElem?_answered, hrow]
  rfl

theorem latest_noteAll (b : BatchRun) (rows : List BatchRow) (o : Outcome) :
    (b.noteAll rows o).latest = noted (rows.map fun row => (row, o)) b.latest := by
  induction rows generalizing b with
  | nil => rfl
  | cons row rest ih => exact ih (b.note row.index o)

section Attempt

variable {p : Pipeline} {d₀ : Directory} {file : Option Bytes} {rows : List Mutation}
  {calls : List RoutedCall} {c : RoutedCall} {b : BatchRun} {d : Directory}

/-- A row that was refused for good is among those refused by then. -/
theorem refusedBy_pos {response : BatchResponse} (hanswer : c.answer = .ok response)
    (hrows : c.rows = (leftBy rows calls).map BatchRow.mutation) {i : Nat} {row : BatchRow}
    (hrow : (leftBy rows calls)[i]? = some row)
    (hreject : (response.outcomeFor i).isTerminalReject = true) : 0 < refusedBy calls c i := by
  have htold : c.told[i]? = some ⟨row.mutation, response.outcomeFor i,
      isMixed (answered response (leftBy rows calls))⟩ := by
    rw [told_of_answer hanswer hrows, toldBy, List.getElem?_map, getElem?_answered, hrow]
    rfl
  rw [refusedBy, List.take_add_one, htold, ← List.append_assoc, refused_append, Option.toList_some,
    refused_singleton, if_pos hreject]
  simp

theorem refusedBy_mono (calls : List RoutedCall) (c : RoutedCall) {i j : Nat} (h : i ≤ j) :
    refusedBy calls c i ≤ refusedBy calls c j :=
  length_refused_le (List.prefix_append_right_inj _ |>.mpr
    (List.take_prefix_take_left (Nat.succ_le_succ h)))

/-- A row behind which the batch goes on is borne. -/
theorem borne_of_bears {response : BatchResponse} (hanswer : c.answer = .ok response)
    (hrows : c.rows = (leftBy rows calls).map BatchRow.mutation) {i n : Nat} {row : BatchRow}
    (hrow : (leftBy rows calls)[i]? = some row)
    (hbears : Bears p (refused (toldOf calls ++ c.told.take n)).length) (hlt : i < n)
    (hreject : (response.outcomeFor i).isTerminalReject = true) :
    p.options.isPermissive = true ∧ ∀ r, p.recorder = some r →
      r.count + refusedBy calls c i < UInt64.size ∧
        exceedsTolerance (r.count + refusedBy calls c i) r.tolerance = false := by
  have hle : refusedBy calls c i ≤ (refused (toldOf calls ++ c.told.take n)).length :=
    length_refused_le (List.prefix_append_right_inj _ |>.mpr (List.take_prefix_take_left hlt))
  have hpos := refusedBy_pos hanswer hrows hrow hreject
  exact hbears.mono hle (Nat.pos_iff_ne_zero.mp hpos)

theorem booked_startAttempt {told : List ToldRow} {pending : List BatchRow}
    (h : Booked p d₀ file (resent calls) told b d) (hlength : c.rows.length = pending.length) :
    Booked p d₀ file (resent (calls ++ [c])) told (startAttempt calls.length pending b) d := by
  unfold startAttempt
  split_ifs with hfirst
  · obtain rfl := List.length_eq_zero_iff.mp hfirst
    exact ⟨h.toFiled, h.counts⟩
  · have hne : calls ≠ [] := fun hnil => hfirst (List.length_eq_zero_iff.mpr hnil)
    refine ⟨h.toFiled, ?_⟩
    rw [resent_concat hne, hlength, h.counts]
    rfl

/-- An answered call that cancels nothing ends the batch at a row that is refused for good. -/
theorem Stops.refuses {response : BatchResponse} {e : Error} {n : Nat}
    (h : Stops p d₀ rows calls c e n) (hanswer : c.answer = .ok response)
    (hgoes : ∀ i, i < (leftBy rows calls).length → (response.outcomeFor i).shouldCancel = false) :
    ∃ i row, (leftBy rows calls)[i]? = some row ∧ (response.outcomeFor i).isTerminalReject = true ∧
      (p.options.isPermissive = false ∨ ∃ r, p.recorder = some r ∧
        r.count + refusedBy calls c i < UInt64.size ∧
        exceedsTolerance (r.count + refusedBy calls c i) r.tolerance = true) := by
  have hok {response' : BatchResponse} (hanswer' : c.answer = .ok response') :
      response = response' :=
    Except.ok.inj (hanswer.symm.trans hanswer')
  cases h with
  | failed hfailed =>
    rw [hanswer] at hfailed
    cases hfailed
  | aborted hanswer' hfirst =>
    obtain rfl := hok hanswer'
    have := hgoes _ (List.getElem?_eq_some_iff.mp hfirst.found).1
    exact absurd (this.symm.trans hfirst.holds) Bool.false_ne_true
  | rejected hanswer' _ hstrict hfirst =>
    obtain rfl := hok hanswer'
    exact ⟨_, _, hfirst.found, hfirst.holds, .inl hstrict⟩
  | exceeded hanswer' _ _ hrecorder hfirst hroom =>
    obtain rfl := hok hanswer'
    obtain ⟨hreject, hexceeds⟩ := Bool.and_eq_true_iff.mp hfirst.holds
    exact ⟨_, _, hfirst.found, hreject, .inr ⟨_, hrecorder, hroom, hexceeds⟩⟩

/-- The rows of a call have its outcomes, once these are noted. -/
theorem getElem?_noted_leftBy {outcomes : List (BatchRow × Outcome)}
    {latest : Array (Option Outcome)} (hrows : outcomes.map Prod.fst = leftBy rows calls)
    (hsize : latest.size = rows.length) {x : BatchRow × Outcome} (hx : x ∈ outcomes) :
    (noted outcomes latest)[x.1.index]? = some (some x.2) := by
  have hindices : (outcomes.map fun x => x.1.index).Sublist (List.range rows.length) := by
    have hsublist := (carried_sublist rows calls calls.length).map BatchRow.index
    rw [index_batchRows] at hsublist
    have hmap : outcomes.map (fun x => x.1.index) = (leftBy rows calls).map BatchRow.index := by
      rw [← hrows, List.map_map]
      rfl
    rwa [hmap]
  have hindex := hindices.mem (List.mem_map_of_mem hx)
  rw [List.mem_range, ← hsize] at hindex
  exact getElem?_noted_of_mem (List.nodup_range.sublist hindices) hx hindex

/-! ### Answers that cancel nothing -/

section Answered

variable {response : BatchResponse} {mixed : Bool} (h : Standing p d₀ file rows calls b d)
  (hanswer : c.answer = .ok response) (hrows : c.rows = (leftBy rows calls).map BatchRow.mutation)
  (hgoes : ∀ i, i < (leftBy rows calls).length → (response.outcomeFor i).shouldCancel = false)
  (htold : c.told = toldBy mixed (answered response (leftBy rows calls)))

include h hanswer hrows hgoes htold

omit h hanswer hrows hgoes in
/-- What the call told of the rows up to a row. -/
theorem take_told {front rest : List (BatchRow × Outcome)} {row : BatchRow} {o : Outcome}
    (houtcomes : answered response (leftBy rows calls) = front ++ (row, o) :: rest) :
    c.told.take front.length = toldBy mixed front ∧
      c.told.take (front.length + 1) = toldBy mixed front ++ [⟨row.mutation, o, mixed⟩] := by
  have htake : c.told.take front.length = toldBy mixed front := by
    rw [htold, houtcomes, toldBy, List.map_append, List.take_left' (List.length_map _)]
    rfl
  refine ⟨htake, ?_⟩
  rw [List.take_add_one, htake, htold, houtcomes]
  simp [toldBy]

omit hrows htold in
/-- A call that refuses too many rows to count ends no batch in another way. -/
theorem calm_of_full {r : Recorder} (hpermissive : p.options.isPermissive = true)
    (hrecorder : p.recorder = some r) {n : Nat}
    (hborne : ∀ i < n, (response.outcomeFor i).isTerminalReject = true →
      exceedsTolerance (r.count + refusedBy calls c i) r.tolerance = false)
    (hfull : UInt64.size ≤ r.count + refusedBy calls c n) : Calm p d₀ rows (calls ++ [c]) := by
  refine calm_concat h.calm fun e m hstops => ?_
  obtain ⟨i, other, hother, hearlier, hstrict | ⟨r', hr', hroom, hexceeds⟩⟩ :=
    hstops.refuses hanswer hgoes
  · exact Bool.false_ne_true (hstrict.symm.trans hpermissive)
  · obtain rfl := Option.some.inj (hrecorder.symm.trans hr')
    rcases Nat.lt_or_ge i n with hlt | hge
    · exact Bool.false_ne_true ((hborne i hlt hearlier).symm.trans hexceeds)
    · have := refusedBy_mono calls c hge
      omega

/-- A call that ends the batch at a row that is refused for good. -/
theorem comes_of_halts {front rest : List (BatchRow × Outcome)} {row : BatchRow} {o : Outcome}
    {e : Error} {b' : BatchRun} {d' : Directory}
    (houtcomes : answered response (leftBy rows calls) = front ++ (row, o) :: rest)
    (hreject : o.isTerminalReject = true)
    (hbears : Bears p (refused (toldOf calls ++ toldBy mixed front)).length)
    (hhalts : Halts p d₀ file (resent (calls ++ [c])) (toldOf calls ++ toldBy mixed front)
      ⟨row.mutation, o, mixed⟩ row.index e b' d') :
    Comes p d₀ file rows calls c (.error e, b') d' := by
  have hsent := ordered_carried rows calls calls.length
  have hat : (answered response (leftBy rows calls))[front.length]? = some (row, o) := by
    rw [houtcomes, List.getElem?_append_right (Nat.le_refl _), Nat.sub_self]
    rfl
  obtain ⟨htake, htake'⟩ := take_told htold houtcomes
  rw [getElem?_answered, Option.map_eq_some_iff] at hat
  obtain ⟨row, hrow, hx⟩ := hat
  obtain ⟨rfl, rfl⟩ := Prod.mk.inj hx
  have hcount : refusedBy calls c front.length = (refused (toldOf calls ++ toldBy mixed front ++
      [⟨row.mutation, response.outcomeFor front.length, mixed⟩])).length := by
    rw [refusedBy, htake', List.append_assoc]
  rw [← htake] at hbears
  -- The rows in front are borne, so this row is the first that is not.
  have hborne (i : Nat) (hi : i < front.length)
      (hreject : (response.outcomeFor i).isTerminalReject = true) :=
    borne_of_bears hanswer hrows (List.getElem?_eq_getElem
      (Nat.lt_trans hi (List.getElem?_eq_some_iff.mp hrow).1)) hbears hi hreject
  cases hhalts with
  | rejected hstrict hbooked =>
    have hfirst : IsFirst (leftBy rows calls)
        (fun i => (response.outcomeFor i).isTerminalReject) front.length row := by
      refine isFirst_of_position hsent hrow hreject fun i hi => ?_
      by_contra hearlier
      have := (hborne i hi (Bool.not_eq_false _ |>.mp hearlier)).1
      exact Bool.false_ne_true (hstrict.symm.trans this)
    exact .stopped (.rejected hanswer hgoes hstrict hfirst) (htake ▸ hbooked)
  | @exceeded r _ _ hpermissive hrecorder hroom hexceeds hbooked =>
    rw [← hcount] at hroom hexceeds ⊢
    have hfirst : IsFirst (leftBy rows calls) (fun i => (response.outcomeFor i).isTerminalReject &&
        exceedsTolerance (r.count + refusedBy calls c i) r.tolerance) front.length row := by
      refine isFirst_of_position hsent hrow ?_ fun i hi => ?_
      · rw [hreject, hexceeds, Bool.and_self]
      · cases hearlier : (response.outcomeFor i).isTerminalReject with
        | false => rfl
        | true => rw [((hborne i hi hearlier).2 r hrecorder).2, Bool.and_false]
    rw [List.append_assoc, ← htake'] at hbooked
    exact .stopped (.exceeded hanswer hgoes hpermissive hrecorder hfirst hroom) hbooked
  | @overflows r _ _ hpermissive hrecorder hfull =>
    rw [← hcount] at hfull
    have hcalm : Calm p d₀ rows (calls ++ [c]) :=
      calm_of_full h hanswer hgoes hpermissive hrecorder
        (fun i hi hearlier => ((hborne i hi hearlier).2 r hrecorder).2) hfull
    have hpos := refusedBy_pos hanswer hrows hrow hreject
    have hall : refusedBy calls c front.length ≤ (refused (toldOf (calls ++ [c]))).length := by
      rw [toldOf_concat]
      exact length_refused_le (List.prefix_append_right_inj _ |>.mpr (List.take_prefix _ _))
    refine .overflows hcalm ⟨hpermissive, r, hrecorder, ?_, by omega⟩
    exact List.length_pos_iff.mp (Nat.lt_of_lt_of_le hpos hall)

/-- A call whose rows are all processed. -/
theorem standing_of_passed {b' : BatchRun} {d' : Directory}
    (hlatest : b'.latest = noted (answered response (leftBy rows calls)) b.latest)
    (hbooked : Booked p d₀ file (resent (calls ++ [c])) (toldOf (calls ++ [c])) b' d')
    (hbears : Bears p (refused (toldOf (calls ++ [c]))).length) :
    Standing p d₀ file rows (calls ++ [c]) b' d' := by
  have hborne (i : Nat) (row : BatchRow) (hrow : (leftBy rows calls)[i]? = some row)
      (hreject : (response.outcomeFor i).isTerminalReject = true) := by
    have hall : Bears p (refused (toldOf calls ++ c.told.take c.told.length)).length := by
      rwa [List.take_length, ← toldOf_concat]
    refine borne_of_bears hanswer hrows hrow hall ?_ hreject
    have hat := getElem?_answered response (leftBy rows calls) i
    rw [hrow] at hat
    rw [htold, toldBy, List.length_map]
    exact (List.getElem?_eq_some_iff.mp hat).1
  refine ⟨hbooked, hbears, ?_, ?_, fun before x hsplit i row hrow => ?_⟩
  · refine calm_concat h.calm fun e n hstops => ?_
    obtain ⟨i, row, hrow, hreject, hstrict | ⟨r, hr, -, hexceeds⟩⟩ := hstops.refuses hanswer hgoes
    · exact Bool.false_ne_true (hstrict.symm.trans (hborne i row hrow hreject).1)
    · have := ((hborne i row hrow hreject).2 r hr).2
      exact Bool.false_ne_true (this.symm.trans hexceeds)
  · rw [hlatest, size_noted, h.size]
  · obtain ⟨rfl, hx⟩ := List.append_inj' hsplit rfl
    obtain rfl := List.singleton_inj.mp hx
    rw [RoutedCall.outcomeAt, hanswer, hlatest]
    exact getElem?_noted_leftBy (map_fst_answered _ _) h.size (mem_answered response hrow)

end Answered

/-- Rows that are postponed by a failed call change nothing but their outcomes. -/
theorem standing_of_postponed {e : Error} (h : Standing p d₀ file rows calls b d)
    (hanswer : c.answer = .error e) (hretry : e.isRetryable = true) {b' : BatchRun}
    (hlatest : b'.latest = b.latest)
    (hbooked : Booked p d₀ file (resent (calls ++ [c])) (toldOf calls) b' d) :
    Standing p d₀ file rows (calls ++ [c])
      (b'.noteAll (leftBy rows calls) (.notRun (some e.message))) d := by
  have htold : toldOf (calls ++ [c]) = toldOf calls := by
    rw [toldOf_concat, told_of_error hanswer, List.append_nil]
  obtain ⟨hrecorder, hcounts⟩ := noteAll_recorder b' (leftBy rows calls) (.notRun (some e.message))
  have hnoted := latest_noteAll b' (leftBy rows calls) (.notRun (some e.message))
  refine ⟨⟨?_, ?_⟩, ?_, ?_, ?_, fun before x hsplit i row hrow => ?_⟩
  · rw [htold, hrecorder]
    exact hbooked.toFiled
  · rw [htold, hcounts]
    exact hbooked.counts
  · rw [htold]
    exact h.bears
  · refine calm_concat h.calm fun e' n hstops => ?_
    cases hstops with
    | failed hanswer' hfinal =>
      obtain rfl := Except.error.inj (hanswer.symm.trans hanswer')
      exact Bool.false_ne_true (hfinal.symm.trans hretry)
    | aborted hanswer' | rejected hanswer' | exceeded hanswer' =>
      rw [hanswer] at hanswer'
      cases hanswer'
  · rw [hnoted, size_noted, hlatest, h.size]
  · obtain ⟨rfl, hx⟩ := List.append_inj' hsplit rfl
    obtain rfl := List.singleton_inj.mp hx
    have hsame : ((leftBy rows calls).map fun row =>
        (row, Outcome.notRun (some e.message))).map Prod.fst = leftBy rows calls := by
      rw [List.map_map]
      exact List.map_id _
    rw [RoutedCall.outcomeAt, hanswer, hnoted, hlatest]
    exact getElem?_noted_leftBy hsame h.size (List.mem_map_of_mem (List.mem_of_getElem? hrow))

/-- One attempt of a batch. -/
theorem comes_attempt {σ : Type} [Substrate σ] {txn : TxnId} {route : Locator}
    {pending : List BatchRow} {w : WriteSide (Routed σ)}
    (hunderway : Underway rows txn route calls pending w)
    (h : Standing p d₀ file rows calls b w.directory) :
    (attempt p.options.isPermissive txn pending (startAttempt calls.length pending b)).Yields
      (fun done w' => ∃ c : RoutedCall, w'.substrate.calls = calls ++ [c] ∧
        Comes p d₀ file rows calls c done w'.directory) w := by
  have hattempt := tries_attempt p.options.isPermissive txn pending
    (startAttempt calls.length pending b) hunderway.unrefused
  obtain rfl : pending = leftBy rows calls := hunderway.pending
  rw [hunderway.made] at hattempt
  unfold Yields at hattempt ⊢
  obtain ⟨c, s, -, -, hrows, htries⟩ := hattempt
  have hbooked := booked_startAttempt (c := c) h.toBooked (by rw [hrows, List.length_map])
  have hlatest := startAttempt_latest calls.length (leftBy rows calls) b
  generalize startAttempt calls.length (leftBy rows calls) b = b₀ at htries hbooked hlatest ⊢
  generalize (attempt p.options.isPermissive txn (leftBy rows calls) b₀).run w = ran at htries ⊢
  obtain ⟨done, w'⟩ := ran
  refine ⟨c, congrArg Routed.calls htries.substrate, ?_⟩
  cases htries with
  | failed hanswer hfinal =>
    refine .stopped (.failed hanswer hfinal) ?_
    rw [List.take_zero, List.append_nil]
    exact ⟨hbooked.toFiled, hbooked.counts⟩
  | postponed hanswer hretry =>
    exact .goesOn (standing_of_postponed h hanswer hretry hlatest hbooked)
  | @cancelled response found hanswer hfound =>
    rw [answered, List.find?_map, Option.map_eq_some_iff] at hfound
    obtain ⟨⟨row, i⟩, hfind, rfl⟩ := hfound
    have hfirst : IsFirst (leftBy rows calls) (fun i => (response.outcomeFor i).shouldCancel)
        i row :=
      isFirst_of_find? (ordered_carried rows calls calls.length) hfind
    refine .stopped (.aborted hanswer hfirst) ?_
    rw [List.take_zero, List.append_nil]
    exact ⟨hbooked.toFiled, hbooked.counts⟩
  | @sorted response _ w₁ _ hanswer hcancel hsort hroute =>
    have hgoes (i : Nat) (hi : i < (leftBy rows calls).length) :
        (response.outcomeFor i).shouldCancel = false :=
      hcancel _ (mem_answered response (List.getElem?_eq_getElem hi))
    have htold := told_of_answer hanswer hrows
    obtain ⟨answer, b', d', hrun, hsorts⟩ := booked_sortRows
      (w := { w with substrate := (⟨s, calls ++ [c]⟩ : Routed σ) })
      (isMixed (answered response (leftBy rows calls))) hcancel hbooked h.bears
    obtain ⟨rfl, rfl⟩ := Prod.mk.inj (hsort.symm.trans hrun)
    have hdirectory : w'.directory = d' := by
      rw [show w' = _ from hroute]
      split_ifs <;> rfl
    rw [hdirectory]
    cases hsorts with
    | halted houtcomes hreject hbears hhalts =>
      exact comes_of_halts h hanswer hrows hgoes htold houtcomes hreject hbears hhalts
    | passed hnoted hprocessed hbears =>
      rw [← htold, ← toldOf_concat] at hprocessed hbears
      rw [hlatest] at hnoted
      exact .goesOn (standing_of_passed h hanswer hrows hgoes htold hnoted hprocessed hbears)

end Attempt

/-! ## All attempts -/

/-- How the attempts of a batch end that made these calls: a call ends it, there are too many
refused rows to count, the delay of the next attempt is out of range, or no row or no attempt is
left. -/
inductive Ends (p : Pipeline) (random : Nat → Float) (d₀ : Directory) (file : Option Bytes)
    (rows : List Mutation) (limit : Nat) (made : List RoutedCall) :
    Except Error (List BatchRow × Nat) → BatchRun → Directory → Prop
  | stopped {before : List RoutedCall} {c : RoutedCall} {e : Error} {n : Nat} {b : BatchRun}
    {d : Directory} (hmade : made = before ++ [c]) (hcalm : Calm p d₀ rows before)
    (hstops : Stops p d₀ rows before c e n)
    (hbooked : Booked p d₀ file (resent made) (toldOf before ++ c.told.take n) b d) :
    Ends p random d₀ file rows limit made (.error e) b d
  | overflows {b : BatchRun} {d : Directory} (hcalm : Calm p d₀ rows made)
    (hfull : Overflows p made) : Ends p random d₀ file rows limit made (.error .outOfRange) b d
  | delayed {b b' : BatchRun} {d : Directory} (hstanding : Standing p d₀ file rows made b' d)
    (hleft : leftBy rows made ≠ []) (hlimit : made.length < limit)
    (hdelay : ¬ p.retry.Fits random made.length) :
    Ends p random d₀ file rows limit made (.error .outOfRange) b d
  | completed {b : BatchRun} {d : Directory} (hstanding : Standing p d₀ file rows made b d)
    (hover : leftBy rows made = [] ∨ made.length = limit) :
    Ends p random d₀ file rows limit made (.ok (leftBy rows made, made.length)) b d

section Attempts

variable {p : Pipeline} {d₀ : Directory} {file : Option Bytes} {rows : List Mutation}

/-- The attempts of a batch go on from the calls it has made to one of its ends. -/
theorem ends_attempts {σ : Type} [Substrate σ] {txn : TxnId} {route : Locator} (left : Nat)
    {calls : List RoutedCall} {pending : List BatchRow} {b : BatchRun} {w : WriteSide (Routed σ)}
    (hunderway : Underway rows txn route calls pending w)
    {random : Nat → Float} (hdrawn : Drawn p.retry random calls.length w)
    (h : Standing p d₀ file rows calls b w.directory) :
    (attempts p.retry p.options.isPermissive txn left calls.length pending b).Yields (fun done w' =>
      Sends rows txn route w'.substrate.calls ∧ w'.substrate.calls.length ≤ calls.length + left ∧
        Ends p random d₀ file rows (calls.length + left) w'.substrate.calls done.1 done.2
          w'.directory) w := by
  induction left generalizing calls pending b w with
  | zero =>
    obtain rfl : pending = leftBy rows calls := hunderway.pending
    refine .pure ?_
    rw [hunderway.made]
    exact ⟨hunderway.sends, Nat.le_refl _, .completed h (.inr rfl)⟩
  | succ left ih =>
    obtain rfl : pending = leftBy rows calls := hunderway.pending
    simp only [attempts]
    split_ifs with hempty
    · refine .pure ?_
      rw [hunderway.made]
      exact ⟨hunderway.sends, Nat.le_add_right _ _,
        .completed h (.inl (List.isEmpty_iff.mp hempty))⟩
    have hpaused := hunderway.paused p.retry calls.length
    refine yields_pause_bind ?_
    cases hdelay : p.retry.drawnDelay? (w.random 0) calls.length with
    | none =>
      rw [hdrawn.head] at hdelay
      refine .pure ?_
      rw [hpaused.made]
      exact ⟨hunderway.sends, Nat.le_add_right _ _, .delayed h (by simpa using hempty)
        (Nat.lt_add_of_pos_right (Nat.succ_pos left)) (not_not_intro hdelay)⟩
    | some delay =>
      have hcomes := comes_attempt hpaused h
      have hrandom := random_attempt p.options.isPermissive txn (leftBy rows calls)
        (startAttempt calls.length (leftBy rows calls) b) (paused p.retry calls.length w)
      have hmakes := hpaused.attempt p.options.isPermissive
        (startAttempt calls.length (leftBy rows calls) b)
      unfold Yields at hcomes hmakes
      rw [Yields, run_bind]
      generalize (attempt p.options.isPermissive txn (leftBy rows calls)
        (startAttempt calls.length (leftBy rows calls) b)).run
          (paused p.retry calls.length w) = ran at hcomes hrandom hmakes ⊢
      obtain ⟨done, w₁⟩ := ran
      obtain ⟨c, hcalls, hcomes⟩ := hcomes
      obtain ⟨c', hcalls', hsends, -, -, hgoes⟩ := hmakes
      obtain rfl : c = c' := by simpa using hcalls.symm.trans hcalls'
      have hlength : (calls ++ [c]).length = calls.length + 1 := List.length_append
      have hle : (calls ++ [c]).length ≤ calls.length + (left + 1) := by omega
      simp only at hcalls hcomes hgoes ⊢
      cases hcomes with
      | stopped hstops hbooked =>
        simp only [run_pure]
        rw [hcalls]
        exact ⟨hsends, hle, .stopped rfl h.calm hstops hbooked⟩
      | overflows hcalm hfull =>
        simp only [run_pure]
        rw [hcalls]
        exact ⟨hsends, hle, .overflows hcalm hfull⟩
      | goesOn hstanding =>
        have hdrawn' : Drawn p.retry random (calls ++ [c]).length w₁ :=
          hlength ▸ hdrawn.pause.congr hrandom
        have hrest := ih (hgoes _ rfl) hdrawn' hstanding
        rw [hlength, Nat.add_assoc, Nat.add_comm 1 left] at hrest
        exact hrest

/-- How a batch stands before the first attempt. -/
theorem standing_start (p : Pipeline) (rows : List Mutation) {d : Directory}
    (hsink : p.options.isPermissive = true → ∃ r, p.recorder = some r ∧ r.Holds d file) :
    Standing p d file rows [] ⟨p.state, p.recorder, .zero, Array.replicate rows.length none⟩ d := by
  refine ⟨⟨⟨fun _ => ⟨rfl, rfl⟩, fun hpermissive => ?_⟩, rfl⟩, bears_zero p, calm_nil,
    Array.size_replicate, fun before c h => ?_⟩
  · obtain ⟨r, hr, hholds⟩ := hsink hpermissive
    exact ⟨r, r, hr, hr, hholds.added⟩
  · simp at h

end Attempts

/-! ## The whole batch -/

/-- What a batch that made these calls leaves of its pipeline and of the directory: the rows in
`told` are counted, and those refused are reported. -/
structure Leaves (p : Pipeline) (d₀ : Directory) (file : Option Bytes) (calls : List RoutedCall)
    (thrown : Nat) (told : List ToldRow) (p' : Pipeline) (d : Directory) : Prop
    extends Filed p d₀ file told p'.recorder d where
  stats : p'.stats = p.stats + tally (resent calls) thrown told

/-- How a batch has ended that made these calls, when `random` are the random numbers at its start. An
answer out of range stands for a batch that does not return. -/
structure Finishes (p : Pipeline) (random : Nat → Float) (d₀ : Directory) (file : Option Bytes)
    (rows : List Mutation) (calls : List RoutedCall) (answer : Except Error BatchResult)
    (p' : Pipeline) (d : Directory) : Prop where
  /-- A call that ends the batch is the last one. All rows of the calls before it are counted, and
  of its own rows those that were processed. -/
  stopped : ∀ (before after : List RoutedCall) (c : RoutedCall) (e : Error) (n : Nat),
    calls = before ++ c :: after → Stops p d₀ rows before c e n →
      after = [] ∧ answer = .error e ∧ (e ≠ .outOfRange →
        Leaves p d₀ file calls 0 (toldOf before ++ c.told.take n) p' d)
  /-- Without such a call, there may be too many refused rows to count. -/
  overflowed : Calm p d₀ rows calls → Overflows p calls → answer = .error .outOfRange
  /-- Attempts are left unmade only if the next delay is out of range. -/
  delayed : Calm p d₀ rows calls → ¬ Overflows p calls → leftBy rows calls ≠ [] →
    calls.length < p.retry.maxAttempts →
      ¬ p.retry.Fits random calls.length ∧ answer = .error .outOfRange
  /-- All rows are counted, and those still to be sent count as thrown. -/
  counted : Calm p d₀ rows calls → ¬ Overflows p calls →
    leftBy rows calls = [] ∨ calls.length = p.retry.maxAttempts →
      Leaves p d₀ file calls (leftBy rows calls).length (toldOf calls) p' d
  /-- Without rows still to be sent there is no error, nor is there in a permissive batch. -/
  completed : Calm p d₀ rows calls → ¬ Overflows p calls →
    leftBy rows calls = [] ∨ p.options.isPermissive = true ∧ calls.length = p.retry.maxAttempts →
      ∃ r, answer = .ok r ∧
        r.stats = tally (resent calls) (leftBy rows calls).length (toldOf calls)
  /-- The error that ends a strict batch behind its last attempt tells the outcome of the first row
  that is still to be sent. -/
  exhausted : Calm p d₀ rows calls → ¬ Overflows p calls → leftBy rows calls ≠ [] →
    calls.length = p.retry.maxAttempts → p.options.isPermissive = false →
      ∃ before c i row, calls = before ++ [c] ∧ IsFirst (leftBy rows before) c.retries i row ∧
        answer = .error
          (.retriesExhausted (leftBy rows calls).length p.retry.maxAttempts (c.outcomeAt i))

section Batch

variable {p : Pipeline} {d₀ : Directory} {file : Option Bytes} {rows : List Mutation}
  {calls : List RoutedCall} {c : RoutedCall} {b : BatchRun} {d : Directory}

theorem leaves_absorb {told : List ToldRow} {thrown : Nat} {answer : Except Error BatchResult}
    (hfiled : Filed p d₀ file told b.recorder d)
    (hcounts : b.counts = tally (resent calls) thrown told)
    (hanswer : answer ≠ .error .outOfRange) :
    Leaves p d₀ file calls thrown told (p.absorb answer b) d := by
  refine ⟨?_, ?_⟩
  · rw [(p.absorb_recorder answer b).1]
    exact hfiled
  · rw [← hcounts]
    cases answer with
    | ok r => rfl
    | error e => exact (p.absorb_error (fun he => hanswer (congrArg Except.error he)) b).1

theorem leftBy_concat (rows : List Mutation) (calls : List RoutedCall) (c : RoutedCall) :
    leftBy rows (calls ++ [c]) = c.leaves (leftBy rows calls) := by
  rw [leftBy, List.length_append, List.length_singleton, carried_succ List.getElem?_concat_length,
    carried_append (Nat.le_refl _)]
  rfl

/-- The first row that a call leaves to be sent. -/
theorem isFirst_of_leaves {sent rest : List BatchRow} {first : BatchRow}
    (hsent : sent.Pairwise fun x y => x.index < y.index) (h : c.leaves sent = first :: rest) :
    ∃ i, IsFirst sent c.retries i first := by
  have hhead := congrArg List.head? h
  rw [RoutedCall.leaves, List.head?_map, List.head?_filter, List.head?_cons,
    Option.map_eq_some_iff] at hhead
  obtain ⟨⟨row, i⟩, hfind, rfl⟩ := hhead
  exact ⟨i, isFirst_of_find? hsent hfind⟩

theorem outcomes_of_latest {index : Nat} {o : Outcome} (h : b.latest[index]? = some (some o)) :
    b.outcomes[index]? = some o := by
  rw [BatchRun.outcomes, List.getElem?_map, Array.getElem?_toList, h]
  rfl

/-- The end of a batch whose attempts are over. -/
theorem Standing.concludes (h : Standing p d₀ file rows calls b d)
    (hcalls : leftBy rows calls ≠ [] → calls ≠ []) (place : Place) :
    let done := conclude p.options.isPermissive (leftBy rows calls) calls.length place b
    Leaves p d₀ file calls (leftBy rows calls).length (toldOf calls) (p.absorb done.1 done.2) d ∧
      (leftBy rows calls = [] ∨ p.options.isPermissive = true → ∃ r, done.1 = .ok r ∧
        r.stats = tally (resent calls) (leftBy rows calls).length (toldOf calls)) ∧
      (leftBy rows calls ≠ [] → p.options.isPermissive = false →
        ∃ before c i row, calls = before ++ [c] ∧ IsFirst (leftBy rows before) c.retries i row ∧
          done.1 = .error (.retriesExhausted (leftBy rows calls).length calls.length
            (c.outcomeAt i))) := by
  intro done
  obtain ⟨hcounts, hanswer, hstats⟩ :=
    conclude_counts p.options.isPermissive (leftBy rows calls) calls.length place b
  have htally : done.2.counts =
      tally (resent calls) (leftBy rows calls).length (toldOf calls) := by
    rw [hcounts, h.counts]
    simp [tally]
  refine ⟨leaves_absorb ?_ htally hanswer, fun hgoes => ?_, fun hleft hstrict => ?_⟩
  · rw [conclude_recorder]
    exact h.toFiled
  · have hok : ∃ r, done.1 = .ok r := by
      unfold done conclude
      cases hleft : leftBy rows calls with
      | nil => exact ⟨_, rfl⟩
      | cons first rest =>
        rw [hleft] at hgoes
        rcases hgoes with hnil | hpermissive
        · cases hnil
        · exact ⟨_, by simp only [hpermissive, if_true]; rfl⟩
    obtain ⟨r, hr⟩ := hok
    exact ⟨r, hr, (hstats r hr).trans htally⟩
  · obtain ⟨before, c, hsplit⟩ := (List.eq_nil_or_concat calls).resolve_left (hcalls hleft)
    rw [List.concat_eq_append] at hsplit
    obtain ⟨first, rest, hfirst⟩ := List.exists_cons_of_ne_nil hleft
    have hleaves : c.leaves (leftBy rows before) = first :: rest := by
      rw [← leftBy_concat, ← hsplit]
      exact hfirst
    obtain ⟨i, hisFirst⟩ := isFirst_of_leaves (ordered_carried rows before before.length) hleaves
    have hlatest := outcomes_of_latest (h.latest before c hsplit i first hisFirst.found)
    refine ⟨before, c, i, first, hsplit, hisFirst, ?_⟩
    unfold done conclude
    rw [hfirst, hstrict]
    simp only [Bool.false_eq_true, if_false]
    change Except.error (Error.retriesExhausted _ _ ((b.outcomes[first.index]?).getD _)) = _
    rw [hlatest]
    rfl

variable {σ : Type} [Substrate σ]

/-- A batch comes to one of the ends of its attempts, and is concluded if no error has ended it. -/
theorem ends_run (txn : TxnId) (rows : List Mutation) {w : WriteSide σ}
    (hroutes : w.locator.refusals = [])
    (hsink : p.options.isPermissive = true → ∃ r, p.recorder = some r ∧ r.Holds w.directory file) :
    (p.run txn rows).Yields (fun done w' =>
      Sends rows txn w.locator w'.substrate.calls ∧
      w'.substrate.calls.length ≤ p.retry.maxAttempts ∧
      ∃ ended b, Ends p w.random w.directory file rows p.retry.maxAttempts w'.substrate.calls ended
          b w'.directory ∧
        done = match ended with
          | .error e => (.error e, b)
          | .ok (left, made) => conclude p.options.isPermissive left made w'.directory.place b)
      w.routed := by
  have hunderway : Underway rows txn w.locator [] (batchRows rows) w.routed :=
    ⟨rfl, .nil, (carried_nil_calls rows _).symm, ⟨rfl, rfl, rfl⟩, hroutes⟩
  have hends := ends_attempts p.retry.maxAttempts hunderway (drawn_start p.retry w.routed)
    (standing_start p rows hsink)
  rw [List.length_nil, Nat.zero_add] at hends
  unfold Pipeline.run
  refine .seq hends fun done w' h => ?_
  obtain ⟨hsends, hlimit, hended⟩ := h
  obtain ⟨answer, b⟩ := done
  cases answer with
  | error e => exact .pure ⟨hsends, hlimit, .error e, b, hended, rfl⟩
  | ok x => exact .atomically_bind (.pure ⟨hsends, hlimit, .ok x, b, hended, rfl⟩)

theorem Standing.not_overflows (h : Standing p d₀ file rows calls b d) : ¬ Overflows p calls := by
  rintro ⟨-, r, hr, hsome, hfull⟩
  have hroom := ((h.bears (by simpa using hsome)).2 r hr).1
  omega

/-- The ends of the attempts of a batch, as they are seen from outside. -/
theorem Ends.finishes (hattempts : 0 < p.retry.maxAttempts) (place : Place)
    {ended : Except Error (List BatchRow × Nat)} {done : Except Error BatchResult × BatchRun}
    (hdone : done = match ended with
      | .error e => (.error e, b)
      | .ok (left, made) => conclude p.options.isPermissive left made place b)
    {random : Nat → Float} (h : Ends p random d₀ file rows p.retry.maxAttempts calls ended b d) :
    Finishes p random d₀ file rows calls done.1 (p.absorb done.1 done.2) d := by
  subst hdone
  cases h with
  | @stopped before c e n _ _ hmade hcalm hstops hbooked =>
    -- The last call ends the batch, so none before it does.
    have hnever {goal : Prop} (hcalls : Calm p d₀ rows calls) : goal :=
      absurd hstops (hcalls before [] c e n hmade)
    refine ⟨fun before' after' c' e' n' hsplit hstops' => ?_, hnever, hnever, hnever, hnever,
      hnever⟩
    rcases split_concat (hmade.symm.trans hsplit) with ⟨rfl, rfl, rfl⟩ | ⟨rest, rfl, hbefore⟩
    · obtain ⟨rfl, rfl⟩ := hstops.unique hstops'
      refine ⟨rfl, rfl, fun he => leaves_absorb hbooked.toFiled hbooked.counts ?_⟩
      exact fun hout => he (Except.error.inj hout)
    · exact absurd hstops' (hcalm before' rest c' e' n' hbefore)
  | overflows hcalm hfull =>
    refine ⟨fun before after c e n hsplit hstops => ?_, fun _ _ => rfl, ?_, ?_, ?_, ?_⟩
    · exact absurd hstops (hcalm before after c e n hsplit)
    all_goals exact fun _ hroom => absurd hfull hroom
  | delayed hstanding hleft hlimit hdelay =>
    refine ⟨fun before after c e n hsplit hstops => ?_, fun _ hfull => ?_,
      fun _ _ _ _ => ⟨hdelay, rfl⟩, fun _ _ hover => ?_, fun _ _ hover => ?_,
      fun _ _ _ hover => ?_⟩
    · exact absurd hstops (hstanding.calm before after c e n hsplit)
    · exact absurd hfull hstanding.not_overflows
    · exact absurd (hover.resolve_left hleft) (Nat.ne_of_lt hlimit)
    · exact absurd (hover.resolve_left hleft).2 (Nat.ne_of_lt hlimit)
    · exact absurd hover (Nat.ne_of_lt hlimit)
  | completed hstanding hover =>
    have hcalls (hleft : leftBy rows calls ≠ []) : calls.length = p.retry.maxAttempts :=
      hover.resolve_left hleft
    obtain ⟨hleaves, hgoes, hends⟩ := hstanding.concludes (fun hleft hnil => by
      have := hcalls hleft
      rw [hnil, List.length_nil] at this
      omega) place
    refine ⟨fun before after c e n hsplit hstops => ?_, fun _ hfull => ?_,
      fun _ _ hleft hlimit => ?_, fun _ _ _ => hleaves, fun _ _ hover => ?_,
      fun _ _ hleft hlimit hstrict => ?_⟩
    · exact absurd hstops (hstanding.calm before after c e n hsplit)
    · exact absurd hfull hstanding.not_overflows
    · exact absurd (hcalls hleft) (Nat.ne_of_lt hlimit)
    · exact hgoes (hover.imp_right And.left)
    · obtain ⟨before, c, i, row, hsplit, hfirst, hanswer⟩ := hends hleft hstrict
      exact ⟨before, c, i, row, hsplit, hfirst, hanswer.trans (by rw [hlimit])⟩

/-- Which error ends a batch over a route that nobody else drops and a sink whose calls do not fail,
and what the batch leaves counted and reported. -/
theorem submit_ends (p : Pipeline) (hattempts : 0 < p.retry.maxAttempts) {t : Transaction}
    (hactive : t.isActive = true) (hwrites : t.readOnly = false) (rows : List Mutation)
    (w : WriteSide σ) (hroutes : w.locator.refusals = []) (file : Option Bytes)
    (hsink : p.options.isPermissive = true → ∃ r, p.recorder = some r ∧ r.Holds w.directory file) :
    let ran := (p.submit t rows).run w.routed
    let calls := ran.2.substrate.calls
    (p.submit t rows).run w = (ran.1, ran.2.seen Routed.inner) ∧
    Sends rows t.id w.locator calls ∧ calls.length ≤ p.retry.maxAttempts ∧
    Finishes p w.random w.directory file rows calls ran.1.1 ran.1.2 ran.2.directory := by
  intro ran calls
  have hends := ends_run t.id rows hroutes hsink
  have hran : ran = _ := run_submit p hactive hwrites rows w.routed
  unfold Yields at hends
  obtain ⟨⟨done, w'⟩, hrun⟩ : ∃ x, (p.run t.id rows).run w.routed = x := ⟨_, rfl⟩
  rw [hrun] at hends hran
  obtain ⟨hsends, hlimit, ended, b, hended, hdone⟩ := hends
  have hcalls : calls = w'.substrate.calls := congrArg (fun x => x.2.substrate.calls) hran
  refine ⟨submit_mirrors Routed.fronts p t rows w.routed, ?_, ?_, ?_⟩
  · rw [hcalls]
    exact hsends
  · rw [hcalls]
    exact hlimit
  · rw [hcalls, hran]
    exact hended.finishes hattempts w'.directory.place hdone

/-- Of three rows one is written at once, and the others meet a busy region. When they are sent again
one is refused for good, which would exceed the tolerance, and one is interrupted. The interruption
ends the batch: nothing of the second call is counted, and there is no file. -/
theorem submit_ends_interruptedRow :
    let p : Pipeline := ⟨.noDelay 2, .permissive "rows.csv" 0,
      some ⟨"rows.bad", "rows.bad", 0, 0, none, false⟩, .zero, .succeeded⟩
    let t : Transaction := .new ⟨7⟩ false
    let rows : List Mutation := [.insert [1] [97], .insert [2] [98], .insert [3] [99]]
    let w : WriteSide ScriptedSubstrate :=
      ⟨(ScriptedSubstrate.empty.script [2] [.regionTooBusy none, .indexNotSetup none]).script [3]
          [.regionTooBusy none, .interrupted none],
        .localDefault, .memory "bad/", fun _ => 0⟩
    let ran := (p.submit t rows).run w.routed
    0 < p.retry.maxAttempts ∧ t.isActive = true ∧ t.readOnly = false ∧ w.locator.refusals = [] ∧
      (p.options.isPermissive = true → ∃ r, p.recorder = some r ∧ r.Holds w.directory none) ∧
      ran.1.1 = .error (.writeAborted 2 (.interrupted none)) ∧
      Leaves p w.directory none ran.2.substrate.calls 0
        [⟨.insert [1] [97], .success, true⟩, ⟨.insert [2] [98], .regionTooBusy none, true⟩,
          ⟨.insert [3] [99], .regionTooBusy none, true⟩] ran.1.2 ran.2.directory := by
  intro p t rows w
  have hsink : p.options.isPermissive = true →
      ∃ r, p.recorder = some r ∧ r.Holds w.directory none := by
    intro _
    exact ⟨_, rfl, rfl, by decide +kernel, by decide +kernel, rfl, fun _ _ => rfl, nofun⟩
  have hends := submit_ends p (by decide) (t := t) rfl rfl rows w rfl none hsink
  let address : PartitionAddress := ⟨w.locator.partition, w.locator.server, 0⟩
  let first : RoutedCall :=
    ⟨address, t.id, rows, .ok ⟨none, [.success, .regionTooBusy none, .regionTooBusy none]⟩⟩
  let response : BatchResponse := ⟨none, [.indexNotSetup none, .interrupted none]⟩
  let second : RoutedCall := ⟨address, t.id, rows.drop 1, .ok response⟩
  have hcalls : ((p.submit t rows).run w.routed).2.substrate.calls = [first, second] := by
    decide +kernel
  generalize (p.submit t rows).run w.routed = ran at hends hcalls ⊢
  obtain ⟨-, -, -, hfinishes⟩ := hends
  have hisFirst : IsFirst (leftBy rows [first]) (fun i => (response.outcomeFor i).shouldCancel) 1
      ⟨2, .insert [3] [99]⟩ :=
    isFirst_of_position (ordered_carried rows [first] 1) rfl rfl (by decide)
  have hstops : Stops p w.directory rows [first] second (.writeAborted 2 (.interrupted none)) 0 :=
    .aborted rfl hisFirst
  obtain ⟨-, hanswer, hleaves⟩ := hfinishes.stopped [first] [] second _ 0 hcalls hstops
  exact ⟨by decide, rfl, rfl, rfl, hsink, hanswer, hleaves nofun⟩

end Batch

end Pipeline

end TxnEngine
