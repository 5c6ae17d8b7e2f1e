import TxnEngine.Proofs.Pipeline.Tallies

/-!
# What the partial counters count

Three counters tell how rows fared in calls that wrote some of their rows and others not. A row is
counted by what such a call told of it: written, refused for good, or worth another attempt. What
was written or refused is in the counters of all calls as well. Whether a row worth another attempt
gets one is decided later: there may be no attempt left, or another row of the same call may end the
batch. Such rows are stranded: they are counted as sent again behind a call that wrote others, but
no later call carries them.

Results:
* `resentBehind`: the rows sent again, by the kind of the call in front.
* `comes_attempt_partly`, `partly_attempts`: what one call and all calls leave in the counters.
* `submit_partial_counts`: the partial counters of a batch, and when they stay within the others.
* `not_forall_partialRetried_le`: a batch that counts a row as sent again, and sends none again.
-/

namespace TxnEngine

namespace ToldRow

/-- Whether a call that wrote others told of the row that it is worth another attempt. -/
def isLeft (x : ToldRow) : Bool :=
  x.mixed && x.outcome.canRetry

end ToldRow

/-- Whether the call wrote some of its rows and others not. -/
def RoutedCall.isMixed (c : RoutedCall) : Bool :=
  c.told.any fun x => x.mixed

namespace Pipeline

open Program

/-- The rows that were carried by a call right behind one of the given kind. -/
def resentBehind (kind : RoutedCall → Bool) : List RoutedCall → Nat
  | c :: next :: rest => (if kind c then next.rows.length else 0) + resentBehind kind (next :: rest)
  | _ => 0

/-- The rows that were sent again behind a call that wrote others. -/
def resumed (calls : List RoutedCall) : Nat :=
  resentBehind RoutedCall.isMixed calls

/-- The rows that were sent again behind a call that wrote none. -/
def repeated (calls : List RoutedCall) : Nat :=
  resentBehind (fun c => !c.isMixed) calls

/-- What the last call told. -/
def lastTold (calls : List RoutedCall) : List ToldRow :=
  (calls.getLast?.map RoutedCall.told).getD []

/-- Of the first `n` rows of the last call, those that it left worth another attempt although it
wrote others. -/
def stranded (calls : List RoutedCall) (n : Nat) : Nat :=
  ((lastTold calls).take n).countP ToldRow.isLeft

section Calls

variable {kind : RoutedCall → Bool} {calls : List RoutedCall} {c next : RoutedCall}

theorem resentBehind_concat (kind : RoutedCall → Bool) (before : List RoutedCall)
    (c next : RoutedCall) : resentBehind kind (before ++ [c] ++ [next]) =
      resentBehind kind (before ++ [c]) + if kind c then next.rows.length else 0 := by
  induction before with
  | nil => simp [resentBehind]
  | cons first before ih =>
    cases before with
    | nil => simp [resentBehind]
    | cons second before =>
      simp only [List.cons_append, resentBehind] at ih ⊢
      rw [ih, Nat.add_assoc]

/-- A row is sent again behind a call that wrote others or behind one that wrote none. -/
theorem resumed_add_repeated (calls : List RoutedCall) :
    resumed calls + repeated calls = resent calls := by
  induction calls with
  | nil => rfl
  | cons c rest ih =>
    cases rest with
    | nil => rfl
    | cons next rest =>
      have hone : (if c.isMixed then next.rows.length else 0) +
          (if !c.isMixed then next.rows.length else 0) = next.rows.length := by
        cases c.isMixed <;> simp
      have hresent : resent (c :: next :: rest) = next.rows.length + resent (next :: rest) := rfl
      simp only [resumed, repeated, resentBehind] at ih ⊢
      omega

@[simp]
theorem lastTold_concat (calls : List RoutedCall) (c : RoutedCall) :
    lastTold (calls ++ [c]) = c.told := by
  simp [lastTold]

theorem toldOf_dropLast_append (calls : List RoutedCall) :
    toldOf calls.dropLast ++ lastTold calls = toldOf calls := by
  rcases List.eq_nil_or_concat calls with rfl | ⟨before, c, rfl⟩
  · rfl
  · rw [List.concat_eq_append, List.dropLast_concat, lastTold_concat, toldOf_concat]

theorem countP_isLeft_toldBy (mixed : Bool) (outcomes : List (BatchRow × Outcome)) :
    (toldBy mixed outcomes).countP ToldRow.isLeft =
      if mixed then (deferred outcomes).length else 0 := by
  rw [deferred, List.length_map, ← List.countP_eq_length_filter, toldBy, List.countP_map]
  cases mixed with
  | false => exact List.countP_eq_zero.mpr fun x _ => Bool.false_ne_true
  | true => rfl

/-- A call leaves worth another attempt what its batch keeps pending. -/
theorem countP_isLeft {response : BatchResponse} {pending : List BatchRow}
    (hanswer : c.answer = .ok response) (hrows : c.rows = pending.map BatchRow.mutation) :
    c.told.countP ToldRow.isLeft =
      if c.isMixed then (deferred (answered response pending)).length else 0 := by
  rw [RoutedCall.isMixed, told_of_answer hanswer hrows, countP_isLeft_toldBy]
  cases hmixed : isMixed (answered response pending) with
  | false => simp [toldBy]
  | true =>
    -- A call that is mixed has rows.
    obtain ⟨x, hx, -⟩ := List.any_eq_true.mp (Bool.and_eq_true_iff.mp hmixed).1
    have hany : ((toldBy true (answered response pending)).any fun x => x.mixed) = true := by
      refine List.any_eq_true.mpr ⟨_, List.mem_map_of_mem hx, rfl⟩
    rw [hany]

/-- What was counted in calls that wrote others was counted in any call. -/
theorem tally_partial_le (again thrown : Nat) (told : List ToldRow) :
    (tally again thrown told).partialRows ≤ (tally again thrown told).written ∧
      (tally again thrown told).partialIgnored ≤ (tally again thrown told).ignored := by
  refine ⟨List.countP_mono_left fun x _ h => ?_, List.countP_mono_left fun x _ h => ?_⟩
  · exact (Bool.and_eq_true_iff.mp h).2
  · exact (Bool.and_eq_true_iff.mp h).2

end Calls

/-! ## The rows of a call -/

section Rows

variable {σ : Type} {b : BatchRun} {again : Nat} {told : List ToldRow} {o : Outcome}

/-- A row that is refused for good is counted if it is reported, even if the report fails. -/
theorem tallies_rejectRow (permissive mixed : Bool) (row : BatchRow)
    (hreject : o.isTerminalReject = true) (h : b.counts = tally again 0 told) :
    (rejectRow permissive mixed row o b : Program (WriteSide σ) _).Answers fun
      | (.ok (), b') => b'.counts = tally again 0 (told ++ [⟨row.mutation, o, mixed⟩])
      | (.error _, b') => b'.counts = tally again 0 told ∨
          b'.counts = tally again 0 (told ++ [⟨row.mutation, o, mixed⟩]) := by
  unfold rejectRow
  split
  · exact .pure (.inl h)
  · refine .behind fun reported => ?_
    obtain ⟨exceeded, recorder⟩ := reported
    have hcounts := counts_counted mixed row recorder hreject h
    rcases exceeded with e | _ | _
    · exact .pure (.inr hcounts)
    · exact .pure hcounts
    · exact .behind fun _ => .pure (.inr hcounts)

/-- What a batch has counted behind the outcomes of a call: all of them, or those up to the first
that ended the batch. -/
def TalliesRows (again : Nat) (told : List ToldRow) (mixed : Bool)
    (outcomes : List (BatchRow × Outcome)) : Except Error (List BatchRow) × BatchRun → Prop
  | (.ok pending, b) => pending = deferred outcomes ∧
      b.counts = tally again 0 (told ++ toldBy mixed outcomes)
  | (.error _, b) => ∃ n, b.counts = tally again 0 (told ++ (toldBy mixed outcomes).take n)

theorem TalliesRows.cons {mixed : Bool} {row : BatchRow} {rest : List (BatchRow × Outcome)}
    {answer : Except Error (List BatchRow)}
    (h : TalliesRows again (told ++ [⟨row.mutation, o, mixed⟩]) mixed rest (answer, b)) :
    TalliesRows again told mixed ((row, o) :: rest)
      (if o.canRetry then answer.map fun pending => row :: pending else answer, b) := by
  have hcons (later : List ToldRow) : told ++ [⟨row.mutation, o, mixed⟩] ++ later =
      told ++ ⟨row.mutation, o, mixed⟩ :: later :=
    List.append_cons .. |>.symm
  cases answer with
  | error e =>
    obtain ⟨n, hcounts⟩ := h
    rw [hcons] at hcounts
    split_ifs <;> exact ⟨n + 1, hcounts⟩
  | ok pending =>
    obtain ⟨rfl, hcounts⟩ := h
    rw [hcons] at hcounts
    split_ifs with hretry
    · exact ⟨by rw [deferred_cons, if_pos hretry], hcounts⟩
    · exact ⟨by rw [deferred_cons, if_neg hretry], hcounts⟩

/-- The rows of a call are counted in order, up to the first that ends the batch. -/
theorem tallies_sortRows (permissive mixed : Bool) {outcomes : List (BatchRow × Outcome)}
    (hcancel : ∀ x ∈ outcomes, x.2.shouldCancel = false) (h : b.counts = tally again 0 told) :
    (sortRows permissive mixed outcomes b : Program (WriteSide σ) _).Answers
      (TalliesRows again told mixed outcomes) := by
  induction outcomes generalizing b told with
  | nil => exact .pure ⟨rfl, by rw [toldBy, List.map_nil, List.append_nil]; exact h⟩
  | cons x rest ih =>
    obtain ⟨row, o⟩ := x
    obtain ⟨hnow, hlater⟩ := List.forall_mem_cons.mp hcancel
    simp only [sortRows]
    split_ifs with hsuccess hretry
    · have hretry := (Outcome.isTerminalReject_of_isSuccess hsuccess).2.1
      have hcounts : (acceptRow mixed row o b).counts =
          tally again 0 (told ++ [⟨row.mutation, o, mixed⟩]) := counts_acceptRow hsuccess h
      refine (ih hlater hcounts).mono ?_
      rintro ⟨answer, b'⟩ hrest
      simpa [hretry] using hrest.cons
    · have hcounts : (deferRow mixed row o b).counts =
          tally again 0 (told ++ [⟨row.mutation, o, mixed⟩]) := counts_deferRow hretry h
      refine .bind (ih hlater hcounts) ?_
      rintro ⟨answer, b'⟩ hrest
      have hall := hrest.cons
      rw [if_pos hretry] at hall
      cases answer <;> exact .pure hall
    · have hreject := Outcome.isTerminalReject_of_decided (by simpa using hsuccess)
        (by simpa using hretry) hnow
      refine .bind (tallies_rejectRow permissive mixed row hreject h) ?_
      rintro ⟨e | _, b'⟩ hone
      · rcases hone with hcounts | hcounts
        · exact .pure ⟨0, by rw [hcounts, List.take_zero, List.append_nil]⟩
        · exact .pure ⟨1, hcounts⟩
      · refine (ih hlater hone).mono ?_
        rintro ⟨answer, b''⟩ hrest
        simpa [hretry] using hrest.cons

end Rows

/-! ## The calls of a batch -/

/-- What a batch has counted between two attempts: the rows of all its calls, and those that a call
which wrote others left worth another attempt are sent again or still pending. -/
structure Midway (calls : List RoutedCall) (pending : List BatchRow) (b : BatchRun) : Prop where
  counts : b.counts = tally (resent calls) 0 (toldOf calls)
  earlier : (toldOf calls.dropLast).countP ToldRow.isLeft = resumed calls
  last : ∀ c, calls.getLast? = some c →
    c.told.countP ToldRow.isLeft = if c.isMixed then pending.length else 0

/-- What a batch has counted that made these calls: all rows of the calls but the last, and the
first `n` rows of the last one. Of the rows sent again, `unsent` were counted in front of an attempt
that made no call. -/
structure Counted (calls : List RoutedCall) (n unsent : Nat) (b : BatchRun) : Prop where
  counts : b.counts =
    tally (resent calls + unsent) 0 (toldOf calls.dropLast ++ (lastTold calls).take n)
  earlier : (toldOf calls.dropLast).countP ToldRow.isLeft = resumed calls

section Attempts

variable {σ : Type} [Substrate σ] {calls : List RoutedCall} {pending : List BatchRow}
  {b : BatchRun} {c : RoutedCall}

theorem midway_start (pending : List BatchRow) (h : b.counts = .zero) : Midway [] pending b :=
  ⟨h, rfl, by simp⟩

theorem Midway.resumed_concat (h : Midway calls pending b) (hlength : c.rows.length = pending.length) :
    (toldOf calls).countP ToldRow.isLeft = resumed (calls ++ [c]) := by
  rcases List.eq_nil_or_concat calls with rfl | ⟨before, last, rfl⟩
  · rfl
  · rw [List.concat_eq_append] at h ⊢
    have hlast := h.last last List.getLast?_concat
    have hearlier := h.earlier
    rw [List.dropLast_concat] at hearlier
    rw [toldOf_concat, List.countP_append, hearlier, hlast, resumed, resumed, resentBehind_concat,
      hlength]

/-- A call that ends the batch has counted some of its rows. -/
theorem Midway.counted_concat (h : Midway calls pending b)
    (hlength : c.rows.length = pending.length) {n : Nat} {b' : BatchRun} (hcounts : b'.counts =
      tally (resent (calls ++ [c])) 0 (toldOf calls ++ c.told.take n)) :
    Counted (calls ++ [c]) n 0 b' := by
  refine ⟨?_, by rw [List.dropLast_concat]; exact h.resumed_concat hlength⟩
  rw [List.dropLast_concat, lastTold_concat]
  exact hcounts

/-- A call behind which the batch goes on has counted all of its rows. -/
theorem Midway.concat (h : Midway calls pending b) (hlength : c.rows.length = pending.length)
    {pending' : List BatchRow} {b' : BatchRun}
    (hcounts : b'.counts = tally (resent (calls ++ [c])) 0 (toldOf calls ++ c.told))
    (hleft : c.told.countP ToldRow.isLeft = if c.isMixed then pending'.length else 0) :
    Midway (calls ++ [c]) pending' b' := by
  refine ⟨?_, by rw [List.dropLast_concat]; exact h.resumed_concat hlength, fun last hlast => ?_⟩
  · rw [toldOf_concat]
    exact hcounts
  · rw [List.getLast?_concat] at hlast
    cases hlast
    exact hleft

/-- Between two attempts all rows are counted. -/
theorem Midway.counted (h : Midway calls pending b) :
    Counted calls (lastTold calls).length 0 b := by
  refine ⟨?_, h.earlier⟩
  rw [List.take_length, toldOf_dropLast_append]
  exact h.counts

/-- In front of an attempt its rows are counted as sent again. -/
theorem Midway.counts_startAttempt (h : Midway calls pending b) : ∃ unsent,
    (startAttempt calls.length pending b).counts =
      tally (resent calls + unsent) 0 (toldOf calls) ∧
    (unsent = 0 ∧ calls = [] ∨ unsent = pending.length) ∧
    ∀ c : RoutedCall, c.rows.length = pending.length →
      resent (calls ++ [c]) = resent calls + unsent := by
  rcases List.eq_nil_or_concat calls with rfl | ⟨before, last, rfl⟩
  · exact ⟨0, h.counts, .inl ⟨rfl, rfl⟩, fun c _ => rfl⟩
  · rw [List.concat_eq_append] at h ⊢
    refine ⟨pending.length, ?_, .inr rfl, fun c hlength => ?_⟩
    · rw [startAttempt, if_neg (by simp), h.counts]
      rfl
    · rw [resent_concat (by simp), hlength]

/-- What one attempt leaves in the counters: it finds no route and makes no call, its call ends the
batch, or the batch goes on. -/
inductive ComesPartly (calls : List RoutedCall) (pending : List BatchRow) :
    Except Error (List BatchRow) × BatchRun → List RoutedCall → Prop
  | unrouted {e : Error} {unsent : Nat} {b : BatchRun} (hcounted :
      Counted calls (lastTold calls).length unsent b)
      (hunsent : unsent = 0 ∧ calls = [] ∨ unsent = pending.length) :
    ComesPartly calls pending (.error e, b) calls
  | ended {c : RoutedCall} {e : Error} {n : Nat} {b : BatchRun}
      (hcounted : Counted (calls ++ [c]) n 0 b) :
    ComesPartly calls pending (.error e, b) (calls ++ [c])
  | goesOn {c : RoutedCall} {pending' : List BatchRow} {b : BatchRun}
      (hmidway : Midway (calls ++ [c]) pending' b) :
    ComesPartly calls pending (.ok pending', b) (calls ++ [c])

/-- An attempt that finds no route makes no call. -/
theorem comes_unrouted_partly (permissive : Bool) (txn : TxnId) {w : WriteSide (Routed σ)}
    (hcalls : w.substrate.calls = calls) (h : Midway calls pending b)
    (hroutes : w.locator.refusals ≠ []) :
    (attempt permissive txn pending (startAttempt calls.length pending b)).Yields
      (fun done w' => ComesPartly calls pending done w'.substrate.calls) w := by
  obtain ⟨unsent, hstart, hunsent, -⟩ := h.counts_startAttempt
  obtain ⟨refusal, rest, hrefusal⟩ := List.exists_cons_of_ne_nil hroutes
  rw [Yields, run_attempt_of_refusal hrefusal]
  change ComesPartly calls pending (.error refusal, _) w.substrate.calls
  rw [hcalls]
  refine .unrouted ⟨?_, h.earlier⟩ hunsent
  rw [List.take_length, toldOf_dropLast_append]
  exact hstart

omit [Substrate σ] in
/-- An attempt whose call is answered row by row counts the rows in order. -/
theorem comes_sorted_partly (permissive : Bool) (h : Midway calls pending b)
    (hrows : c.rows = pending.map BatchRow.mutation) {response : BatchResponse}
    (hanswer : c.answer = .ok response)
    (hcancel : ∀ x ∈ answered response pending, x.2.shouldCancel = false) {b₀ : BatchRun}
    (hstart : b₀.counts = tally (resent (calls ++ [c])) 0 (toldOf calls)) :
    (sortRows permissive (isMixed (answered response pending)) (answered response pending) b₀ :
      Program (WriteSide (Routed σ)) _).Answers
      fun done => ComesPartly calls pending done (calls ++ [c]) := by
  have hlength : c.rows.length = pending.length := by rw [hrows, List.length_map]
  refine (tallies_sortRows permissive _ hcancel hstart).mono ?_
  rintro ⟨e | pending', b'⟩ htallies
  · obtain ⟨n, hcounts⟩ := htallies
    rw [← told_of_answer hanswer hrows] at hcounts
    exact .ended (h.counted_concat hlength hcounts)
  · obtain ⟨rfl, hcounts⟩ := htallies
    rw [← told_of_answer hanswer hrows] at hcounts
    exact .goesOn (h.concat hlength hcounts (countP_isLeft hanswer hrows))

theorem comes_attempt_partly (permissive : Bool) (txn : TxnId) {w : WriteSide (Routed σ)}
    (hcalls : w.substrate.calls = calls) (h : Midway calls pending b) :
    (attempt permissive txn pending (startAttempt calls.length pending b)).Yields
      (fun done w' => ComesPartly calls pending done w'.substrate.calls) w := by
  by_cases hroutes : w.locator.refusals = []
  case neg => exact comes_unrouted_partly permissive txn hcalls h hroutes
  obtain ⟨unsent, hstart, -, hresent⟩ := h.counts_startAttempt
  have htries := tries_attempt permissive txn pending (startAttempt calls.length pending b) hroutes
  unfold Yields at htries ⊢
  obtain ⟨c, s, -, -, hrows, htries⟩ := htries
  generalize (attempt permissive txn pending (startAttempt calls.length pending b)).run w = ran
    at htries ⊢
  obtain ⟨done, w'⟩ := ran
  have hlength : c.rows.length = pending.length := by rw [hrows, List.length_map]
  rw [← hresent c hlength] at hstart
  have hmade : w'.substrate.calls = calls ++ [c] := by
    rw [← hcalls]
    exact congrArg Routed.calls htries.substrate
  have hnothing : toldOf calls ++ c.told.take 0 = toldOf calls := by
    rw [List.take_zero, List.append_nil]
  simp only [hmade] at htries ⊢
  cases htries with
  | failed hanswer hfinal =>
    exact .ended (n := 0) (h.counted_concat hlength (by rw [hnothing]; exact hstart))
  | postponed hanswer hretry =>
    have htold := told_of_error hanswer
    refine .goesOn (h.concat hlength ?_ ?_)
    · rw [(noteAll_recorder _ pending _).2, htold, List.append_nil]
      exact hstart
    · rw [RoutedCall.isMixed, htold]
      rfl
  | cancelled hanswer hfound =>
    exact .ended (n := 0) (h.counted_concat hlength (by rw [hnothing]; exact hstart))
  | sorted hanswer hcancel hsort hroute =>
    have hcomes := (comes_sorted_partly permissive h hrows hanswer hcancel hstart).run
      { w with substrate := (⟨s, w.substrate.calls ++ [c]⟩ : Routed σ) }
    rwa [hsort] at hcomes

/-- What a batch has left in the counters when its attempts are over. -/
inductive AttemptsPartly (calls : List RoutedCall) :
    Except Error (List BatchRow × Nat) × BatchRun → Prop
  | stopped {e : Error} {n unsent : Nat} {b : BatchRun} (hcounted : Counted calls n unsent b)
      (hunsent : unsent = 0 ∨ stranded calls n ≤ unsent) : AttemptsPartly calls (.error e, b)
  | finished {pending : List BatchRow} {made : Nat} {b : BatchRun} (hmidway : Midway calls pending b) :
    AttemptsPartly calls (.ok (pending, made), b)

/-- The rows that are stranded behind a call whose rows are all counted are those still pending. -/
theorem Midway.stranded_eq (h : Midway calls pending b) (hlast : calls.getLast? = some c) :
    stranded calls (lastTold calls).length = if c.isMixed then pending.length else 0 := by
  rw [stranded, List.take_length, lastTold, hlast]
  exact h.last c hlast

theorem Midway.stranded_le (h : Midway calls pending b) :
    stranded calls (lastTold calls).length ≤ pending.length := by
  cases hlast : calls.getLast? with
  | none => simp [stranded, lastTold, hlast]
  | some c =>
    rw [h.stranded_eq hlast]
    split_ifs
    · exact Nat.le_refl _
    · exact Nat.zero_le _

theorem partly_attempts (retry : RetryConfig) (permissive : Bool) (txn : TxnId) (left : Nat)
    {w : WriteSide (Routed σ)} (hcalls : w.substrate.calls = calls) (h : Midway calls pending b) :
    (attempts retry permissive txn left calls.length pending b).Yields
      (fun done w' => AttemptsPartly w'.substrate.calls done) w := by
  induction left generalizing calls pending b w with
  | zero =>
    subst hcalls
    exact .pure (.finished h)
  | succ left ih =>
    subst hcalls
    simp only [attempts]
    split_ifs with hempty
    · exact .pure (.finished h)
    have hunsent {unsent : Nat} (hrows : unsent = 0 ∧ w.substrate.calls = [] ∨
        unsent = pending.length) :
        unsent = 0 ∨ stranded w.substrate.calls (lastTold w.substrate.calls).length ≤ unsent := by
      rcases hrows with ⟨rfl, -⟩ | rfl
      · exact .inl rfl
      · exact .inr h.stranded_le
    refine yields_pause_bind ?_
    cases retry.drawnDelay? (w.random 0) w.substrate.calls.length with
    | none =>
      obtain ⟨unsent, hstart, hrows, -⟩ := h.counts_startAttempt
      have hcounted : Counted w.substrate.calls (lastTold w.substrate.calls).length unsent
          (startAttempt w.substrate.calls.length pending b) := by
        refine ⟨?_, h.earlier⟩
        rw [List.take_length, toldOf_dropLast_append]
        exact hstart
      exact .pure (.stopped hcounted (hunsent hrows))
    | some delay =>
      refine .seq (comes_attempt_partly (w := paused retry w.substrate.calls.length w) permissive txn
        rfl h) fun done w₁ hcomes => ?_
      generalize hmade : w₁.substrate.calls = made at hcomes
      cases hcomes with
      | unrouted hcounted hrows => exact .pure (hmade ▸ .stopped hcounted (hunsent hrows))
      | ended hcounted => exact .pure (hmade ▸ .stopped hcounted (.inl rfl))
      | @goesOn c pending' b' hmidway =>
        have hrest := ih hmade hmidway
        rwa [List.length_append, List.length_singleton] at hrest

end Attempts

/-! ## The whole batch -/

/-- How the partial counters of a batch that made these calls compare with the others. -/
structure PartialCounts (calls : List RoutedCall) (answer : Except Error BatchResult)
    (counts : WriteStats) (n unsent : Nat) : Prop where
  written : counts.partialRows ≤ counts.written
  ignored : counts.partialIgnored ≤ counts.ignored
  /-- Beside the rows sent again behind a call that wrote others, the stranded ones are counted. -/
  retried : counts.partialRetried = resumed calls + stranded calls n
  /-- All rows sent again are counted, and those of an attempt that made no call. -/
  resent : counts.retried = resumed calls + repeated calls + unsent
  /-- An attempt that makes no call ends the batch with an error, and no row is stranded that is not
  counted in front of it. -/
  unsent : unsent ≠ 0 → stranded calls n ≤ unsent ∧ ∃ e, answer = .error e
  /-- Behind the last attempt the stranded rows are the rows thrown, if the last call wrote others. -/
  thrown : (∃ r, answer = .ok r) ∨ counts.thrown ≠ 0 → ∀ c, calls.getLast? = some c →
    stranded calls n = if c.isMixed then counts.thrown else 0

section Batch

variable {σ : Type} [Substrate σ] {calls : List RoutedCall} {answer : Except Error BatchResult}
  {counts : WriteStats} {n unsent : Nat}

/-- The rows counted as sent again behind calls that wrote others are at most those counted as sent
again, unless more rows are stranded than were sent again behind other calls. -/
theorem PartialCounts.le_iff (h : PartialCounts calls answer counts n unsent) :
    counts.partialRetried ≤ counts.retried ↔ unsent ≠ 0 ∨ stranded calls n ≤ repeated calls := by
  have hretried := h.retried
  have hresent := h.resent
  rcases Nat.eq_zero_or_pos unsent with rfl | hpos
  · omega
  · have := (h.unsent (Nat.pos_iff_ne_zero.mp hpos)).1
    omega

/-- What a batch counts whose attempts were ended by an error. -/
theorem partialCounts_of_stopped {b : BatchRun} {e : Error} (h : Counted calls n unsent b)
    (hunsent : unsent = 0 ∨ stranded calls n ≤ unsent) :
    PartialCounts calls (.error e) b.counts n unsent := by
  obtain ⟨hwritten, hignored⟩ := tally_partial_le (resent calls + unsent) 0
    (toldOf calls.dropLast ++ (lastTold calls).take n)
  have hcounts := h.counts
  refine ⟨?_, ?_, ?_, ?_, fun hne => ⟨hunsent.resolve_left hne, e, rfl⟩, ?_⟩
  · rw [hcounts]
    exact hwritten
  · rw [hcounts]
    exact hignored
  · rw [hcounts, stranded, ← h.earlier]
    exact List.countP_append
  · rw [hcounts, resumed_add_repeated]
    rfl
  · rw [hcounts]
    rintro (⟨r, hr⟩ | hthrown)
    · cases hr
    · exact absurd rfl hthrown

/-- What a batch counts whose attempts are over. -/
theorem partialCounts_of_over {b : BatchRun} {pending : List BatchRow} (h : Midway calls pending b)
    (permissive : Bool) (made : Nat) (place : Place) :
    let done := conclude permissive pending made place b
    PartialCounts calls done.1 done.2.counts (lastTold calls).length 0 := by
  intro done
  obtain ⟨hcounts, -, -⟩ := conclude_counts permissive pending made place b
  have hstopped := partialCounts_of_stopped (e := .outOfRange) h.counted (.inl rfl)
  have hthrown : done.2.counts.thrown = pending.length := by
    have hzero : b.counts.thrown = 0 := by rw [h.counts]; rfl
    rw [hcounts, hzero]
    exact Nat.zero_add _
  refine ⟨?_, ?_, ?_, ?_, fun hne => absurd rfl hne, fun _ c hlast => ?_⟩
  · rw [hcounts]
    exact hstopped.written
  · rw [hcounts]
    exact hstopped.ignored
  · rw [hcounts]
    exact hstopped.retried
  · rw [hcounts]
    exact hstopped.resent
  · rw [hthrown]
    exact h.stranded_eq hlast

theorem partialCounts_run (p : Pipeline) (txn : TxnId) (rows : List Mutation) (w : WriteSide σ) :
    (p.run txn rows).Yields (fun done w' =>
      (∃ n unsent, PartialCounts w'.substrate.calls done.1 done.2.counts n unsent) ∧
        ∀ r, done.1 = .ok r → r.stats = done.2.counts) w.routed := by
  have hnone : w.routed.substrate.calls = [] := rfl
  unfold Pipeline.run
  refine .seq (partly_attempts p.retry _ txn p.retry.maxAttempts hnone
    (midway_start (batchRows rows) rfl)) fun done w₁ hattempts => ?_
  generalize hcalls : w₁.substrate.calls = calls at hattempts
  cases hattempts with
  | stopped hcounted hunsent =>
    exact .pure ⟨⟨_, _, hcalls ▸ partialCounts_of_stopped hcounted hunsent⟩, nofun⟩
  | @finished pending made b hmidway =>
    subst hcalls
    refine .atomically_bind (.pure ⟨⟨_, _, partialCounts_of_over hmidway _ _ _⟩, ?_⟩)
    · exact (conclude_counts p.options.isPermissive pending made w₁.directory.place b).2.2

/-- The partial counters of a batch, over any substrate, route and sink, however the batch ends. What
was written or refused in calls that wrote others is within what was written or refused. What was
left worth another attempt by such calls is not within what was sent again: beside the rows that were
sent again it takes in the stranded ones, and it exceeds what was sent again if more rows are stranded
than were sent again behind other calls. An answer out of range stands for a batch that does not
return. -/
theorem submit_partial_counts (p : Pipeline) {t : Transaction} (hactive : t.isActive = true)
    (hwrites : t.readOnly = false) (rows : List Mutation) (w : WriteSide σ) :
    let ran := (p.submit t rows).run w.routed
    let calls := ran.2.substrate.calls
    let counts := ((p.run t.id rows).run w).1.2.counts
    (p.submit t rows).run w = (ran.1, ran.2.seen Routed.inner) ∧
    (∀ r, ran.1.1 = .ok r → r.stats = counts) ∧
    (ran.1.1 ≠ .error .outOfRange → ran.1.2.stats = p.stats + counts) ∧
    ∃ n unsent, PartialCounts calls ran.1.1 counts n unsent ∧
      (counts.partialRetried ≤ counts.retried ↔
        unsent ≠ 0 ∨ stranded calls n ≤ repeated calls) := by
  intro ran calls counts
  have hpartial := partialCounts_run p t.id rows w
  have hran : ran = _ := run_submit p hactive hwrites rows w.routed
  have hcounts : counts = ((p.run t.id rows).run w.routed).1.2.counts :=
    congrArg (fun x => x.1.2.counts) (run_mirrors Routed.fronts p t.id rows w.routed)
  unfold Yields at hpartial
  obtain ⟨⟨⟨answer, b⟩, w'⟩, hrun⟩ : ∃ done, (p.run t.id rows).run w.routed = done := ⟨_, rfl⟩
  rw [hrun] at hpartial hran hcounts
  obtain ⟨⟨n, unsent, hpartial⟩, hstats⟩ := hpartial
  have hcalls : calls = w'.substrate.calls := congrArg (fun x => x.2.substrate.calls) hran
  rw [hcounts, hcalls, hran]
  refine ⟨?_, hstats, fun hreturns => ?_, n, unsent, hpartial, hpartial.le_iff⟩
  · rw [← hran]
    exact submit_mirrors Routed.fronts p t rows w.routed
  · cases answer with
    | error e => exact (p.absorb_error (fun he => hreturns (congrArg Except.error he)) b).1
    | ok r => rfl

/-- Of two rows one is written and the other, which meets a busy region in the only attempt, is
stranded: it is counted as sent again behind the call that wrote the first, and is thrown. -/
theorem submit_partial_counts_busyRow :
    let p : Pipeline := ⟨.noDelay 1, .strict, none, .zero, .succeeded⟩
    let t : Transaction := .new ⟨7⟩ false
    let rows : List Mutation := [.insert [1] [97], .insert [2] [98]]
    let w : WriteSide ScriptedSubstrate :=
      ⟨ScriptedSubstrate.empty.script [2] [.regionTooBusy none], .localDefault, .memory "bad/",
        fun _ => 0⟩
    let ran := (p.submit t rows).run w.routed
    let counts := ((p.run t.id rows).run w).1.2.counts
    t.isActive = true ∧ t.readOnly = false ∧ counts.thrown = 1 ∧ counts.retried = 0 ∧
      ∃ n, stranded ran.2.substrate.calls n = 1 ∧ counts.partialRetried = 1 := by
  intro p t rows w ran counts
  obtain ⟨-, -, -, n, unsent, hpartial, -⟩ := submit_partial_counts p (t := t) rfl rfl rows w
  let response : BatchResponse := ⟨none, [.success, .regionTooBusy none]⟩
  let c : RoutedCall := ⟨⟨w.locator.partition, w.locator.server, 0⟩, t.id, rows, .ok response⟩
  have hcalls : ran.2.substrate.calls = [c] := by rfl
  have hthrown : counts.thrown = 1 := by decide +kernel
  have hstranded : stranded ran.2.substrate.calls n = 1 := by
    refine (hpartial.thrown (.inr (by rw [hthrown]; decide)) c (by rw [hcalls]; rfl)).trans ?_
    rw [if_pos (by rfl), hthrown]
  have hretried := hpartial.retried
  rw [hstranded, hcalls] at hretried
  exact ⟨rfl, rfl, hthrown, by decide +kernel, n, hstranded, hretried⟩

/-- It is not true that the partial counters of a batch are within the others: a row can be counted
as sent again behind a call that wrote others, and none be counted as sent again. -/
theorem not_forall_partialRetried_le : ¬ ∀ (p : Pipeline) (t : Transaction) (rows : List Mutation)
    (w : WriteSide ScriptedSubstrate), t.isActive = true → t.readOnly = false →
      let counts := ((p.run t.id rows).run w).1.2.counts
      counts.partialRows ≤ counts.written ∧ counts.partialIgnored ≤ counts.ignored ∧
        counts.partialRetried ≤ counts.retried := by
  intro hall
  have hle := (hall ⟨.noDelay 1, .strict, none, .zero, .succeeded⟩ (.new ⟨7⟩ false)
    [.insert [1] [97], .insert [2] [98]]
    ⟨ScriptedSubstrate.empty.script [2] [.regionTooBusy none], .localDefault, .memory "bad/",
      fun _ => 0⟩
    rfl rfl).2.2
  revert hle
  decide +kernel

end Batch

end Pipeline

end TxnEngine
