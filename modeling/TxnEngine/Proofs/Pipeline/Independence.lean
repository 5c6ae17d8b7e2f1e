import TxnEngine.Proofs.Pipeline.Fates

/-!
# Rows do not influence each other

The rows of a batch share its calls, its attempts and its counts, and the batches of a pipeline share
its recorder and its substrate. Where every call is answered row by row and no report ends a batch,
none of this shows: what becomes of a row is what its own script says, and the statistics are the
sums over the rows. So it does not matter in which order rows are sent, nor in how many batches.

Rows that are sent again wait, and a delay can be out of range, although the retry policy was found
valid. The batch then does not return. With jitter this depends on the random numbers drawn.

Results:
* `submit_of_unhindered`: what one batch does.
* `run_submitAll`: what any number of batches do.
* `submitAll_independent`: neither the order of the rows nor their division into batches matters, as
  long as no batch stops out of range, and when that happens.
* `not_forall_submit_fate`: a valid policy with which rows do not meet the outcomes of their scripts.
-/

namespace TxnEngine

namespace Pipeline

open Program

/-- Carries one batch after the other. -/
def submitAll {σ : Type} [Substrate σ] (p : Pipeline) : List (Transaction × List Mutation) →
    Program (WriteSide σ) (List (Except Error BatchResult) × Pipeline)
  | [] => return ([], p)
  | (t, rows) :: rest => do
    let (answer, p) ← p.submit t rows
    let (answers, p) ← p.submitAll rest
    return (answer :: answers, p)

/-- What statistics gain by rows with the given scripts. -/
structure Tallied (limit : Nat) (scripts : List (List Outcome)) (before after : WriteStats) :
    Prop where
  written : after.written =
    before.written + scripts.countP fun script => (Script.fate limit script).isSuccess
  ignored : after.ignored =
    before.ignored + scripts.countP fun script => (Script.fate limit script).isTerminalReject
  thrown : after.thrown =
    before.thrown + scripts.countP fun script => (Script.fate limit script).canRetry
  retried : after.retried =
    before.retried + (scripts.map fun script => Script.tries limit script - 1).sum
  busy : after.regionTooBusy = before.regionTooBusy + (scripts.map (Script.busy limit)).sum

namespace Tallied

variable {limit : Nat} {scripts scripts' : List (List Outcome)} {s s₁ s₂ : WriteStats}

theorem refl (limit : Nat) (s : WriteStats) : Tallied limit [] s s :=
  ⟨rfl, rfl, rfl, rfl, rfl⟩

theorem trans (h₁ : Tallied limit scripts s s₁) (h₂ : Tallied limit scripts' s₁ s₂) :
    Tallied limit (scripts ++ scripts') s s₂ := by
  refine ⟨?_, ?_, ?_, ?_, ?_⟩
  · rw [h₂.written, h₁.written, List.countP_append, Nat.add_assoc]
  · rw [h₂.ignored, h₁.ignored, List.countP_append, Nat.add_assoc]
  · rw [h₂.thrown, h₁.thrown, List.countP_append, Nat.add_assoc]
  · rw [h₂.retried, h₁.retried, List.map_append, List.sum_append, Nat.add_assoc]
  · rw [h₂.busy, h₁.busy, List.map_append, List.sum_append, Nat.add_assoc]

theorem perm (h : Tallied limit scripts s s₁) (hperm : scripts'.Perm scripts) :
    Tallied limit scripts' s s₁ := by
  refine ⟨?_, ?_, ?_, ?_, ?_⟩
  · rw [h.written, hperm.countP_eq]
  · rw [h.ignored, hperm.countP_eq]
  · rw [h.thrown, hperm.countP_eq]
  · rw [h.retried, (hperm.map _).sum_nat]
  · rw [h.busy, (hperm.map _).sum_nat]

end Tallied

/-- Every batch was answered with the given outcomes of its rows. -/
def Told (outcome : Mutation → Outcome) (parts : List (Transaction × List Mutation))
    (answers : List (Except Error BatchResult)) : Prop :=
  List.Forall₂ (fun part answer => ∃ r, answer = .ok r ∧ r.outcomes = part.2.map outcome)
    parts answers

theorem Told.returns {outcome : Mutation → Outcome} {parts : List (Transaction × List Mutation)}
    {answers : List (Except Error BatchResult)} (h : Told outcome parts answers) :
    .error .outOfRange ∉ answers := by
  induction h with
  | nil => exact List.not_mem_nil
  | cons hanswer _ ih =>
    obtain ⟨r, rfl, -⟩ := hanswer
    exact fun hmem => (List.mem_cons.mp hmem).elim nofun ih

/-- A batch stops out of range: the delay in front of one of its attempts does. As many attempts are
made as the row needs that needs most, and every batch draws the random numbers that the batch before
it has left. -/
def Overwaits (retry : RetryConfig) (script : Mutation → List Outcome) :
    (random : Nat → Float) → List (Transaction × List Mutation) → Prop
  | _, [] => False
  | random, (_, rows) :: rest =>
    let rounds := Script.rounds retry.maxAttempts (rows.map script)
    (∃ k < rounds, ¬ retry.Fits random k) ∨
      Overwaits retry script (fun n => random (n + retry.draws rounds)) rest

/-- Without jitter a batch stops out of range exactly if the delay in front of an attempt at one of
the rows is out of range, however the rows are divided. -/
theorem overwaits_iff_of_steady {retry : RetryConfig} (hsteady : retry.addJitter = false)
    {script : Mutation → List Outcome} {random : Nat → Float}
    {parts : List (Transaction × List Mutation)} : Overwaits retry script random parts ↔
      ∃ row ∈ parts.flatMap Prod.snd, ∃ k < Script.tries retry.maxAttempts (script row),
        retry.delay? k = none := by
  induction parts generalizing random with
  | nil => simp [Overwaits]
  | cons part rest ih =>
    obtain ⟨t, rows⟩ := part
    have hone : (∃ k < Script.rounds retry.maxAttempts (rows.map script), ¬ retry.Fits random k) ↔
        ∃ row ∈ rows, ∃ k < Script.tries retry.maxAttempts (script row),
          retry.delay? k = none := by
      constructor
      · rintro ⟨k, hlt, hout⟩
        obtain ⟨_, hscript, hlt⟩ := Script.lt_rounds_iff.mp hlt
        obtain ⟨row, hrow, rfl⟩ := List.mem_map.mp hscript
        rw [RetryConfig.fits_iff_of_steady hsteady, not_not] at hout
        exact ⟨row, hrow, k, hlt, hout⟩
      · rintro ⟨row, hrow, k, hlt, hout⟩
        refine ⟨k, Script.lt_rounds_iff.mpr ⟨_, List.mem_map_of_mem hrow, hlt⟩, ?_⟩
        rw [RetryConfig.fits_iff_of_steady hsteady, not_not]
        exact hout
    rw [Overwaits, hone, ih]
    simp only [List.flatMap_cons, List.mem_append, or_and_right, exists_or]

variable {w : WriteSide ScriptedSubstrate} {extra : Nat} {script : Mutation → List Outcome}

/-- The statistics of a batch whose rows are treated by their own scripts. -/
theorem tallied_of_treats {limit : Nat} {rows : List Mutation} {b : BatchRun} {r : BatchResult}
    {w' : WriteSide ScriptedSubstrate}
    (hscript : ∀ row ∈ rows, w.substrate.scriptOf row.rowKey = script row)
    (htreats : Treats limit rows w b w') (hr : Concludes true rows.length (.ok r, b))
    (houtcomes : r.outcomes = b.outcomes) (s : WriteStats) :
    r.outcomes = rows.map (fun row => Script.fate limit (script row)) ∧
      Tallied limit (rows.map script) s (s + b.counts) := by
  obtain ⟨haccounts, hcounts, -⟩ := hr
  have hmap {α : Type} (f : List Outcome → α) :
      rows.map (fun row => f (w.substrate.scriptOf row.rowKey)) = (rows.map script).map f := by
    rw [List.map_map]
    exact List.map_congr_left fun row hrow => congrArg f (hscript row hrow)
  have houtcomes : r.outcomes = (rows.map script).map (Script.fate limit) := by
    rw [houtcomes, htreats.outcomes, hmap]
  have hcount (f : Outcome → Bool) : r.outcomes.countP f =
      (rows.map script).countP fun script => f (Script.fate limit script) := by
    rw [houtcomes, List.countP_map]
    rfl
  refine ⟨by rw [houtcomes, List.map_map]; rfl, ?_, ?_, ?_, ?_, ?_⟩
  · change s.written + b.counts.written = _
    rw [← hcounts, haccounts.counted, haccounts.written, hcount]
  · change s.ignored + b.counts.ignored = _
    rw [← hcounts, haccounts.ignored, hcount]
  · change s.thrown + b.counts.thrown = _
    rw [← hcounts, haccounts.thrown, hcount]
  · change s.retried + b.counts.retried = _
    rw [htreats.retried, hmap fun script => Script.tries limit script - 1]
  · change s.regionTooBusy + b.counts.regionTooBusy = _
    rw [htreats.busy, hmap]

/-- What one batch does to its rows and to the statistics. -/
theorem submit_of_unhindered {p : Pipeline} (hpermissive : p.options.isPermissive = true)
    (hattempts : 0 < p.retry.maxAttempts) {t : Transaction} (hactive : t.isActive = true)
    (hwrites : t.readOnly = false) {rows : List Mutation}
    (h : Unhindered p.recorder w (extra + rows.length))
    (hkeys : (rows.map Mutation.rowKey).Nodup)
    (hscript : ∀ row ∈ rows, w.substrate.scriptOf row.rowKey = script row)
    (hcancel : ∀ row ∈ rows, ∀ o ∈ script row, o.shouldCancel = false) :
    let rounds := Script.rounds p.retry.maxAttempts (rows.map script)
    ((∃ k < rounds, ¬ p.retry.Fits w.random k) ∧
      ((p.submit t rows).run w).1.1 = .error .outOfRange) ∨
    ((∀ k < rounds, p.retry.Fits w.random k) ∧
      ∃ r p' w', (p.submit t rows).run w = ((.ok r, p'), w') ∧
      r.outcomes = rows.map (fun row => Script.fate p.retry.maxAttempts (script row)) ∧
      Tallied p.retry.maxAttempts (rows.map script) p.stats p'.stats ∧
      (∀ row ∈ rows, w'.substrate.scriptOf row.rowKey =
        (script row).drop (Script.tries p.retry.maxAttempts (script row))) ∧
      (∀ key, key ∉ rows.map Mutation.rowKey →
        w'.substrate.scriptOf key = w.substrate.scriptOf key) ∧
      Drawn p.retry w.random rounds w' ∧
      Unhindered p'.recorder w' extra ∧ p'.retry = p.retry ∧ p'.options = p.options) := by
  intro rounds
  have hrun := run_of_unhindered hpermissive hattempts h hkeys
    (fun row hrow => by rw [hscript row hrow]; exact hcancel row hrow) t.id
  have haccounts := (accounts_run p t.id rows).run w
  have hscripts : rows.map (fun row => w.substrate.scriptOf row.rowKey) = rows.map script :=
    List.map_congr_left hscript
  rw [hscripts] at hrun
  rw [run_submit p hactive hwrites]
  rcases hrun with ⟨hwaits, hstop⟩ | ⟨hfits, r, b, w', hgo, houtcomes, htreats, hdrawn, hleft⟩
  · exact .inl ⟨hwaits, hstop⟩
  · rw [hgo, hpermissive] at haccounts
    obtain ⟨htold, htallied⟩ := tallied_of_treats hscript htreats haccounts houtcomes p.stats
    rw [hgo]
    refine .inr ⟨hfits, r, _, w', rfl, htold, htallied, fun row hrow => ?_, htreats.others, hdrawn,
      hleft, rfl, rfl⟩
    rw [htreats.consumed row hrow, hscript row hrow]

theorem run_submitAll_cons {σ : Type} [Substrate σ] (p : Pipeline) (t : Transaction)
    (rows : List Mutation) (rest : List (Transaction × List Mutation))
    {answer : Except Error BatchResult} {p' : Pipeline} {w w' : WriteSide σ}
    (hrun : (p.submit t rows).run w = ((answer, p'), w')) :
    (p.submitAll ((t, rows) :: rest)).run w =
      ((answer :: ((p'.submitAll rest).run w').1.1, ((p'.submitAll rest).run w').1.2),
        ((p'.submitAll rest).run w').2) := by
  rw [submitAll, run_bind, hrun, run_bind]
  rfl

/-- What batches do to their rows and to the statistics, one after the other. -/
theorem run_submitAll {parts : List (Transaction × List Mutation)} {p : Pipeline}
    (hpermissive : p.options.isPermissive = true) (hattempts : 0 < p.retry.maxAttempts)
    (hwrites : ∀ part ∈ parts, part.1.isActive = true ∧ part.1.readOnly = false)
    (h : Unhindered p.recorder w (parts.flatMap Prod.snd).length)
    (hkeys : ((parts.flatMap Prod.snd).map Mutation.rowKey).Nodup)
    (hscript : ∀ row ∈ parts.flatMap Prod.snd, w.substrate.scriptOf row.rowKey = script row)
    (hcancel : ∀ row ∈ parts.flatMap Prod.snd, ∀ o ∈ script row, o.shouldCancel = false) :
    (Overwaits p.retry script w.random parts ∧ .error .outOfRange ∈ ((p.submitAll parts).run w).1.1) ∨
    (¬ Overwaits p.retry script w.random parts ∧
      Told (fun row => Script.fate p.retry.maxAttempts (script row)) parts
        ((p.submitAll parts).run w).1.1 ∧
      Tallied p.retry.maxAttempts ((parts.flatMap Prod.snd).map script) p.stats
        ((p.submitAll parts).run w).1.2.stats ∧
      (∀ row ∈ parts.flatMap Prod.snd,
        ((p.submitAll parts).run w).2.substrate.scriptOf row.rowKey =
          (script row).drop (Script.tries p.retry.maxAttempts (script row))) ∧
      ∀ key, key ∉ (parts.flatMap Prod.snd).map Mutation.rowKey →
        ((p.submitAll parts).run w).2.substrate.scriptOf key = w.substrate.scriptOf key) := by
  induction parts generalizing p w with
  | nil => exact .inr ⟨id, .nil, Tallied.refl _ _, nofun, fun _ _ => rfl⟩
  | cons part rest ih =>
    obtain ⟨t, rows⟩ := part
    obtain ⟨hnow, hlater⟩ := List.forall_mem_cons.mp hwrites
    rw [List.flatMap_cons] at h hkeys hscript hcancel ⊢
    rw [List.length_append, Nat.add_comm] at h
    rw [List.map_append, List.nodup_append] at hkeys
    obtain ⟨hkeys, hkeys', hapart⟩ := hkeys
    have hstep := submit_of_unhindered hpermissive hattempts hnow.1 hnow.2 h hkeys
      (fun row hrow => hscript row (List.mem_append_left _ hrow))
      (fun row hrow => hcancel row (List.mem_append_left _ hrow))
    rcases hstep with ⟨hwaits, hstop⟩ | ⟨hfits, r, p', w', hrun, houtcomes, htallied, hconsumed,
      hothers, hdrawn, hleft, hretry, hoptions⟩
    · refine .inl ⟨.inl hwaits, ?_⟩
      rw [run_submitAll_cons p t rows rest rfl, hstop]
      exact List.mem_cons_self
    have hafter := ih (hoptions ▸ hpermissive) (hretry ▸ hattempts) hlater hleft hkeys'
      (fun row hrow => ?_) (fun row hrow => hcancel row (List.mem_append_right _ hrow))
    · rw [run_submitAll_cons p t rows rest hrun]
      rw [hretry, hdrawn] at hafter
      rcases hafter with ⟨hwaits, hstop⟩ | ⟨hfits', htold, htallied', hconsumed', hothers'⟩
      · exact .inl ⟨.inr hwaits, List.mem_cons_of_mem _ hstop⟩
      · refine .inr ⟨?_, .cons ⟨r, rfl, houtcomes⟩ htold, ?_, fun row hrow => ?_, fun key hkey => ?_⟩
        · rintro (⟨k, hlt, hout⟩ | hwaits)
          · exact hout (hfits k hlt)
          · exact hfits' hwaits
        · rw [List.map_append]
          exact htallied.trans htallied'
        · rcases List.mem_append.mp hrow with hrow | hrow
          · rw [hothers' _ fun hmem => hapart _ (List.mem_map_of_mem hrow) _ hmem rfl]
            exact hconsumed row hrow
          · exact hconsumed' row hrow
        · rw [List.map_append, List.mem_append, not_or] at hkey
          rw [hothers' key hkey.2, hothers key hkey.1]
    · rw [hothers _ fun hmem => hapart _ hmem _ (List.mem_map_of_mem hrow) rfl]
      exact hscript row (List.mem_append_right _ hrow)

theorem stops_iff_of_run {waits : Prop} {answers : List (Except Error BatchResult)}
    {outcome : Mutation → Outcome} {parts : List (Transaction × List Mutation)} {rest : Prop}
    (h : waits ∧ .error .outOfRange ∈ answers ∨ ¬ waits ∧ Told outcome parts answers ∧ rest) :
    .error .outOfRange ∈ answers ↔ waits := by
  rcases h with ⟨hwaits, hstop⟩ | ⟨hfits, htold, -⟩
  · exact iff_of_true hstop hwaits
  · exact iff_of_false htold.returns hfits

/-- Rows with different keys do not influence each other. However they are divided into batches, a
row's last outcome, the part of its script that is used up and what it adds to the statistics depend
on its own script only. So the same rows in another order, or in other batches, are told the same
outcomes and gain the statistics the same, as long as no batch stops out of range.

A batch stops out of range exactly if the delay in front of one of its attempts is out of range. A
delay short of the limit can be beyond it with jitter, by the random number that is drawn. Without
jitter the delays of the attempts at each row decide, however the rows are divided. -/
theorem submitAll_independent {p : Pipeline} (hpermissive : p.options.isPermissive = true)
    (hattempts : 0 < p.retry.maxAttempts) {parts : List (Transaction × List Mutation)}
    (hwrites : ∀ part ∈ parts, part.1.isActive = true ∧ part.1.readOnly = false)
    (h : Unhindered p.recorder w (parts.flatMap Prod.snd).length)
    (hkeys : ((parts.flatMap Prod.snd).map Mutation.rowKey).Nodup)
    (hcancel : ∀ row ∈ parts.flatMap Prod.snd, ∀ o ∈ w.substrate.scriptOf row.rowKey,
      o.shouldCancel = false) :
    let limit := p.retry.maxAttempts
    let script := fun row : Mutation => w.substrate.scriptOf row.rowKey
    let fate := fun row : Mutation => Script.fate limit (script row)
    let rows := parts.flatMap Prod.snd
    let ran := (p.submitAll parts).run w
    (.error .outOfRange ∈ ran.1.1 ↔ Overwaits p.retry script w.random parts) ∧
    (p.retry.addJitter = false → (.error .outOfRange ∈ ran.1.1 ↔
      ∃ row ∈ rows, ∃ k < Script.tries limit (script row), p.retry.delay? k = none)) ∧
    (.error .outOfRange ∉ ran.1.1 →
      Told fate parts ran.1.1 ∧ Tallied limit (rows.map script) p.stats ran.1.2.stats ∧
      ∀ row ∈ rows, ran.2.substrate.scriptOf row.rowKey =
        (script row).drop (Script.tries limit (script row))) ∧
    ∀ parts', (parts'.flatMap Prod.snd).Perm rows →
      (∀ part ∈ parts', part.1.isActive = true ∧ part.1.readOnly = false) →
      let ran' := (p.submitAll parts').run w
      (p.retry.addJitter = false → (.error .outOfRange ∈ ran'.1.1 ↔ .error .outOfRange ∈ ran.1.1)) ∧
      (.error .outOfRange ∉ ran.1.1 → .error .outOfRange ∉ ran'.1.1 →
        Told fate parts' ran'.1.1 ∧
        ran'.1.2.stats.written = ran.1.2.stats.written ∧
        ran'.1.2.stats.ignored = ran.1.2.stats.ignored ∧
        ran'.1.2.stats.thrown = ran.1.2.stats.thrown ∧
        ran'.1.2.stats.retried = ran.1.2.stats.retried ∧
        ran'.1.2.stats.regionTooBusy = ran.1.2.stats.regionTooBusy) := by
  intro limit script fate rows ran
  have hran := run_submitAll hpermissive hattempts hwrites h hkeys (fun _ _ => rfl) hcancel
  have hstops := stops_iff_of_run hran
  refine ⟨hstops, fun hsteady => hstops.trans (overwaits_iff_of_steady hsteady), fun hreturns => ?_,
    fun parts' hperm hwrites' => ?_⟩
  · obtain ⟨-, htold, htallied, hconsumed, -⟩ := hran.resolve_left fun hstop => hreturns hstop.2
    exact ⟨htold, htallied, hconsumed⟩
  · have hran' := run_submitAll hpermissive hattempts hwrites' (hperm.length_eq ▸ h)
      ((hperm.map _).nodup_iff.mpr hkeys) (fun _ _ => rfl)
      fun row hrow => hcancel row (hperm.mem_iff.mp hrow)
    refine ⟨fun hsteady => ?_, fun hreturns hreturns' => ?_⟩
    · rw [hstops, stops_iff_of_run hran', overwaits_iff_of_steady hsteady,
        overwaits_iff_of_steady hsteady]
      simp only [hperm.mem_iff]
      rfl
    · obtain ⟨-, -, htallied, -⟩ := hran.resolve_left fun hstop => hreturns hstop.2
      obtain ⟨-, htold', htallied', -⟩ := hran'.resolve_left fun hstop => hreturns' hstop.2
      have hagain := htallied.perm (hperm.map script)
      exact ⟨htold', htallied'.written.trans hagain.written.symm,
        htallied'.ignored.trans hagain.ignored.symm, htallied'.thrown.trans hagain.thrown.symm,
        htallied'.retried.trans hagain.retried.symm, htallied'.busy.trans hagain.busy.symm⟩

/-- Three rows in two batches, with three attempts each: one is written at once, one meets a busy
region and is then refused for good, and one meets a busy region every time. -/
theorem submitAll_independent_two_batches :
    let r : Recorder := ⟨"rows.bad", "rows.bad", -1, 0, none, false⟩
    let p : Pipeline := ⟨.noDelay 3, .permissive "rows.csv" (-1), some r, .zero, .succeeded⟩
    let t : Transaction := .new ⟨7⟩ false
    let parts : List (Transaction × List Mutation) :=
      [(t, [.insert [1] [97], .insert [2] [98]]), (t, [.insert [3] [99]])]
    let w : WriteSide ScriptedSubstrate :=
      ⟨(ScriptedSubstrate.empty.script [2] [.regionTooBusy none, .indexNotSetup none]).script [3]
          (List.replicate 3 (.regionTooBusy none)),
        .localDefault, .memory "bad/", fun _ => 0⟩
    ∃ ran, (p.submitAll parts).run w = ran ∧ .error .outOfRange ∉ ran.1.1 ∧
      Told (fun row => Script.fate 3 (w.substrate.scriptOf row.rowKey)) parts ran.1.1 ∧
      (ran.1.2.stats.written, ran.1.2.stats.ignored, ran.1.2.stats.thrown, ran.1.2.stats.retried,
        ran.1.2.stats.regionTooBusy) = (1, 1, 1, 3, 4) := by
  intro r p t parts w
  have hready : Unhindered p.recorder w 3 := by
    refine ⟨⟨r, none, rfl, by decide, ⟨rfl, ?_, rfl, rfl, fun _ _ => rfl, nofun⟩, by decide⟩, rfl,
      rfl, rfl, rfl⟩
    simp [r, Directory.isName]
  have hwrites : ∀ part ∈ parts, part.1.isActive = true ∧ part.1.readOnly = false := by decide
  have hrows := submitAll_independent (p := p) (w := w) rfl (by decide) hwrites hready (by decide)
    (by decide)
  generalize (p.submitAll parts).run w = ran at hrows ⊢
  obtain ⟨-, hstops, hgoes, -⟩ := hrows
  have hdelays : ∀ k < 3, p.retry.delay? k ≠ none := by decide +kernel
  have hreturns : .error .outOfRange ∉ ran.1.1 := by
    intro hstop
    obtain ⟨row, -, k, hlt, hout⟩ := (hstops rfl).mp hstop
    exact hdelays k (Nat.lt_of_lt_of_le hlt (Script.tries_le _ _)) hout
  obtain ⟨htold, htallied, -⟩ := hgoes hreturns
  refine ⟨ran, rfl, hreturns, htold, ?_⟩
  rw [htallied.written, htallied.ignored, htallied.thrown, htallied.retried, htallied.busy]
  decide

/-- The longest duration. -/
def longestDelay : Duration := ⟨Duration.secondsLimit * Duration.nanosPerSecond - 1⟩

/-- A valid policy whose delays are all out of range, since the longest duration is rounded up to the
limit in floating point. -/
def longestRetry : RetryConfig := ⟨3, longestDelay, longestDelay, 1.0, false⟩

/-- Rows with different keys that no report, call or route hinders do not always meet the last
outcomes of their scripts, although the policy was found valid: a row that meets a busy region is
not sent again, and its batch does not return. -/
theorem not_forall_submit_fate : ¬ ∀ (p : Pipeline) (t : Transaction) (rows : List Mutation)
    (w : WriteSide ScriptedSubstrate), p.retry.validate = .ok () → p.options.isPermissive = true →
      t.isActive = true → t.readOnly = false → Unhindered p.recorder w rows.length →
      (rows.map Mutation.rowKey).Nodup →
      (∀ row ∈ rows, ∀ o ∈ w.substrate.scriptOf row.rowKey, o.shouldCancel = false) →
      ∃ r, ((p.submit t rows).run w).1.1 = .ok r ∧ r.outcomes = rows.map fun row =>
        Script.fate p.retry.maxAttempts (w.substrate.scriptOf row.rowKey) := by
  intro hall
  let r : Recorder := ⟨"rows.bad", "rows.bad", -1, 0, none, false⟩
  let p : Pipeline := ⟨longestRetry, .permissive "rows.csv" (-1), some r, .zero, .succeeded⟩
  let w : WriteSide ScriptedSubstrate :=
    ⟨ScriptedSubstrate.empty.script [1] [.regionTooBusy none], .localDefault, .memory "bad/",
      fun _ => 0⟩
  have hready : Unhindered p.recorder w 1 := by
    refine ⟨⟨r, none, rfl, by decide, ⟨rfl, ?_, rfl, rfl, fun _ _ => rfl, nofun⟩, by decide⟩, rfl,
      rfl, rfl, rfl⟩
    simp [r, Directory.isName]
  obtain ⟨result, hresult, -⟩ := hall p (.new ⟨7⟩ false) [.insert [1] [97]] w (by decide +kernel) rfl
    rfl rfl hready (by decide) (by decide)
  have hstop : ((p.submit (.new ⟨7⟩ false) [.insert [1] [97]]).run w).1.1 =
      .error .outOfRange := by decide +kernel
  cases hstop.symm.trans hresult

end Pipeline

end TxnEngine
