import TxnEngine.Config
import TxnEngine.Record.Transition

/-!
# Renewals in time

A transaction is renewed at gaps no longer than the keep-alive interval. The clock and the timeout
are read in whole milliseconds, rounded down, while the configuration compares the interval and the
timeout to the nanosecond.

**Deviation.** A valid configuration does not keep a transaction alive if no whole number of
milliseconds lies between its interval and its timeout, as with 1.8 ms and 1.9 ms. A gap of the
interval can make the clock go on by more milliseconds than the timeout counts, and the renewal finds
the record expired.

Results:
* `millis_sub_le_iff`: when a gap of at most some length never exceeds a timeout on the clock.
* `renewals_applied_iff`: the valid configurations by which renewals in time keep a record alive.
* `not_forall_renewals_applied`: a valid configuration by which they do not.
-/

namespace TxnEngine

namespace Duration

/-- The instant that lies a gap behind another. -/
def later (instant gap : Duration) : Duration :=
  ⟨instant.nanos + gap.nanos⟩

theorem toNat_millis (d : Duration) :
    d.millis.toNat = min (d.nanos / 1000000) (UInt64.size - 1) := by
  unfold millis
  simp only
  split
  · next h =>
    rw [UInt64.toNat_ofNat_of_lt' h]
    omega
  · next h =>
    rw [UInt64.toNat_ofNat_of_lt' (by decide)]
    omega

theorem millis_le_later (instant gap : Duration) :
    instant.millis ≤ (instant.later gap).millis := by
  rw [UInt64.le_iff_toNat_le, toNat_millis, toNat_millis]
  have : instant.nanos / 1000000 ≤ (instant.later gap).nanos / 1000000 :=
    Nat.div_le_div_right (Nat.le_add_right _ _)
  omega

/-- Whether the clock never goes on by more than a timeout over a gap of at most `longest`. -/
def Covers (timeout longest : Duration) : Prop :=
  ∀ instant gap : Duration, gap ≤ longest →
    (instant.later gap).millis.toNat - instant.millis.toNat ≤ timeout.millis.toNat

/-- A timeout covers a gap iff a whole number of milliseconds lies between them, or it is as long as
the clock can read. -/
theorem covers_iff (timeout longest : Duration) :
    Covers timeout longest ↔
      (∃ ms, longest ≤ ofMillis ms ∧ ofMillis ms ≤ timeout) ∨
        ofMillis (UInt64.size - 1) ≤ timeout := by
  have hsize : UInt64.size = 18446744073709551616 := rfl
  have hcount (ms : Nat) (d : Duration) : ofMillis ms ≤ d ↔ ms * 1000000 ≤ d.nanos := Iff.rfl
  have hcount' (ms : Nat) (d : Duration) : d ≤ ofMillis ms ↔ d.nanos ≤ ms * 1000000 := Iff.rfl
  simp only [Covers, toNat_millis, hcount, hcount', hsize]
  constructor
  · intro hcovers
    rcases Nat.lt_or_ge (timeout.nanos / 1000000 * 1000000) longest.nanos with hlt | hge
    · -- From the last nanosecond of a millisecond on, the clock goes on by one more than the timeout.
      have hlast := hcovers ⟨999999⟩ longest (Nat.le_refl _)
      simp only [later] at hlast
      exact .inr (by omega)
    · exact .inl ⟨timeout.nanos / 1000000, hge, by omega⟩
  · rintro (⟨ms, hlongest, htimeout⟩ | hmax) instant gap hgap
    · have hgap : gap.nanos ≤ longest.nanos := hgap
      simp only [later]
      omega
    · omega

end Duration

namespace Record

/-- Every renewal of a record is applied that comes at the given gaps, the first one behind `instant`,
and the record is active at every instant between. -/
def StaysAlive (timeout : Millis) (instant : Duration) : List Duration → Record → Prop
  | [], r => r.state = .active
  | gap :: gaps, r =>
    (∀ sooner, sooner ≤ gap → r.status (instant.later sooner).millis timeout = .active) ∧
    ∃ r', r.apply (.keepAlive (instant.later gap).millis timeout) = .applied r' ∧
      StaysAlive timeout (instant.later gap) gaps r'

section Renewals

variable {timeout longest instant : Duration} {gaps : List Duration} {r : Record}

/-- An active record that was renewed at an instant expires when the clock has gone on by more than
the timeout. -/
theorem isExpired_later_iff (hactive : r.state = .active) (hlast : r.lastKeepAlive = instant.millis)
    (timeout gap : Duration) :
    r.isExpired (instant.later gap).millis timeout.millis = false ↔
      (instant.later gap).millis.toNat - instant.millis.toNat ≤ timeout.millis.toNat := by
  have hle := instant.millis_le_later gap
  have hidle : (r.idleTime (instant.later gap).millis).toNat =
      (instant.later gap).millis.toNat - instant.millis.toNat := by
    rw [idleTime, hlast, if_pos hle, UInt64.toNat_sub_of_le _ _ hle]
  simp [isExpired, hactive, UInt64.lt_iff_toNat_lt, hidle]

theorem staysAlive_of_covers (hcovers : timeout.Covers longest) (hactive : r.state = .active)
    (hlast : r.lastKeepAlive = instant.millis) (hgaps : ∀ gap ∈ gaps, gap ≤ longest) :
    r.StaysAlive timeout.millis instant gaps := by
  induction gaps generalizing r instant with
  | nil => exact hactive
  | cons gap gaps ih =>
    obtain ⟨hgap, hrest⟩ := List.forall_mem_cons.mp hgaps
    have hlive {sooner : Duration} (hsooner : sooner ≤ longest) :
        r.isExpired (instant.later sooner).millis timeout.millis = false :=
      (isExpired_later_iff hactive hlast timeout sooner).mpr (hcovers instant sooner hsooner)
    refine ⟨fun sooner hsooner => ?_,
      { r with lastKeepAlive := max r.lastKeepAlive (instant.later gap).millis }, ?_, ?_⟩
    · simp [status, hactive, hlive (Nat.le_trans hsooner hgap)]
    · simp [apply, hactive, hlive hgap]
    · refine ih hactive ?_ hrest
      rw [hlast]
      exact if_pos (instant.millis_le_later gap)

/-- One renewal that is applied shows that the timeout covers its gap. -/
theorem covers_of_staysAlive (hactive : r.state = .active) (hlast : r.lastKeepAlive = instant.millis)
    {gap : Duration} (halive : r.StaysAlive timeout.millis instant [gap]) :
    (instant.later gap).millis.toNat - instant.millis.toNat ≤ timeout.millis.toNat := by
  obtain ⟨-, r', happly, -⟩ := halive
  refine (isExpired_later_iff hactive hlast timeout gap).mp ?_
  cases hexpired : r.isExpired (instant.later gap).millis timeout.millis with
  | false => rfl
  | true => simp [apply, hactive, hexpired] at happly

end Renewals

end Record

namespace Config

theorem interval_lt_of_validate {c : Config} (hvalid : c.validate = .ok ()) :
    c.keepAliveInterval < c.transactionTimeout := by
  unfold validate at hvalid
  split at hvalid
  · cases hvalid
  · split at hvalid
    · cases hvalid
    · next hlt => exact Nat.lt_of_not_ge hlt

/-- By a valid configuration, every sequence of renewals at gaps of at most the interval keeps every
new record alive iff a whole number of milliseconds lies between the interval and the timeout, or the
timeout is as long as the clock can read. A number lies between if one of the two is a whole number
of milliseconds itself. -/
theorem renewals_applied_iff {c : Config} (hvalid : c.validate = .ok ()) :
    ((∀ (ts : Timestamp) (readOnly : Bool) (start : Duration) (gaps : List Duration),
      (∀ gap ∈ gaps, gap ≤ c.keepAliveInterval) →
        (Record.start ts start.millis readOnly).StaysAlive c.transactionTimeout.millis start gaps) ↔
      (∃ ms, c.keepAliveInterval ≤ .ofMillis ms ∧ .ofMillis ms ≤ c.transactionTimeout) ∨
        .ofMillis (UInt64.size - 1) ≤ c.transactionTimeout) ∧
    (1000000 ∣ c.keepAliveInterval.nanos ∨ 1000000 ∣ c.transactionTimeout.nanos →
      ∃ ms, c.keepAliveInterval ≤ .ofMillis ms ∧ .ofMillis ms ≤ c.transactionTimeout) := by
  rw [← Duration.covers_iff]
  refine ⟨⟨fun halive instant gap hgap => ?_, fun hcovers ts readOnly start gaps hgaps => ?_⟩, ?_⟩
  · exact Record.covers_of_staysAlive rfl rfl
      (halive ⟨0⟩ false instant [gap] (List.forall_mem_singleton.mpr hgap))
  · exact Record.staysAlive_of_covers hcovers rfl rfl hgaps
  · have hlt : c.keepAliveInterval.nanos < c.transactionTimeout.nanos := interval_lt_of_validate hvalid
    rintro (⟨ms, hms⟩ | ⟨ms, hms⟩)
    · refine ⟨ms, Nat.le_of_eq ?_, Nat.le_of_lt ?_⟩ <;> simp only [Duration.ofMillis] <;> omega
    · refine ⟨ms, Nat.le_of_lt ?_, Nat.le_of_eq ?_⟩ <;> simp only [Duration.ofMillis] <;> omega

/-- With the default interval and timeout, renewals in time keep every record alive. -/
theorem renewals_applied_default :
    default.validate = .ok () ∧
      ∀ (ts : Timestamp) (readOnly : Bool) (start : Duration) (gaps : List Duration),
        (∀ gap ∈ gaps, gap ≤ Duration.ofSeconds 15) →
          (Record.start ts start.millis readOnly).StaysAlive 60000 start gaps := by
  have hvalid : default.validate = .ok () := by rfl
  have hboth := renewals_applied_iff hvalid
  exact ⟨hvalid, hboth.1.mpr (.inl (hboth.2 (.inl ⟨15000, by rfl⟩)))⟩

/-- It is not true that a valid configuration keeps a transaction alive that is renewed in time: with
an interval of 1.8 ms and a timeout of 1.9 ms the clock can go on by 2 ms between two renewals. -/
theorem not_forall_renewals_applied : ¬ ∀ c : Config, c.validate = .ok () →
    ∀ (ts : Timestamp) (readOnly : Bool) (start : Duration) (gaps : List Duration),
      (∀ gap ∈ gaps, gap ≤ c.keepAliveInterval) →
        (Record.start ts start.millis readOnly).StaysAlive c.transactionTimeout.millis start
          gaps := by
  intro hall
  have hvalid : ({ Config.default with
      keepAliveInterval := ⟨1800000⟩, transactionTimeout := ⟨1900000⟩ } : Config).validate = .ok () := by
    rfl
  have halive := hall _ hvalid ⟨1⟩ false ⟨999999⟩ [⟨1800000⟩]
    (List.forall_mem_singleton.mpr (Nat.le_refl _))
  have hcovered := Record.covers_of_staysAlive rfl rfl halive
  revert hcovered
  decide +kernel

end Config

end TxnEngine
