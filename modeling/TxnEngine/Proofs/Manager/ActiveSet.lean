import TxnEngine.Proofs.Manager.Correspondence

/-!
# Which transactions are active

An id becomes active when its transaction begins or is given a record, and is taken out when the owner
ends the transaction, or when a settlement finds its record expired. A renewal that finds a record
expired rolls it back too, but does not take the id out: it stays active until the owner comes back to
end its transaction.

Results:
* `oldestActive_eq_some_iff`: the oldest active id is the smallest one.
* `tracks_of_effect`: every request keeps the active ids up to date but a renewal.
* `active_exact`: the ids that are active behind any run.
* `not_forall_active_unfinished`: an id can be active whose record is finished.
-/

namespace TxnEngine

namespace Manager

theorem oldestActive_congr {m m' : Manager} (h : m.active = m'.active) :
    m.oldestActive = m'.oldestActive := by
  rw [oldestActive, h, oldestActive]

/-- Of the first two active ids only the smaller one matters. -/
theorem oldestActive_cons_cons (m : Manager) (id id' : TxnId) (ids : List TxnId) :
    ({ m with active := id :: id' :: ids } : Manager).oldestActive =
      ({ m with active := (if id' < id then id' else id) :: ids } : Manager).oldestActive := rfl

/-- The oldest active id is the smallest one. -/
theorem oldestActive_eq_some_iff {m : Manager} {w : TxnId} :
    m.oldestActive = some w ↔ w ∈ m.active ∧ ∀ id ∈ m.active, w ≤ id := by
  have hleast (ids : List TxnId) (best : TxnId) :
      ({ m with active := best :: ids } : Manager).oldestActive = some w ↔
        w ∈ best :: ids ∧ ∀ id ∈ best :: ids, w ≤ id := by
    induction ids generalizing best with
    | nil =>
      change some best = some w ↔ _
      simp only [Option.some.injEq, List.mem_singleton, forall_eq]
      exact ⟨fun h => ⟨h.symm, h ▸ UInt64.le_refl _⟩, fun h => h.1.symm⟩
    | cons id ids ih =>
      rw [oldestActive_cons_cons, ih]
      simp only [List.mem_cons, forall_eq_or_imp]
      split_ifs with hlt
      · -- the smaller one of the two stays
        constructor
        · rintro ⟨hw, hle, hrest⟩
          exact ⟨.inr hw, UInt64.le_trans hle (UInt64.le_of_lt hlt), hle, hrest⟩
        · rintro ⟨hw, hbest, hle, hrest⟩
          refine ⟨hw.resolve_left fun heq => ?_, hle, hrest⟩
          rw [heq] at hle
          exact absurd hlt (UInt64.not_lt.mpr hle)
      · have hle' : best ≤ id := UInt64.not_lt.mp hlt
        constructor
        · rintro ⟨hw, hle, hrest⟩
          exact ⟨hw.imp_right .inr, hle, UInt64.le_trans hle hle', hrest⟩
        · rintro ⟨hw, hle, hid, hrest⟩
          refine ⟨?_, hle, hrest⟩
          rcases hw with hw | rfl | hw
          · exact .inl hw
          · exact .inl (congrArg TxnId.mk (UInt64.le_antisymm hle hle'))
          · exact .inr hw
  cases hids : m.active with
  | nil => simp [oldestActive, hids]
  | cons best ids =>
    have hsame : m.oldestActive = ({ m with active := best :: ids } : Manager).oldestActive :=
      oldestActive_congr hids
    rw [hsame]
    exact hleast ids best

/-- While a transaction is active, there is an oldest one. -/
theorem exists_oldestActive {m : Manager} {id : TxnId} (h : id ∈ m.active) :
    ∃ w, m.oldestActive = some w := by
  have hsome (ids : List TxnId) (best : TxnId) :
      ∃ w, ({ m with active := best :: ids } : Manager).oldestActive = some w := by
    induction ids generalizing best with
    | nil => exact ⟨best, rfl⟩
    | cons id ids ih =>
      rw [oldestActive_cons_cons]
      exact ih _
  cases hids : m.active with
  | nil =>
    rw [hids] at h
    cases h
  | cons best ids =>
    have hsame : m.oldestActive = ({ m with active := best :: ids } : Manager).oldestActive :=
      oldestActive_congr hids
    rw [hsame]
    exact hsome ids best

namespace Session

/-- The transaction still counts as active: its owner takes it to be, and it has no record, or one
that is live, or one that was rolled back while nobody took its id out. -/
def Counts (l : Log) (stuck : Prop) (t : Transaction) : Prop :=
  t.phase = .active ∧ (t.isPersisted = false ∨
    ∃ r, l.get? t.id = some r ∧ (r.state = .active ∨ r.state = .rolledBack ∧ stuck))

/-- What holds of the ids that are active: they are those of the transactions that count. -/
structure Tracks (s : Session) (stuck : TxnId → Prop) : Prop where
  nodup : s.manager.active.Nodup
  held : ∀ id ∈ s.manager.active, id ∈ s.held.map Transaction.id
  counts : ∀ t ∈ s.held, t.id ∈ s.manager.active ↔ Counts s.manager.log (stuck t.id) t

theorem counts_iff_of_record {l : Log} {stuck : Prop} {t : Transaction} {r : Record}
    (hr : l.get? t.id = some r) (hpersisted : t.isPersisted = true) :
    Counts l stuck t ↔
      t.phase = .active ∧ (r.state = .active ∨ r.state = .rolledBack ∧ stuck) := by
  simp [Counts, hr, hpersisted]

/-- A renewal changes nothing about whether the transaction counts, if it is stuck when it has
expired. -/
theorem counts_renewed {l l' : Log} {stuck stuck' : Prop} {t : Transaction} {r : Record}
    {now timeout : Millis} (hpersisted : t.isPersisted = true) (hr : l.get? t.id = some r)
    (hr' : l'.get? t.id = some (r.apply (.keepAlive now timeout)).record)
    (hstuck : r.isFinished = true → (stuck' ↔ stuck))
    (hexpires : r.isExpired now timeout = true →
      l'.get? t.id = some { r with state := .rolledBack } → stuck') :
    Counts l stuck t ↔ Counts l' stuck' t := by
  rw [counts_iff_of_record hr hpersisted, counts_iff_of_record hr' hpersisted]
  refine and_congr_right fun _ => ?_
  rcases r.record_keepAlive_cases now timeout with ⟨hf, hsame⟩ | ⟨he, hback⟩ | ⟨hs, hlives⟩
  · rw [hsame, hstuck hf]
  · rw [hback] at hr' ⊢
    exact iff_of_true (.inl (Record.state_of_isExpired he)) (.inr ⟨rfl, hexpires he hr'⟩)
  · rw [hlives]
    exact iff_of_true (.inl hs) (.inl hs)

theorem not_counts {l : Log} {stuck : Prop} {t : Transaction} (h : t.phase ≠ .active) :
    ¬Counts l stuck t :=
  fun hcounts => h hcounts.1

section Steps

variable {s : Session} {stuck stuck' : TxnId → Prop} (hs : s.Tracks stuck)
  (hstuck : ∀ id r, s.manager.log.get? id = some r → r.isFinished = true → (stuck' id ↔ stuck id))

include hs hstuck

/-- A transaction goes on to count, or not to count, as long as neither its record nor its id is
touched. -/
theorem Tracks.carried {m : Manager} {t : Transaction} (ht : t ∈ s.held)
    (hactive : t.id ∈ m.active ↔ t.id ∈ s.manager.active)
    (hsame : m.log.get? t.id = s.manager.log.get? t.id) :
    t.id ∈ m.active ↔ Counts m.log (stuck' t.id) t := by
  rw [hactive, hs.counts t ht]
  refine and_congr_right fun _ => or_congr_right (exists_congr fun r => ?_)
  rw [hsame]
  refine and_congr_right fun hr => or_congr_right (and_congr_right fun hstate => ?_)
  exact (hstuck t.id r hr (by rw [Record.isFinished, hstate]; rfl)).symm

/-- Nothing changes. -/
theorem Tracks.unmoved {m : Manager} (h : Unmoved s.manager m) : Tracks ⟨m, s.held⟩ stuck' := by
  refine ⟨h.active ▸ hs.nodup, h.active ▸ hs.held, fun t ht => ?_⟩
  exact hs.carried hstuck ht (by rw [h.active]) (h.same t.id)

/-- A transaction begins. -/
theorem Tracks.concat {m : Manager} {t : Transaction} (henters : Enters t.id s.manager m)
    (hnew : ∀ u ∈ s.held, u.id ≠ t.id)
    (hcounts : Counts m.log (stuck' t.id) t)
    (hothers : ∀ id, id ≠ t.id → m.log.get? id = s.manager.log.get? id) :
    Tracks ⟨m, s.held ++ [t]⟩ stuck' := by
  refine ⟨henters.nodup hs.nodup, fun id hid => ?_, fun u hu => ?_⟩
  · rw [List.map_append, List.mem_append]
    rcases henters.mem_iff.mp hid with rfl | hid
    · exact .inr (by simp)
    · exact .inl (hs.held id hid)
  · rcases List.mem_append.mp hu with hu | hu
    · refine hs.carried hstuck hu ?_ (hothers u.id (hnew u hu))
      rw [henters.mem_iff, or_iff_right (hnew u hu)]
    · obtain rfl := List.mem_singleton.mp hu
      exact iff_of_true (henters.mem_iff.mpr (.inl rfl)) hcounts

/-- A transaction comes back to its owner, and counts as long as its id is active. -/
theorem Tracks.set (hdistinct : s.Distinct) {m : Manager} {k : Nat} {t t' : Transaction}
    (ht : s.held[k]? = some t) (hid : t'.id = t.id) (hnodup : m.active.Nodup)
    (hactive : ∀ id, id ≠ t.id → (id ∈ m.active ↔ id ∈ s.manager.active))
    (hback : t.id ∈ m.active ↔ Counts m.log (stuck' t'.id) t')
    (hothers : ∀ id, id ≠ t.id → m.log.get? id = s.manager.log.get? id) :
    Tracks ⟨m, s.held.set k t'⟩ stuck' := by
  refine ⟨hnodup, fun id hmem => ?_, fun u hu => ?_⟩
  · rw [map_id_set ht hid]
    by_cases hsame : id = t.id
    · rw [hsame]
      exact List.mem_map_of_mem (List.mem_of_getElem? ht)
    · exact hs.held id ((hactive id hsame).mp hmem)
  · obtain ⟨i, hi⟩ := List.mem_iff_getElem?.mp hu
    rcases getElem?_set_cases hi with ⟨rfl, rfl⟩ | ⟨hik, hi⟩
    · rw [hid] at hback ⊢
      exact hback
    · have hne : u.id ≠ t.id := fun hsame => hik (hdistinct.index_eq hi ht hsame)
      exact hs.carried hstuck (List.mem_of_getElem? hi) (hactive u.id hne) (hothers u.id hne)

/-- A transaction comes back to its owner that has ended, and its id is taken out. -/
theorem Tracks.left (hdistinct : s.Distinct) {m : Manager} {k : Nat} {t t' : Transaction}
    (ht : s.held[k]? = some t) (hid : t'.id = t.id) (hphase : t'.phase ≠ .active)
    (hleaves : Leaves t.id s.manager m)
    (hothers : ∀ id, id ≠ t.id → m.log.get? id = s.manager.log.get? id) :
    Tracks ⟨m, s.held.set k t'⟩ stuck' := by
  refine hs.set hstuck hdistinct ht hid (hleaves.nodup hs.nodup) (fun id hne => ?_) ?_ hothers
  · rw [hleaves.mem_iff, and_iff_right hne]
  · exact iff_of_false (fun h => (hleaves.mem_iff.mp h).1 rfl) (not_counts hphase)

/-- The record of a transaction changes behind its owner's back. -/
theorem Tracks.overtaken {m : Manager} {r : Record} (hputs : s.manager.log.Puts r m.log)
    (hnodup : m.active.Nodup) (hactive : ∀ id ∈ m.active, id ∈ s.manager.active)
    (hothers : ∀ id, id ≠ r.id → (id ∈ m.active ↔ id ∈ s.manager.active))
    (hr : ∀ t ∈ s.held, t.id = r.id → (t.id ∈ m.active ↔ Counts m.log (stuck' t.id) t)) :
    Tracks ⟨m, s.held⟩ stuck' := by
  refine ⟨hnodup, fun id hid => hs.held id (hactive id hid), fun t ht => ?_⟩
  by_cases hid : t.id = r.id
  · exact hr t ht hid
  · exact hs.carried hstuck ht (hothers t.id hid) (hputs.get?_of_ne hid)

end Steps

/-- Every request keeps the active ids up to date but a renewal. -/
theorem tracks_of_effect {s s' : Session} {request : Request} {stuck stuck' : TxnId → Prop}
    (hs : s.Tracks stuck) (howned : s.Owned) (hv : Log.Valid s.manager.log.records)
    (h : Effect s request s')
    (hstuck : ∀ id r, s.manager.log.get? id = some r → r.isFinished = true →
      (stuck' id ↔ stuck id))
    (hrenews : ∀ id r, request.Renews id → s.manager.log.get? id = some r →
      r.isExpired s.manager.clock.now s.manager.timeout = true →
      s'.manager.log.get? id = some { r with state := .rolledBack } → stuck' id)
    (hsettles : ∀ id r, request = .settle id → s.manager.log.get? id = some r →
      r.state = .active → ¬stuck' id) : s'.Tracks stuck' := by
  have hnew (u : Transaction) (hu : u ∈ s.held) : u.id ≠ .ofBegin s.manager.oracle.next := by
    intro hid
    have hlt := howned.distinct.drawn u.id (List.mem_map_of_mem hu)
    rw [hid] at hlt
    exact UInt64.lt_irrefl _ hlt
  have hpersisted {t : Transaction} (ht : t ∈ s.held) {r : Record}
      (hr : s.manager.log.get? t.id = some r) : t.isPersisted = true := by
    by_contra hbare
    rw [howned.bare t ht (by simpa using hbare)] at hr
    cases hr
  cases h with
  | unmoved m unmoved => exact hs.unmoved hstuck unmoved
  | created m absent puts enters =>
    exact hs.concat hstuck enters hnew ⟨rfl, .inr ⟨_, puts.get?, .inl rfl⟩⟩
      fun id hid => puts.get?_of_ne hid
  | opened m same enters =>
    exact hs.concat hstuck enters hnew ⟨rfl, .inl rfl⟩ fun id _ => same id
  | elevated k t m held isActive bare absent puts enters =>
    have hphase : t.phase = .active := by simpa [Transaction.isActive] using isActive
    refine hs.set hstuck howned.distinct held rfl (enters.nodup hs.nodup) (fun id hid => ?_) ?_
      fun id hid => puts.get?_of_ne hid
    · rw [enters.mem_iff, or_iff_right hid]
    · exact iff_of_true (enters.mem_iff.mpr (.inl rfl)) ⟨hphase, .inr ⟨_, puts.get?, .inl rfl⟩⟩
  | ended k t t' m held ending =>
    have hmem := List.mem_of_getElem? held
    cases ending with
    | refused m unmoved =>
      refine hs.set hstuck howned.distinct held rfl (unmoved.active ▸ hs.nodup)
        (fun id _ => by rw [unmoved.active]) ?_ fun id _ => unmoved.same id
      exact hs.carried hstuck hmem (by rw [unmoved.active]) (unmoved.same t.id)
    | released t' m isActive bare same leaves owner =>
      rcases owner with rfl | rfl <;>
        exact hs.left hstuck howned.distinct held rfl
          (by simp [Transaction.abort, Transaction.committedAt]) leaves fun id _ => same id
    | decided r tr t' m isActive persisted ends get id puts leaves owner =>
      refine hs.left hstuck howned.distinct held (by rw [owner, Transaction.id_decided]) ?_ leaves
        fun other hother => puts.get?_of_ne (by rwa [id])
      rw [owner]
      exact Transaction.phase_decided t tr _
  | settled id r m settles get expired puts leaves =>
    obtain rfl := (hv id r get).1
    refine hs.overtaken hstuck puts (leaves.nodup hs.nodup) (fun id h => (leaves.mem_iff.mp h).2)
      (fun id hid => ?_) fun t ht hid => ?_
    · rw [leaves.mem_iff, and_iff_right hid]
    · refine iff_of_false (fun h => (leaves.mem_iff.mp h).1 hid) fun hcounts => ?_
      have hrecord : m.log.get? t.id = some { r with state := .rolledBack } := by
        rw [hid]
        exact puts.get?
      rw [counts_iff_of_record hrecord (hpersisted ht (hid ▸ get))] at hcounts
      have hsettled := hsettles r.id r settles get (Record.state_of_isExpired expired)
      rw [hid] at hcounts
      rcases hcounts.2 with hlive | ⟨-, hstays⟩
      · cases hlive
      · exact hsettled hstays
  | renewed id r m renews get hid puts active =>
    refine hs.overtaken hstuck puts (active ▸ hs.nodup) (fun id h => active ▸ h)
      (fun id _ => by rw [active]) fun t ht hsame => ?_
    rw [hid] at hsame
    have hbefore : s.manager.log.get? t.id = some r := by rw [hsame, get]
    have hrecord : m.log.get? t.id =
        some (r.apply (.keepAlive s.manager.clock.now s.manager.timeout)).record := by
      rw [puts, if_pos (by rw [hsame, hid])]
    rw [active, hs.counts t ht]
    refine counts_renewed (hpersisted ht hbefore) hbefore hrecord (hstuck t.id r hbefore)
      fun he hback => ?_
    rw [hsame] at hback ⊢
    exact hrenews id r renews get he hback

/-! ## Along a run -/

/-- What is rolled back for having expired stays so. -/
theorem ExpiredBy.rolledBack {s : Session} (hs : s.manager.Coherent) {requests : List Request}
    {kind : TxnId → Request → Prop} {id : TxnId} (h : s.ExpiredBy requests kind id) :
    ∃ r, (s.run requests).manager.log.get? id = some r ∧ r.state = .rolledBack := by
  obtain ⟨before, request, r, ⟨rest, rfl⟩, -, -, -, hback⟩ := h
  rw [run_append]
  obtain ⟨r', hr', hfixed⟩ := stays_preserved (stays_coherent hs _) rest id _ hback
  exact ⟨r', hr', by rw [hfixed rfl]⟩

/-- What has expired by the last request was live in front of it. -/
theorem ExpiredBy.concat_cases {s : Session} {requests : List Request} {request : Request}
    {kind : TxnId → Request → Prop} {id : TxnId}
    (h : s.ExpiredBy (requests ++ [request]) kind id) :
    s.ExpiredBy requests kind id ∨ kind id request ∧
      ∃ r, (s.run requests).manager.log.get? id = some r ∧ r.state = .active := by
  obtain ⟨before, request', r, hcut, hkind, hr, he, hback⟩ := h
  rcases List.prefix_concat_iff.mp hcut with heq | hcut
  · obtain ⟨rfl, hlast⟩ := List.append_inj' heq rfl
    obtain rfl := List.singleton_inj.mp hlast
    exact .inr ⟨hkind, r, hr, Record.state_of_isExpired he⟩
  · exact .inl ⟨before, request', r, hcut, hkind, hr, he, hback⟩

theorem tracks_run {s : Session} (hs : s.manager.Coherent) (howned : s.Owned)
    (hactive : s.manager.active = []) (hheld : s.held = []) {requests : List Request}
    (hcount : s.NeverWraps requests) :
    (s.run requests).Tracks (s.ExpiredBy requests Request.Renews) := by
  induction requests using List.reverseRecOn with
  | nil =>
    refine ⟨?_, ?_, ?_⟩ <;> simp only [run, List.foldl_nil, hactive, hheld]
    · exact List.nodup_nil
    · exact List.forall_mem_nil _
    · exact List.forall_mem_nil _
  | append_singleton requests request ih =>
    have hcut := List.prefix_append requests [request]
    have hbefore := hcount.of_isPrefix hcut
    have hcoherent := stays_coherent hs requests
    have heffect := effect_step hcoherent request
    rw [← run_concat] at heffect
    refine tracks_of_effect (ih hbefore) (owned_run hs howned hbefore) hcoherent.valid heffect
      (fun id r hr hf => ⟨fun h => ?_, fun h => h.mono hcut⟩)
      (fun id r hkind hr he hback => expiredBy_concat hkind hr he hback)
      fun id r hsettle hr hlive h => ?_
    · rcases h.concat_cases with h | ⟨-, r', hr', hlive⟩
      · exact h
      · obtain rfl := Option.some.inj (hr.symm.trans hr')
        rw [Record.isFinished, hlive] at hf
        cases hf
    · rcases h.concat_cases with h | ⟨hkind, -⟩
      · obtain ⟨r', hr', hrolled⟩ := h.rolledBack hs
        obtain rfl := Option.some.inj (hr.symm.trans hr')
        rw [hlive] at hrolled
        cases hrolled
      · rw [hsettle] at hkind
        rcases hkind with h | h <;> cases h

/-- The transaction is not finished: its record is live, or it is open and has none. -/
def Unfinished (l : Log) (t : Transaction) : Prop :=
  (∃ r, l.get? t.id = some r ∧ r.state = .active) ∨ t.phase = .active ∧ l.get? t.id = none

/-- Which transactions count, as their records and their owners have it. -/
theorem counts_iff {s : Session} {lapsed : TxnId → Prop} (haccord : s.Accord lapsed)
    (howned : s.Owned) {t : Transaction}
    (ht : t ∈ s.held) {stuck : Prop}
    (hstuck : stuck → ∃ r, s.manager.log.get? t.id = some r ∧ r.state = .rolledBack) :
    Counts s.manager.log stuck t ↔
      Unfinished s.manager.log t ∨ t.phase = .active ∧ stuck := by
  constructor
  · rintro ⟨hphase, hbare | ⟨r, hr, hlive | ⟨-, hstuck⟩⟩⟩
    · exact .inl (.inr ⟨hphase, howned.bare t ht hbare⟩)
    · exact .inl (.inl ⟨r, hr, hlive⟩)
    · exact .inr ⟨hphase, hstuck⟩
  · rintro ((⟨r, hr, hlive⟩ | ⟨hphase, hnone⟩) | ⟨hphase, h⟩)
    · have hpersisted : t.isPersisted = true := by
        by_contra hbare
        rw [howned.bare t ht (by simpa using hbare)] at hr
        cases hr
      obtain ⟨r', hr', hagrees⟩ := haccord.agrees t ht hpersisted
      obtain rfl := Option.some.inj (hr.symm.trans hr')
      exact ⟨hagrees.phase_of_active hlive, .inr ⟨r, hr, .inl hlive⟩⟩
    · refine ⟨hphase, .inl ?_⟩
      by_contra hpersisted
      obtain ⟨r, hr, -⟩ := haccord.agrees t ht (by simpa using hpersisted)
      rw [hnone] at hr
      cases hr
    · obtain ⟨r, hr, hrolled⟩ := hstuck h
      exact ⟨hphase, .inr ⟨r, hr, .inr ⟨hrolled, h⟩⟩⟩

open Classical in
/-- Which transactions are active. Whatever was asked for in a session, whatever the clock showed and
whatever the storage did: the ids that are active are those of the transactions that are unfinished,
and of those that a renewal has rolled back while their owners take them to be active. Each of them
counts once, and the smallest is the oldest active one. -/
theorem active_exact {σ : Type} (h : Handle) (bytes : Bytes) (f : Faults) (config : Config)
    (c : Collaborators σ) (requests : List Request)
    (hids : (onLog (Log.openedFaulty h bytes f) config c).NoIdTwice requests) :
    let s := onLog (Log.openedFaulty h bytes f) config c
    let m := (s.run requests).manager
    let counts : Transaction → Prop := fun t =>
      Unfinished m.log t ∨ t.phase = .active ∧ s.ExpiredBy requests Request.Renews t.id
    let ids := ((s.run requests).held.filter fun t => counts t).map Transaction.id
    (∀ id, id ∈ m.active ↔ id ∈ ids) ∧ m.activeCount = ids.length ∧
      ∀ w, m.oldestActive = some w ↔ w ∈ ids ∧ ∀ id ∈ ids, w ≤ id := by
  intro s m counts ids
  have hs : s.manager.Coherent := coherent_newManager (Log.valid_openedFaulty h bytes f) config c
  have hfresh : s.Owned := owned_onLog hids.1
  have howned := owned_run hs hfresh hids.2
  have haccord := accord_run hs rfl requests
  have htracks : (s.run requests).Tracks _ := tracks_run hs hfresh rfl rfl hids.2
  have hcounts {t : Transaction} (ht : t ∈ (s.run requests).held) : t.id ∈ m.active ↔ counts t := by
    rw [htracks.counts t ht]
    exact counts_iff haccord howned ht fun h => h.rolledBack hs
  have hmem (id : TxnId) : id ∈ m.active ↔ id ∈ ids := by
    constructor
    · intro hid
      obtain ⟨t, ht, rfl⟩ := List.mem_map.mp (htracks.held id hid)
      exact List.mem_map_of_mem (List.mem_filter.mpr ⟨ht, by simpa using (hcounts ht).mp hid⟩)
    · intro hid
      obtain ⟨t, ht, rfl⟩ := List.mem_map.mp hid
      obtain ⟨ht, hcount⟩ := List.mem_filter.mp ht
      exact (hcounts ht).mpr (by simpa using hcount)
  refine ⟨hmem, ?_, fun w => ?_⟩
  · have hnodup : ids.Nodup := howned.distinct.nodup.sublist (List.filter_sublist.map _)
    exact ((List.perm_ext_iff_of_nodup htracks.nodup hnodup).mpr hmem).length_eq
  · rw [oldestActive_eq_some_iff, hmem]
    exact and_congr_right fun _ => forall_congr' fun id => by rw [hmem]

/-! Two owners fall asleep for ten minutes. The record of the first transaction is found expired by a
renewal, that of the second by a settlement; the third transaction begins behind it. -/

def faultlessSession : Session :=
  onLog (Log.openedFaulty .shared [] .none) .default
    (Workload.ownCollaborators 0 Directory.defaultLabel)

theorem faultlessSession_eq :
    faultlessSession = ⟨Engine.newManager ⟨.holding .shared [] .none, []⟩ .default
      (Workload.ownCollaborators 0 Directory.defaultLabel), []⟩ := by
  rw [faultlessSession, onLog, Log.openedFaulty_nil]

def lapsedRequests : List Request :=
  [.begin, .begin, .setClock 600000, .renew ⟨1⟩, .settle ⟨2⟩, .beginReadOnly]

theorem noIdTwice_lapsedRequests : faultlessSession.NoIdTwice lapsedRequests := by
  rw [faultlessSession_eq]
  refine ⟨fun id hid => absurd rfl hid, ?_⟩
  simp only [NeverWraps, lapsedRequests]
  decide +kernel

theorem active_lapsedRequests : (faultlessSession.run lapsedRequests).manager.active = [⟨3⟩, ⟨1⟩] ∧
    (faultlessSession.run lapsedRequests).held =
      [.new ⟨1⟩ false, .new ⟨2⟩ false, .new ⟨3⟩ true] ∧
    (faultlessSession.run lapsedRequests).manager.log.get? ⟨1⟩ =
      some ⟨⟨1⟩, .rolledBack, ⟨1⟩, none, 0, false⟩ ∧
    (faultlessSession.run lapsedRequests).manager.oldestActive = some ⟨1⟩ := by
  rw [faultlessSession_eq]
  decide +kernel

/-- The first transaction is finished: its record is rolled back. -/
theorem id_ne_of_unfinished {t : Transaction} :
    Unfinished (faultlessSession.run lapsedRequests).manager.log t → t.id ≠ ⟨1⟩ := by
  obtain ⟨-, -, hrecord, -⟩ := active_lapsedRequests
  rintro (⟨r, hr, hlive⟩ | ⟨-, hnone⟩) hid
  · rw [hid, hrecord] at hr
    cases hr
    cases hlive
  · rw [hid, hrecord] at hnone
    cases hnone

/-- The first transaction is active still, for a renewal has found its record expired; the second one
is not. -/
theorem expiredBy_lapsedRequests :
    faultlessSession.NoIdTwice lapsedRequests ∧
      (faultlessSession.run lapsedRequests).manager.activeCount = 2 ∧
      (faultlessSession.run lapsedRequests).manager.oldestActive = some ⟨1⟩ ∧
      faultlessSession.ExpiredBy lapsedRequests Request.Renews ⟨1⟩ ∧
      ¬faultlessSession.ExpiredBy lapsedRequests Request.Renews ⟨2⟩ := by
  obtain ⟨hactive, hheld, -, holdest⟩ := active_lapsedRequests
  obtain ⟨hmem, -, -⟩ := active_exact .shared [] .none .default
    (Workload.ownCollaborators 0 Directory.defaultLabel) lapsedRequests noIdTwice_lapsedRequests
  have hcounts (id : TxnId) := (hmem id).trans List.mem_map
  simp only [List.mem_filter, decide_eq_true_eq] at hcounts
  refine ⟨noIdTwice_lapsedRequests, congrArg List.length hactive, holdest, ?_, fun hlapsed => ?_⟩
  · obtain ⟨t, ⟨ht, hunfinished | ⟨-, hlapsed⟩⟩, hid⟩ :=
      (hcounts ⟨1⟩).mp (by rw [← faultlessSession, hactive]; simp)
    · exact absurd hid (id_ne_of_unfinished hunfinished)
    · exact hid ▸ hlapsed
  · have hmissing : (⟨2⟩ : TxnId) ∉ (faultlessSession.run lapsedRequests).manager.active := by
      rw [hactive]
      decide
    refine hmissing ((hcounts ⟨2⟩).mpr ⟨.new ⟨2⟩ false, ⟨?_, .inr ⟨rfl, hlapsed⟩⟩, rfl⟩)
    rw [← faultlessSession, hheld]
    simp

/-- A transaction can be active whose record is finished. -/
theorem not_forall_active_unfinished :
    ¬∀ requests : List Request, faultlessSession.NoIdTwice requests →
      ∀ id, id ∈ (faultlessSession.run requests).manager.active ↔
        ∃ t ∈ (faultlessSession.run requests).held, t.id = id ∧
          Unfinished (faultlessSession.run requests).manager.log t := by
  intro hall
  have hactive := active_lapsedRequests.1
  obtain ⟨t, -, hid, hunfinished⟩ := (hall lapsedRequests noIdTwice_lapsedRequests ⟨1⟩).mp (by
    rw [hactive]
    simp)
  exact id_ne_of_unfinished hunfinished hid

end Session

end Manager

end TxnEngine
