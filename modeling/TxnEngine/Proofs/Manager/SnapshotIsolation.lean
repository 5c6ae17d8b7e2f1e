import Mathlib.Data.List.Nodup
import TxnEngine.Proofs.Log.TornAppends
import TxnEngine.Proofs.Manager.Sessions

/-!
# Snapshot isolation of sessions

When operations do not overlap, the timestamps in the log are the order of the session itself: a
transaction reads at the timestamp that its beginning draws, and commits at the one that its commit
draws. So a reader sees what was committed in front of its beginning, and nothing else, whatever the
clock, the cache and the storage do in the meantime.

Results:
* `ordered_run`: the transactions held have different ids, all drawn already, and only those of them
  that say so have a record.
* `exists_commit_of_commitTs?`, `commitTs?_of_commitsAt`: the commit timestamps in the log are those
  that commits were answered with.
* `isVisible_iff_committed`: a reader sees a writer iff it is the writer itself or the writer was
  committed in front of its beginning.
-/

namespace TxnEngine

namespace Manager

namespace Session

/-! ## Runs -/

theorem run_append (s : Session) (a b : List Request) : s.run (a ++ b) = (s.run a).run b :=
  List.foldl_append

theorem run_concat (s : Session) (a : List Request) (request : Request) :
    s.run (a ++ [request]) = ((s.run a).step request).2 := by
  rw [run_append]
  rfl

/-- The oracle does not wrap around. -/
def NeverWraps (s : Session) : List Request → Prop
  | [] => True
  | request :: requests =>
    s.manager.oracle.next ≤ (s.step request).2.manager.oracle.next ∧
      (s.step request).2.NeverWraps requests

theorem neverWraps_append {s : Session} {a b : List Request} :
    s.NeverWraps (a ++ b) ↔ s.NeverWraps a ∧ (s.run a).NeverWraps b := by
  induction a generalizing s with
  | nil => exact ⟨fun h => ⟨trivial, h⟩, fun h => h.2⟩
  | cons request a ih =>
    simp only [List.cons_append, NeverWraps, ih, and_assoc]
    rfl

theorem NeverWraps.of_isPrefix {s : Session} {a b : List Request} (h : s.NeverWraps b)
    (hab : a <+: b) : s.NeverWraps a := by
  obtain ⟨rest, rfl⟩ := hab
  exact (neverWraps_append.mp h).1

theorem NeverWraps.le {s : Session} {before requests : List Request} {request : Request}
    (h : s.NeverWraps requests) (hcut : before ++ [request] <+: requests) :
    (s.run before).manager.oracle.next ≤ (s.run (before ++ [request])).manager.oracle.next := by
  rw [run_concat]
  exact (neverWraps_append.mp (h.of_isPrefix hcut)).2.1

/-- The transaction `id` begins with the request behind the requests `before`. -/
def Begun (s : Session) (requests before : List Request) (id : TxnId) : Prop :=
  ∃ request t, before ++ [request] <+: requests ∧
    ((s.run before).step request).1 = some (.began (.ok t)) ∧ t.id = id

/-- A commit of the transaction `id`, behind the requests `before`, succeeds at `ts`. -/
def CommitsAt (s : Session) (before : List Request) (id : TxnId) (ts : Timestamp)
    (request : Request) : Prop :=
  ∃ k t t', request = .commit k ∧ (s.run before).held[k]? = some t ∧ t.id = id ∧
    ((s.run before).step request).1 = some (.committed (.ok ts, t'))

/-- One of the requests is a commit of the transaction `id` that succeeds. -/
def Committed (s : Session) (requests : List Request) (id : TxnId) : Prop :=
  ∃ before request ts, before ++ [request] <+: requests ∧ s.CommitsAt before id ts request

/-- A session begins without transactions and without records. -/
structure Fresh (s : Session) : Prop where
  coherent : s.manager.Coherent
  held : s.held = []
  records : ∀ id, s.manager.log.get? id = none

/-! ## What is held -/

namespace Succeeds

theorem refl (t : Transaction) : Succeeds t t :=
  .inl rfl

theorem trans {t t' t'' : Transaction} (h : Succeeds t t') (h' : Succeeds t' t'') :
    Succeeds t t'' := by
  rcases h with rfl | ⟨hactive, hid, hpersisted, hwrites⟩
  · exact h'
  rcases h' with rfl | ⟨-, hid', hpersisted', hwrites'⟩
  · exact .inr ⟨hactive, hid, hpersisted, hwrites⟩
  · refine .inr ⟨hactive, hid'.trans hid, fun h => hpersisted' (hpersisted h), ?_⟩
    rcases hwrites' with hsame | hnow
    · rw [hsame]
      exact hwrites.imp_right hpersisted'
    · exact .inr hnow

variable {t t' : Transaction} (h : Succeeds t t')

include h

theorem id_eq : t'.id = t.id := by
  rcases h with rfl | ⟨-, hid, -⟩
  · rfl
  · exact hid

theorem isPersisted (hp : t.isPersisted = true) : t'.isPersisted = true := by
  rcases h with rfl | ⟨-, -, hpersisted, -⟩
  · exact hp
  · exact hpersisted hp

/-- A transaction that may write has a record, and this stays so. -/
theorem writes (hw : t.readOnly = false → t.isPersisted = true) (hr : t'.readOnly = false) :
    t'.isPersisted = true := by
  rcases h with rfl | ⟨-, -, hpersisted, hsame | hnow⟩
  · exact hw hr
  · exact hpersisted (hw (hsame ▸ hr))
  · exact hnow

theorem eq_of_ended (hended : t.isActive = false) : t' = t := by
  rcases h with rfl | ⟨hactive, -⟩
  · rfl
  · rw [hended] at hactive
    cases hactive

end Succeeds

/-- A record that appears is that of the transaction, if it says so. -/
theorem recorded_of_adds {l l' : Log} {id : TxnId} {persisted : Bool} (adds : l.Adds id l')
    (bare : persisted = false → l.Still l') {other : TxnId} (hnone : l.get? other = none) :
    l'.get? other = none ∨ other = id ∧ persisted = true := by
  cases persisted with
  | false => exact .inl ((bare rfl).records other hnone)
  | true =>
    by_cases hother : other = id
    · exact .inr ⟨hother, rfl⟩
    · exact .inl (adds.records other hother hnone)

/-- What a request can do to the transactions that are held, and to the records. -/
theorem Step.held_cases {s s' : Session} {request : Request} {reply : Option Reply}
    (h : Step s request reply s') :
    (s'.held = s.held ∧
        ∀ id, s.manager.log.get? id = none → s'.manager.log.get? id = none) ∨
      (∃ t, reply = some (.began (.ok t)) ∧ s'.held = s.held ++ [t] ∧
        t.id = .ofBegin s.manager.oracle.next ∧
        s'.manager.oracle.next = s.manager.oracle.next.next ∧
        ∀ id, s.manager.log.get? id = none → s'.manager.log.get? id = none ∨
          id = t.id ∧ t.isPersisted = true) ∨
      ∃ k t t', s.held[k]? = some t ∧ Succeeds t t' ∧ s'.held = s.held.set k t' ∧
        ∀ id, s.manager.log.get? id = none → s'.manager.log.get? id = none ∨
          id = t'.id ∧ t'.isPersisted = true := by
  cases h with
  | idle _ m still => exact .inl ⟨rfl, still.records⟩
  | began t m opens id next adds bare =>
    exact .inr (.inl ⟨t, rfl, rfl, id, next, fun _ => recorded_of_adds adds bare⟩)
  | returned k t t' reply m held succeeds adds bare =>
    refine .inr (.inr ⟨k, t, t', held, succeeds, rfl, fun _ => ?_⟩)
    rw [succeeds.id_eq]
    exact recorded_of_adds adds bare
  | closed k t m commits held active bare still =>
    exact .inr (.inr ⟨k, t, t.committedAt t.snapshot, held, .inr ⟨active, rfl, id, .inl rfl⟩, rfl,
      fun _ h => .inl (still.records _ h)⟩)
  | committed k t m commits held active persisted next log =>
    exact .inr (.inr ⟨k, t, t.committedAt _, held, .inr ⟨active, rfl, id, .inl rfl⟩, rfl,
      fun _ h => .inl (log.records _ h)⟩)

/-- A transaction stays with its owner. -/
theorem Step.held_stays {s s' : Session} {request : Request} {reply : Option Reply}
    (h : Step s request reply s') {i : Nat} {t : Transaction} (ht : s.held[i]? = some t) :
    ∃ t', s'.held[i]? = some t' ∧ Succeeds t t' := by
  rcases h.held_cases with ⟨hheld, -⟩ | ⟨new, -, hheld, -⟩ |
    ⟨k, old, new, hk, hsucceeds, hheld, -⟩ <;> rw [hheld]
  · exact ⟨t, ht, .refl t⟩
  · have hi : i < s.held.length := (List.getElem?_eq_some_iff.mp ht).1
    exact ⟨t, by rw [List.getElem?_append_left hi, ht], .refl t⟩
  · by_cases hik : k = i
    · subst hik
      obtain rfl := Option.some.inj (ht.symm.trans hk)
      have hi : k < s.held.length := (List.getElem?_eq_some_iff.mp ht).1
      exact ⟨new, List.getElem?_set_self hi, hsucceeds⟩
    · exact ⟨t, by rw [List.getElem?_set_ne hik, ht], .refl t⟩

/-- A transaction that is given back keeps its id. -/
theorem map_id_set {held : List Transaction} {k : Nat} {t t' : Transaction}
    (ht : held[k]? = some t) (hid : t'.id = t.id) :
    (held.set k t').map Transaction.id = held.map Transaction.id := by
  obtain ⟨hk, rfl⟩ := List.getElem?_eq_some_iff.mp ht
  have hmap : k < (held.map Transaction.id).length := by simpa using hk
  have hsame : Transaction.id t' = (held.map Transaction.id)[k] := by
    rw [List.getElem_map, hid]
  rw [List.map_set, hsame, List.set_getElem_self]

/-- What holds of the transactions that are held: they have different ids, which were drawn already,
and every record is that of one that says so. -/
structure Ordered (s : Session) : Prop where
  nodup : (s.held.map Transaction.id).Nodup
  drawn : ∀ id ∈ s.held.map Transaction.id, id.beginTs < s.manager.oracle.next
  recorded : ∀ id, s.manager.log.get? id ≠ none → ∃ t ∈ s.held, t.id = id ∧ t.isPersisted = true

/-- A timestamp that does not wrap around is smaller than the next one. -/
theorem lt_timestamp_next {ts : Timestamp} (h : ts ≤ ts.next) : ts < ts.next := by
  have hne : ts.val ≠ ts.val + 1 := by simp
  exact UInt64.lt_of_le_of_ne h hne

/-- The transactions that are held have different ids, which were drawn already. -/
structure Distinct (s : Session) : Prop where
  nodup : (s.held.map Transaction.id).Nodup
  drawn : ∀ id ∈ s.held.map Transaction.id, id.beginTs < s.manager.oracle.next

/-- A transaction that is held is known by its id. -/
theorem Distinct.index_eq {s : Session} (hs : s.Distinct) {i j : Nat} {t u : Transaction}
    (ht : s.held[i]? = some t) (hu : s.held[j]? = some u) (hid : t.id = u.id) : i = j := by
  have hids : (s.held.map Transaction.id)[i]? = (s.held.map Transaction.id)[j]? := by
    rw [List.getElem?_map, List.getElem?_map, ht, hu, Option.map_some, Option.map_some, hid]
  have hlt : i < (s.held.map Transaction.id).length := by
    rw [List.length_map]
    exact (List.getElem?_eq_some_iff.mp ht).1
  exact (List.getElem?_inj hlt hs.nodup).mp hids

theorem distinct_of_step {s s' : Session} {request : Request} {reply : Option Reply}
    (hs : s.Distinct) (h : Step s request reply s')
    (hcount : s.manager.oracle.next ≤ s'.manager.oracle.next) : s'.Distinct := by
  have hlater {id : TxnId} (hid : id ∈ s.held.map Transaction.id) :
      id.beginTs < s'.manager.oracle.next := UInt64.lt_of_lt_of_le (hs.drawn id hid) hcount
  rcases h.held_cases with ⟨hheld, -⟩ | ⟨t, -, hheld, hid, hnext, -⟩ |
    ⟨k, t, t', hk, hsucceeds, hheld, -⟩
  · refine ⟨?_, ?_⟩ <;> rw [hheld]
    · exact hs.nodup
    · exact fun _ => hlater
  · rw [hnext] at hcount
    have hnew : t.id ∉ s.held.map Transaction.id := fun hmem => by
      have hlt := hs.drawn t.id hmem
      rw [hid] at hlt
      exact UInt64.lt_irrefl _ hlt
    refine ⟨?_, fun id hmem => ?_⟩
    · rw [hheld, List.map_append, List.nodup_append]
      refine ⟨hs.nodup, by simp, fun a ha b hb => ?_⟩
      obtain rfl : b = t.id := by simpa using hb
      rintro rfl
      exact hnew ha
    · rw [hheld, List.map_append, List.mem_append] at hmem
      rcases hmem with hmem | hmem
      · exact hlater hmem
      · obtain rfl : id = t.id := by simpa using hmem
        rw [hid, hnext]
        exact lt_timestamp_next hcount
  · have hids : s'.held.map Transaction.id = s.held.map Transaction.id := by
      rw [hheld, map_id_set hk hsucceeds.id_eq]
    refine ⟨?_, ?_⟩ <;> rw [hids]
    · exact hs.nodup
    · exact fun _ => hlater

theorem ordered_of_step {s s' : Session} {request : Request} {reply : Option Reply}
    (hs : s.Ordered) (h : Step s request reply s')
    (hcount : s.manager.oracle.next ≤ s'.manager.oracle.next) : s'.Ordered := by
  have hdistinct : s'.Distinct := distinct_of_step ⟨hs.nodup, hs.drawn⟩ h hcount
  refine ⟨hdistinct.nodup, hdistinct.drawn, fun id hsome => ?_⟩
  -- whoever held the transaction of a record that was there goes on holding it
  have hstays {id : TxnId} (hid : s.manager.log.get? id ≠ none) :
      ∃ t ∈ s'.held, t.id = id ∧ t.isPersisted = true := by
    obtain ⟨t, ht, hsame, hpersisted⟩ := hs.recorded id hid
    obtain ⟨i, hi⟩ := List.mem_iff_getElem?.mp ht
    obtain ⟨t', ht', hsucceeds⟩ := h.held_stays hi
    exact ⟨t', List.mem_of_getElem? ht', hsucceeds.id_eq.trans hsame,
      hsucceeds.isPersisted hpersisted⟩
  cases hbefore : s.manager.log.get? id with
  | some r => exact hstays (by simp [hbefore])
  | none =>
    rcases h.held_cases with ⟨-, hrecords⟩ | ⟨t, -, hheld, -, -, hrecords⟩ |
      ⟨k, t, t', hk, -, hheld, hrecords⟩
    · exact absurd (hrecords id hbefore) hsome
    · obtain ⟨rfl, hpersisted⟩ := (hrecords id hbefore).resolve_left hsome
      exact ⟨t, by simp [hheld], rfl, hpersisted⟩
    · obtain ⟨rfl, hpersisted⟩ := (hrecords id hbefore).resolve_left hsome
      have hlt : k < s.held.length := (List.getElem?_eq_some_iff.mp hk).1
      refine ⟨t', ?_, rfl, hpersisted⟩
      rw [hheld]
      exact List.mem_of_getElem? (List.getElem?_set_self hlt)

/-- What a request does to the commit timestamps. -/
theorem Step.commitTs?_cases {s s' : Session} {request : Request} {reply : Option Reply}
    (h : Step s request reply s') {id : TxnId} {ts : Timestamp}
    (hts : s'.manager.log.commitTs? id = some ts) :
    s.manager.log.commitTs? id = some ts ∨
      ts = s.manager.oracle.next ∧ s'.manager.oracle.next = ts.next ∧
        ∃ k t t', request = .commit k ∧ s.held[k]? = some t ∧ t.id = id ∧
          reply = some (.committed (.ok ts, t')) := by
  cases h with
  | idle _ m still => exact .inl (by rw [← still.commits, hts])
  | began t m opens _ next adds bare => exact .inl (by rw [← adds.commits, hts])
  | returned k t t' reply m held succeeds adds bare => exact .inl (by rw [← adds.commits, hts])
  | closed k t m commits held active bare still => exact .inl (by rw [← still.commits, hts])
  | committed k t m commits held active persisted next log =>
    rw [log.commits] at hts
    split_ifs at hts with hid
    · obtain rfl := Option.some.inj hts
      exact .inr ⟨rfl, next, k, t, _, commits, held, hid.symm, rfl⟩
    · exact .inl hts

/-! ## Along a run -/

section Runs

variable {s : Session} (hs : s.Fresh) {requests : List Request}

include hs

theorem coherent_run (requests : List Request) : (s.run requests).manager.Coherent :=
  stays_coherent hs.coherent requests

theorem step_run (before : List Request) (request : Request) :
    Step (s.run before) request ((s.run before).step request).1 (s.run (before ++ [request])) := by
  rw [run_concat]
  exact step_spec (coherent_run hs before).valid request

/-- Records stay, and finished ones stay as they are. -/
theorem preserves_run {a b : List Request} (hab : a <+: b) :
    Preserves (s.run a).manager (s.run b).manager := by
  obtain ⟨rest, rfl⟩ := hab
  rw [run_append]
  exact stays_preserved (coherent_run hs a) rest

theorem held_run {a b : List Request} (hab : a <+: b) {i : Nat} {t : Transaction}
    (ht : (s.run a).held[i]? = some t) : ∃ t', (s.run b).held[i]? = some t' ∧ Succeeds t t' := by
  obtain ⟨rest, rfl⟩ := hab
  induction rest using List.reverseRecOn with
  | nil =>
    rw [List.append_nil]
    exact ⟨t, ht, .refl t⟩
  | append_singleton rest request ih =>
    obtain ⟨t', ht', hsucceeds⟩ := ih
    rw [← List.append_assoc]
    obtain ⟨t'', ht'', hsucceeds'⟩ := (step_run hs _ request).held_stays ht'
    exact ⟨t'', ht'', hsucceeds.trans hsucceeds'⟩

/-- Every transaction that is held has begun in the session. -/
theorem exists_begun {t : Transaction} (ht : t ∈ (s.run requests).held) :
    ∃ before, s.Begun requests before t.id := by
  induction requests using List.reverseRecOn generalizing t with
  | nil =>
    rw [run, List.foldl_nil, hs.held] at ht
    cases ht
  | append_singleton requests request ih =>
    have earlier {t : Transaction} (ht : t ∈ (s.run requests).held) :
        ∃ before, s.Begun (requests ++ [request]) before t.id := by
      obtain ⟨before, request', t', hbefore, hbegun⟩ := ih ht
      exact ⟨before, request', t', hbefore.trans (List.prefix_append _ _), hbegun⟩
    rcases (step_run hs requests request).held_cases with ⟨hheld, -⟩ | ⟨new, hreply, hheld, -⟩ |
      ⟨k, old, new, hk, hsucceeds, hheld, -⟩ <;> rw [hheld] at ht
    · exact earlier ht
    · rcases List.mem_append.mp ht with ht | ht
      · exact earlier ht
      · obtain rfl : t = new := by simpa using ht
        exact ⟨requests, request, t, List.prefix_refl _, hreply, rfl⟩
    · rcases List.mem_or_eq_of_mem_set ht with ht | rfl
      · exact earlier ht
      · obtain ⟨before, hbegun⟩ := earlier (List.mem_of_getElem? hk)
        exact ⟨before, hsucceeds.id_eq ▸ hbegun⟩

/-- A commit timestamp in the log is one that a commit was answered with, the one that the commit
drew. -/
theorem exists_commit_of_commitTs? {id : TxnId} {ts : Timestamp}
    (hts : (s.run requests).manager.log.commitTs? id = some ts) :
    ∃ before request, before ++ [request] <+: requests ∧ s.CommitsAt before id ts request ∧
      ts = (s.run before).manager.oracle.next := by
  induction requests using List.reverseRecOn with
  | nil =>
    rw [run, List.foldl_nil, Log.commitTs?, hs.records] at hts
    cases hts
  | append_singleton requests request ih =>
    rcases (step_run hs requests request).commitTs?_cases hts with
      hbefore | ⟨hdrawn, -, k, t, t', hcommit, hk, hid, hreply⟩
    · obtain ⟨before, request', hcut, hcommits⟩ := ih hbefore
      exact ⟨before, request', hcut.trans (List.prefix_append _ _), hcommits⟩
    · exact ⟨requests, request, List.prefix_refl _, ⟨k, t, t', hcommit, hk, hid, hreply⟩, hdrawn⟩

variable (hcount : s.NeverWraps requests)

include hcount

theorem ordered_run : (s.run requests).Ordered := by
  induction requests using List.reverseRecOn with
  | nil =>
    refine ⟨?_, ?_, fun id hid => absurd (hs.records id) hid⟩ <;> rw [run, List.foldl_nil, hs.held]
    · exact List.nodup_nil
    · simp
  | append_singleton requests request ih =>
    have hstep := step_run hs requests request
    refine ordered_of_step (ih (hcount.of_isPrefix (List.prefix_append _ _))) hstep ?_
    exact hcount.le (List.prefix_refl _)

omit hs in
/-- Timestamps are drawn in ascending order. -/
theorem next_le_next {a b : List Request} (hab : a <+: b) (hb : b <+: requests) :
    (s.run a).manager.oracle.next ≤ (s.run b).manager.oracle.next := by
  obtain ⟨rest, rfl⟩ := hab
  induction rest using List.reverseRecOn with
  | nil =>
    rw [List.append_nil]
    exact UInt64.le_refl _
  | append_singleton rest request ih =>
    rw [← List.append_assoc] at hb ⊢
    exact UInt64.le_trans (ih ((List.prefix_append _ _).trans hb)) (hcount.le hb)

/-- A commit that succeeds gives the transaction its commit timestamp, if the transaction has a
record. -/
theorem commitTs?_of_commitsAt {before : List Request} {request : Request} {id : TxnId}
    {ts : Timestamp} (hcut : before ++ [request] <+: requests)
    (h : s.CommitsAt before id ts request)
    (hrecord : (s.run requests).manager.log.get? id ≠ none) :
    (s.run requests).manager.log.commitTs? id = some ts ∧
      ts < (s.run (before ++ [request])).manager.oracle.next := by
  obtain ⟨k, t, t', rfl, hk, rfl, hreply⟩ := h
  have hstep := step_run hs before (.commit k)
  have hle := hcount.le hcut
  have hlater := preserves_run hs hcut
  have hcoherent := coherent_run hs (before ++ [.commit k])
  have hheld {i : Nat} {t : Transaction} (ht : (s.run (before ++ [.commit k])).held[i]? = some t) :=
    held_run hs hcut ht
  rw [hreply] at hstep
  generalize s.run (before ++ [.commit k]) = s' at hstep hle hlater hcoherent hheld
  cases hstep with
  | idle _ m still began committed => exact absurd rfl (committed _)
  | returned _ _ _ _ m _ _ _ _ _ _ committed => exact absurd rfl (committed _ _)
  | closed k' u m commits held active bare still =>
    -- the transaction has no record then, and never gets one
    obtain rfl : k = k' := by simpa using commits
    obtain rfl := Option.some.inj (hk.symm.trans held)
    have hlt : k < (s.run before).held.length := (List.getElem?_eq_some_iff.mp hk).1
    obtain ⟨t'', ht'', hsucceeds⟩ := hheld (List.getElem?_set_self hlt)
    obtain rfl := hsucceeds.eq_of_ended rfl
    have hordered := ordered_run hs hcount
    obtain ⟨owner, howner, hsame, hpersisted⟩ := hordered.recorded _ hrecord
    have heq := List.inj_on_of_nodup_map hordered.nodup howner (List.mem_of_getElem? ht'') hsame
    rw [heq] at hpersisted
    exact absurd (hpersisted.symm.trans bare) nofun
  | committed k' u m commits held active persisted next log =>
    obtain rfl : k = k' := by simpa using commits
    obtain rfl := Option.some.inj (hk.symm.trans held)
    refine ⟨commitTs?_later hcoherent ?_ hlater, ?_⟩
    · rw [log.commits, if_pos rfl]
    · rw [next] at hle ⊢
      exact lt_timestamp_next hle

omit hcount in
/-- A transaction reads at the timestamp that comes next when it begins. -/
theorem beginTs_of_begun {before : List Request} {id : TxnId} (h : s.Begun requests before id) :
    ∃ request, before ++ [request] <+: requests ∧ (∀ k, request ≠ .commit k) ∧
      id.beginTs = (s.run before).manager.oracle.next ∧
      (s.run (before ++ [request])).manager.oracle.next = id.beginTs.next := by
  obtain ⟨request, t, hcut, hreply, rfl⟩ := h
  refine ⟨request, hcut, ?_⟩
  have hstep := step_run hs before request
  rw [hreply] at hstep
  generalize s.run (before ++ [request]) = s' at hstep ⊢
  cases hstep with
  | idle _ m still began => exact absurd rfl (began _)
  | returned _ _ _ _ m _ _ _ _ _ began => exact absurd rfl (began _)
  | began t m opens id next =>
    refine ⟨fun k hk => ?_, by rw [id]; rfl, by rw [next, id]; rfl⟩
    rcases opens with rfl | rfl <;> cases hk

/-- What was committed in front of a reader's beginning is what has a commit timestamp up to the
reader's snapshot. -/
theorem sees_iff_committed {before : List Request} {reader : TxnId}
    (hbegun : s.Begun requests before reader) {candidate : TxnId}
    (hrecord : (s.run requests).manager.log.get? candidate ≠ none) :
    Sees reader.beginTs candidate (s.run requests).manager ↔ s.Committed before candidate := by
  obtain ⟨opening, hopening, hnocommit, hsnapshot, hnext⟩ := beginTs_of_begun hs hbegun
  have hbefore : before <+: requests := (List.prefix_append _ _).trans hopening
  constructor
  · rintro ⟨ts, hts, hle⟩
    obtain ⟨earlier, request, hcut, hcommits, hdrawn⟩ := exists_commit_of_commitTs? hs hts
    have hne : request ≠ opening := by
      obtain ⟨k, -, -, rfl, -⟩ := hcommits
      exact (hnocommit k).symm
    -- a commit behind the beginning draws a timestamp above the snapshot
    have hfront : ¬before ++ [opening] <+: earlier := by
      intro hbehind
      have hlt : reader.beginTs < (s.run (before ++ [opening])).manager.oracle.next := by
        have hcounted := hcount.le hopening
        rw [hnext, ← hsnapshot] at hcounted
        rw [hnext]
        exact lt_timestamp_next hcounted
      have hle' := next_le_next hcount hbehind ((List.prefix_append _ _).trans hcut)
      rw [← hdrawn] at hle'
      exact UInt64.lt_irrefl _ (UInt64.lt_of_lt_of_le (UInt64.lt_of_lt_of_le hlt hle') hle)
    refine ⟨earlier, request, ts, ?_, hcommits⟩
    rcases List.prefix_or_prefix_of_prefix hcut hopening with h | h
    · refine (List.prefix_concat_iff.mp h).resolve_left fun heq => ?_
      exact hne (List.append_inj_right' heq rfl |> List.singleton_inj.mp)
    · refine absurd ((List.prefix_concat_iff.mp h).resolve_left fun heq => ?_) hfront
      exact hne (List.append_inj_right' heq rfl |> List.singleton_inj.mp).symm
  · rintro ⟨earlier, request, ts, hcut, hcommits⟩
    obtain ⟨hts, hlt⟩ :=
      commitTs?_of_commitsAt hs hcount (hcut.trans hbefore) hcommits hrecord
    refine ⟨ts, hts, UInt64.le_of_lt ?_⟩
    rw [hsnapshot]
    exact UInt64.lt_of_lt_of_le hlt (next_le_next hcount hcut hbefore)

/-- What was committed in front of a beginning has a smaller id. -/
theorem beginTs_lt_of_committed {before : List Request} (hbefore : before <+: requests)
    {candidate : TxnId} (h : s.Committed before candidate) :
    candidate.beginTs < (s.run before).manager.oracle.next := by
  obtain ⟨earlier, request, ts, hcut, k, t, t', -, hk, rfl, -⟩ := h
  have hearlier : earlier <+: before := (List.prefix_append _ _).trans hcut
  have hordered := ordered_run hs (hcount.of_isPrefix (hearlier.trans hbefore))
  have hlt := hordered.drawn t.id (List.mem_map_of_mem (List.mem_of_getElem? hk))
  exact UInt64.lt_of_lt_of_le hlt (next_le_next hcount hearlier hbefore)

end Runs

/-! ## Answers to a reader -/

/-- A session over an empty log, on storage that is going to fail. -/
def opening {σ : Type} (h : Handle) (f : Faults) (config : Config) (c : Collaborators σ) :
    Session :=
  ⟨Engine.newManager (Log.openedFaulty h [] f) config c, []⟩

theorem fresh_opening {σ : Type} (h : Handle) (f : Faults) (config : Config)
    (c : Collaborators σ) : (opening h f config c).Fresh := by
  refine ⟨?_, rfl, fun id => ?_⟩ <;> rw [opening, Log.openedFaulty_nil]
  · exact coherent_newManager Log.valid_nil config c
  · rfl

/-- What a transaction that is held is told about a writer that has a record. -/
theorem isVisible_of_held {s : Session} (hs : s.manager.Coherent) {k : Nat} {reader : Transaction}
    (hreader : s.held[k]? = some reader) {candidate : TxnId} {r : Record}
    (hr : s.manager.log.get? candidate = some r) :
    ∃ b, (s.step (.isVisible k candidate)).1 = some (.visible (.ok b)) ∧
      (b = true ↔ candidate = reader.id ∨
        candidate.beginTs < reader.snapshot ∧ Sees reader.snapshot candidate s.manager) := by
  have hstep : (s.step (.isVisible k candidate)).1 =
      some (.visible ((isVisible reader candidate).run s.manager).1) := by
    simp [step, Request.program, hreader, Op.program, Program.run_map]
  obtain ⟨b, hb, hiff⟩ := run_isVisible_iff hs reader hr
  exact ⟨b, by rw [hstep, hb], hiff⟩

/-- A reader sees what was committed in front of its beginning. Whatever was asked for in a session,
one request after the other, and whatever clock, cache and storage did: a transaction that is held
has begun in it, and is told about every transaction with a record whether it is that transaction
itself or a commit of it succeeded in front of the beginning. -/
theorem isVisible_iff_committed {σ : Type} (h : Handle) (f : Faults) (config : Config)
    (c : Collaborators σ) (requests : List Request)
    (hcount : (opening h f config c).NeverWraps requests) {k : Nat} {reader : Transaction}
    (hreader : ((opening h f config c).run requests).held[k]? = some reader) :
    let s := opening h f config c
    (∃ before, s.Begun requests before reader.id) ∧
      ∀ before, s.Begun requests before reader.id →
        ∀ candidate, (s.run requests).manager.log.get? candidate ≠ none →
          ∃ b, ((s.run requests).step (.isVisible k candidate)).1 = some (.visible (.ok b)) ∧
            (b = true ↔ candidate = reader.id ∨ s.Committed before candidate) := by
  intro s
  have hs : s.Fresh := fresh_opening h f config c
  refine ⟨exists_begun hs (List.mem_of_getElem? hreader), fun before hbegun candidate hrecord => ?_⟩
  obtain ⟨r, hr⟩ := Option.ne_none_iff_exists'.mp hrecord
  obtain ⟨b, hb, hiff⟩ := isVisible_of_held (coherent_run hs requests) hreader hr
  refine ⟨b, hb, hiff.trans (or_congr_right ?_)⟩
  obtain ⟨request, hcut, -, hsnapshot, -⟩ := beginTs_of_begun hs hbegun
  have hsees := sees_iff_committed hs hcount hbegun hrecord
  refine ⟨fun hseen => hsees.mp hseen.2, fun hcommitted => ⟨?_, hsees.mpr hcommitted⟩⟩
  rw [Transaction.snapshot, hsnapshot]
  exact beginTs_lt_of_committed hs hcount ((List.prefix_append _ _).trans hcut) hcommitted

/-! Two writers and a reader. The first commit fails with its sync and is asked for again in front
of the reader's beginning, the second writer commits behind it. -/

def twoCommits : List Request :=
  [.begin, .begin, .commit 0, .commit 0, .beginReadOnly, .commit 1]

def plainSession : Session :=
  opening .shared (Faults.none.add .sync 1) .default
    (Workload.ownCollaborators 0 Directory.defaultLabel)

theorem plainSession_eq :
    plainSession = ⟨Engine.newManager ⟨.holding .shared [] (Faults.none.add .sync 1), []⟩ .default
      (Workload.ownCollaborators 0 Directory.defaultLabel), []⟩ := by
  rw [plainSession, opening, Log.openedFaulty_nil]

/-- The reader is told what was committed in front of its beginning. -/
theorem committed_twoCommits :
    plainSession.NeverWraps twoCommits ∧
      (plainSession.run twoCommits).held[2]? = some (.new ⟨5⟩ true) ∧
      plainSession.Begun twoCommits (twoCommits.take 4) ⟨5⟩ ∧
      plainSession.Committed (twoCommits.take 4) ⟨1⟩ ∧
      ¬plainSession.Committed (twoCommits.take 4) ⟨2⟩ := by
  have hcount : plainSession.NeverWraps twoCommits := by
    rw [plainSession_eq]
    simp only [NeverWraps, twoCommits]
    decide +kernel
  have hreader : (plainSession.run twoCommits).held[2]? = some (.new ⟨5⟩ true) := by
    rw [plainSession_eq]
    decide +kernel
  have hbegun : plainSession.Begun twoCommits (twoCommits.take 4) ⟨5⟩ := by
    refine ⟨.beginReadOnly, .new ⟨5⟩ true, by decide, ?_, rfl⟩
    rw [plainSession_eq]
    rfl
  have hfirst : ((plainSession.run twoCommits).step (.isVisible 2 ⟨1⟩)).1 =
      some (.visible (.ok true)) := by
    rw [plainSession_eq]
    rfl
  have hsecond : ((plainSession.run twoCommits).step (.isVisible 2 ⟨2⟩)).1 =
      some (.visible (.ok false)) := by
    rw [plainSession_eq]
    rfl
  have hrecords : (plainSession.run twoCommits).manager.log.get? ⟨1⟩ ≠ none ∧
      (plainSession.run twoCommits).manager.log.get? ⟨2⟩ ≠ none := by
    rw [plainSession_eq]
    decide +kernel
  obtain ⟨-, htold⟩ := isVisible_iff_committed .shared (Faults.none.add .sync 1) .default
    (Workload.ownCollaborators 0 Directory.defaultLabel) twoCommits hcount hreader
  obtain ⟨b, hb, hiff⟩ := htold _ hbegun ⟨1⟩ hrecords.1
  obtain ⟨b', hb', hiff'⟩ := htold _ hbegun ⟨2⟩ hrecords.2
  obtain rfl : b = true := by simpa [plainSession] using hb.symm.trans hfirst
  obtain rfl : b' = false := by simpa [plainSession] using hb'.symm.trans hsecond
  refine ⟨hcount, hreader, hbegun, ?_, ?_⟩
  · exact (hiff.mp rfl).resolve_left (by decide)
  · exact fun hcommitted => absurd (hiff'.mpr (.inr hcommitted)) nofun

end Session

end Manager

end TxnEngine
