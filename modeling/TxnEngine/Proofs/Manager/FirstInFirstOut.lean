import Mathlib.Data.List.Nodup
import TxnEngine.CompletedCache

/-!
# First in, first out

The cache of finished records keeps a table for its look-ups and a queue that says which record has
to leave next. Together they are one list of records, the oldest first: a record that is put in
again keeps its place, and the records at the front leave when room is needed.

Results:
* `FinishedQueue`: the list that a cache should hold, and the calls on it.
* `mirrors_insert`, `get_eq`: table and order stay in step with the list, and look-ups answer alike.
* `runAll_alike`: so does any run of calls, and what the list holds is marked with its last time.
* `runAll_fifo`: what a cache answers, and what it holds, behind any calls from the empty one on.
-/

namespace TxnEngine

/-- Records in the order in which they were put in, the oldest first. -/
abbrev FinishedQueue := List CachedRecord

namespace CachedRecord

def id (e : CachedRecord) : TxnId :=
  e.record.id

/-- Renews the time of the record with the given id. -/
def refresh (id : TxnId) (now : Instant) (e : CachedRecord) : CachedRecord :=
  if e.id = id then { e with since := now } else e

@[simp] theorem record_refresh (id : TxnId) (now : Instant) (e : CachedRecord) :
    (e.refresh id now).record = e.record := by
  unfold refresh
  split_ifs <;> rfl

@[simp] theorem id_refresh (id : TxnId) (now : Instant) (e : CachedRecord) :
    (e.refresh id now).id = e.id :=
  congrArg Record.id (record_refresh id now e)

end CachedRecord

namespace FinishedQueue

/-- The ids of the records. -/
def ids (q : FinishedQueue) : List TxnId :=
  q.map CachedRecord.id

/-- Puts a finished record in. An id that is held has its time renewed and nothing else; otherwise
as many records leave at the front as are too many with the new one, which goes to the end. -/
def insert (capacity : Nat) (r : Record) (now : Instant) (q : FinishedQueue) :
    Bool × FinishedQueue :=
  if capacity = 0 ∨ r.isFinished = false then (false, q)
  else if r.id ∈ q.ids then (true, q.map (CachedRecord.refresh r.id now))
  else (true, q.drop (q.length + 1 - capacity) ++ [⟨r, now⟩])

/-- The record held for an id, unless its time lies back by more than the given age. -/
def get (maxAge : Duration) (id : TxnId) (now : Instant) (q : FinishedQueue) : Option Record :=
  (q.find? fun e => decide (e.id = id) && decide (now ≤ e.since + maxAge.nanos)).map
    CachedRecord.record

/-! ## The table of a queue -/

/-- The records by their ids. -/
def table (q : FinishedQueue) : Table TxnId CachedRecord :=
  q.map fun e => (e.id, e)

@[simp] theorem table_cons (e : CachedRecord) (rest : FinishedQueue) :
    table (e :: rest) = (e.id, e) :: table rest :=
  rfl

@[simp] theorem ids_cons (e : CachedRecord) (rest : FinishedQueue) :
    ids (e :: rest) = e.id :: ids rest :=
  rfl

section Table

variable {q : FinishedQueue} {id : TxnId}

theorem find?_table (q : FinishedQueue) (id : TxnId) :
    q.table.find? id = q.find? fun e => decide (e.id = id) := by
  induction q with
  | nil => rfl
  | cons e rest ih =>
    rw [table_cons, Table.find?, List.find?_cons, ih]
    by_cases hid : e.id = id <;> simp [hid]

theorem find?_table_of_mem (honce : q.ids.Nodup) {e : CachedRecord} (he : e ∈ q) :
    q.table.find? e.id = some e := by
  rw [find?_table]
  cases hfound : q.find? fun x => decide (x.id = e.id) with
  | none => exact absurd (List.find?_eq_none.mp hfound e he) (by simp)
  | some x =>
    have hid : x.id = e.id := by simpa using List.find?_some hfound
    rw [List.inj_on_of_nodup_map honce (List.mem_of_find?_eq_some hfound) he hid]

theorem find?_table_of_notMem (h : id ∉ q.ids) : q.table.find? id = none := by
  rw [find?_table, List.find?_eq_none]
  intro e he hid
  exact h (List.mem_map.mpr ⟨e, he, of_decide_eq_true hid⟩)

theorem insert_table_of_notMem (h : id ∉ q.ids) (e : CachedRecord) :
    q.table.insert id e = q.table ++ [(id, e)] := by
  induction q with
  | nil => rfl
  | cons first rest ih =>
    rw [ids_cons, List.mem_cons, not_or] at h
    rw [table_cons, Table.insert, if_neg (Ne.symm h.1), ih h.2]
    rfl

theorem map_refresh_of_notMem (h : id ∉ q.ids) (now : Instant) :
    q.map (CachedRecord.refresh id now) = q := by
  refine (List.map_congr_left fun e he => ?_).trans (List.map_id q)
  exact if_neg fun hid => h (List.mem_map.mpr ⟨e, he, hid⟩)

/-- Renewing one record's time in the table is renewing it in the queue. -/
theorem insert_table_of_mem (honce : q.ids.Nodup) {e : CachedRecord} (he : e ∈ q) (now : Instant) :
    q.table.insert e.id { e with since := now } =
      table (q.map (CachedRecord.refresh e.id now)) := by
  induction q with
  | nil => cases he
  | cons first rest ih =>
    obtain ⟨hnot, hrest⟩ := List.nodup_cons.mp honce
    rw [table_cons, Table.insert, List.map_cons, table_cons, CachedRecord.id_refresh]
    rcases List.mem_cons.mp he with rfl | he
    · rw [if_pos rfl, map_refresh_of_notMem hnot, CachedRecord.refresh, if_pos rfl]
    · have hne : first.id ≠ e.id := fun heq => hnot (List.mem_map.mpr ⟨e, he, heq.symm⟩)
      rw [if_neg hne, ih hrest he, CachedRecord.refresh, if_neg hne]

theorem erase_table_of_notMem (h : id ∉ q.ids) : q.table.erase id = q.table := by
  induction q with
  | nil => rfl
  | cons first rest ih =>
    rw [ids_cons, List.mem_cons, not_or] at h
    rw [table_cons, Table.erase, if_neg (Ne.symm h.1), ih h.2]

theorem ids_refresh (q : FinishedQueue) (id : TxnId) (now : Instant) :
    ids (q.map (CachedRecord.refresh id now)) = q.ids := by
  rw [ids, List.map_map]
  exact List.map_congr_left fun e _ => CachedRecord.id_refresh id now e

theorem ids_drop (q : FinishedQueue) (n : Nat) : ids (q.drop n) = q.ids.drop n :=
  List.map_drop

theorem notMem_ids_drop (h : id ∉ q.ids) (n : Nat) : id ∉ ids (q.drop n) :=
  fun hid => h (List.mem_of_mem_drop (ids_drop q n ▸ hid))

theorem table_concat (q : FinishedQueue) (e : CachedRecord) :
    table (q ++ [e]) = q.table ++ [(e.id, e)] :=
  List.map_append

theorem ids_concat (q : FinishedQueue) (e : CachedRecord) : ids (q ++ [e]) = q.ids ++ [e.id] :=
  List.map_append

theorem get_of_mem (honce : q.ids.Nodup) {e : CachedRecord} (he : e ∈ q) (maxAge : Duration)
    (now : Instant) : q.get maxAge e.id now =
      if now ≤ e.since + maxAge.nanos then some e.record else none := by
  have hsame {x : CachedRecord} (hx : x ∈ q) (hid : x.id = e.id) : x = e :=
    List.inj_on_of_nodup_map honce hx he hid
  rw [get]
  split_ifs with hyoung
  · cases hfound :
      q.find? fun x => decide (x.id = e.id) && decide (now ≤ x.since + maxAge.nanos) with
    | none => exact absurd (List.find?_eq_none.mp hfound e he) (by simp [hyoung])
    | some x =>
      have hx := List.find?_some hfound
      simp only [Bool.and_eq_true, decide_eq_true_eq] at hx
      rw [hsame (List.mem_of_find?_eq_some hfound) hx.1, Option.map_some]
  · rw [List.find?_eq_none.mpr fun x hx hold => ?_, Option.map_none]
    simp only [Bool.and_eq_true, decide_eq_true_eq] at hold
    exact hyoung (hsame hx hold.1 ▸ hold.2)

theorem get_of_notMem (h : id ∉ q.ids) (maxAge : Duration) (now : Instant) :
    q.get maxAge id now = none := by
  rw [get, List.find?_eq_none.mpr fun x hx hfound => ?_, Option.map_none]
  simp only [Bool.and_eq_true, decide_eq_true_eq] at hfound
  exact h (List.mem_map.mpr ⟨x, hx, hfound.1⟩)

/-- A record is found iff it is held and not too old. -/
theorem get_eq_some_iff (honce : q.ids.Nodup) {maxAge : Duration} {now : Instant} {r : Record} :
    q.get maxAge id now = some r ↔
      r.id = id ∧ ∃ since, ⟨r, since⟩ ∈ q ∧ now ≤ since + maxAge.nanos := by
  constructor
  · intro hfound
    obtain ⟨e, he, rfl⟩ := Option.map_eq_some_iff.mp hfound
    have hyoung := List.find?_some he
    simp only [Bool.and_eq_true, decide_eq_true_eq] at hyoung
    exact ⟨hyoung.1, e.since, List.mem_of_find?_eq_some he, hyoung.2⟩
  · rintro ⟨rfl, since, he, hyoung⟩
    exact (get_of_mem honce he maxAge now).trans (if_pos hyoung)

end Table

end FinishedQueue

namespace CompletedCache

open FinishedQueue

/-! ## In step -/

/-- Room is made by dropping as many records from the front as are too many with one more. -/
theorem makeRoom_table {q : FinishedQueue} (honce : q.ids.Nodup) (capacity : Nat) :
    makeRoom capacity q.table q.ids =
      (table (q.drop (q.length + 1 - capacity)), ids (q.drop (q.length + 1 - capacity))) := by
  induction q with
  | nil => simp [makeRoom, table, ids]
  | cons first rest ih =>
    obtain ⟨hnot, hrest⟩ := List.nodup_cons.mp honce
    have hlength : (table (first :: rest)).length = rest.length + 1 := List.length_map _
    rw [ids_cons, makeRoom, hlength, List.length_cons]
    split_ifs with hroom
    · rw [Nat.sub_eq_zero_of_le (Nat.succ_le_of_lt hroom)]
      rfl
    · have hdrop : rest.length + 1 + 1 - capacity = rest.length + 1 - capacity + 1 := by omega
      rw [hdrop, List.drop_succ_cons, ← ih hrest, table_cons, Table.erase, if_pos rfl,
        erase_table_of_notMem hnot]

/-- The cache holds the records of the queue. -/
structure Mirrors (c : CompletedCache) (q : FinishedQueue) : Prop where
  entries : c.entries = q.table
  order : c.order = q.ids
  once : q.ids.Nodup
  bounded : q.length ≤ c.capacity

section Step

variable {c : CompletedCache} {q : FinishedQueue} {r : Record}

theorem mirrors_new (capacity : Nat) (maxAge : Duration) : Mirrors (new capacity maxAge) [] :=
  ⟨rfl, rfl, List.nodup_nil, Nat.zero_le _⟩

theorem insert_of_refused (h : c.capacity = 0 ∨ r.isFinished = false) (now : Instant) :
    c.insert r now = (false, c) :=
  if_pos (by simpa using h)

theorem insert_of_mem (h : Mirrors c q) (hadmitted : ¬ (c.capacity = 0 ∨ r.isFinished = false))
    (hmem : r.id ∈ q.ids) (now : Instant) : c.insert r now =
      (true, { c with entries := table (q.map (CachedRecord.refresh r.id now)) }) := by
  obtain ⟨e, he, hid⟩ := List.mem_map.mp hmem
  rw [insert, if_neg (by simpa using hadmitted), h.entries, ← hid, find?_table_of_mem h.once he,
    ← insert_table_of_mem h.once he now]

theorem insert_of_notMem (h : Mirrors c q) (hadmitted : ¬ (c.capacity = 0 ∨ r.isFinished = false))
    (hmem : r.id ∉ q.ids) (now : Instant) : c.insert r now =
      (true, { c with
        entries := table (q.drop (q.length + 1 - c.capacity) ++ [⟨r, now⟩])
        order := ids (q.drop (q.length + 1 - c.capacity) ++ [⟨r, now⟩]) }) := by
  have hinsert := insert_table_of_notMem (notMem_ids_drop hmem (q.length + 1 - c.capacity)) ⟨r, now⟩
  rw [insert, if_neg (by simpa using hadmitted), h.entries, h.order, find?_table_of_notMem hmem,
    makeRoom_table h.once, table_concat, ids_concat]
  simp only [hinsert]
  rfl

/-- Putting a record in keeps the cache in step with the queue. -/
theorem mirrors_insert (h : Mirrors c q) (r : Record) (now : Instant) :
    (c.insert r now).1 = (q.insert c.capacity r now).1 ∧
      Mirrors (c.insert r now).2 (q.insert c.capacity r now).2 := by
  rw [FinishedQueue.insert]
  split_ifs with hrefused hmem
  · rw [insert_of_refused hrefused]
    exact ⟨rfl, h⟩
  · rw [insert_of_mem h hrefused hmem]
    refine ⟨rfl, rfl, h.order.trans (ids_refresh q r.id now).symm, ?_, ?_⟩
    · rw [ids_refresh]
      exact h.once
    · rw [List.length_map]
      exact h.bounded
  · rw [insert_of_notMem h hrefused hmem]
    refine ⟨rfl, rfl, rfl, ?_, ?_⟩
    · rw [ids_concat, ids_drop]
      refine List.nodup_append.mpr ⟨h.once.sublist (List.drop_sublist _ _),
        List.nodup_singleton _, fun id hid other hother heq => ?_⟩
      have hnew : id = r.id := heq.trans (List.mem_singleton.mp hother)
      exact hmem (hnew ▸ List.mem_of_mem_drop hid)
    · have hpositive : c.capacity ≠ 0 := fun hzero => hrefused (.inl hzero)
      rw [List.length_append, List.length_drop, List.length_singleton]
      simp only
      omega

/-- A look-up answers as the queue does, and counts a hit or a miss. -/
theorem get_eq (h : Mirrors c q) (id : TxnId) (now : Instant) : c.get id now =
    match q.get c.maxAge id now with
    | some r => (some r, { c with hits := c.hits + 1 })
    | none => (none, { c with misses := c.misses + 1 }) := by
  rw [CompletedCache.get, h.entries]
  by_cases hmem : id ∈ q.ids
  · obtain ⟨e, he, rfl⟩ := List.mem_map.mp hmem
    simp only [find?_table_of_mem h.once he, get_of_mem h.once he, Nat.sub_le_iff_le_add']
    split_ifs <;> rfl
  · rw [find?_table_of_notMem hmem, get_of_notMem hmem]

theorem fst_get (h : Mirrors c q) (id : TxnId) (now : Instant) :
    (c.get id now).1 = q.get c.maxAge id now := by
  rw [get_eq h]
  cases q.get c.maxAge id now <;> rfl

/-- The queue of keys holds the keys of the table. -/
theorem mem_order_iff (h : Mirrors c q) (id : TxnId) :
    id ∈ c.order ↔ (c.entries.find? id).isSome = true := by
  rw [h.order, h.entries]
  by_cases hid : id ∈ q.ids
  · obtain ⟨e, he, rfl⟩ := List.mem_map.mp hid
    exact iff_of_true hid (Option.isSome_of_eq_some (find?_table_of_mem h.once he))
  · simp [hid, find?_table_of_notMem hid]

theorem length_le_capacity (h : Mirrors c q) : c.length ≤ c.capacity := by
  rw [length, h.entries, table, List.length_map]
  exact h.bounded

theorem mirrors_clear (c : CompletedCache) : Mirrors c.clear [] :=
  ⟨rfl, rfl, List.nodup_nil, Nat.zero_le _⟩

end Step

/-! ## Calls -/

/-- The calls of a cache. -/
inductive Call where
  | insert (r : Record) (now : Instant)
  | get (id : TxnId) (now : Instant)
  | clear

/-- What the calls answer. -/
inductive Reply where
  | admitted (admitted : Bool)
  | found (r : Option Record)
  | cleared
deriving DecidableEq

def Reply.isHit : Reply → Bool
  | found (some _) => true
  | _ => false

namespace Call

def isGet : Call → Bool
  | get _ _ => true
  | _ => false

/-- The time at which a call puts a finished record of the id in. -/
def putAt (id : TxnId) : Call → Option Instant
  | insert r now => if r.id = id ∧ r.isFinished = true then some now else none
  | _ => none

/-- Makes a call on a cache. -/
def perform (c : CompletedCache) : Call → Reply × CompletedCache
  | insert r now =>
    let (admitted, c) := c.insert r now
    (.admitted admitted, c)
  | get id now =>
    let (r, c) := c.get id now
    (.found r, c)
  | clear => (.cleared, c.clear)

/-- What a call on the queue of a cache with the given limits answers and leaves. -/
def expect (capacity : Nat) (maxAge : Duration) (q : FinishedQueue) : Call → Reply × FinishedQueue
  | insert r now =>
    let (admitted, q) := q.insert capacity r now
    (.admitted admitted, q)
  | get id now => (.found (q.get maxAge id now), q)
  | clear => (.cleared, [])

/-- Makes calls one after the other. -/
def runAll {σ : Type} (call : σ → Call → Reply × σ) (s : σ) : List Call → List Reply × σ
  | [] => ([], s)
  | first :: rest =>
    let (reply, s) := call s first
    let (replies, s) := runAll call s rest
    (reply :: replies, s)

/-- The last time at which a finished record of the id was put in. -/
def lastPut? (id : TxnId) : List Call → Option Instant
  | [] => none
  | call :: rest => (lastPut? id rest).or (call.putAt id)

end Call

section Runs

open Call

variable {c : CompletedCache} {q : FinishedQueue}

theorem limits_insert (c : CompletedCache) (r : Record) (now : Instant) :
    (c.insert r now).2.capacity = c.capacity ∧ (c.insert r now).2.maxAge = c.maxAge ∧
      (c.insert r now).2.hits = c.hits ∧ (c.insert r now).2.misses = c.misses := by
  unfold insert
  split_ifs
  · exact ⟨rfl, rfl, rfl, rfl⟩
  · split <;> exact ⟨rfl, rfl, rfl, rfl⟩

theorem get_cases (c : CompletedCache) (id : TxnId) (now : Instant) :
    (∃ r, c.get id now = (some r, { c with hits := c.hits + 1 })) ∨
      c.get id now = (none, { c with misses := c.misses + 1 }) := by
  unfold get
  split
  · split_ifs
    · exact .inl ⟨_, rfl⟩
    · exact .inr rfl
  · exact .inr rfl

/-- Every call answers as on the queue, keeps in step with it, and leaves the limits alone. -/
theorem perform_alike (h : Mirrors c q) (call : Call) :
    (call.perform c).1 = (call.expect c.capacity c.maxAge q).1 ∧
      Mirrors (call.perform c).2 (call.expect c.capacity c.maxAge q).2 ∧
      (call.perform c).2.capacity = c.capacity ∧ (call.perform c).2.maxAge = c.maxAge := by
  cases call with
  | insert r now =>
    obtain ⟨hreply, hmirrors⟩ := mirrors_insert h r now
    obtain ⟨hcapacity, hmaxAge, -, -⟩ := limits_insert c r now
    exact ⟨congrArg Reply.admitted hreply, hmirrors, hcapacity, hmaxAge⟩
  | get id now =>
    simp only [perform, expect, get_eq h]
    cases q.get c.maxAge id now <;>
      exact ⟨rfl, ⟨h.entries, h.order, h.once, h.bounded⟩, rfl, rfl⟩
  | clear => exact ⟨rfl, mirrors_clear c, rfl, rfl⟩

/-- A look-up is counted as a hit or as a miss, and nothing else is counted. -/
theorem counts_perform (c : CompletedCache) (call : Call) :
    (call.perform c).2.hits = c.hits + (if (call.perform c).1.isHit then 1 else 0) ∧
      (call.perform c).2.hits + (call.perform c).2.misses =
        c.hits + c.misses + if call.isGet then 1 else 0 := by
  cases call with
  | insert r now =>
    obtain ⟨-, -, hhits, hmisses⟩ := limits_insert c r now
    simp [perform, Reply.isHit, isGet, hhits, hmisses]
  | get id now =>
    rcases get_cases c id now with ⟨r, hget⟩ | hget
    · simp only [perform, hget, Reply.isHit, isGet, if_true, true_and]
      omega
    · simp only [perform, hget, Reply.isHit, isGet, if_true, Bool.false_eq_true, if_false]
      omega
  | clear => simp [perform, Reply.isHit, isGet, CompletedCache.clear]

theorem isFinished_of_admitted {capacity : Nat} {r : Record}
    (h : ¬ (capacity = 0 ∨ r.isFinished = false)) : r.isFinished = true :=
  eq_true_of_ne_false (not_or.mp h).2

/-- What the queue holds behind a call was put in by it, or was there before and stays as it was. -/
theorem mem_expect {capacity : Nat} {maxAge : Duration} (hbounded : q.length ≤ capacity)
    (call : Call) {e : CachedRecord} (he : e ∈ (call.expect capacity maxAge q).2) :
    call.putAt e.id = some e.since ∨ call.putAt e.id = none ∧ e ∈ q := by
  cases call with
  | insert r now =>
    simp only [expect, FinishedQueue.insert] at he
    split_ifs at he with hrefused hmem
    · rcases hrefused with hzero | hlive
      · have hempty : q = [] := List.length_eq_zero_iff.mp (Nat.le_zero.mp (hzero ▸ hbounded))
        rw [hempty] at he
        cases he
      · exact .inr ⟨if_neg fun h => Bool.false_ne_true (hlive.symm.trans h.2), he⟩
    · obtain ⟨x, hx, rfl⟩ := List.mem_map.mp he
      rw [CachedRecord.id_refresh, CachedRecord.refresh]
      by_cases hid : x.id = r.id
      · rw [if_pos hid]
        exact .inl (if_pos ⟨hid.symm, isFinished_of_admitted hrefused⟩)
      · rw [if_neg hid]
        exact .inr ⟨if_neg fun h => hid h.1.symm, hx⟩
    · rcases List.mem_append.mp he with he | he
      · have hne : r.id ≠ e.id := fun heq =>
          hmem (List.mem_map.mpr ⟨e, List.mem_of_mem_drop he, heq.symm⟩)
        exact .inr ⟨if_neg fun h => hne h.1, List.mem_of_mem_drop he⟩
      · obtain rfl := List.mem_singleton.mp he
        exact .inl (if_pos ⟨rfl, isFinished_of_admitted hrefused⟩)
  | get id now => exact .inr ⟨rfl, he⟩
  | clear => cases he

/-- A run of calls answers as on the queue and keeps in step with it. What the queue holds in the
end was put in last at the time that it is marked with, or was there before. -/
theorem runAll_alike (h : Mirrors c q) (calls : List Call) :
    let cache := runAll Call.perform c calls
    let queue := runAll (Call.expect c.capacity c.maxAge) q calls
    cache.1 = queue.1 ∧ Mirrors cache.2 queue.2 ∧ cache.2.capacity = c.capacity ∧
      cache.2.maxAge = c.maxAge ∧ ∀ e ∈ queue.2, lastPut? e.id calls = some e.since ∨
        lastPut? e.id calls = none ∧ e ∈ q := by
  induction calls generalizing c q with
  | nil => exact ⟨rfl, h, rfl, rfl, fun e he => .inr ⟨rfl, he⟩⟩
  | cons call rest ih =>
    obtain ⟨hreply, hmirrors, hcapacity, hmaxAge⟩ := perform_alike h call
    have hput {e : CachedRecord} (he : e ∈ (call.expect c.capacity c.maxAge q).2) :=
      mem_expect h.bounded call he
    obtain ⟨hreplies, hend, hcapacity', hmaxAge', hlast⟩ := ih hmirrors
    rw [hcapacity, hmaxAge] at hreplies hend hlast
    refine ⟨congrArg₂ List.cons hreply hreplies, hend, hcapacity'.trans hcapacity,
      hmaxAge'.trans hmaxAge, fun e he => ?_⟩
    rw [lastPut?]
    rcases hlast e he with hlater | ⟨hnone, hbefore⟩
    · exact .inl (by rw [hlater, Option.some_or])
    · rw [hnone, Option.none_or]
      exact hput hbefore

theorem counts_runAll (c : CompletedCache) (calls : List Call) :
    let cache := runAll Call.perform c calls
    cache.2.hits = c.hits + cache.1.countP Reply.isHit ∧
      cache.2.hits + cache.2.misses = c.hits + c.misses + calls.countP Call.isGet := by
  induction calls generalizing c with
  | nil => exact ⟨rfl, rfl⟩
  | cons call rest ih =>
    obtain ⟨hhits, hboth⟩ := counts_perform c call
    obtain ⟨hhits', hboth'⟩ := ih (call.perform c).2
    simp only [runAll, List.countP_cons]
    omega

/-- Behind any calls from the empty cache on, at any instants: the calls were answered as on the
queue; the table holds the records of the queue, and the order their ids, each once; there are no
more than the capacity; a look-up finds the record that is held for an id iff the last time it was
put in does not lie back by more than the greatest age; and every look-up was counted once, as a hit
or as a miss. -/
theorem runAll_fifo (capacity : Nat) (maxAge : Duration) (calls : List Call) :
    let cache := runAll Call.perform (new capacity maxAge) calls
    let queue := runAll (Call.expect capacity maxAge) [] calls
    cache.1 = queue.1 ∧
    (cache.2.entries = queue.2.table ∧ cache.2.order = queue.2.ids) ∧
    (cache.2.order.Nodup ∧ ∀ id, id ∈ cache.2.order ↔ (cache.2.entries.find? id).isSome = true) ∧
    cache.2.length ≤ capacity ∧
    (∀ id now r, (cache.2.get id now).1 = some r ↔ r.id = id ∧ ∃ since,
      ⟨r, since⟩ ∈ queue.2 ∧ lastPut? id calls = some since ∧ now ≤ since + maxAge.nanos) ∧
    cache.2.hits = cache.1.countP Reply.isHit ∧
    cache.2.hits + cache.2.misses = calls.countP Call.isGet := by
  intro cache queue
  obtain ⟨hreplies, hmirrors, hcapacity, hmaxAge, hlast⟩ :=
    runAll_alike (mirrors_new capacity maxAge) calls
  obtain ⟨hhits, hboth⟩ := counts_runAll (new capacity maxAge) calls
  refine ⟨hreplies, ⟨hmirrors.entries, hmirrors.order⟩,
    ⟨hmirrors.order ▸ hmirrors.once, mem_order_iff hmirrors⟩,
    Nat.le_trans (length_le_capacity hmirrors) (Nat.le_of_eq hcapacity), fun id now r => ?_,
    hhits.trans (Nat.zero_add _), hboth.trans (Nat.zero_add _)⟩
  have hfound : (cache.2.get id now).1 = some r ↔
      r.id = id ∧ ∃ since, ⟨r, since⟩ ∈ queue.2 ∧ now ≤ since + maxAge.nanos := by
    rw [fst_get hmirrors, hmaxAge]
    exact get_eq_some_iff hmirrors.once
  rw [hfound]
  refine and_congr_right fun hid => exists_congr fun since => and_congr_right fun he => ?_
  have hput : lastPut? r.id calls = some since :=
    (hlast ⟨r, since⟩ he).resolve_right fun h => List.not_mem_nil h.2
  rw [← hid, and_iff_right hput]

/-- A record that is put in again leaves first all the same. -/
example :
    let ended (ts : UInt64) : Record := { Record.start ⟨ts⟩ 0 false with state := .rolledBack }
    (runAll Call.perform (new 2 ⟨10⟩) [.insert (ended 1) 0, .insert (ended 2) 1,
      .insert (ended 1) 2, .insert (ended 3) 3, .get ⟨1⟩ 4, .get ⟨2⟩ 4]).1 =
      [.admitted true, .admitted true, .admitted true, .admitted true, .found none,
        .found (some (ended 2))] := by
  decide

end Runs

end CompletedCache

end TxnEngine
