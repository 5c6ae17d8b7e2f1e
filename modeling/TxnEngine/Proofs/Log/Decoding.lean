import Mathlib.Data.List.Induction
import Mathlib.Data.List.Nodup
import TxnEngine.Proofs.Log.Scan

/-!
# What opening a log finds, told by decoding alone

`Decodes bytes pieces` says what it is to decode a byte string again and again: an envelope is taken
off the front, then one off the rest, until nothing decodes any more. Opening a stored byte string
keeps the pieces that were taken and cuts off the rest.

Results:
* `decodes_iff`: there is one way to decode a byte string again and again, the one that scanning
  goes.
* `find?_fill`: the table holds the last image of every transaction.
* `openStore_decodes`: opening any byte string succeeds, and is decoding it again and again.
-/

namespace TxnEngine

/-- A new key goes behind the others, and one that has a value stays where it is. -/
theorem Table.map_fst_insert {κ ν : Type} [DecidableEq κ] (t : Table κ ν) (key : κ) (value : ν) :
    (t.insert key value).map Prod.fst =
      if key ∈ t.map Prod.fst then t.map Prod.fst else t.map Prod.fst ++ [key] := by
  induction t with
  | nil => simp [insert]
  | cons p rest ih =>
    obtain ⟨k, v⟩ := p
    by_cases hkey : k = key
    · simp [insert, hkey]
    · have hkey' : key ≠ k := Ne.symm hkey
      simp only [insert, if_neg hkey, List.map_cons, ih, List.mem_cons, hkey', false_or]
      split_ifs <;> rfl

namespace Log

/-! ## Decoding again and again -/

/-- The envelopes that are taken off the front of a byte string one behind the other, each with the
record in it, when nothing behind the last of them decodes. -/
inductive Decodes : Bytes → List (Record × Bytes) → Prop
  | stop {bytes : Bytes} {e : Corruption} (h : Record.decode bytes = .error e) : Decodes bytes []
  | next {bytes : Bytes} {r : Record} {used : Nat} {pieces : List (Record × Bytes)}
    (h : Record.decode bytes = .ok (r, used)) (rest : Decodes (bytes.drop used) pieces) :
    Decodes bytes ((r, bytes.take used) :: pieces)

theorem exists_decodes (bytes : Bytes) : ∃ pieces, Decodes bytes pieces := by
  fun_induction scan bytes with
  | case1 bytes e h => exact ⟨[], .stop h⟩
  | case2 bytes r used h behind ih =>
    obtain ⟨pieces, hpieces⟩ := ih
    exact ⟨_, .next h hpieces⟩

theorem Decodes.unique {bytes : Bytes} {pieces other : List (Record × Bytes)}
    (h : Decodes bytes pieces) (h' : Decodes bytes other) : other = pieces := by
  induction h generalizing other with
  | stop h =>
    cases h' with
    | stop => rfl
    | next h' => rw [h] at h'; cases h'
  | next h rest ih =>
    cases h' with
    | stop h' => rw [h] at h'; cases h'
    | next h' rest' =>
      rw [h] at h'
      cases h'
      rw [ih rest']

/-- The records taken are those that a scan finds. -/
theorem Decodes.images {bytes : Bytes} {pieces : List (Record × Bytes)}
    (h : Decodes bytes pieces) : (scan bytes).images = pieces.map Prod.fst := by
  induction h with
  | stop h => rw [scan_of_error h]; rfl
  | next h rest ih => rw [scan_of_ok h, List.map_cons, ih]

/-- The envelopes taken are the bytes that a scan uses. -/
theorem Decodes.taken {bytes : Bytes} {pieces : List (Record × Bytes)}
    (h : Decodes bytes pieces) : bytes.take (scan bytes).used = pieces.flatMap Prod.snd := by
  induction h with
  | stop h => rw [scan_of_error h]; rfl
  | next h rest ih => rw [scan_of_ok h, List.flatMap_cons, ← ih, List.take_add]

/-! ## The table -/

/-- A table that is filled holds the last image of every transaction. -/
theorem find?_fill (images : List Record) (id : TxnId) :
    (fill [] images).find? id = (images.filter fun r => r.id = id).getLast? := by
  induction images using List.reverseRecOn with
  | nil => rfl
  | append_singleton images r ih =>
    rw [fill_append, fill_cons, fill_nil, List.filter_append]
    by_cases hid : r.id = id
    · subst hid
      simp [Table.find?_insert_self]
    · simp [hid, Table.find?_insert_of_ne, ih]

/-- A table that is filled has one entry for each transaction that has an image. -/
theorem nodup_fill (images : List Record) : ((fill [] images).map Prod.fst).Nodup := by
  induction images using List.reverseRecOn with
  | nil => exact List.nodup_nil
  | append_singleton images r ih =>
    rw [fill_append, fill_cons, fill_nil, Table.map_fst_insert]
    split_ifs with hmem
    · exact ih
    · refine List.nodup_append.mpr ⟨ih, List.nodup_singleton _, fun a ha b hb hab => hmem ?_⟩
      rwa [← List.mem_singleton.mp hb, ← hab]

/-! ## Opening -/

/-- Opening any stored byte string succeeds, and is decoding it again and again: the table holds the
last image of every transaction among the records taken, and the log that is left consists of the
envelopes taken. It does not matter how many rounds are allowed above the number of bytes. One step
of it accepts an envelope exactly if decoding the rest of the log does, and answers the same. The
log that is left opens without a change. -/
theorem openStore_decodes (h : Handle) (bytes : Bytes) :
    ∃ pieces, Decodes bytes pieces ∧ (∀ other, Decodes bytes other → other = pieces) ∧
      ∃ l : Log, openStore (.holding h bytes .none) = (.ok l, l.store) ∧
        (∀ id, l.get? id = ((pieces.map Prod.fst).filter fun r => r.id = id).getLast?) ∧
        (l.records.map Prod.fst).Nodup ∧
        l.store = .holding h (pieces.flatMap Prod.snd) .none ∧
        pieces.flatMap Prod.snd <+: bytes ∧
        (∀ fuel, bytes.length < fuel →
          replayFrom bytes.length fuel 0 [] (.holding h bytes .none) = (.ok l.records, l.store)) ∧
        (∀ offset ≤ bytes.length,
          let reading := readOne (.holding h bytes .none) offset bytes.length
          reading.2 = .holding h bytes .none ∧
            ∀ found, reading.1 = .ok found ↔ Record.decode (bytes.drop offset) = .ok found) ∧
        ∀ h', let again := Store.holding h' l.store.bytes .none
          openStore again = (.ok ⟨again, l.records⟩, again) := by
  obtain ⟨pieces, hpieces⟩ := exists_decodes bytes
  have hstore : (opened h bytes).store = .holding h (pieces.flatMap Prod.snd) .none := by
    rw [opened, hpieces.taken]
  refine ⟨pieces, hpieces, fun other => hpieces.unique, opened h bytes, openStore_holding h bytes,
    fun id => ?_, nodup_fill _, hstore, ?_, fun fuel hfuel => ?_, fun offset hoffset => ?_,
    fun h' => ?_⟩
  · rw [get?, opened, find?_fill, hpieces.images]
  · rw [← hpieces.taken]
    exact List.take_prefix _ bytes
  · rw [replayFrom_holding h bytes [] (Nat.zero_le _) (by omega), List.drop_zero, Nat.zero_add]
    rfl
  · obtain ⟨answer, hread, hiff⟩ := readOne_holding h bytes hoffset
    rw [hread]
    exact ⟨rfl, hiff⟩
  · -- the envelopes that were kept hold the same records, and nothing else
    have hkept : (opened h bytes).store.bytes = bytes.take (scan bytes).used := by simp [opened]
    have hsame : opened h' (bytes.take (scan bytes).used) =
        ⟨.holding h' (bytes.take (scan bytes).used) .none, (opened h bytes).records⟩ := by
      rw [opened, scan_take_used, List.take_take, Nat.min_self]
      rfl
    simp only [hkept, openStore_holding, hsame]

end Log

end TxnEngine
