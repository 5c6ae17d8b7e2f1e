import TxnEngine.Log
import TxnEngine.Proofs.Log.Codec

/-!
# Opening a log as repeated decoding

`scan` takes records off the front of a byte string as long as that goes. Opening a stored log whose
storage does not fail does the same in place: the table is filled with the records found, and the
log is cut behind the last of them.

Results:
* `openStore_holding`: what opening a stored byte string answers and leaves behind.
* `scan_append`, `scan_encode_append`: records in front are found first, whatever stands behind
  them.
* `scan_take_used`: the bytes kept are found to hold the same records again, and nothing else.
-/

namespace TxnEngine.Log

/-! ## Scanning -/

/-- The records at the front of a byte string, and the number of bytes they take. -/
structure Scan where
  images : List Record
  used : Nat
deriving DecidableEq, Inhabited

/-- Takes records off the front of a byte string until that fails. -/
def scan (bytes : Bytes) : Scan :=
  match _h : Record.decode bytes with
  | .error _ => ⟨[], 0⟩
  | .ok (r, used) =>
    let behind := scan (bytes.drop used)
    ⟨r :: behind.images, used + behind.used⟩
termination_by bytes.length
decreasing_by
  have := Record.used_of_decode _h
  rw [List.length_drop]
  split at this <;> omega

theorem scan_of_error {bytes : Bytes} {e : Corruption} (h : Record.decode bytes = .error e) :
    scan bytes = ⟨[], 0⟩ := by
  rw [scan]
  split
  · rfl
  · next h' => rw [h] at h'; cases h'

theorem scan_of_ok {bytes : Bytes} {r : Record} {used : Nat}
    (h : Record.decode bytes = .ok (r, used)) :
    scan bytes = ⟨r :: (scan (bytes.drop used)).images, used + (scan (bytes.drop used)).used⟩ := by
  rw [scan]
  split
  · next h' => rw [h] at h'; cases h'
  · next h' =>
    rw [h] at h'
    cases h'
    rfl

@[simp]
theorem scan_nil : scan [] = ⟨[], 0⟩ :=
  scan_of_error (e := .truncatedHeader) rfl

theorem scan_used_le (bytes : Bytes) : (scan bytes).used ≤ bytes.length := by
  fun_induction scan bytes with
  | case1 bytes e h => simp
  | case2 bytes r used h behind ih =>
    have := (Record.used_of_decode h).2
    simp only [behind, List.length_drop] at ih ⊢
    omega

theorem consistent_of_mem_scan {bytes : Bytes} {r : Record} (hr : r ∈ (scan bytes).images) :
    r.Consistent := by
  fun_induction scan bytes with
  | case1 bytes e h => simp at hr
  | case2 bytes first used h behind ih =>
    rcases List.mem_cons.mp hr with rfl | hr
    · exact Record.consistent_of_decode h
    · exact ih hr

/-- A byte string that consists of records and nothing else. -/
def Whole (bytes : Bytes) : Prop :=
  (scan bytes).used = bytes.length

/-- Records that are followed by something are found first. -/
theorem scan_append {bytes : Bytes} (hw : Whole bytes) (rest : Bytes) :
    scan (bytes ++ rest) =
      ⟨(scan bytes).images ++ (scan rest).images, bytes.length + (scan rest).used⟩ := by
  unfold Whole at hw
  fun_induction scan bytes with
  | case1 bytes e h =>
    obtain rfl : bytes = [] := List.eq_nil_of_length_eq_zero hw.symm
    simp
  | case2 bytes r used h behind ih =>
    have hle := (Record.used_of_decode h).2
    have hbehind : behind.used = (bytes.drop used).length := by
      simp only at hw
      rw [List.length_drop]
      omega
    rw [scan_of_ok (Record.decode_append h rest), List.drop_append_of_le_length hle, ih hbehind]
    simp only [behind, List.cons_append, Scan.mk.injEq, true_and, List.length_drop]
    omega

theorem scan_encode_append {r : Record} (h : r.Consistent) (rest : Bytes) :
    scan (r.encode ++ rest) = ⟨r :: (scan rest).images, r.encode.length + (scan rest).used⟩ := by
  rw [scan_of_ok (Record.decode_encode h rest), List.drop_left]

theorem whole_encode {r : Record} (h : r.Consistent) : Whole r.encode := by
  have := scan_encode_append h []
  simp only [List.append_nil, scan_nil, Nat.add_zero] at this
  rw [Whole, this]

theorem Whole.append {a b : Bytes} (ha : Whole a) (hb : Whole b) : Whole (a ++ b) := by
  rw [Whole, scan_append ha, hb, List.length_append]

/-- The bytes that a scan uses hold the same records, and nothing else. -/
theorem scan_take_used (bytes : Bytes) :
    scan (bytes.take (scan bytes).used) = scan bytes := by
  fun_induction scan bytes with
  | case1 bytes e h => simp
  | case2 bytes r used h behind ih =>
    have hdrop : (bytes.take (used + behind.used)).drop used =
        (bytes.drop used).take (scan (bytes.drop used)).used := by
      rw [List.drop_take, Nat.add_sub_cancel_left]
    rw [scan_of_ok (Record.decode_take h (Nat.le_add_right _ _)), hdrop, ih]

/-- The bytes that a scan uses consist of records. -/
theorem whole_take_used (bytes : Bytes) : Whole (bytes.take (scan bytes).used) := by
  rw [Whole, scan_take_used, List.length_take, Nat.min_eq_left (scan_used_le bytes)]

/-! ## Filling the table -/

/-- The table after taking in images one after the other. -/
def fill (records : RecordTable) (images : List Record) : RecordTable :=
  images.foldl (fun t r => t.insert r.id r) records

@[simp]
theorem fill_nil (records : RecordTable) : fill records [] = records := rfl

@[simp]
theorem fill_cons (records : RecordTable) (r : Record) (images : List Record) :
    fill records (r :: images) = fill (records.insert r.id r) images := rfl

theorem fill_append (records : RecordTable) (a b : List Record) :
    fill records (a ++ b) = fill (fill records a) b :=
  List.foldl_append

/-- Images of other transactions leave a transaction's record alone. -/
theorem find?_fill_of_forall_ne {records : RecordTable} {images : List Record} {id : TxnId}
    (h : ∀ r ∈ images, r.id ≠ id) : (fill records images).find? id = records.find? id := by
  induction images generalizing records with
  | nil => rfl
  | cons r images ih =>
    rw [fill_cons, ih fun s hs => h s (List.mem_cons_of_mem _ hs),
      Table.find?_insert_of_ne _ _ (h r List.mem_cons_self)]

/-! ## Opening -/

/-- The log that opening a byte string leads to. -/
def opened (h : Handle) (bytes : Bytes) : Log where
  store := .holding h (bytes.take (scan bytes).used) .none
  records := fill [] (scan bytes).images

section Opening

variable (h : Handle) (bytes : Bytes)

/-- Reading in place succeeds exactly if decoding the rest of the log does, with the same answer. -/
theorem readOne_holding {offset : Nat} (hle : offset ≤ bytes.length) :
    ∃ answer, readOne (.holding h bytes .none) offset bytes.length =
        (answer, .holding h bytes .none) ∧
      ∀ x, answer = .ok x ↔ Record.decode (bytes.drop offset) = .ok x := by
  obtain ⟨rest, hrest⟩ : ∃ rest, rest = bytes.drop offset := ⟨_, rfl⟩
  have hlen : bytes.length - offset = rest.length := by rw [hrest, List.length_drop]
  rw [← hrest, readOne]
  by_cases hshort : rest.length < Record.headerLength + Record.trailerLength
  · refine ⟨_, by rw [if_pos (hlen ▸ hshort)], fun x => ⟨by simp, fun hd => ?_⟩⟩
    have := Record.used_of_decode hd
    simp only [Record.headerLength, Record.trailerLength] at hshort
    split at this <;> omega
  rw [if_neg (hlen ▸ hshort)]
  simp only [Record.trailerLength] at hshort
  have hheader : (Store.holding h bytes .none).read offset Record.headerLength =
      (.ok (rest.take Record.headerLength), .holding h bytes .none) := by
    rw [Store.read_holding, if_neg (by omega), hrest]
  simp only [hheader]
  cases hd : Record.decodeHeader (rest.take Record.headerLength) with
  | error e =>
    refine ⟨_, rfl, fun x => ⟨by simp, fun hx => ?_⟩⟩
    obtain ⟨length, hfound, -⟩ := bind_eq_ok.mp hx
    obtain ⟨hlt, hpre⟩ := Record.decodeHeader_eq_ok_iff.mp hfound
    have hpre' : Record.header length <+: rest.take Record.headerLength :=
      List.prefix_take_iff.mpr ⟨hpre, by simp⟩
    rw [Record.decodeHeader_eq_ok_iff.mpr ⟨hlt, hpre'⟩] at hd
    cases hd
  | ok length =>
    obtain ⟨hlt, hpre⟩ := Record.decodeHeader_eq_ok_iff.mp hd
    obtain ⟨tail, rfl⟩ := hpre.trans (List.take_prefix _ rest)
    have htail : bytes.drop (offset + Record.headerLength) = tail := by
      rw [← List.drop_drop, ← hrest, List.drop_left' (Record.length_header length)]
    rw [List.length_append, Record.length_header] at hlen
    simp only [Record.decode_header_append hlt]
    by_cases hbody : tail.length < length + Record.trailerLength
    · refine ⟨_, by rw [if_pos (by omega)], fun x => ?_⟩
      simp [hbody]
    have hread : (Store.holding h bytes .none).read (offset + Record.headerLength)
        (length + Record.trailerLength) =
          (.ok (tail.take (length + Record.trailerLength)), .holding h bytes .none) := by
      rw [Store.read_holding, if_neg (by omega), htail]
    have hpayload : (tail.take (length + Record.trailerLength)).take length = tail.take length := by
      rw [List.take_take, Nat.min_eq_left (by omega)]
    have htrailer : (tail.take (length + Record.trailerLength)).drop length =
        (tail.drop length).take Record.trailerLength := by
      rw [List.drop_take, Nat.add_sub_cancel_left]
    rw [if_neg (by omega)]
    simp only [hread, hpayload, htrailer, if_neg hbody]
    cases Record.checkPayload (tail.take length) ((tail.drop length).take Record.trailerLength) with
    | error e => exact ⟨_, rfl, fun x => by simp [bind, Except.bind]⟩
    | ok _ =>
      cases Record.decodePayload (tail.take length) with
      | error e => exact ⟨_, rfl, fun x => by simp [bind, Except.bind]⟩
      | ok r => exact ⟨_, rfl, fun x => by simp [bind, Except.bind, pure, Except.pure]⟩

/-- Replaying from an offset scans the bytes behind it. -/
theorem replayFrom_holding {fuel offset : Nat} (records : RecordTable)
    (hle : offset ≤ bytes.length) (hfuel : bytes.length - offset < fuel) :
    replayFrom bytes.length fuel offset records (.holding h bytes .none) =
      (.ok (fill records (scan (bytes.drop offset)).images),
        .holding h (bytes.take (offset + (scan (bytes.drop offset)).used)) .none) := by
  induction fuel generalizing offset records with
  | zero => omega
  | succ fuel ih =>
    rw [replayFrom]
    by_cases hend : offset < bytes.length
    · rw [if_pos hend]
      obtain ⟨answer, hread, hiff⟩ := readOne_holding h bytes hle
      rw [hread]
      cases hd : Record.decode (bytes.drop offset) with
      | ok found =>
        obtain ⟨r, used⟩ := found
        obtain rfl : answer = .ok (r, used) := (hiff _).mpr hd
        have hused := Record.used_of_decode hd
        rw [List.length_drop] at hused
        have hpos : 0 < used := by
          rw [hused.1]
          split <;> decide
        simp only
        rw [ih _ (by omega) (by omega), scan_of_ok hd, fill_cons, List.drop_drop, Nat.add_assoc]
      | error e =>
        cases answer with
        | ok x => simpa [hd] using hiff x
        | error e' =>
          simp only [cut, Store.truncate_holding h bytes hle, Store.sync_holding,
            scan_of_error hd, fill_nil, Nat.add_zero]
    · obtain rfl : offset = bytes.length := by omega
      simp

/-- Opening a stored byte string succeeds, and leads to the log that scanning it tells of. -/
theorem openStore_holding :
    openStore (.holding h bytes .none) = (.ok (opened h bytes), (opened h bytes).store) := by
  rw [openStore, replay, Store.size_holding]
  simp only
  rw [replayFrom_holding h bytes [] (Nat.zero_le _) (by omega)]
  simp [opened]

end Opening

end TxnEngine.Log
