import Mathlib.Tactic.Common
import TxnEngine.Record.Codec

/-!
# Laws of the record codec

A reader of a field succeeds exactly on byte strings that begin with the written field. From this
follow the same statements about payloads and envelopes.

Results:
* `decodePayload_eq_ok_iff`: a payload is read as `r` iff it consists of the fields of `r` and a
  byte of flags whose lowest bit says whether `r` is read-only.
* `decode_eq_ok_iff`: a record is read from the front of a byte string iff the string begins with
  the envelope around a payload of that record.
* `decode_encode`, `decode_append`, `decode_strict_prefix`: a written record is read back, whatever
  follows it, and no strict prefix of it is read as anything.
* `format_exact`: the format as a whole, told by what is written and by what stands in the bytes.
-/

namespace TxnEngine

theorem bind_eq_ok {ε α β : Type} {x : Except ε α} {f : α → Except ε β} {b : β} :
    (x >>= f) = .ok b ↔ ∃ a, x = .ok a ∧ f a = .ok b := by
  cases x <;> simp [bind, Except.bind]

namespace Record

/-! ## Fields -/

@[simp]
theorem length_wordBytes (w : UInt64) : (wordBytes w).length = 8 :=
  length_littleEndian 8 _

theorem readByte_eq_ok_iff {bytes rest : Bytes} {b : UInt8} :
    readByte bytes = .ok (b, rest) ↔ bytes = b :: rest := by
  cases bytes <;> simp [readByte]

theorem readWord_eq_ok_iff {bytes rest : Bytes} {w : UInt64} :
    readWord bytes = .ok (w, rest) ↔ bytes = wordBytes w ++ rest := by
  unfold readWord
  constructor
  · intro h
    split at h
    · cases h
    · next hlen =>
      obtain ⟨rfl, rfl⟩ : _ = w ∧ _ = rest := by simpa using h
      have htake : (bytes.take 8).length = 8 := by simp; omega
      have hlt : ofLittleEndian (bytes.take 8) < UInt64.size := ofLittleEndian_lt htake
      have hword : wordBytes (UInt64.ofNat (ofLittleEndian (bytes.take 8))) = bytes.take 8 := by
        rw [wordBytes, UInt64.toNat_ofNat', Nat.mod_eq_of_lt hlt, littleEndian_ofLittleEndian htake]
      rw [hword, List.take_append_drop]
  · rintro rfl
    have hnum : ofLittleEndian (wordBytes w) = w.toNat :=
      ofLittleEndian_littleEndian 8 _ w.toNat_lt
    rw [if_neg (by simp), List.take_left' (length_wordBytes w), List.drop_left' (length_wordBytes w),
      hnum, UInt64.ofNat_toNat]

theorem eq_toByte_of_ofByte? {b : UInt8} {s : TxnState} (h : TxnState.ofByte? b = some s) :
    b = s.toByte := by
  unfold TxnState.ofByte? at h
  split_ifs at h <;> cases h <;> assumption

theorem readState_eq_ok_iff {bytes rest : Bytes} {s : TxnState} :
    readState bytes = .ok (s, rest) ↔ bytes = s.toByte :: rest := by
  simp only [readState, bind_eq_ok, Prod.exists, readByte_eq_ok_iff]
  constructor
  · rintro ⟨b, tail, rfl, h⟩
    split at h
    · next hs =>
      obtain ⟨rfl, rfl⟩ : _ = s ∧ _ = rest := by simpa [pure, Except.pure] using h
      rw [eq_toByte_of_ofByte? hs]
    · cases h
  · rintro rfl
    exact ⟨_, _, rfl, by rw [TxnState.ofByte?_toByte]; rfl⟩

theorem readCommit_eq_ok_iff {bytes rest : Bytes} {ts : Option Timestamp} :
    readCommit bytes = .ok (ts, rest) ↔ bytes = commitBytes ts ++ rest := by
  simp only [readCommit, bind_eq_ok, Prod.exists, readByte_eq_ok_iff]
  constructor
  · rintro ⟨flag, tail, rfl, h⟩
    split_ifs at h with h0 h1
    · obtain ⟨rfl, rfl⟩ : _ = ts ∧ _ = rest := by simpa [pure, Except.pure] using h
      rw [h0]
      rfl
    · obtain ⟨⟨w, tail'⟩, hw, h⟩ := bind_eq_ok.mp h
      obtain ⟨rfl, rfl⟩ : _ = ts ∧ _ = rest := by simpa [pure, Except.pure] using h
      rw [h1, readWord_eq_ok_iff.mp hw]
      rfl
  · rintro rfl
    cases ts with
    | none => exact ⟨0, rest, rfl, rfl⟩
    | some ts =>
      refine ⟨1, wordBytes ts.val ++ rest, rfl, ?_⟩
      rw [if_neg (by decide), if_pos rfl, bind_eq_ok]
      exact ⟨(ts.val, rest), readWord_eq_ok_iff.mpr rfl, rfl⟩

/-! ## Payloads -/

/-- A payload without its last byte, the one of flags. -/
def fields (r : Record) : Bytes :=
  wordBytes r.id.val ++ r.state.toByte :: (wordBytes r.beginTs.val ++
    (commitBytes r.commitTs ++ wordBytes r.lastKeepAlive))

theorem encodePayload_eq (r : Record) :
    r.encodePayload = r.fields ++ [if r.readOnly then 1 else 0] := by
  simp [encodePayload, fields]

/-- What was read from a payload is in its bytes. -/
theorem fields_of_decodePayload {payload : Bytes} {r : Record}
    (h : decodePayload payload = .ok r) :
    r.Consistent ∧
      ∃ flags : UInt8, payload = r.fields ++ [flags] ∧ r.readOnly = decide (flags &&& 1 = 1) := by
  obtain ⟨⟨id, rest₁⟩, hid, h⟩ := bind_eq_ok.mp h
  obtain ⟨⟨state, rest₂⟩, hstate, h⟩ := bind_eq_ok.mp h
  obtain ⟨⟨beginTs, rest₃⟩, hbegin, h⟩ := bind_eq_ok.mp h
  obtain ⟨⟨commitTs, rest₄⟩, hcommit, h⟩ := bind_eq_ok.mp h
  obtain ⟨⟨alive, rest₅⟩, halive, h⟩ := bind_eq_ok.mp h
  obtain ⟨⟨flags, rest₆⟩, hflags, h⟩ := bind_eq_ok.mp h
  have hbytes : payload = wordBytes id ++ state.toByte :: (wordBytes beginTs ++
      (commitBytes commitTs ++ (wordBytes alive ++ flags :: rest₆))) := by
    rw [readWord_eq_ok_iff.mp hid, readState_eq_ok_iff.mp hstate, readWord_eq_ok_iff.mp hbegin,
      readCommit_eq_ok_iff.mp hcommit, readWord_eq_ok_iff.mp halive, readByte_eq_ok_iff.mp hflags]
  by_cases hrest : rest₆ = []
  · by_cases hstamp : commitTs.isSome = decide (state = .committed)
    · simp only [hrest, hstamp, ne_eq, not_true, if_false] at h
      cases h
      refine ⟨?_, flags, ?_, rfl⟩
      · simpa [Consistent] using congrArg (· = true) hstamp
      · simp [hbytes, hrest, fields]
    · simp only [hrest, ne_eq, not_true, if_false] at h
      rw [if_pos hstamp] at h
      cases h
  · simp only [ne_eq] at h
    rw [if_pos hrest] at h
    cases h

/-- The fields of a record are read back, with the flags behind them. -/
theorem decodePayload_fields {r : Record} (hc : r.Consistent) {flags : UInt8}
    (hro : r.readOnly = decide (flags &&& 1 = 1)) :
    decodePayload (r.fields ++ [flags]) = .ok r := by
  have hcommit : r.commitTs.isSome = decide (r.state = .committed) := by
    rw [Bool.eq_iff_iff, decide_eq_true_iff]
    exact hc
  refine bind_eq_ok.mpr ⟨(r.id.val, _), readWord_eq_ok_iff.mpr (List.append_assoc _ _ _), ?_⟩
  refine bind_eq_ok.mpr ⟨(r.state, _), readState_eq_ok_iff.mpr (List.cons_append), ?_⟩
  refine bind_eq_ok.mpr ⟨(r.beginTs.val, _), readWord_eq_ok_iff.mpr (List.append_assoc _ _ _), ?_⟩
  refine bind_eq_ok.mpr ⟨(r.commitTs, _), readCommit_eq_ok_iff.mpr (List.append_assoc _ _ _), ?_⟩
  refine bind_eq_ok.mpr ⟨(r.lastKeepAlive, _), readWord_eq_ok_iff.mpr rfl, ?_⟩
  refine bind_eq_ok.mpr ⟨(flags, []), readByte_eq_ok_iff.mpr rfl, ?_⟩
  simp only [ne_eq, not_true, if_false, hcommit, ← hro]
  rfl

theorem decodePayload_eq_ok_iff {payload : Bytes} {r : Record} :
    decodePayload payload = .ok r ↔
      r.Consistent ∧
        ∃ flags : UInt8, payload = r.fields ++ [flags] ∧ r.readOnly = decide (flags &&& 1 = 1) := by
  refine ⟨fields_of_decodePayload, ?_⟩
  rintro ⟨hc, flags, rfl, hro⟩
  exact decodePayload_fields hc hro

theorem decodePayload_encodePayload {r : Record} (h : r.Consistent) :
    decodePayload r.encodePayload = .ok r := by
  rw [decodePayload_eq_ok_iff, encodePayload_eq]
  refine ⟨h, _, rfl, ?_⟩
  cases r.readOnly <;> decide

theorem length_fields (r : Record) : r.fields.length = if r.commitTs.isSome then 34 else 26 := by
  cases hc : r.commitTs <;> simp [fields, commitBytes, hc]

/-- A readable payload has 27 bytes, or 35 if it holds a commit timestamp. -/
theorem length_of_decodePayload {payload : Bytes} {r : Record} (h : decodePayload payload = .ok r) :
    payload.length = if r.commitTs.isSome then 35 else 27 := by
  obtain ⟨-, flags, rfl, -⟩ := fields_of_decodePayload h
  rw [List.length_append, length_fields]
  split <;> rfl

/-- The length of a readable payload fits into its field in the header. -/
theorem length_lt_of_decodePayload {payload : Bytes} {r : Record}
    (h : decodePayload payload = .ok r) : payload.length < UInt32.size := by
  rw [length_of_decodePayload h]
  split <;> decide

theorem length_encodePayload_lt (r : Record) : r.encodePayload.length < UInt32.size := by
  rw [encodePayload_eq, List.length_append, length_fields]
  split <;> simp [UInt32.size]

/-! ## Envelopes -/

/-- What stands in front of a payload of the given length. -/
def header (length : Nat) : Bytes :=
  magic ++ littleEndian 2 version ++ littleEndian 4 length

/-- What stands behind a payload. -/
def trailer (payload : Bytes) : Bytes :=
  littleEndian 4 (Checksum.crc32 payload).toNat

theorem envelope_eq (payload : Bytes) :
    envelope payload = header payload.length ++ payload ++ trailer payload := rfl

@[simp]
theorem length_header (length : Nat) : (header length).length = headerLength := by
  simp [header, magic, headerLength]

@[simp]
theorem length_trailer (payload : Bytes) : (trailer payload).length = trailerLength :=
  length_littleEndian 4 _

@[simp]
theorem length_envelope (payload : Bytes) :
    (envelope payload).length = headerLength + payload.length + trailerLength := by
  simp [envelope_eq, Nat.add_assoc]

/-- What stands at the front of an envelope. -/
theorem take_envelope_append (payload rest : Bytes) :
    (envelope payload ++ rest).take headerLength = header payload.length := by
  rw [envelope_eq, List.append_assoc, List.append_assoc, List.take_left' (length_header _)]

/-- What stands behind the header of an envelope. -/
theorem drop_envelope_append (payload rest : Bytes) :
    (envelope payload ++ rest).drop headerLength = payload ++ (trailer payload ++ rest) := by
  rw [envelope_eq, List.append_assoc, List.append_assoc, List.drop_left' (length_header _)]

theorem take_append_drop_add (bytes : Bytes) (n m : Nat) :
    (bytes.drop n).take m ++ bytes.drop (n + m) = bytes.drop n := by
  rw [← List.drop_drop, List.take_append_drop]

theorem length_take_drop {bytes : Bytes} {n m : Nat} (h : n + m ≤ bytes.length) :
    ((bytes.drop n).take m).length = m := by
  rw [List.length_take, List.length_drop]
  omega

theorem decodeHeader_eq_ok_iff {bytes : Bytes} {length : Nat} :
    decodeHeader bytes = .ok length ↔ length < UInt32.size ∧ header length <+: bytes := by
  constructor
  · intro h
    simp only [decodeHeader] at h
    split_ifs at h with hlen hmagic hversion
    obtain rfl : _ = length := by simpa using h
    have hlen : 6 + 4 ≤ bytes.length := Nat.not_lt.mp hlen
    have h2 : ((bytes.drop 4).take 2).length = 2 := length_take_drop (Nat.le_of_add_right_le hlen)
    have h4 : ((bytes.drop 6).take 4).length = 4 := length_take_drop hlen
    refine ⟨ofLittleEndian_lt h4, bytes.drop 10, ?_⟩
    rw [header, ← Decidable.not_not.mp hmagic, ← Decidable.not_not.mp hversion,
      littleEndian_ofLittleEndian h2, littleEndian_ofLittleEndian h4, List.append_assoc,
      List.append_assoc, take_append_drop_add bytes 6 4, take_append_drop_add bytes 4 2,
      List.take_append_drop]
  · rintro ⟨hlt, rest, rfl⟩
    have hmagic : (header length ++ rest).take 4 = magic := by
      simp [header, magic]
    have hversion : ((header length ++ rest).drop 4).take 2 = littleEndian 2 version := by
      simp [header, magic]
    have hlength : ((header length ++ rest).drop 6).take 4 = littleEndian 4 length := by
      simp [header, magic]
    simp only [decodeHeader]
    rw [if_neg (by simp), if_neg (by simp [hmagic]), hversion, hlength,
      ofLittleEndian_littleEndian 2 version (by decide), ofLittleEndian_littleEndian 4 length hlt,
      if_neg (by simp)]

theorem checkPayload_eq_ok_iff {payload bytes : Bytes} (h : bytes.length = trailerLength) :
    checkPayload payload bytes = .ok () ↔ bytes = trailer payload := by
  simp only [checkPayload]
  constructor
  · intro hc
    split_ifs at hc with hne
    have hlt : ofLittleEndian bytes < UInt32.size := ofLittleEndian_lt h
    rw [trailer, Decidable.not_not.mp hne, UInt32.toNat_ofNat', Nat.mod_eq_of_lt hlt]
    exact (littleEndian_ofLittleEndian h).symm
  · rintro rfl
    have hnum : ofLittleEndian (trailer payload) = (Checksum.crc32 payload).toNat :=
      ofLittleEndian_littleEndian 4 _ (Checksum.crc32 payload).toNat_lt
    rw [hnum, UInt32.ofNat_toNat, if_neg (by simp)]

/-- Reading behind a header. -/
theorem decode_header_append {length : Nat} (h : length < UInt32.size) (rest : Bytes) :
    decode (header length ++ rest) =
      if rest.length < length + trailerLength then .error .truncatedEnvelope
      else do
        checkPayload (rest.take length) ((rest.drop length).take trailerLength)
        let record ← decodePayload (rest.take length)
        return (record, headerLength + length + trailerLength) := by
  have hh : decodeHeader (header length ++ rest) = .ok length :=
    decodeHeader_eq_ok_iff.mpr ⟨h, List.prefix_append _ _⟩
  have hdrop : (header length ++ rest).drop headerLength = rest :=
    List.drop_left' (length_header length)
  have hdrop' : (header length ++ rest).drop (headerLength + length) = rest.drop length := by
    rw [← List.drop_drop, hdrop]
  have hlen : (header length ++ rest).length < headerLength + length + trailerLength ↔
      rest.length < length + trailerLength := by
    rw [List.length_append, length_header]
    omega
  rw [decode, hh]
  simp only [bind, Except.bind, hdrop, hdrop', hlen]
  by_cases hshort : rest.length < length + trailerLength
  · simp only [if_pos hshort]
    rfl
  · simp only [if_neg hshort]

theorem decode_eq_ok_iff {bytes : Bytes} {r : Record} {used : Nat} :
    decode bytes = .ok (r, used) ↔
      ∃ payload, decodePayload payload = .ok r ∧ used = (envelope payload).length ∧
        envelope payload <+: bytes := by
  constructor
  · intro h
    obtain ⟨length, hh, -⟩ := bind_eq_ok.mp h
    obtain ⟨hlt, rest, rfl⟩ := decodeHeader_eq_ok_iff.mp hh
    rw [decode_header_append hlt] at h
    split_ifs at h with hshort
    obtain ⟨⟨⟩, hcheck, h⟩ := bind_eq_ok.mp h
    obtain ⟨record, hp, h⟩ := bind_eq_ok.mp h
    obtain ⟨rfl, rfl⟩ : _ = r ∧ _ = used := by simpa [pure, Except.pure] using h
    have hlen : length + trailerLength ≤ rest.length := Nat.not_lt.mp hshort
    have hpl : (rest.take length).length = length :=
      List.length_take_of_le (Nat.le_of_add_right_le hlen)
    have htl : ((rest.drop length).take trailerLength).length = trailerLength :=
      length_take_drop hlen
    have htrailer := (checkPayload_eq_ok_iff htl).mp hcheck
    refine ⟨rest.take length, hp, by simp [hpl], rest.drop (length + trailerLength), ?_⟩
    rw [envelope_eq, hpl, ← htrailer, List.append_assoc, List.append_assoc,
      take_append_drop_add, List.take_append_drop]
  · rintro ⟨payload, hp, rfl, rest, rfl⟩
    have hsmall := length_lt_of_decodePayload hp
    have htake : (payload ++ (trailer payload ++ rest)).take payload.length = payload := by simp
    have hdrop : ((payload ++ (trailer payload ++ rest)).drop payload.length).take trailerLength =
        trailer payload := by simp
    have hcheck := (checkPayload_eq_ok_iff (length_trailer payload)).mpr rfl
    rw [envelope_eq, List.append_assoc, List.append_assoc, decode_header_append hsmall,
      if_neg (by simp), htake, hdrop, hcheck, hp]
    simp [bind, Except.bind, pure, Except.pure, Nat.add_assoc]

theorem header_prefix_envelope (payload : Bytes) : header payload.length <+: envelope payload := by
  rw [envelope_eq, List.append_assoc]
  exact List.prefix_append _ _

/-- An envelope at the front of another one is as long, as the header tells the length. -/
theorem length_eq_of_envelope_prefix {p q : Bytes} (hp : p.length < UInt32.size)
    (hq : q.length < UInt32.size) (h : envelope p <+: envelope q) : p.length = q.length := by
  have hleft : decodeHeader (envelope q) = .ok p.length := by
    rw [decodeHeader_eq_ok_iff]
    exact ⟨hp, (header_prefix_envelope p).trans h⟩
  have hright : decodeHeader (envelope q) = .ok q.length := by
    rw [decodeHeader_eq_ok_iff]
    exact ⟨hq, header_prefix_envelope q⟩
  exact Except.ok.inj (hleft.symm.trans hright)

/-! ## Records -/

/-- Reading a record does not look behind its envelope. -/
theorem decode_append {bytes : Bytes} {r : Record} {used : Nat}
    (h : decode bytes = .ok (r, used)) (rest : Bytes) :
    decode (bytes ++ rest) = .ok (r, used) := by
  rw [decode_eq_ok_iff] at h ⊢
  obtain ⟨payload, hp, hused, hpre⟩ := h
  exact ⟨payload, hp, hused, hpre.trans (List.prefix_append _ _)⟩

/-- Bytes behind an envelope can be cut off. -/
theorem decode_take {bytes : Bytes} {r : Record} {used n : Nat}
    (h : decode bytes = .ok (r, used)) (hle : used ≤ n) :
    decode (bytes.take n) = .ok (r, used) := by
  rw [decode_eq_ok_iff] at h ⊢
  obtain ⟨payload, hp, hused, hpre⟩ := h
  exact ⟨payload, hp, hused, List.prefix_take_iff.mpr ⟨hpre, by omega⟩⟩

/-- An envelope takes 41 bytes, or 49 if the record has a commit timestamp. -/
theorem used_of_decode {bytes : Bytes} {r : Record} {used : Nat}
    (h : decode bytes = .ok (r, used)) :
    used = (if r.commitTs.isSome then 49 else 41) ∧ used ≤ bytes.length := by
  rw [decode_eq_ok_iff] at h
  obtain ⟨payload, hp, rfl, hpre⟩ := h
  refine ⟨?_, hpre.length_le⟩
  rw [length_envelope, length_of_decodePayload hp]
  split <;> rfl

theorem consistent_of_decode {bytes : Bytes} {r : Record} {used : Nat}
    (h : decode bytes = .ok (r, used)) : r.Consistent := by
  rw [decode_eq_ok_iff] at h
  obtain ⟨payload, hp, -⟩ := h
  exact (fields_of_decodePayload hp).1

theorem length_encode_pos (r : Record) : 0 < r.encode.length := by
  rw [encode, length_envelope, headerLength]
  omega

/-- A written record is read back, whatever follows it. -/
theorem decode_encode {r : Record} (h : r.Consistent) (rest : Bytes) :
    decode (r.encode ++ rest) = .ok (r, r.encode.length) := by
  rw [decode_eq_ok_iff]
  exact ⟨r.encodePayload, decodePayload_encodePayload h, rfl, List.prefix_append _ _⟩

/-- Nothing is read from a strict prefix of an envelope. -/
theorem decode_strict_prefix {bytes : Bytes} {r : Record} (hpre : bytes <+: r.encode)
    (hshort : bytes.length < r.encode.length) : ∃ e, decode bytes = .error e := by
  cases hd : decode bytes with
  | error e => exact ⟨e, rfl⟩
  | ok found =>
    -- what the prefix holds would have to be as long as the whole
    rw [decode_eq_ok_iff] at hd
    obtain ⟨payload, hp, -, henv⟩ := hd
    have hlen := length_eq_of_envelope_prefix (length_lt_of_decodePayload hp)
      (length_encodePayload_lt r) (henv.trans hpre)
    have hle := henv.length_le
    simp only [encode, length_envelope] at hshort hle
    omega

/-! ## The format -/

/-- Two byte strings that agree up to the upper seven bits of their last byte. -/
def SameUpToFlags (p q : Bytes) : Prop :=
  ∃ (front : Bytes) (a b : UInt8), p = front ++ [a] ∧ q = front ++ [b] ∧ a &&& 1 = b &&& 1

/-- Of the byte of flags only the lowest bit is read. -/
theorem readOnly_eq_iff (flags : UInt8) (readOnly : Bool) :
    readOnly = decide (flags &&& 1 = 1) ↔ flags &&& 1 = (if readOnly then 1 else 0) &&& 1 := by
  have hbit : flags &&& 1 = 0 ∨ flags &&& 1 = 1 := by
    have hlow : (flags &&& 1).toNat = flags.toNat % 2 := by
      simp [UInt8.toNat_and, Nat.and_one_is_mod]
    obtain h | h := Nat.mod_two_eq_zero_or_one flags.toNat
    · exact .inl (UInt8.toNat_inj.mp (hlow.trans h))
    · exact .inr (UInt8.toNat_inj.mp (hlow.trans h))
  obtain h | h := hbit <;> cases readOnly <;> simp [h]

/-- A payload is read as `r` iff it is the written payload of `r`, up to the bits of the last byte
that have no meaning. -/
theorem decodePayload_eq_ok_iff_sameUpToFlags {payload : Bytes} {r : Record} :
    decodePayload payload = .ok r ↔ r.Consistent ∧ SameUpToFlags payload r.encodePayload := by
  rw [decodePayload_eq_ok_iff, encodePayload_eq]
  refine and_congr_right fun _ => ⟨?_, ?_⟩
  · rintro ⟨flags, rfl, hro⟩
    exact ⟨r.fields, flags, _, rfl, rfl, (readOnly_eq_iff flags r.readOnly).mp hro⟩
  · rintro ⟨front, a, b, rfl, hq, hbit⟩
    obtain ⟨rfl, hb⟩ := List.append_inj' hq rfl
    obtain rfl : _ = b := by simpa using hb
    exact ⟨a, rfl, (readOnly_eq_iff a r.readOnly).mpr hbit⟩

/-- The envelope of a payload, with its length told by the length of the whole. -/
theorem envelope_prefix_iff {payload bytes : Bytes} {used : Nat} :
    used = (envelope payload).length ∧ envelope payload <+: bytes ↔
      used ≤ bytes.length ∧
        bytes.take used = magic ++ littleEndian 2 1 ++ littleEndian 4 (used - 14) ++ payload ++
          littleEndian 4 (Checksum.crc32 payload).toNat := by
  constructor
  · rintro ⟨rfl, hpre⟩
    have hlen : (envelope payload).length - 14 = payload.length := by
      rw [length_envelope, headerLength, trailerLength]
      omega
    exact ⟨hpre.length_le, by rw [hlen]; exact (List.prefix_iff_eq_take.mp hpre).symm⟩
  · rintro ⟨hle, htake⟩
    have hlen : used = 14 + payload.length := by
      have := congrArg List.length htake
      simp [magic, Nat.min_eq_left hle] at this
      omega
    have hwhole : bytes.take used = envelope payload := by
      rw [htake, hlen, Nat.add_sub_cancel_left]
      rfl
    refine ⟨?_, ?_⟩
    · rw [← hwhole, List.length_take, Nat.min_eq_left hle]
    · rw [← hwhole]
      exact List.take_prefix _ _

/-- The format of records. A payload is read as `r` iff `r` has its commit timestamp in accordance
with its state and the payload is the written one up to the bits of the last byte that have no
meaning. A record is read from the front of a byte string iff there stand the magic bytes, version
1, the length of the payload, a payload of that record and its checksum. What is written is read
back, whatever follows it, and no strict prefix of it is read as anything. -/
theorem format_exact :
    (∀ (payload : Bytes) (r : Record),
      decodePayload payload = .ok r ↔ r.Consistent ∧ SameUpToFlags payload r.encodePayload) ∧
    (∀ (bytes : Bytes) (r : Record) (used : Nat),
      decode bytes = .ok (r, used) ↔
        used ≤ bytes.length ∧ used - 14 < UInt32.size ∧
          ∃ payload, decodePayload payload = .ok r ∧
            bytes.take used = magic ++ littleEndian 2 1 ++ littleEndian 4 (used - 14) ++ payload ++
              littleEndian 4 (Checksum.crc32 payload).toNat) ∧
    (∀ (r : Record) (rest : Bytes),
      r.Consistent → decode (r.encode ++ rest) = .ok (r, r.encode.length)) ∧
    (∀ (r : Record) (bytes : Bytes),
      bytes <+: r.encode → bytes.length < r.encode.length → ∃ e, decode bytes = .error e) := by
  refine ⟨fun payload r => decodePayload_eq_ok_iff_sameUpToFlags, fun bytes r used => ?_,
    fun r rest h => decode_encode h rest, fun r bytes => decode_strict_prefix⟩
  rw [decode_eq_ok_iff]
  constructor
  · rintro ⟨payload, hp, henv⟩
    obtain ⟨hle, htake⟩ := envelope_prefix_iff.mp henv
    have hlt : used - 14 < UInt32.size := by
      have hlen := length_lt_of_decodePayload hp
      rw [henv.1, length_envelope, headerLength, trailerLength, Nat.add_right_comm,
        Nat.add_sub_cancel_left]
      exact hlen
    exact ⟨hle, hlt, payload, hp, htake⟩
  · rintro ⟨hle, -, payload, hp, htake⟩
    exact ⟨payload, hp, envelope_prefix_iff.mpr ⟨hle, htake⟩⟩

/-- A committed record that is read-only: any byte with its lowest bit set marks it, and its
envelope is found in front of other bytes and nowhere in a part of itself. -/
theorem format_exact_readOnly :
    let r : Record := ⟨⟨7⟩, .committed, ⟨5⟩, some ⟨6⟩, 1000, true⟩
    r.Consistent ∧ decodePayload (r.fields ++ [0xFF]) = .ok r ∧
      decode (r.encode ++ magic) = .ok (r, 49) ∧ ∃ e, decode (r.encode.take 48) = .error e := by
  intro r
  have hc : r.Consistent := by decide
  obtain ⟨hpayload, -, hread, hprefix⟩ := format_exact
  have hflags : SameUpToFlags (r.fields ++ [0xFF]) r.encodePayload :=
    ⟨r.fields, 0xFF, 1, rfl, rfl, rfl⟩
  exact ⟨hc, (hpayload _ r).mpr ⟨hc, hflags⟩, hread r magic hc,
    hprefix r _ (List.take_prefix 48 _) (by decide)⟩

end Record

end TxnEngine
