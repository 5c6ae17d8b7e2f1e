import TxnEngine.Proofs.Log.Checksum
import TxnEngine.Proofs.Log.CrashPrefix

/-!
# An altered byte is always found

One byte of a log is overwritten by a different one. In a payload or behind it this shows in the
checksum. In front of it, it shows in the magic bytes or the version, or it makes the length wrong;
and whatever the checksum of the wrong window may be, a payload tells its own length by the flag of
its commit timestamp, so a wrong length is no length of a payload.

Results:
* `length_eq_of_flag`: payloads with the same flag have the same length.
* `decode_set_error`: an altered envelope is not read as anything, whatever follows it.
* `openStore_set`: opening an altered log leads back to the records in front of the altered
  envelope.
-/

namespace TxnEngine

namespace Record

/-! ## The length of a payload -/

/-- The flag that tells whether a commit timestamp follows. -/
theorem flag_of_decodePayload {payload : Bytes} {r : Record} (h : decodePayload payload = .ok r) :
    payload[17]? = some (if r.commitTs.isSome then 1 else 0) := by
  obtain ⟨-, flags, rfl, -⟩ := decodePayload_eq_ok_iff.mp h
  have hsplit : r.fields ++ [flags] =
      (wordBytes r.id.val ++ ([r.state.toByte] ++ wordBytes r.beginTs.val)) ++
        (commitBytes r.commitTs ++ (wordBytes r.lastKeepAlive ++ [flags])) := by
    simp [fields]
  rw [hsplit, List.getElem?_append_right (by simp)]
  cases r.commitTs <;> simp [commitBytes]

/-- Payloads with the same flag have the same length. -/
theorem length_eq_of_flag {payload payload' : Bytes} {r r' : Record}
    (h : decodePayload payload = .ok r) (h' : decodePayload payload' = .ok r')
    (hflag : payload'[17]? = payload[17]?) : payload'.length = payload.length := by
  rw [flag_of_decodePayload h, flag_of_decodePayload h'] at hflag
  have hsome : r'.commitTs.isSome = r.commitTs.isSome := by
    cases hr : r.commitTs.isSome <;> cases hr' : r'.commitTs.isSome <;> simp [hr, hr'] at hflag ⊢
  rw [length_of_decodePayload h, length_of_decodePayload h', hsome]

theorem header_injective {m n : Nat} (hm : m < UInt32.size) (hn : n < UInt32.size)
    (h : header m = header n) : m = n := by
  have hlast : littleEndian 4 m = littleEndian 4 n := List.append_cancel_left h
  rw [← ofLittleEndian_littleEndian 4 m hm, ← ofLittleEndian_littleEndian 4 n hn, hlast]

theorem crc32_eq_of_trailer {payload payload' : Bytes} (h : trailer payload = trailer payload') :
    Checksum.crc32 payload = Checksum.crc32 payload' := by
  have hread (bytes : Bytes) : ofLittleEndian (trailer bytes) = (Checksum.crc32 bytes).toNat :=
    ofLittleEndian_littleEndian 4 _ (Checksum.crc32 bytes).toNat_lt
  rw [← UInt32.toNat_inj, ← hread, ← hread, h]

/-! ## Altered envelopes -/

/-- What is altered is no envelope of a payload of the same length. -/
theorem envelope_ne_set {payload payload' : Bytes} {p : Nat} (hp : p < (envelope payload).length)
    {b : UInt8} (hb : (envelope payload)[p] ≠ b) (hlen : payload'.length = payload.length) :
    envelope payload' ≠ (envelope payload).set p b := by
  intro heq
  have hother : payload' ≠ payload := by
    rintro rfl
    have hbyte := congrArg (fun bytes => bytes[p]?) heq
    simp only [List.getElem?_set_self hp, List.getElem?_eq_getElem hp] at hbyte
    exact hb (Option.some.inj hbyte)
  -- so the payloads differ, and that is where the altered byte is
  have hbody := congrArg (List.drop headerLength) heq
  have hdrop (payload : Bytes) := drop_envelope_append payload []
  simp only [List.append_nil] at hdrop
  rw [List.drop_set, hdrop, hdrop] at hbody
  split_ifs at hbody with hfront
  · exact hother (List.append_inj hbody hlen).1
  rw [List.set_append] at hbody
  split_ifs at hbody with hinside
  · obtain ⟨hpayload, htrailer⟩ := List.append_inj hbody (by rw [hlen, List.length_set])
    have hcrc := crc32_eq_of_trailer htrailer
    rw [hpayload, Checksum.crc32_set_eq_iff hinside] at hcrc
    rw [hpayload, ← hcrc, List.set_getElem_self] at hother
    exact hother rfl
  · exact hother (List.append_inj hbody hlen).1

/-- If an altered envelope begins with an envelope, their payloads have the same length: either the
header is as it was, or the payload is, and tells its length. -/
theorem length_eq_of_altered {r r' : Record} (hc : r.Consistent) {payload' tail rest : Bytes}
    (hp' : decodePayload payload' = .ok r') {p : Nat} {b : UInt8}
    (heq : envelope payload' ++ tail = r.encode.set p b ++ rest) :
    payload'.length = r.encodePayload.length := by
  have hpayload := decodePayload_encodePayload hc
  have hlong {payload : Bytes} {s : Record} (h : decodePayload payload = .ok s) :
      17 < payload.length := by
    rw [length_of_decodePayload h]
    split <;> decide
  have hlen : r.encode.length = headerLength + r.encodePayload.length + trailerLength :=
    length_envelope _
  have hbound := hlong hpayload
  by_cases hfront : p < headerLength
  · have hbody := congrArg (List.drop headerLength) heq
    rw [drop_envelope_append, List.drop_append_of_le_length (by rw [List.length_set]; omega),
      List.drop_set, if_pos hfront, ← List.drop_append_of_le_length (by omega), encode,
      drop_envelope_append] at hbody
    refine length_eq_of_flag hpayload hp' ?_
    have hflag := congrArg (fun bytes => bytes[17]?) hbody
    simpa only [List.getElem?_append_left (hlong hp'), List.getElem?_append_left hbound]
      using hflag
  · have hheader := congrArg (List.take headerLength) heq
    have hkept : r.encode.take headerLength = header r.encodePayload.length := by
      rw [encode, ← List.append_nil (envelope _), take_envelope_append]
    rw [take_envelope_append, List.take_append_of_le_length (by rw [List.length_set]; omega),
      List.take_set, List.set_eq_of_length_le (by rw [List.length_take]; omega), hkept] at hheader
    exact header_injective (length_lt_of_decodePayload hp') (length_lt_of_decodePayload hpayload)
      hheader

/-- Nothing is read from an altered envelope, whatever follows it. -/
theorem decode_set_error {r : Record} (hc : r.Consistent) {p : Nat} (hp : p < r.encode.length)
    {b : UInt8} (hb : r.encode[p] ≠ b) (rest : Bytes) :
    ∃ e, decode (r.encode.set p b ++ rest) = .error e := by
  cases hd : decode (r.encode.set p b ++ rest) with
  | error e => exact ⟨e, rfl⟩
  | ok found =>
    exfalso
    obtain ⟨r', used⟩ := found
    obtain ⟨payload', hp', -, tail, htail⟩ := decode_eq_ok_iff.mp hd
    have hlen := length_eq_of_altered hc hp' htail
    have hwhole : envelope payload' = r.encode.set p b :=
      (List.append_inj htail (by rw [List.length_set, encode, length_envelope, length_envelope,
        hlen])).1
    exact envelope_ne_set hp hb hlen hwhole

end Record

namespace Log

/-! ## Altered logs -/

theorem length_envelopes_take_succ {images : List Record} {n : Nat} (hn : n < images.length) :
    (envelopes (images.take (n + 1))).length =
      (envelopes (images.take n)).length + images[n].encode.length := by
  rw [List.take_succ_eq_append_getElem hn, envelopes_append, List.length_append, envelopes_cons,
    envelopes_nil, List.append_nil]

/-- Every byte of a log lies in one of its envelopes. -/
theorem exists_envelope {images : List Record} {p : Nat} (hp : p < (envelopes images).length) :
    ∃ n < images.length, (envelopes (images.take n)).length ≤ p ∧
      p < (envelopes (images.take (n + 1))).length := by
  have hle := fitting_le_length images p
  have hfront := (le_fitting_iff hle).mp (Nat.le_refl _)
  have hlt : fitting images p < images.length := by
    refine Nat.lt_of_le_of_ne hle fun hall => ?_
    rw [hall, List.take_length] at hfront
    omega
  refine ⟨fitting images p, hlt, hfront, Nat.lt_of_not_le fun hnext => ?_⟩
  have := (le_fitting_iff hlt).mpr hnext
  omega

/-- One byte of a log is overwritten by a different one. Opening the log finds the records in front
of the altered envelope, and cuts off everything from that envelope on. -/
theorem openStore_set (h : Handle) {images : List Record} (hc : ∀ r ∈ images, r.Consistent)
    {p : Nat} (hp : p < (envelopes images).length) {b : UInt8} (hb : (envelopes images)[p] ≠ b) :
    ∃ n < images.length, (envelopes (images.take n)).length ≤ p ∧
      p < (envelopes (images.take (n + 1))).length ∧
      let kept : Store := .holding h (envelopes (images.take n)) .none
      openStore (.holding h ((envelopes images).set p b) .none) =
        (.ok ⟨kept, fill [] (images.take n)⟩, kept) := by
  obtain ⟨n, hn, hle, hlt⟩ := exists_envelope hp
  refine ⟨n, hn, hle, hlt, ?_⟩
  have hinside : p - (envelopes (images.take n)).length < images[n].encode.length := by
    rw [length_envelopes_take_succ hn] at hlt
    omega
  have hbyte : images[n].encode[p - (envelopes (images.take n)).length] ≠ b := by
    simp only [envelopes_split hn] at hb
    rwa [List.getElem_append_right hle, List.getElem_append_left hinside] at hb
  obtain ⟨e, he⟩ := Record.decode_set_error (hc _ (List.getElem_mem hn)) hinside hbyte
    (envelopes (images.drop (n + 1)))
  have hscan := scan_envelopes fun r hr => hc r (List.mem_of_mem_take (i := n) hr)
  have hwhole : Whole (envelopes (images.take n)) := by rw [Whole, hscan]
  rw [openStore_holding, envelopes_split hn, List.set_append_right _ _ hle,
    List.set_append_left _ _ hinside]
  unfold opened
  rw [scan_append hwhole, scan_of_error he, hscan]
  simp

/-- A log whose first record is committed, with the length of its second envelope overwritten by
that of a committed one. -/
theorem openStore_set_length :
    let images : List Record :=
      [⟨⟨1⟩, .committed, ⟨1⟩, some ⟨2⟩, 0, false⟩, .start ⟨3⟩ 0 false, .start ⟨4⟩ 0 true]
    (∀ r ∈ images, r.Consistent) ∧ 55 < (envelopes images).length ∧
      (envelopes images)[55]? = some 27 ∧
      ∃ n < images.length, (envelopes (images.take n)).length ≤ 55 ∧
        55 < (envelopes (images.take (n + 1))).length ∧
        let kept : Store := .holding .shared (envelopes (images.take n)) .none
        openStore (.holding .shared ((envelopes images).set 55 35) .none) =
          (.ok ⟨kept, fill [] (images.take n)⟩, kept) := by
  intro images
  have hc : ∀ r ∈ images, r.Consistent := by decide
  have hp : 55 < (envelopes images).length := by decide +kernel
  have hbyte : (envelopes images)[55]? = some 27 := by decide +kernel
  refine ⟨hc, hp, hbyte, openStore_set .shared hc hp ?_⟩
  rw [List.getElem?_eq_getElem hp] at hbyte
  rw [Option.some.inj hbyte]
  decide

end Log

end TxnEngine
