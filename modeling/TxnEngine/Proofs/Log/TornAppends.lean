import Mathlib.Data.List.Induction
import TxnEngine.Proofs.Log.Calls

/-!
# What survives an append that was torn

An append can stop half-way, and nothing removes the half envelope: later appends go behind it.
Reopening stops at the half, or one record behind it, if the bytes that follow happen to complete it
to something with the right checksum. So a log is a layout of pieces, whole envelopes and torn ones,
and what was written behind the first torn piece is lost, whether it was acknowledged or not.

Results:
* `scan_torn`: what is found from a torn envelope on has the id of that envelope and ends within 41
  bytes.
* `run_pieces`, `kept_run`: no call writes a piece of a finished transaction, and as long as nothing
  is torn the log holds every finished record of the table.
* `openStore_run`: an outcome survives every later reopening if it was reached before an append was
  torn, and otherwise its image is cut off.
* `not_forall_get?_opened`: an acknowledged commit that does not survive.
-/

namespace TxnEngine

namespace Record

/-! ## What every readable envelope looks like -/

/-- Some of the bytes that an envelope of `r` with `used` bytes is made of. -/
structure Shape (bytes : Bytes) (r : Record) (used : Nat) : Prop where
  first : bytes[0]? = some 0x4B
  second : bytes[1]? = some 0x54
  fourth : bytes[3]? = some 0x4E
  /-- The length of the payload. -/
  payload : (bytes[6]? = some 27 ∧ used = 41) ∨ (bytes[6]? = some 35 ∧ used = 49)
  id : (bytes.drop headerLength).take 8 = wordBytes r.id.val
  /-- Whether a commit timestamp follows. -/
  flag : bytes[27]? = some 0 ∨ bytes[27]? = some 1

theorem shape_of_decode {bytes : Bytes} {r : Record} {used : Nat}
    (h : decode bytes = .ok (r, used)) : Shape bytes r used := by
  obtain ⟨payload, hp, hused, rest, rfl⟩ := decode_eq_ok_iff.mp h
  have hlen := length_of_decodePayload hp
  obtain ⟨-, flags, hpayload, -⟩ := decodePayload_eq_ok_iff.mp hp
  -- the bytes up to the flag of the commit timestamp, and those from there on
  have hsplit : envelope payload ++ rest =
      header payload.length ++ (wordBytes r.id.val ++ ([r.state.toByte] ++ wordBytes r.beginTs.val)) ++
        (commitBytes r.commitTs ++ (wordBytes r.lastKeepAlive ++ [flags] ++ trailer payload ++
          rest)) := by
    rw [envelope_eq]
    conv_lhs => enter [1, 1, 2]; rw [hpayload]
    simp [fields]
  rw [length_envelope] at hused
  rw [hsplit, hused]
  refine ⟨?first, ?second, ?fourth, ?payload, ?id, ?flag⟩
  case first | second | fourth => simp [header, magic]
  case payload =>
    rw [hlen]
    cases r.commitTs.isSome with
    | false => exact .inl ⟨by simp [header, magic, littleEndian], rfl⟩
    | true => exact .inr ⟨by simp [header, magic, littleEndian], rfl⟩
  case id =>
    rw [List.append_assoc, List.drop_left' (length_header _), List.append_assoc,
      List.take_left' (length_wordBytes _)]
  case flag =>
    rw [List.getElem?_append_right (by simp [headerLength])]
    cases r.commitTs <;> simp [commitBytes, headerLength]

theorem shape_encode {r : Record} (hc : r.Consistent) : Shape r.encode r r.encode.length := by
  have := decode_encode hc []
  rw [List.append_nil] at this
  exact shape_of_decode this

theorem wordBytes_injective {v w : UInt64} (h : wordBytes v = wordBytes w) : v = w := by
  have hv : ofLittleEndian (wordBytes v) = v.toNat := ofLittleEndian_littleEndian 8 _ v.toNat_lt
  have hw : ofLittleEndian (wordBytes w) = w.toNat := ofLittleEndian_littleEndian 8 _ w.toNat_lt
  rw [h, hw] at hv
  exact UInt64.toNat_inj.mp hv.symm

end Record

namespace Log

/-! ## Pieces of a log -/

/-- What an append leaves in the log: an envelope, or the first half of one if it was torn. -/
structure Piece where
  record : Record
  torn : Bool

namespace Piece

def bytes (p : Piece) : Bytes :=
  if p.torn then p.record.encode.take (p.record.encode.length / 2) else p.record.encode

theorem bytes_of_torn {p : Piece} (ht : p.torn = true) :
    p.bytes = p.record.encode.take (p.record.encode.length / 2) := by
  rw [bytes, if_pos ht]

theorem bytes_of_whole {p : Piece} (ht : p.torn = false) : p.bytes = p.record.encode := by
  rw [bytes, ht]
  rfl

variable {p : Piece} (hc : p.record.Consistent)

include hc

/-- Half an envelope has 20 or 24 bytes. -/
theorem length_of_torn (ht : p.torn = true) :
    (p.bytes.length = 20 ∧ p.record.encode.length = 41) ∨
      (p.bytes.length = 24 ∧ p.record.encode.length = 49) := by
  rw [bytes_of_torn ht, List.length_take]
  rcases (Record.shape_encode hc).payload with ⟨-, h⟩ | ⟨-, h⟩ <;> rw [h] <;> simp

theorem le_length_bytes : 20 ≤ p.bytes.length := by
  cases ht : p.torn with
  | true => rcases length_of_torn hc ht with ⟨h, -⟩ | ⟨h, -⟩ <;> omega
  | false =>
    rw [bytes_of_whole ht]
    rcases (Record.shape_encode hc).payload with ⟨-, h⟩ | ⟨-, h⟩ <;> omega

omit hc in
/-- The first bytes are those of the envelope. -/
theorem getElem?_append {i : Nat} (hi : i < p.bytes.length) (rest : Bytes) :
    (p.bytes ++ rest)[i]? = p.record.encode[i]? := by
  rw [List.getElem?_append_left hi]
  cases ht : p.torn with
  | true =>
    rw [bytes_of_torn ht, List.length_take] at hi
    rw [bytes_of_torn ht, List.getElem?_take_of_lt (by omega)]
  | false => rw [bytes_of_whole ht]

end Piece

/-- Pieces one behind the other. -/
def layout (pieces : List Piece) : Bytes :=
  pieces.flatMap Piece.bytes

@[simp]
theorem layout_nil : layout [] = [] := rfl

@[simp]
theorem layout_cons (p : Piece) (pieces : List Piece) :
    layout (p :: pieces) = p.bytes ++ layout pieces := rfl

/-- The bytes at the front are the first ones of some envelope. -/
theorem getElem?_layout {pieces : List Piece} (hc : ∀ p ∈ pieces, p.record.Consistent) {i : Nat}
    {b : UInt8} (hi : i < 20) (hb : (layout pieces)[i]? = some b) :
    ∃ r : Record, r.Consistent ∧ r.encode[i]? = some b := by
  cases pieces with
  | nil => simp at hb
  | cons p pieces =>
    have hp := hc p List.mem_cons_self
    have := Piece.le_length_bytes hp
    rw [layout_cons, Piece.getElem?_append (by omega)] at hb
    exact ⟨p.record, hp, hb⟩

/-- No record begins 21 bytes into a log. That is where a record ends that took its first 20 bytes
from a torn envelope. -/
theorem decode_drop_layout {pieces : List Piece} (hc : ∀ p ∈ pieces, p.record.Consistent) :
    ∃ e, Record.decode ((layout pieces).drop 21) = .error e := by
  cases hd : Record.decode ((layout pieces).drop 21) with
  | error e => exact ⟨e, rfl⟩
  | ok found =>
    exfalso
    obtain ⟨r, used⟩ := found
    obtain ⟨hfirst, -, hfourth, hpayload, -, -⟩ := Record.shape_of_decode hd
    simp only [List.getElem?_drop] at hfirst hfourth hpayload
    cases pieces with
    | nil => simp at hfirst
    | cons p pieces =>
      obtain ⟨hp, hc⟩ := List.forall_mem_cons.mp hc
      have hshape := Record.shape_encode hp
      rw [layout_cons] at hfirst hfourth hpayload
      cases ht : p.torn with
      | false =>
        -- what is taken for the length is the flag of a commit timestamp
        have hlen : 27 < p.bytes.length := by
          rw [Piece.bytes_of_whole ht]
          rcases hshape.payload with ⟨-, h⟩ | ⟨-, h⟩ <;> omega
        rw [Piece.getElem?_append hlen] at hpayload
        rcases hshape.flag with h | h <;> simp [h] at hpayload
      | true =>
        -- the magic bytes of the next piece stand in the wrong place
        rcases Piece.length_of_torn hp ht with ⟨hlen, -⟩ | ⟨hlen, -⟩
        · rw [List.getElem?_append_right (by omega), hlen] at hfirst
          obtain ⟨next, hnext, hb⟩ := getElem?_layout hc (by decide) hfirst
          simp [(Record.shape_encode hnext).second] at hb
        · rw [List.getElem?_append_right (by omega), hlen] at hfourth
          obtain ⟨next, hnext, hb⟩ := getElem?_layout hc (by decide) hfourth
          simp [(Record.shape_encode hnext).first] at hb

/-- Behind a torn envelope of `p` at most one record is found, made of the torn half and the bytes
behind it. It stands under the id of `p`. -/
theorem scan_torn {p : Piece} (ht : p.torn = true) {pieces : List Piece}
    (hc : ∀ q ∈ p :: pieces, q.record.Consistent) :
    (scan (layout (p :: pieces))).used ≤ 41 ∧
      ∀ r ∈ (scan (layout (p :: pieces))).images, r.id = p.record.id := by
  obtain ⟨hp, hc⟩ := List.forall_mem_cons.mp hc
  cases hd : Record.decode (layout (p :: pieces)) with
  | error e =>
    rw [scan_of_error hd]
    simp
  | ok found =>
    obtain ⟨r, used⟩ := found
    have hshape := Record.shape_encode hp
    obtain ⟨-, -, -, hpayload, hid, hflag⟩ := Record.shape_of_decode hd
    rw [layout_cons] at hpayload hid hflag
    rcases Piece.length_of_torn hp ht with ⟨hlen, henc⟩ | ⟨hlen, henc⟩
    · have hused : used = 41 := by
        rw [Piece.getElem?_append (by omega)] at hpayload
        rcases hshape.payload with ⟨h, -⟩ | ⟨-, h⟩
        · simpa [h] using hpayload
        · omega
      have hsame : r.id = p.record.id := by
        have hfront : (p.bytes ++ layout pieces).take 18 = p.record.encode.take 18 := by
          rw [List.take_append_of_le_length (by omega), Piece.bytes_of_torn ht, List.take_take,
            Nat.min_eq_left (by omega)]
        have hown := hshape.id
        rw [List.take_drop] at hid hown
        have hval : r.id.val = p.record.id.val :=
          Record.wordBytes_injective
            (by rw [← hid, ← hown]; exact congrArg (List.drop Record.headerLength) hfront)
        exact congrArg TxnId.mk hval
      obtain ⟨e, he⟩ := decode_drop_layout hc
      have hdrop : (layout (p :: pieces)).drop used = (layout pieces).drop 21 := by
        rw [layout_cons, List.drop_append, List.drop_of_length_le (by omega), hlen, hused,
          List.nil_append]
      rw [scan_of_ok hd, hdrop, scan_of_error he, hused]
      simpa using hsame
    · -- the flag of the commit timestamp is a magic byte
      exfalso
      have hnext : (layout pieces)[3]? = some 0 ∨ (layout pieces)[3]? = some 1 := by
        rwa [List.getElem?_append_right (by omega), hlen] at hflag
      rcases hnext with h | h <;> obtain ⟨next, hnext, hb⟩ := getElem?_layout hc (by decide) h <;>
        simp [(Record.shape_encode hnext).fourth] at hb

/-- Every record that is found stands under the id of a piece. -/
theorem exists_of_mem_scan_layout {pieces : List Piece} (hc : ∀ p ∈ pieces, p.record.Consistent)
    {r : Record} (hr : r ∈ (scan (layout pieces)).images) : ∃ p ∈ pieces, r.id = p.record.id := by
  induction pieces with
  | nil => simp at hr
  | cons p pieces ih =>
    cases ht : p.torn with
    | true => exact ⟨p, List.mem_cons_self, (scan_torn ht hc).2 r hr⟩
    | false =>
      obtain ⟨hp, hc⟩ := List.forall_mem_cons.mp hc
      rw [layout_cons, Piece.bytes_of_whole ht, scan_encode_append hp, List.mem_cons] at hr
      rcases hr with rfl | hr
      · exact ⟨p, List.mem_cons_self, rfl⟩
      · obtain ⟨q, hq, hid⟩ := ih hc hr
        exact ⟨q, List.mem_cons_of_mem _ hq, hid⟩

/-! ## Logs whose storage fails -/

/-- The handle of the log knows how many bytes there are. -/
def Current (l : Log) : Prop :=
  ∃ h bytes f, l.store = .holding h bytes f

/-- The append that a call makes stops half-way. -/
def Tears (l : Log) (c : Call) : Prop :=
  ∃ r, l.image? c = some r ∧
    (l.after c).store.bytes = l.store.bytes ++ r.encode.take (r.encode.length / 2)

/-- No append that the calls make stops half-way. -/
def Untorn (l : Log) : List Call → Prop
  | [] => True
  | c :: calls => ¬l.Tears c ∧ (l.after c).Untorn calls

/-- What a call does to the bytes and to the table. -/
inductive Step (l l' : Log) (c : Call) : Prop where
  /-- It leaves both alone. -/
  | idle (bytes : l'.store.bytes = l.store.bytes) (records : l'.records = l.records)
  /-- It appends its image, and may fail before the image is in the table. -/
  | appended (r : Record) (image : l.image? c = some r)
      (bytes : l'.store.bytes = l.store.bytes ++ r.encode)
      (records : l'.records = l.records ∨ l'.records = l.records.insert r.id r)
  /-- It appends half of its image and leaves the table alone. -/
  | torn (r : Record) (image : l.image? c = some r)
      (bytes : l'.store.bytes = l.store.bytes ++ r.encode.take (r.encode.length / 2))
      (records : l'.records = l.records)

theorem step_after {l : Log} (hl : l.Current) (c : Call) :
    (l.after c).Current ∧ Step l (l.after c) c := by
  obtain ⟨store, records⟩ := l
  obtain ⟨h, bytes, f, rfl⟩ := hl
  rw [after_eq]
  cases hi : image? ⟨.holding h bytes f, records⟩ c with
  | none => exact ⟨⟨h, bytes, f, rfl⟩, .idle rfl rfl⟩
  | some r =>
    simp only [Option.map_some, Option.getD_some]
    rcases persist_cases h bytes f records r with ⟨f', hp⟩ | ⟨e, f', part, hpart, hp⟩ <;> rw [hp]
    · exact ⟨⟨h, _, f', rfl⟩, .appended r hi (by simp) (.inr rfl)⟩
    · refine ⟨⟨h, _, f', rfl⟩, ?_⟩
      rcases hpart with rfl | rfl | rfl
      · exact .idle (by simp) rfl
      · exact .appended r hi (by simp) (.inl rfl)
      · exact .torn r hi (by simp) rfl

theorem current_run {l : Log} (hl : l.Current) (calls : List Call) : (l.run calls).Current := by
  induction calls generalizing l with
  | nil => exact hl
  | cons c calls ih => exact ih (step_after hl c).1

/-- Calls put pieces behind the log, none of them of a transaction that is finished already. -/
theorem run_pieces {l : Log} (hl : l.Current) (hv : Valid l.records) (calls : List Call) :
    ∃ pieces, (l.run calls).store.bytes = l.store.bytes ++ layout pieces ∧
      (∀ p ∈ pieces, p.record.Consistent) ∧
      ∀ id r, l.get? id = some r → r.isFinished = true → ∀ p ∈ pieces, p.record.id ≠ id := by
  induction calls generalizing l with
  | nil => exact ⟨[], by simp, by simp, by simp⟩
  | cons c calls ih =>
    obtain ⟨hl', hstep⟩ := step_after hl c
    obtain ⟨pieces, hbytes, hconsistent, hother⟩ := ih hl' (valid_after hv c)
    have hlater (id : TxnId) (r : Record) (hr : l.get? id = some r) (hf : r.isFinished = true) :
        ∀ p ∈ pieces, p.record.id ≠ id :=
      hother id r (get?_after_of_finished hv hr hf c) hf
    -- a piece that the call itself adds is of a transaction that is not finished
    have added (piece : Piece) (himage : l.image? c = some piece.record)
        (hnow : (l.after c).store.bytes = l.store.bytes ++ piece.bytes) :
        ∃ pieces, ((l.after c).run calls).store.bytes = l.store.bytes ++ layout pieces ∧
          (∀ p ∈ pieces, p.record.Consistent) ∧
          ∀ id r, l.get? id = some r → r.isFinished = true → ∀ p ∈ pieces, p.record.id ≠ id := by
      obtain ⟨hc, hlive⟩ := consistent_of_image? hv himage
      refine ⟨piece :: pieces, by rw [hbytes, hnow, layout_cons, List.append_assoc],
        List.forall_mem_cons.mpr ⟨hc, hconsistent⟩, fun id r hr hf =>
          List.forall_mem_cons.mpr ⟨?_, hlater id r hr hf⟩⟩
      rintro rfl
      rw [hlive r hr] at hf
      cases hf
    rw [run_cons]
    cases hstep with
    | idle hnow hrecords => exact ⟨pieces, by rw [hbytes, hnow], hconsistent, hlater⟩
    | appended r himage hnow hrecords =>
      exact added ⟨r, false⟩ himage hnow
    | torn r himage hnow hrecords => exact added ⟨r, true⟩ himage hnow

/-- A record behind whole records is found as the last one. -/
theorem fill_scan_append_encode {bytes : Bytes} (hw : Whole bytes) {r : Record}
    (hc : r.Consistent) :
    fill [] (scan (bytes ++ r.encode)).images = (fill [] (scan bytes).images).insert r.id r := by
  have hone := scan_encode_append hc []
  rw [List.append_nil] at hone
  rw [scan_append hw, hone, scan_nil, fill_append, fill_cons, fill_nil]

/-- As long as no append was torn, the log consists of records and holds every finished record of
the table. -/
structure Kept (l : Log) : Prop where
  whole : Whole l.store.bytes
  finished : ∀ id r, l.get? id = some r → r.isFinished = true →
    (fill [] (scan l.store.bytes).images).find? id = some r

theorem kept_after {l : Log} (hl : l.Current) (hv : Valid l.records) (hk : l.Kept) {c : Call}
    (hc : ¬l.Tears c) : (l.after c).Kept := by
  cases (step_after hl c).2 with
  | idle hbytes hrecords =>
    refine ⟨by rw [hbytes]; exact hk.whole, fun id r hr hf => ?_⟩
    have hbefore : l.get? id = some r := by rwa [get?, hrecords] at hr
    rw [hbytes]
    exact hk.finished id r hbefore hf
  | appended image himage hbytes hrecords =>
    obtain ⟨hc, hlive⟩ := consistent_of_image? hv himage
    refine ⟨by rw [hbytes]; exact hk.whole.append (whole_encode hc), fun id r hr hf => ?_⟩
    rw [hbytes, fill_scan_append_encode hk.whole hc]
    by_cases hid : image.id = id
    · subst hid
      rw [Table.find?_insert_self]
      -- the image is in the table, since no finished record was in its place before
      rcases hrecords with h | h <;> rw [get?, h] at hr
      · rw [hlive r hr] at hf
        cases hf
      · rwa [Table.find?_insert_self] at hr
    · have hbefore : l.get? id = some r := by
        rcases hrecords with h | h <;> rw [get?, h] at hr
        · exact hr
        · rwa [Table.find?_insert_of_ne _ _ hid] at hr
      rw [Table.find?_insert_of_ne _ _ hid]
      exact hk.finished id r hbefore hf
  | torn r himage hbytes hrecords => exact absurd ⟨r, himage, hbytes⟩ hc

theorem kept_run {l : Log} (hl : l.Current) (hv : Valid l.records) (hk : l.Kept)
    {calls : List Call} (hc : l.Untorn calls) : (l.run calls).Kept := by
  induction calls generalizing l with
  | nil => exact hk
  | cons c calls ih => exact ih (step_after hl c).1 (valid_after hv c) (kept_after hl hv hk hc.1) hc.2

theorem untorn_append {l : Log} {a b : List Call} :
    l.Untorn (a ++ b) ↔ l.Untorn a ∧ (l.run a).Untorn b := by
  induction a generalizing l with
  | nil => simp [Untorn]
  | cons c a ih => simp [Untorn, ih, and_assoc]

/-- If an append was torn, one was the first. -/
theorem exists_first_tear {l : Log} {calls : List Call} (h : ¬l.Untorn calls) :
    ∃ a c b, calls = a ++ c :: b ∧ l.Untorn a ∧ (l.run a).Tears c := by
  induction calls generalizing l with
  | nil => exact absurd trivial h
  | cons c calls ih =>
    by_cases hc : l.Tears c
    · exact ⟨[], c, calls, rfl, trivial, hc⟩
    · obtain ⟨a, d, b, rfl, ha, hd⟩ := ih fun hcalls => h ⟨hc, hcalls⟩
      exact ⟨c :: a, d, b, rfl, ⟨hc, ha⟩, hd⟩

/-! ## Reopening -/

/-- The log that opening a byte string leads to, on storage that is going to fail. -/
def openedFaulty (h : Handle) (bytes : Bytes) (f : Faults) : Log :=
  { opened h bytes with store := .holding h (opened h bytes).store.bytes f }

section Opened

variable (h : Handle) (bytes : Bytes) (f : Faults)

theorem current_openedFaulty : (openedFaulty h bytes f).Current :=
  ⟨h, _, f, rfl⟩

theorem valid_openedFaulty : Valid (openedFaulty h bytes f).records :=
  valid_opened h bytes

theorem kept_openedFaulty : (openedFaulty h bytes f).Kept := by
  have hbytes : (openedFaulty h bytes f).store.bytes = bytes.take (scan bytes).used := by
    simp [openedFaulty, opened]
  refine ⟨by rw [hbytes]; exact whole_take_used bytes, fun id r hr _ => ?_⟩
  rw [hbytes, scan_take_used]
  exact hr

end Opened

section Reopening

variable {l : Log} (hl : l.Current) (hv : Valid l.records) (hk : l.Kept)

include hl hv hk

/-- While no append was torn, reopening finds every finished record, whatever is written behind. -/
theorem get?_opened_of_untorn (h' : Handle) {calls : List Call} (hcalls : l.Untorn calls)
    {id : TxnId} {r : Record} (hr : (l.run calls).get? id = some r) (hf : r.isFinished = true)
    (more : List Call) :
    (opened h' (l.run (calls ++ more)).store.bytes).get? id = some r := by
  have hkept := kept_run hl hv hk hcalls
  obtain ⟨pieces, hbytes, hc, hother⟩ := run_pieces (current_run hl calls) (valid_run hv calls) more
  rw [run_append, hbytes, get?, opened, scan_append hkept.whole, fill_append,
    find?_fill_of_forall_ne, hkept.finished id r hr hf]
  intro s hs
  obtain ⟨p, hp, hid⟩ := exists_of_mem_scan_layout hc hs
  rw [hid]
  exact hother id r hr hf p hp

/-- Behind the first torn append everything is lost. -/
theorem opened_of_tear (h' : Handle) {c : Call} (hc : l.Tears c) (more : List Call) :
    ∃ torn, l.image? c = some torn ∧
      (scan ((l.after c).run more).store.bytes).used ≤ l.store.bytes.length + 41 ∧
      ∀ id, id ≠ torn.id →
        (opened h' ((l.after c).run more).store.bytes).get? id =
          (opened h' l.store.bytes).get? id := by
  obtain ⟨torn, himage, htorn⟩ := hc
  obtain ⟨pieces, hbytes, hconsistent, -⟩ := run_pieces (step_after hl c).1 (valid_after hv c) more
  have hlayout : ((l.after c).run more).store.bytes =
      l.store.bytes ++ layout (⟨torn, true⟩ :: pieces) := by
    rw [hbytes, htorn, List.append_assoc]
    rfl
  have hscan := scan_torn (p := ⟨torn, true⟩) rfl
    (List.forall_mem_cons.mpr ⟨(consistent_of_image? hv himage).1, hconsistent⟩)
  refine ⟨torn, himage, ?_, fun id hid => ?_⟩
  · rw [hlayout, scan_append hk.whole]
    exact Nat.add_le_add_left hscan.1 _
  · simp only [get?, opened]
    rw [hlayout, scan_append hk.whole, fill_append, find?_fill_of_forall_ne]
    exact fun s hs hsame => hid (hsame.symm.trans (hscan.2 s hs))

end Reopening

/-- A record that is in the table was there before, or one of the calls put it there. -/
theorem exists_call_of_get? {l : Log} {id : TxnId} {r : Record} {calls : List Call}
    (hr : (l.run calls).get? id = some r) :
    l.get? id = some r ∨ ∃ a c, a ++ [c] <+: calls ∧ (l.run a).get? id ≠ some r ∧
      (l.run (a ++ [c])).get? id = some r := by
  induction calls using List.reverseRecOn with
  | nil => exact .inl hr
  | append_singleton calls c ih =>
    by_cases hbefore : (l.run calls).get? id = some r
    · refine (ih hbefore).imp_right fun ⟨a, d, hpre, hcall⟩ => ?_
      exact ⟨a, d, hpre.trans (List.prefix_append _ _), hcall⟩
    · exact .inr ⟨calls, c, List.prefix_refl _, hbefore, hr⟩

/-- A call that puts a record into the table has written its image. -/
theorem length_after_of_get? {l : Log} (hl : l.Current) (hv : Valid l.records) {c : Call}
    {id : TxnId} {r : Record} (hbefore : l.get? id ≠ some r) (hr : (l.after c).get? id = some r) :
    ¬l.Tears c ∧ l.store.bytes.length + 41 ≤ (l.after c).store.bytes.length := by
  cases (step_after hl c).2 with
  | idle hbytes hrecords =>
    rw [get?, hrecords] at hr
    exact absurd hr hbefore
  | torn image himage hbytes hrecords =>
    rw [get?, hrecords] at hr
    exact absurd hr hbefore
  | appended image himage hbytes hrecords =>
    have hc := (consistent_of_image? hv himage).1
    have hlong : 41 ≤ image.encode.length := by
      rcases (Record.shape_encode hc).payload with ⟨-, h⟩ | ⟨-, h⟩ <;> omega
    refine ⟨?_, by rw [hbytes, List.length_append]; omega⟩
    rintro ⟨half, hhalf, htorn⟩
    rw [himage] at hhalf
    cases hhalf
    -- half of the image is not all of it
    have := congrArg List.length (List.append_cancel_left (htorn.symm.trans hbytes))
    rw [List.length_take] at this
    omega

theorem length_after_of_tears {l : Log} (hv : Valid l.records) {c : Call} (hc : l.Tears c) :
    l.store.bytes.length + 20 ≤ (l.after c).store.bytes.length := by
  obtain ⟨torn, himage, hbytes⟩ := hc
  have hhalf : 20 ≤ (torn.encode.take (torn.encode.length / 2)).length :=
    Piece.le_length_bytes (p := ⟨torn, true⟩) (consistent_of_image? hv himage).1
  rw [hbytes, List.length_append]
  omega

theorem length_le_length_run {l : Log} (hl : l.Current) (hv : Valid l.records)
    (calls : List Call) : l.store.bytes.length ≤ (l.run calls).store.bytes.length := by
  obtain ⟨pieces, hbytes, -⟩ := run_pieces hl hv calls
  rw [hbytes, List.length_append]
  omega

/-- Which acknowledged outcomes survive. A finished record that came into the table before an append
was torn is found by every later reopening. If one was torn before, the record's image is cut off:
every transaction but the torn one is back at its last image in front of the torn append. -/
theorem openStore_run (h h' : Handle) (bytes : Bytes) (f : Faults) (calls more : List Call)
    {id : TxnId} {r : Record} (hr : ((openedFaulty h bytes f).run calls).get? id = some r)
    (hf : r.isFinished = true) :
    let l := openedFaulty h bytes f
    let stored := (l.run (calls ++ more)).store.bytes
    let reopened := opened h' stored
    openStore (.holding h' stored .none) = (.ok reopened, reopened.store) ∧
      ((∃ a, a <+: calls ∧ l.Untorn a ∧ (l.run a).get? id = some r) →
        reopened.get? id = some r) ∧
      ((¬∃ a, a <+: calls ∧ l.Untorn a ∧ (l.run a).get? id = some r) →
        ∃ a c, a ++ [c] <+: calls ∧ (l.run a).get? id ≠ some r ∧
          (l.run (a ++ [c])).get? id = some r ∧
          reopened.store.bytes.length < (l.run (a ++ [c])).store.bytes.length ∧
          ∃ intact tear torn, intact ++ [tear] <+: a ∧ l.Untorn intact ∧
            (l.run intact).Tears tear ∧ (l.run intact).image? tear = some torn ∧
            ∀ other, other ≠ torn.id →
              reopened.get? other = (opened h' (l.run intact).store.bytes).get? other) := by
  intro l stored reopened
  have hl : l.Current := current_openedFaulty h bytes f
  have hv : Valid l.records := valid_opened h bytes
  have hk : l.Kept := kept_openedFaulty h bytes f
  refine ⟨openStore_holding h' stored, ?_, ?_⟩
  · rintro ⟨a, ⟨rest, rfl⟩, ha, hra⟩
    have := get?_opened_of_untorn hl hv hk h' ha hra hf (rest ++ more)
    rwa [← List.append_assoc] at this
  · intro hnone
    rcases exists_call_of_get? hr with hfirst | ⟨a, c, hpre, hbefore, hput⟩
    · exact absurd ⟨[], List.nil_prefix, trivial, hfirst⟩ hnone
    have hput' : ((l.run a).after c).get? id = some r := by rwa [run_append] at hput
    obtain ⟨hwhole, hlong⟩ :=
      length_after_of_get? (current_run hl a) (valid_run hv a) hbefore hput'
    -- the torn append lies in front of the call that wrote the record
    have htorn : ¬l.Untorn a := fun ha =>
      hnone ⟨a ++ [c], hpre, untorn_append.mpr ⟨ha, hwhole, trivial⟩, hput⟩
    obtain ⟨intact, tear, between, rfl, hintact, htear⟩ := exists_first_tear htorn
    obtain ⟨rest, rfl⟩ := hpre
    have hstored : stored =
        (((l.run intact).after tear).run (between ++ [c] ++ rest ++ more)).store.bytes := by
      simp only [stored, List.append_assoc, List.cons_append, run_append, run_cons]
    obtain ⟨torn, himage, hused, hother⟩ := opened_of_tear (current_run hl intact)
      (valid_run hv intact) (kept_run hl hv hk hintact) h' htear (between ++ [c] ++ rest ++ more)
    rw [← hstored] at hused hother
    refine ⟨_, c, List.prefix_append _ _, hbefore, hput, ?_, intact, tear, torn,
      ⟨between, by simp⟩, hintact, htear, himage, hother⟩
    have hkept : reopened.store.bytes.length ≤ (scan stored).used := by
      simp only [reopened, opened, Store.bytes_holding, List.length_take]
      exact Nat.min_le_left _ _
    have hhalf := length_after_of_tears (valid_run hv intact) htear
    have hgrows := length_le_length_run (step_after (current_run hl intact) tear).1
      (valid_after (valid_run hv intact) tear) between
    rw [run_append, run_append, run_cons, run_cons, run_nil] at *
    omega

/-! A schedule of faults that tears the third append, and the records of two transactions. -/

def thirdTorn : Faults :=
  ⟨fun p => if p = .tornAppend then [⟨false, 2⟩, ⟨true, 1⟩] else []⟩

theorem openedFaulty_nil (h : Handle) (f : Faults) :
    openedFaulty h [] f = ⟨.holding h [] f, []⟩ := by
  simp [openedFaulty, opened]

theorem get?_opened_eq (h : Handle) (bytes : Bytes) (id : TxnId) :
    (opened h bytes).get? id =
      (openStore (.holding h bytes .none)).1.toOption.bind fun l => l.get? id := by
  rw [openStore_holding]
  rfl

/-- A commit in front of the torn append is found again. -/
theorem get?_opened_in_front_of_tear :
    let l := openedFaulty .shared [] thirdTorn
    let calls : List Call := [.create ⟨2⟩ 0 false, .transition ⟨2⟩ (.commit ⟨3⟩ 0 10)]
    let committed : Record := ⟨⟨2⟩, .committed, ⟨2⟩, some ⟨3⟩, 0, false⟩
    (l.run calls).get? ⟨2⟩ = some committed ∧ committed.isFinished = true ∧
      (opened .shared (l.run (calls ++ [.create ⟨1⟩ 0 false])).store.bytes).get? ⟨2⟩ =
        some committed := by
  intro l calls committed
  have hr : (l.run calls).get? ⟨2⟩ = some committed := by
    simp only [l, openedFaulty_nil]
    decide +kernel
  have hnone : l.get? ⟨2⟩ = none := by simp [l, openedFaulty_nil, get?, Table.find?]
  have hbegun : (l.after (.create ⟨2⟩ 0 false)).get? ⟨2⟩ = some (.start ⟨2⟩ 0 false) := by
    simp only [l, openedFaulty_nil]
    decide +kernel
  have hl : l.Current := ⟨.shared, _, thirdTorn, rfl⟩
  have hv : Valid l.records := valid_opened .shared []
  have hended : ((l.after (.create ⟨2⟩ 0 false)).after
      (.transition ⟨2⟩ (.commit ⟨3⟩ 0 10))).get? ⟨2⟩ = some committed := hr
  -- either call changes the table, so neither is torn
  have hfirst : ¬l.Tears (.create ⟨2⟩ 0 false) :=
    (length_after_of_get? hl hv (by simp [hnone]) hbegun).1
  have hsecond : ¬(l.after (.create ⟨2⟩ 0 false)).Tears (.transition ⟨2⟩ (.commit ⟨3⟩ 0 10)) :=
    (length_after_of_get? (step_after hl _).1 (valid_after hv _) (by rw [hbegun]; decide)
      hended).1
  exact ⟨hr, rfl, (openStore_run .shared .shared [] thirdTorn calls [.create ⟨1⟩ 0 false] hr rfl).2.1
    ⟨calls, List.prefix_refl _, ⟨hfirst, hsecond, trivial⟩, hr⟩⟩

/-- Not every acknowledged outcome survives. The rollback of one transaction is torn, and the commit
of another one is acknowledged behind it: reopening finds it live. -/
theorem not_forall_get?_opened :
    ¬∀ (f : Faults) (calls more : List Call) (id : TxnId) (t : Transition)
        (outcome : TransitionOutcome) (r : Record),
      ((openedFaulty .shared [] f).run calls |>.transition id t).1 = .ok outcome →
      ((openedFaulty .shared [] f).run (calls ++ [.transition id t])).get? id = some r →
      r.isFinished = true →
      (opened .shared ((openedFaulty .shared [] f).run
        (calls ++ .transition id t :: more)).store.bytes).get? id = some r := by
  intro hall
  have hlost := hall thirdTorn
    [.create ⟨1⟩ 0 false, .create ⟨2⟩ 0 false, .transition ⟨1⟩ .rollback] [] ⟨2⟩
    (.commit ⟨3⟩ 0 10) (.applied ⟨⟨2⟩, .committed, ⟨2⟩, some ⟨3⟩, 0, false⟩)
    ⟨⟨2⟩, .committed, ⟨2⟩, some ⟨3⟩, 0, false⟩
  simp only [openedFaulty_nil] at hlost
  have hreopened := hlost (by decide +kernel) (by decide +kernel) rfl
  rw [get?_opened_eq] at hreopened
  exact absurd hreopened (by decide +kernel)

end Log

end TxnEngine
