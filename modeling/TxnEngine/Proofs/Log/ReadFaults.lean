import TxnEngine.Proofs.Log.CrashPrefix
import TxnEngine.Proofs.Storage.FaultyCalls

/-!
# Opening a log whose reads fail

Every envelope takes two reads. Opening treats a read that fails like bytes that are no record: it
takes everything from there on for a damaged tail and cuts it off. So a log survives a failing read
only if the cut fails too.

Results:
* `readOne_encode`: what reading one envelope answers under any schedule of faults.
* `replayFrom_envelopes`: envelopes whose reads succeed are taken in.
* `openStore_envelopes`: which faults opening a log of whole records survives, and what it destroys
  under the others.
* `not_forall_openStore_envelopes`: a failing read that costs a record.
-/

namespace TxnEngine.Log

section Reading

variable (h : Handle) (f : Faults)

/-- Cutting a tail off takes the truncation and a sync behind it. -/
theorem cut_faulty {bytes : Bytes} {offset : Nat} (hle : offset ≤ bytes.length)
    (records : RecordTable) :
    ∃ f', cut (.holding h bytes f) offset records =
      if f.fails .truncate 0 then
        (.error (.storage Primitive.truncate.failure), .holding h bytes f')
      else if f.fails .sync 0 then
        (.error (.storage Primitive.sync.failure), .holding h (bytes.take offset) f')
      else (.ok records, .holding h (bytes.take offset) f') := by
  have hsync : (f.take .truncate).2.fails .sync 0 = f.fails .sync 0 := by
    rw [Faults.fails_take_of_ne _ _ (by decide)]
  rw [cut, Store.truncate_faulty _ _ _ hle]
  cases f.fails .truncate 0 with
  | true => exact ⟨_, rfl⟩
  | false =>
    refine ⟨((f.take .truncate).2.take .sync).2, ?_⟩
    simp only [Bool.false_eq_true, if_false, Store.sync_faulty, hsync]
    cases f.fails .sync 0 <;> rfl

/-- The envelope of a record is read with two reads, if neither of them fails. -/
theorem readOne_encode {r : Record} (hc : r.Consistent) (front rest : Bytes) :
    let bytes := front ++ (r.encode ++ rest)
    readOne (.holding h bytes f) front.length bytes.length =
      if f.fails .read 0 then
        (.error (.storage Primitive.read.failure), .holding h bytes (f.take .read).2)
      else
        (if f.fails .read 1 then .error (.storage Primitive.read.failure)
          else .ok (r, r.encode.length),
          .holding h bytes ((f.take .read).2.take .read).2) := by
  intro bytes
  have hpayload := Record.decodePayload_encodePayload hc
  generalize hp : r.encodePayload = payload at hpayload
  have henc : r.encode = Record.envelope payload := by rw [Record.encode, hp]
  have hlen : r.encode.length = Record.headerLength + payload.length + Record.trailerLength := by
    rw [henc, Record.length_envelope]
  have hsize : bytes.length = front.length + (r.encode.length + rest.length) := by
    simp only [bytes, List.length_append]
  have hdrop : bytes.drop front.length = r.encode ++ rest := List.drop_left
  -- the two reads, and what the first one is read as
  have hfirst : (Store.holding h bytes f).read front.length Record.headerLength =
      (if f.fails .read 0 then .error Primitive.read.failure
        else .ok (Record.header payload.length), .holding h bytes (f.take .read).2) := by
    have hshort : ¬bytes.length < front.length + Record.headerLength := by omega
    rw [Store.read_faulty, if_neg hshort, hdrop, henc, Record.take_envelope_append]
  have hheader : Record.decodeHeader (Record.header payload.length) = .ok payload.length :=
    Record.decodeHeader_eq_ok_iff.mpr
      ⟨Record.length_lt_of_decodePayload hpayload, List.prefix_refl _⟩
  have hsecond : (Store.holding h bytes (f.take .read).2).read (front.length + Record.headerLength)
      (payload.length + Record.trailerLength) =
        (if f.fails .read 1 then .error Primitive.read.failure
          else .ok (payload ++ Record.trailer payload),
          .holding h bytes ((f.take .read).2.take .read).2) := by
    have hshort : ¬bytes.length < front.length + Record.headerLength +
        (payload.length + Record.trailerLength) := by omega
    rw [Store.read_faulty, Faults.fails_take_self, if_neg hshort, ← List.drop_drop, hdrop, henc,
      Record.drop_envelope_append, ← List.append_assoc, List.take_left' (by simp)]
  have hcheck : Record.checkPayload payload (Record.trailer payload) = .ok () :=
    (Record.checkPayload_eq_ok_iff (Record.length_trailer payload)).mpr rfl
  rw [readOne, if_neg (by omega), hfirst]
  cases f.fails .read 0 with
  | true => rfl
  | false =>
    simp only [Bool.false_eq_true, if_false, hheader]
    rw [if_neg (by omega), hsecond]
    cases f.fails .read 1 with
    | true => rfl
    | false =>
      simp only [Bool.false_eq_true, if_false, List.take_left, List.drop_left, hcheck, hpayload,
        hlen]

/-- Envelopes whose reads succeed are taken in, each with two reads. -/
theorem replayFrom_envelopes {images : List Record} (hc : ∀ r ∈ images, r.Consistent)
    (front rest : Bytes) (fuel : Nat) (records : RecordTable)
    (hreads : ∀ i < 2 * images.length, f.fails .read i = false) :
    let bytes := front ++ (envelopes images ++ rest)
    ∃ f' : Faults, (∀ i, f'.fails .read i = f.fails .read (2 * images.length + i)) ∧
      (∀ p, p ≠ .read → f'.fails p = f.fails p) ∧
      replayFrom bytes.length (fuel + images.length) front.length records
          (.holding h bytes f) =
        replayFrom bytes.length fuel (front.length + (envelopes images).length)
          (fill records images) (.holding h bytes f') := by
  induction images generalizing front records f with
  | nil => exact ⟨f, by simp, fun _ _ => rfl, rfl⟩
  | cons r images ih =>
    intro bytes
    obtain ⟨hr, hc⟩ := List.forall_mem_cons.mp hc
    have hbytes : bytes = front ++ (r.encode ++ (envelopes images ++ rest)) := by
      simp only [bytes, envelopes_cons, List.append_assoc]
    have hbehind : bytes = (front ++ r.encode) ++ (envelopes images ++ rest) := by
      rw [hbytes, List.append_assoc]
    obtain ⟨f₂, hf₂⟩ : ∃ f₂, f₂ = ((f.take .read).2.take .read).2 := ⟨_, rfl⟩
    have hread (i : Nat) : f₂.fails .read i = f.fails .read (i + 2) := by
      rw [hf₂, Faults.fails_take_self, Faults.fails_take_self]
    have hother (p : Primitive) (hp : p ≠ .read) : f₂.fails p = f.fails p := by
      rw [hf₂, Faults.fails_take_of_ne _ _ hp, Faults.fails_take_of_ne _ _ hp]
    have hone := readOne_encode h f hr front (envelopes images ++ rest)
    simp only [← hbytes, ← hf₂, hreads 0 (by simp), hreads 1 (by simp; omega), Bool.false_eq_true,
      if_false] at hone
    have hmore : front.length < bytes.length := by
      have := r.length_encode_pos
      rw [hbytes, List.length_append, List.length_append]
      omega
    obtain ⟨f', hread', hother', hrest⟩ := ih f₂ hc (front ++ r.encode) (records.insert r.id r)
      fun i hi => by rw [hread]; exact hreads _ (by simp; omega)
    refine ⟨f', fun i => ?_, fun p hp => (hother' p hp).trans (hother p hp), ?_⟩
    · rw [hread', hread, List.length_cons]
      congr 1
      omega
    · rw [List.length_cons, ← Nat.add_assoc, replayFrom, if_pos hmore, hone]
      simp only
      have hoffset : front.length + r.encode.length = (front ++ r.encode).length :=
        List.length_append.symm
      have hend : (front ++ r.encode).length + (envelopes images).length =
          front.length + (envelopes (r :: images)).length := by
        rw [envelopes_cons, List.length_append, List.length_append, Nat.add_assoc]
      rw [hoffset, hbehind, hrest, fill_cons, hend]

theorem length_le_length_envelopes (images : List Record) :
    images.length ≤ (envelopes images).length := by
  induction images with
  | nil => exact Nat.le_refl _
  | cons r images ih =>
    have := r.length_encode_pos
    rw [envelopes_cons, List.length_append, List.length_cons]
    omega

/-- Opening takes in the first records as long as their reads succeed. -/
theorem replay_envelopes {images : List Record} (hc : ∀ r ∈ images, r.Consistent)
    (hsize : f.fails .size 0 = false) {n : Nat} (hn : n ≤ images.length)
    (hreads : ∀ i < 2 * n, f.fails .read i = false) :
    ∃ fuel, ∃ f' : Faults, (∀ i, f'.fails .read i = f.fails .read (2 * n + i)) ∧
      f'.fails .truncate = f.fails .truncate ∧ f'.fails .sync = f.fails .sync ∧
      replay (.holding h (envelopes images) f) =
        replayFrom (envelopes images).length (fuel + 1) (envelopes (images.take n)).length
          (fill [] (images.take n)) (.holding h (envelopes images) f') := by
  have hlen := length_le_length_envelopes images
  have hcount : (images.take n).length = n := by rw [List.length_take, Nat.min_eq_left hn]
  have hbytes : envelopes images =
      [] ++ (envelopes (images.take n) ++ envelopes (images.drop n)) := by
    rw [List.nil_append, ← envelopes_append, List.take_append_drop]
  have hother (p : Primitive) (hp : p ≠ .size) : (f.take .size).2.fails p = f.fails p :=
    Faults.fails_take_of_ne f .size hp
  have hfirst : ∀ i < 2 * (images.take n).length, (f.take .size).2.fails .read i = false := by
    intro i hi
    rw [hcount] at hi
    rw [hother .read (by decide)]
    exact hreads i hi
  obtain ⟨f', hread', hother', hrun⟩ := replayFrom_envelopes h (f.take .size).2
    (fun r hr => hc r (List.mem_of_mem_take hr)) [] (envelopes (images.drop n))
    ((envelopes images).length - n + 1) [] hfirst
  rw [← hbytes, hcount, List.length_nil, Nat.zero_add] at hrun
  refine ⟨(envelopes images).length - n, f', fun i => ?_, ?_, ?_, ?_⟩
  · rw [hread', hcount, hother .read (by decide)]
  · rw [hother' _ (by decide), hother _ (by decide)]
  · rw [hother' _ (by decide), hother _ (by decide)]
  · have hfuel : (envelopes images).length + 1 = (envelopes images).length - n + 1 + n := by omega
    simp only [replay, Store.size_faulty, hsize, Bool.false_eq_true, if_false]
    rw [hfuel, hrun]

end Reading

/-- Which faults opening a log survives that consists of whole records, and what the others do.

If the size cannot be had, opening fails and leaves the log alone. If every envelope can be read,
all records are found and the log is left alone. If one cannot, everything from that envelope on is
cut off, and opening succeeds with the records in front of it; unless the cut fails, which leaves
the log alone and fails the opening, or the sync behind the cut fails, which fails the opening
all the same. -/
theorem openStore_envelopes (h : Handle) {images : List Record} (hc : ∀ r ∈ images, r.Consistent)
    (f : Faults) :
    let stored := Store.holding h (envelopes images)
    (f.fails .size 0 = true → ∃ f',
      openStore (stored f) = (.error (.storage Primitive.size.failure), stored f')) ∧
    (f.fails .size 0 = false → (∀ i < 2 * images.length, f.fails .read i = false) → ∃ f',
      openStore (stored f) = (.ok ⟨stored f', fill [] images⟩, stored f')) ∧
    (f.fails .size 0 = false → ∀ n < images.length, (∀ i < 2 * n, f.fails .read i = false) →
      (f.fails .read (2 * n) = true ∨ f.fails .read (2 * n + 1) = true) → ∃ f',
      let kept := Store.holding h (envelopes (images.take n)) f'
      openStore (stored f) =
        if f.fails .truncate 0 then (.error (.storage Primitive.truncate.failure), stored f')
        else if f.fails .sync 0 then (.error (.storage Primitive.sync.failure), kept)
        else (.ok ⟨kept, fill [] (images.take n)⟩, kept)) := by
  intro stored
  refine ⟨fun hf => ?_, fun hf hreads => ?_, fun hf n hn hreads hfails => ?_⟩
  · exact ⟨(f.take .size).2, by simp [openStore, replay, stored, Store.size_faulty, hf]⟩
  · obtain ⟨fuel, f', -, -, -, hrun⟩ := replay_envelopes h f hc hf (Nat.le_refl _) hreads
    rw [List.take_length, replayFrom, if_neg (Nat.lt_irrefl _)] at hrun
    exact ⟨f', by rw [openStore, hrun]⟩
  · obtain ⟨fuel, f₁, hread₁, htruncate₁, hsync₁, hrun⟩ :=
      replay_envelopes h f hc hf (Nat.le_of_lt hn) hreads
    have hpos := images[n].length_encode_pos
    have hlt : (envelopes (images.take n)).length < (envelopes images).length := by
      rw [envelopes_split hn, List.length_append, List.length_append]
      omega
    -- one of the two reads of the next envelope fails, and the rest is cut off
    have hone : ∃ e f₂, readOne (.holding h (envelopes images) f₁)
        (envelopes (images.take n)).length (envelopes images).length =
          (.error e, .holding h (envelopes images) f₂) ∧
        ∀ p, p ≠ .read → f₂.fails p = f₁.fails p := by
      have hread := readOne_encode h f₁ (hc _ (List.getElem_mem hn)) (envelopes (images.take n))
        (envelopes (images.drop (n + 1)))
      simp only [← envelopes_split hn, hread₁, Nat.add_zero] at hread
      rw [hread]
      cases hfirst : f.fails .read (2 * n) with
      | true => exact ⟨_, _, rfl, fun p hp => Faults.fails_take_of_ne _ _ hp⟩
      | false =>
        have hsecond : f.fails .read (2 * n + 1) = true := by simpa [hfirst] using hfails
        rw [hsecond]
        exact ⟨_, _, rfl, fun p hp => by
          rw [Faults.fails_take_of_ne _ _ hp, Faults.fails_take_of_ne _ _ hp]⟩
    obtain ⟨e, f₂, hone, hother⟩ := hone
    rw [replayFrom, if_pos hlt, hone] at hrun
    obtain ⟨f', hcut⟩ := cut_faulty h f₂ (Nat.le_of_lt hlt) (fill [] (images.take n))
    simp only [hcut, take_length_envelopes, hother _ (show Primitive.truncate ≠ .read by decide),
      hother _ (show Primitive.sync ≠ .read by decide), htruncate₁, hsync₁] at hrun
    refine ⟨f', ?_⟩
    rw [openStore, hrun]
    split_ifs <;> rfl

/-! Two records, the second of which cannot be read. -/

def thirdRead : Faults :=
  ⟨fun p => if p = .read then [⟨false, 2⟩, ⟨true, 1⟩] else []⟩

def startedAndCommitted : List Record :=
  [.start ⟨1⟩ 0 false, ⟨⟨2⟩, .committed, ⟨2⟩, some ⟨3⟩, 0, false⟩]

/-- The third read is that of the second record, which is cut off. -/
theorem openStore_committed_unread :
    (∀ r ∈ startedAndCommitted, r.Consistent) ∧ thirdRead.fails .size 0 = false ∧
      (∀ i < 2, thirdRead.fails .read i = false) ∧ thirdRead.fails .read 2 = true ∧
      ∃ f', let kept := Store.holding .shared (envelopes (startedAndCommitted.take 1)) f'
        openStore (.holding .shared (envelopes startedAndCommitted) thirdRead) =
          (.ok ⟨kept, fill [] (startedAndCommitted.take 1)⟩, kept) := by
  have hc : ∀ r ∈ startedAndCommitted, r.Consistent := by decide
  have hreads : ∀ i < 2, thirdRead.fails .read i = false := by decide
  exact ⟨hc, by decide, hreads, by decide,
    (openStore_envelopes .shared hc thirdRead).2.2 (by decide) 1 (by decide) hreads
      (.inl (by decide))⟩

/-- A failing read can cost a record: opening a log of one committed record succeeds and leaves
nothing of it. -/
theorem not_forall_openStore_envelopes :
    ¬∀ (images : List Record) (f : Faults), (∀ r ∈ images, r.Consistent) →
      (∀ p, p ≠ .read → p ≠ .size → f.schedule p = []) →
      let opening := openStore (.holding .shared (envelopes images) f)
      opening.2.bytes = envelopes images ∧ ∀ l, opening.1 = .ok l → l.records = fill [] images := by
  intro hall
  have hkept := hall [⟨⟨2⟩, .committed, ⟨2⟩, some ⟨3⟩, 0, false⟩] (Faults.none.add .read 1)
    (by decide) (fun p hread _ => if_neg hread)
  exact absurd hkept.1 (by decide +kernel)

end TxnEngine.Log
