import TxnEngine.Proofs.Log.Calls

/-!
# Reopening a log that was cut short

Without faults a log consists of the envelopes of the images that its calls made, and the table is
filled with the same images. So any number of its first bytes holds the first so many images whole,
and behind them nothing but a strict prefix of the next envelope, which opening takes for a damaged
tail.

Results:
* `run_holding`: the log and the table after any calls, as two readings of the images they made.
* `scan_take_envelopes`: what is found in the first `k` bytes of a log.
* `openStore_take`: opening the first `k` bytes of a log leads back to the table as it was when the
  last image that lies wholly inside them had been persisted.
-/

namespace TxnEngine.Log

/-! ## The images that calls make -/

/-- The images that calls make one behind the other. -/
def images (l : Log) : List Call → List Record
  | [] => []
  | c :: calls => (l.image? c).toList ++ (l.after c).images calls

/-- The bytes of images one behind the other. -/
def envelopes (images : List Record) : Bytes :=
  images.flatMap Record.encode

@[simp]
theorem images_nil (l : Log) : l.images [] = [] := rfl

theorem images_cons (l : Log) (c : Call) (calls : List Call) :
    l.images (c :: calls) = (l.image? c).toList ++ (l.after c).images calls := rfl

theorem images_append (l : Log) (a b : List Call) :
    l.images (a ++ b) = l.images a ++ (l.run a).images b := by
  induction a generalizing l with
  | nil => rfl
  | cons c a ih => rw [List.cons_append, images_cons, images_cons, ih, List.append_assoc, run_cons]

@[simp]
theorem envelopes_nil : envelopes [] = [] := rfl

@[simp]
theorem envelopes_cons (r : Record) (images : List Record) :
    envelopes (r :: images) = r.encode ++ envelopes images := rfl

theorem envelopes_append (a b : List Record) : envelopes (a ++ b) = envelopes a ++ envelopes b :=
  List.flatMap_append

/-- A log in front of an envelope, the envelope, and the log behind it. -/
theorem envelopes_split {images : List Record} {n : Nat} (hn : n < images.length) :
    envelopes images =
      envelopes (images.take n) ++ (images[n].encode ++ envelopes (images.drop (n + 1))) := by
  rw [← envelopes_cons, ← envelopes_append, ← List.drop_eq_getElem_cons hn, List.take_append_drop]

/-- Every image that calls make can be read back. -/
theorem consistent_of_mem_images {l : Log} (hv : Valid l.records) {calls : List Call} {r : Record}
    (hr : r ∈ l.images calls) : r.Consistent := by
  induction calls generalizing l with
  | nil => cases hr
  | cons c calls ih =>
    rw [images_cons, List.mem_append] at hr
    rcases hr with hr | hr
    · exact (consistent_of_image? hv (Option.mem_toList.mp hr)).1
    · exact ih (valid_after hv c) hr

/-- Every number of images is reached by some of the calls. -/
theorem exists_calls (l : Log) (calls : List Call) {n : Nat} (hn : n ≤ (l.images calls).length) :
    ∃ pre, pre <+: calls ∧ (l.images pre).length = n := by
  induction calls generalizing l n with
  | nil => exact ⟨[], List.nil_prefix, (Nat.le_zero.mp hn).symm⟩
  | cons c calls ih =>
    by_cases hle : (l.image? c).toList.length ≤ n
    · rw [images_cons, List.length_append] at hn
      obtain ⟨pre, hpre, hlen⟩ := ih (l.after c) (n := n - (l.image? c).toList.length) (by omega)
      refine ⟨c :: pre, List.cons_prefix_cons.mpr ⟨rfl, hpre⟩, ?_⟩
      rw [images_cons, List.length_append]
      omega
    · -- a call makes one image at most
      have hone : (l.image? c).toList.length ≤ 1 := by cases l.image? c <;> simp
      obtain rfl : n = 0 := by omega
      exact ⟨[], List.nil_prefix, rfl⟩

/-- Some of the calls make the first of the images. -/
theorem images_of_isPrefix {l : Log} {pre calls : List Call} (hpre : pre <+: calls) :
    l.images pre = (l.images calls).take (l.images pre).length := by
  obtain ⟨rest, rfl⟩ := hpre
  rw [images_append, List.take_left]

/-! ## The log without faults -/

theorem after_holding (h : Handle) (bytes : Bytes) (records : RecordTable) (c : Call) :
    let l : Log := ⟨.holding h bytes .none, records⟩
    l.after c = ⟨.holding h (bytes ++ envelopes (l.image? c).toList) .none,
      fill records (l.image? c).toList⟩ := by
  intro l
  rw [after_eq]
  cases l.image? c with
  | none => simp [l]
  | some r => simp [l, persist_holding]

/-- Calls append the envelopes of their images to what was there, and fill the table with them. -/
theorem run_holding (h : Handle) (bytes : Bytes) (records : RecordTable) (calls : List Call) :
    let l : Log := ⟨.holding h bytes .none, records⟩
    l.run calls = ⟨.holding h (bytes ++ envelopes (l.images calls)) .none,
      fill records (l.images calls)⟩ := by
  intro l
  induction calls generalizing bytes records with
  | nil => simp [l]
  | cons c calls ih =>
    rw [run_cons, images_cons, envelopes_append, fill_append, ← List.append_assoc]
    simp only [l, after_holding]
    exact ih _ _

/-! ## The first bytes of a log -/

/-- The number of images that lie wholly inside the first `k` bytes. -/
def fitting : List Record → Nat → Nat
  | [], _ => 0
  | r :: images, k =>
    if r.encode.length ≤ k then fitting images (k - r.encode.length) + 1 else 0

theorem fitting_le_length (images : List Record) (k : Nat) : fitting images k ≤ images.length := by
  fun_induction fitting images k with
  | case1 k => exact Nat.le_refl _
  | case2 r images k hle ih => exact Nat.succ_le_succ ih
  | case3 r images k hlt => exact Nat.zero_le _

theorem le_fitting_iff {images : List Record} {k m : Nat} (hm : m ≤ images.length) :
    m ≤ fitting images k ↔ (envelopes (images.take m)).length ≤ k := by
  fun_induction fitting images k generalizing m with
  | case1 k =>
    obtain rfl := Nat.le_zero.mp hm
    simp
  | case2 r images k hle ih =>
    cases m with
    | zero => simp
    | succ m =>
      have := ih (Nat.le_of_succ_le_succ hm)
      simp only [List.take_succ_cons, envelopes_cons, List.length_append]
      omega
  | case3 r images k hlt =>
    cases m with
    | zero => simp
    | succ m =>
      simp only [List.take_succ_cons, envelopes_cons, List.length_append]
      omega

theorem scan_envelopes {images : List Record} (hc : ∀ r ∈ images, r.Consistent) :
    scan (envelopes images) = ⟨images, (envelopes images).length⟩ := by
  induction images with
  | nil => rw [envelopes_nil, scan_nil, List.length_nil]
  | cons r images ih =>
    rw [envelopes_cons, scan_encode_append (hc r List.mem_cons_self),
      ih fun s hs => hc s (List.mem_cons_of_mem _ hs), List.length_append]

theorem take_length_envelopes (images : List Record) (n : Nat) :
    (envelopes images).take (envelopes (images.take n)).length = envelopes (images.take n) := by
  conv_lhs => rw [← List.take_append_drop n images]
  rw [envelopes_append, List.take_left' (by rw [List.take_append_drop])]

/-- The first `k` bytes of a log hold the images that lie wholly inside them, and no others. -/
theorem scan_take_envelopes {images : List Record} (hc : ∀ r ∈ images, r.Consistent) (k : Nat) :
    scan ((envelopes images).take k) =
      ⟨images.take (fitting images k), (envelopes (images.take (fitting images k))).length⟩ := by
  fun_induction fitting images k with
  | case1 k => simp
  | case2 r images k hle ih =>
    obtain ⟨hr, hc⟩ := List.forall_mem_cons.mp hc
    rw [envelopes_cons, List.take_append, List.take_of_length_le hle, scan_encode_append hr, ih hc,
      List.take_succ_cons, envelopes_cons, List.length_append]
  | case3 r images k hlt =>
    -- the cut falls into the first envelope
    have hcut : (envelopes (r :: images)).take k = r.encode.take k := by
      rw [envelopes_cons, List.take_append_of_le_length (by omega)]
    obtain ⟨e, he⟩ := Record.decode_strict_prefix (List.take_prefix k r.encode)
      (by rw [List.length_take]; omega)
    rw [hcut, scan_of_error he]
    simp

/-- Opening what is left of a log that was cut short anywhere: exactly the images inside are kept,
and the table is the one that the log had when the last of them had been persisted. Of a log that
was not cut, everything is kept. -/
theorem openStore_take (h h' : Handle) (calls : List Call) (k : Nat) :
    let l := (opened h []).run calls
    let images := (opened h []).images calls
    l.store.bytes = envelopes images ∧
      (∃ n ≤ images.length,
        (∀ m ≤ images.length, m ≤ n ↔ (envelopes (images.take m)).length ≤ k) ∧
        (∃ pre, pre <+: calls ∧ ((opened h []).images pre).length = n) ∧
        ∀ pre, pre <+: calls → ((opened h []).images pre).length = n →
          let kept : Store := .holding h' (envelopes (images.take n)) .none
          openStore (.holding h' (l.store.bytes.take k) .none) =
            (.ok ⟨kept, ((opened h []).run pre).records⟩, kept)) ∧
      openStore (.holding h' l.store.bytes .none) =
        (.ok ⟨.holding h' l.store.bytes .none, l.records⟩, .holding h' l.store.bytes .none) := by
  intro l images
  have hopened : opened h [] = ⟨.holding h [] .none, []⟩ := by simp [opened]
  have hc : ∀ r ∈ images, r.Consistent := fun r hr =>
    consistent_of_mem_images (valid_opened h []) hr
  -- the log and the table after any calls
  have hrun (some : List Call) : (opened h []).run some =
      ⟨.holding h (envelopes ((opened h []).images some)) .none,
        fill [] ((opened h []).images some)⟩ := by
    rw [hopened]
    exact run_holding h [] [] some
  have hbytes : l.store.bytes = envelopes images := by
    simp only [l, hrun, Store.bytes_holding, images]
  refine ⟨hbytes, ⟨fitting images k, fitting_le_length images k, fun m hm => le_fitting_iff hm,
    exists_calls _ _ (fitting_le_length images k), ?_⟩, ?_⟩
  · intro pre hpre hn kept
    have htable : ((opened h []).run pre).records = fill [] (images.take (fitting images k)) := by
      rw [hrun, images_of_isPrefix hpre, hn]
    have hle : (envelopes (images.take (fitting images k))).length ≤ k :=
      (le_fitting_iff (fitting_le_length images k)).mp (Nat.le_refl _)
    rw [openStore_holding, htable, hbytes]
    unfold opened
    rw [scan_take_envelopes hc, List.take_take, Nat.min_eq_left hle, take_length_envelopes]
  · rw [openStore_holding, hbytes]
    unfold opened
    rw [scan_envelopes hc, List.take_length]
    simp only [l, hrun, images]

end TxnEngine.Log
