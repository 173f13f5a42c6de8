/-
  The data blobs a review shows: one CBOR item, an integer or a text.
-/
import Concordium.Library.Cbor
import Concordium.Library.Relate
import Concordium.Texts

namespace Concordium

open Buffer Wp Cbor

/-! ## The CBOR library on one item -/

/-- The type a cursor reports for an item of a major type. -/
def CborType.ofMajor : ℕ → CborType
  | 0 => .unsignedInteger
  | 1 => .negativeInteger
  | 2 => .byteString
  | 3 => .textString
  | 4 => .array
  | 5 => .map
  | 6 => .tag
  | _ => .other

theorem CborType.ofMajor_other {major : ℕ} (h0 : major ≠ 0) (h1 : major ≠ 1) (h3 : major ≠ 3) :
    ofMajor major ≠ .unsignedInteger ∧ ofMajor major ≠ .negativeInteger ∧
      ofMajor major ≠ .textString := by
  unfold ofMajor
  split <;> simp_all

/-- What the CBOR library does, as documented, on the item that a buffer begins
    with.  It reads an argument at any width. -/
structure DecodesItems (c : TinyCbor) : Prop where
  init_some : ∀ bs v, c.parserInit bs = some v →
    ∃ h, decodeHead bs = some h ∧ c.getType v = .ofMajor h.major
  init_head : ∀ bs h, decodeHead bs = some h → h.major < 7 → ∃ v, c.parserInit bs = some v
  isLengthKnown : ∀ bs v h, c.parserInit bs = some v → decodeHead bs = some h → h.major = 3 →
    c.isLengthKnown v = h.argument.isSome
  getUint64 : ∀ bs v n len, c.parserInit bs = some v → decodeHead bs = some ⟨0, some n, len⟩ →
    c.getUint64 v = n
  getRawInteger : ∀ bs v n len, c.parserInit bs = some v →
    decodeHead bs = some ⟨1, some n, len⟩ → c.getRawInteger v = n
  advanceFixed : ∀ bs v h, c.parserInit bs = some v → decodeHead bs = some h → h.major ≤ 1 →
    ∃ next, c.advanceFixed v = some next ∧ c.getNextByte next = h.length
  firstChunk_some : ∀ bs v n len, c.parserInit bs = some v →
    decodeHead bs = some ⟨3, some n, len⟩ → len + n ≤ bs.length →
    ∃ next, c.firstChunk v = some (len, (bs.drop len).take n, next) ∧
      c.getNextByte next = len + n
  firstChunk_none : ∀ bs v n len, c.parserInit bs = some v →
    decodeHead bs = some ⟨3, some n, len⟩ → bs.length < len + n → c.firstChunk v = none

/-! ## What a blob shows -/

/-- An item the review can show: a text is not too long and has no byte that a
    screen cannot render. -/
def Displayable : Item → Prop
  | .text t => t.length ≤ maxCborStringSize ∧ ∀ b ∈ t, 0x1F < b ∧ b ≠ 0x7F
  | _ => True

/-- The CBOR type of an item in words. -/
def itemLabel : Item → Bytes
  | .unsigned _ => ascii "Unsigned integer"
  | .negative _ => ascii "Negative integer"
  | .text _ => ascii "Text"

/-- The text of an item: decimal digits for a number, a text as it is. -/
def itemDisplay : Item → Bytes
  | .unsigned n => decimal n.toNat
  | .negative n =>
    if n.toNat = uint64Max then ascii "-" ++ decimal n.toNat ++ ascii " - 1"
    else ascii "-" ++ decimal (n.toNat + 1)
  | .text t => t

theorem Displayable.argument_lt {i : Item} (h : Displayable i) : i.argument < 2 ^ 64 := by
  cases i with
  | unsigned n => exact n.toNat_lt
  | negative n => exact n.toNat_lt
  | text t =>
    have : t.length ≤ 255 := h.1
    show t.length < 2 ^ 64
    omega

/-- A negative integer that is shown as a difference is no digits behind a sign. -/
theorem difference_ne_decimal (n m : ℕ) : decimal n ++ ascii " - 1" ≠ decimal m := by
  intro h
  have hmem : 32 ∈ decimal m := h ▸ List.mem_append_right _ (by decide)
  exact absurd (isDigit_of_mem_decimal hmem).1 (by decide)

theorem negativeDisplay_unique {n m : UInt64}
    (h : itemDisplay (.negative n) = itemDisplay (.negative m)) : n = m := by
  refine UInt64.toNat_inj.mp ?_
  change (if n.toNat = uint64Max then _ else _) = (if m.toNat = uint64Max then _ else _) at h
  by_cases hn : n.toNat = uint64Max <;> by_cases hm : m.toNat = uint64Max
  · rw [hn, hm]
  · rw [if_pos hn, if_neg hm, List.append_assoc] at h
    exact absurd (List.append_cancel_left h) (difference_ne_decimal _ _)
  · rw [if_neg hn, if_pos hm, List.append_assoc] at h
    exact absurd (List.append_cancel_left h).symm (difference_ne_decimal _ _)
  · rw [if_neg hn, if_neg hm] at h
    have := decimal_injective (List.append_cancel_left h)
    omega

/-- The label and the text on screen determine the item. -/
theorem item_unique {i j : Item} (hlabel : itemLabel i = itemLabel j)
    (hdisplay : itemDisplay i = itemDisplay j) : i = j := by
  have hun : ascii "Unsigned integer" ≠ ascii "Negative integer" := by decide
  have hut : ascii "Unsigned integer" ≠ ascii "Text" := by decide
  have hnt : ascii "Negative integer" ≠ ascii "Text" := by decide
  cases i with
  | unsigned n =>
    cases j with
    | unsigned m => exact congrArg Item.unsigned (UInt64.toNat_inj.mp (decimal_injective hdisplay))
    | negative m => exact absurd hlabel hun
    | text t => exact absurd hlabel hut
  | negative n =>
    cases j with
    | unsigned m => exact absurd hlabel.symm hun
    | negative m => exact congrArg Item.negative (negativeDisplay_unique hdisplay)
    | text t => exact absurd hlabel hnt
  | text t =>
    cases j with
    | unsigned m => exact absurd hlabel.symm hut
    | negative m => exact absurd hlabel.symm hnt
    | text t' => exact congrArg Item.text hdisplay

/-! ## The parser -/

theorem shortCount_toNat (b : UInt8) : (b &&& 0x1F).toNat = b.toNat % 32 := by
  rw [UInt8.toNat_and]
  exact Nat.and_two_pow_sub_one_eq_mod b.toNat 5

theorem getD_of_take {bs t : Bytes} {b : UInt8} {len : ℕ} (h : bs.take len = b :: t) :
    bs.getD 0 0 = b := by
  cases bs with
  | nil => simp at h
  | cons c bs =>
    cases len with
    | zero => simp at h
    | succ len =>
      rw [List.take_succ_cons] at h
      exact (List.cons.inj h).1

theorem isDisplayableText_iff (t : Bytes) :
    isDisplayableText t = true ↔ ∀ b ∈ t, 0x1F < b ∧ b ≠ 0x7F := by
  unfold isDisplayableText
  rw [List.all_eq_true]
  refine forall₂_congr fun b _ => ?_
  have hbound : ¬ b < 0x20 ↔ 0x1F < b := by
    rw [UInt8.lt_iff_toNat_lt, UInt8.lt_iff_toNat_lt]
    exact Nat.not_lt
  simp [← hbound]

/-- The check of the short count asks for the shortest head. -/
theorem cborArgumentIsCanonical_iff {bs : Bytes} {major n len : ℕ}
    (h : decodeHead bs = some ⟨major, some n, len⟩) :
    cborArgumentIsCanonical bs n = true ↔ len = (encodeHead major n).length := by
  obtain ⟨hm, -, ⟨hn, rfl, htake⟩ | ⟨k, hk, hn, rfl, htake⟩⟩ := decodeHead_some h
  · have hcount : (bs.getD 0 0 &&& 0x1F).toNat = n := by
      rw [shortCount_toNat, getD_of_take htake, initial_toNat hm (by omega)]
      omega
    rw [encodeHead_length, if_pos hn]
    unfold cborArgumentIsCanonical
    simp only [← UInt8.toNat_inj, hcount, UInt8.reduceToNat]
    rw [if_neg (by omega), if_neg (by omega), if_neg (by omega), if_neg (by omega)]
    simp
  · have hcount : (bs.getD 0 0 &&& 0x1F).toNat = 24 + k := by
      rw [shortCount_toNat, getD_of_take htake, initial_toNat hm (by omega)]
      omega
    rw [encodeHead_length]
    unfold cborArgumentIsCanonical
    simp only [← UInt8.toNat_inj, hcount, UInt8.reduceToNat]
    interval_cases k <;> simp <;> split_ifs <;> omega

theorem wp_cborSetTypeLabel {ctx : CborContext} {label : Bytes} {s : World}
    {Q : CborContext → World → Prop} {E : Exception → World → Prop} (hlen : label.length ≤ 20)
    (h0 : 0 ∉ label) (h : ∀ l : Buf 20, l.text = label → Q { ctx with typeLabel := l } s) :
    wp (cborSetTypeLabel ctx label) Q E s := by
  unfold cborSetTypeLabel
  simp only [wp_bind, wp_memmove, wp_pure]
  exact ⟨fun hw => h _ (text_write_zero hw h0), fun hno => absurd hlen (by omega)⟩

theorem decimal_length_64 (n : UInt64) : (decimal n.toNat).length ≤ 20 :=
  decimal_length (by decide) (n.toNat_lt.trans (by decide))

theorem zero_not_mem_negative {t : Bytes} (h : 0 ∉ t) : 0 ∉ ascii "-" ++ t := by
  intro hm
  rcases List.mem_append.mp hm with hm | hm
  · exact absurd hm (by decide)
  · exact h hm

/-- The text of a negative item. -/
theorem wp_negativeText {n : UInt64} {s : World} {Q : Bytes → World → Prop}
    {E : Exception → World → Prop}
    (h : (itemDisplay (.negative n)).length ≤ 25 → 0 ∉ itemDisplay (.negative n) →
      Q (itemDisplay (.negative n) ++ [0]) s) : wp (negativeText n.toNat) Q E s := by
  have hdisplay : itemDisplay (.negative n) = if n.toNat = uint64Max
    then ascii "-" ++ decimal n.toNat ++ ascii " - 1"
    else ascii "-" ++ decimal (n.toNat + 1) := rfl
  rw [hdisplay] at h
  have hsign : (ascii "-").length = 1 := by decide
  have hone : (ascii " - 1").length = 4 := by decide
  unfold negativeText
  by_cases hn : n.toNat = uint64Max
  · rw [if_pos hn] at h ⊢
    rw [wp_pure]
    have hlen := decimal_length_64 n
    refine h (by simp only [List.length_append, hsign, hone]; omega) ?_
    rw [List.append_assoc]
    refine zero_not_mem_negative fun hm => ?_
    rcases List.mem_append.mp hm with hm | hm
    · exact zero_not_mem_decimal _ hm
    · exact absurd hm (by decide)
  · rw [if_neg hn] at h ⊢
    have hlt : n.toNat + 1 < 10 ^ 20 := by
      have := n.toNat_lt
      omega
    have hlen := decimal_length (k := 20) (by decide) hlt
    rw [wp_bind]
    refine wp_binToDec_fits (by omega) ?_
    rw [wp_pure, ← List.append_assoc]
    refine h (by simp only [List.length_append, hsign]; omega) ?_
    exact zero_not_mem_negative (zero_not_mem_decimal _)

section
variable [Platform]

/-- The context shows the item. -/
structure Shows (i : Item) (out : CborContext) : Prop where
  label : out.typeLabel.text = itemLabel i
  display : out.display.text = itemDisplay i

/-- An integer item stands alone in the buffer in its shortest form. -/
theorem cborIntegerStands_iff (hc : DecodesItems Platform.cbor) {ctx : CborContext} {i : Item}
    {v : Platform.cbor.Value} {len : ℕ} (hinit : Platform.cbor.parserInit ctx.cborBuf = some v)
    (hhead : decodeHead ctx.cborBuf = some ⟨i.major, some i.argument, len⟩) (hm : i.major ≤ 1) :
    cborIntegerStands ctx v i.argument = true ↔ ctx.cborBuf = i.encode := by
  obtain ⟨next, hadvance, hnext⟩ := hc.advanceFixed _ _ _ hinit hhead hm
  have hlen := (decodeHead_some hhead).2.1
  rw [Item.eq_encode_iff hhead, ← cborArgumentIsCanonical_iff hhead,
    Item.content_eq_nil hm, List.drop_eq_nil_iff]
  unfold cborIntegerStands
  simp only [hadvance, hnext, Bool.and_eq_true, beq_iff_eq]
  constructor
  · rintro ⟨hend, hcanonical⟩
    exact ⟨hcanonical, by omega⟩
  · rintro ⟨hcanonical, hend⟩
    exact ⟨by omega, hcanonical⟩

/-- What parsing a complete blob comes to: the item that the blob is and that the
    context then shows, or a refusal of a blob that is no displayable item. -/
def BlobParsed (ctx : CborContext) (r : UInt16 × CborContext) : Prop :=
  r.2.cborBuf = ctx.cborBuf ∧ r.2.cborLength = ctx.cborLength ∧
    ((r.1 = swoSuccess ∧ ∃ i, Displayable i ∧ ctx.cborBuf = i.encode ∧ Shows i r.2) ∨
      (r.1 ≠ swoSuccess ∧ ¬ ∃ i, Displayable i ∧ ctx.cborBuf = i.encode))

omit [Platform] in
theorem head_of_item {bs : Bytes} {i : Item} (hi : Displayable i) (h : bs = i.encode) :
    decodeHead bs = some ⟨i.major, some i.argument, (encodeHead i.major i.argument).length⟩ := by
  rw [h, Item.decodeHead_encode hi.argument_lt]

omit [Platform] in
theorem BlobParsed.refused {ctx out : CborContext} {sw : UInt16} (hsw : sw ≠ swoSuccess)
    (hbuf : out.cborBuf = ctx.cborBuf) (hlen : out.cborLength = ctx.cborLength)
    (h : ∀ i, Displayable i → ctx.cborBuf ≠ i.encode) : BlobParsed ctx (sw, out) :=
  ⟨hbuf, hlen, .inr ⟨hsw, fun ⟨i, hi, heq⟩ => h i hi heq⟩⟩

omit [Platform] in
theorem BlobParsed.shown {ctx out : CborContext} (i : Item) (hi : Displayable i)
    (hbuf : out.cborBuf = ctx.cborBuf) (hlen : out.cborLength = ctx.cborLength)
    (h : ctx.cborBuf = i.encode) (hlabel : out.typeLabel.text = itemLabel i)
    (hdisplay : out.display.text = itemDisplay i) : BlobParsed ctx (swoSuccess, out) :=
  ⟨hbuf, hlen, .inl ⟨rfl, i, hi, h, hlabel, hdisplay⟩⟩

omit [Platform] in
/-- The one item that a blob with the head of a text can be. -/
theorem text_of_head {bs : Bytes} {i : Item} {argument : Option ℕ} {len : ℕ}
    (hhead : decodeHead bs = some ⟨3, argument, len⟩) (hi : Displayable i)
    (heq : bs = i.encode) :
    argument = some (bs.drop len).length ∧ i = .text (bs.drop len) := by
  have hsame := (head_of_item hi heq).symm.trans hhead
  obtain ⟨hmajor, rfl, rfl⟩ := Head.mk.inj (Option.some.inj hsame)
  cases i with
  | unsigned m => exact absurd hmajor (by decide : ¬ 0 = 3)
  | negative m => exact absurd hmajor (by decide : ¬ 1 = 3)
  | text t =>
    have ht : bs.drop (encodeHead (Item.text t).major (Item.text t).argument).length = t := by
      rw [heq]
      exact List.drop_left
    rw [ht]
    exact ⟨rfl, rfl⟩

omit [Platform] in
/-- The checks of a text, on the chunk behind the head: together they say that
    the blob is a displayable text. -/
theorem textStands_iff {bs : Bytes} {n len : ℕ} (hhead : decodeHead bs = some ⟨3, some n, len⟩)
    (hfits : len + n ≤ bs.length) :
    (len + n = bs.length ∧ cborArgumentIsCanonical bs n = true ∧ n ≤ maxCborStringSize ∧
        isDisplayableText ((bs.drop len).take n) = true) ↔
      Displayable (.text ((bs.drop len).take n)) ∧
        bs = (Item.text ((bs.drop len).take n)).encode := by
  have htlen : ((bs.drop len).take n).length = n := by
    rw [List.length_take, List.length_drop]
    omega
  have hdrop : len + n = bs.length ↔ bs.drop len = (bs.drop len).take n := by
    constructor
    · intro hend
      exact (List.take_of_length_le (by rw [List.length_drop]; omega)).symm
    · intro htake
      have := congrArg List.length htake
      rw [htlen, List.length_drop] at this
      omega
  have htext : decodeHead bs = some
      ⟨3, some (Item.argument (.text ((bs.drop len).take n))), len⟩ := by
    rw [Item.argument, htlen]
    exact hhead
  have hencode := Item.eq_encode_iff (i := .text ((bs.drop len).take n)) htext
  rw [Item.argument, htlen] at hencode
  rw [hencode, isDisplayableText_iff, cborArgumentIsCanonical_iff hhead, hdrop]
  have hdisplayable : Displayable (.text ((bs.drop len).take n)) ↔
      n ≤ maxCborStringSize ∧ ∀ b ∈ (bs.drop len).take n, 0x1F < b ∧ b ≠ 0x7F := by
    rw [Displayable, htlen]
  rw [hdisplayable]
  constructor
  · rintro ⟨hend, hlen, hshort, hchars⟩
    exact ⟨⟨hshort, hchars⟩, hlen, hend⟩
  · rintro ⟨⟨hshort, hchars⟩, hlen, hend⟩
    exact ⟨hend, hlen, hshort, hchars⟩

/-- The text branch of the parser. -/
theorem wp_parseCompleteText (hc : DecodesItems Platform.cbor) {ctx : CborContext}
    {v : Platform.cbor.Value} {argument : Option ℕ} {len : ℕ} {s : World}
    {E : Exception → World → Prop}
    (hinit : Platform.cbor.parserInit ctx.cborBuf = some v)
    (hhead : decodeHead ctx.cborBuf = some ⟨3, argument, len⟩) :
    wp (parseCompleteText ctx v) (fun r t => t = s ∧ BlobParsed ctx r) E s := by
  have hsw : errorInvalidTransaction ≠ swoSuccess := by decide
  have hknown := hc.isLengthKnown _ _ _ hinit hhead rfl
  unfold parseCompleteText
  rw [hknown]
  cases argument with
  | none =>
    refine wp_if (fun _ => ?_) fun hno => absurd rfl hno
    rw [wp_pure]
    refine ⟨rfl, BlobParsed.refused (by decide) rfl rfl fun i hi heq => ?_⟩
    cases (text_of_head hhead hi heq).1
  | some n =>
    refine wp_if (fun hno => absurd hno Bool.false_ne_true) fun _ => ?_
    by_cases hfits : len + n ≤ ctx.cborBuf.length
    · obtain ⟨next, hchunk, hnext⟩ := hc.firstChunk_some _ _ _ _ hinit hhead hfits
      have htlen : ((ctx.cborBuf.drop len).take n).length = n := by
        rw [List.length_take, List.length_drop]
        omega
      simp only [hchunk, hnext, htlen, Bool.not_eq_true']
      refine wp_if (fun hbad => ?_) fun hgood => ?_
      · rw [wp_pure]
        refine ⟨rfl, BlobParsed.refused hsw rfl rfl fun i hi heq => ?_⟩
        obtain ⟨hn, rfl⟩ := text_of_head hhead hi heq
        have htake : (ctx.cborBuf.drop len).take n = ctx.cborBuf.drop len :=
          List.take_of_length_le (Option.some.inj hn).ge
        obtain ⟨hend, hcanonical, hshort, hdisplayable⟩ :=
          (textStands_iff hhead hfits).mpr (by rw [htake]; exact ⟨hi, heq⟩)
        rw [hcanonical, hdisplayable] at hbad
        rcases hbad with h | h | h | h
        · exact h hend
        · exact Bool.false_ne_true h.symm
        · omega
        · exact Bool.false_ne_true h.symm
      · simp only [not_or, not_not, Bool.not_eq_false, Nat.not_lt] at hgood
        obtain ⟨hitem, hencode⟩ := (textStands_iff hhead hfits).mp hgood
        have h0 : 0 ∉ (ctx.cborBuf.drop len).take n := fun hm =>
          absurd (hitem.2 0 hm).1 (by decide)
        have h256 : n < 256 := Nat.lt_succ_of_le hgood.2.2.1
        rw [wp_bind]
        refine wp_cborSetTypeLabel (by decide) (by decide) fun l hl => ?_
        simp only [wp_bind, wp_memmove, wp_pure]
        refine ⟨fun hw => ⟨trivial, BlobParsed.shown (.text _) hitem rfl rfl hencode hl ?_⟩,
          fun hno => ?_⟩
        · exact Buf.text_write hw h0
        · simp only [List.length_append, htlen, List.length_singleton] at hno
          omega
    · simp only [hc.firstChunk_none _ _ _ _ hinit hhead (by omega), wp_pure]
      refine ⟨trivial, BlobParsed.refused hsw rfl rfl fun i hi heq => ?_⟩
      have hn := Option.some.inj (text_of_head hhead hi heq).1
      have hlen := (decodeHead_some hhead).2.1
      rw [List.length_drop] at hn
      omega

/-- A blob with the head of an integer that does not stand alone in its shortest
    form is no item. -/
theorem integer_refused (hc : DecodesItems Platform.cbor) {ctx : CborContext} {i : Item}
    {v : Platform.cbor.Value} {len : ℕ} (hinit : Platform.cbor.parserInit ctx.cborBuf = some v)
    (hhead : decodeHead ctx.cborBuf = some ⟨i.major, some i.argument, len⟩) (hm : i.major ≤ 1)
    (hstands : ¬ cborIntegerStands ctx v i.argument = true) (j : Item) (hj : Displayable j) :
    ctx.cborBuf ≠ j.encode := by
  intro heq
  obtain ⟨hmajor, hargument, -⟩ := Head.mk.inj (Option.some.inj
    ((head_of_item hj heq).symm.trans hhead))
  have hcontent : j.content = i.content := by
    rw [Item.content_eq_nil hm, Item.content_eq_nil (hmajor ▸ hm)]
  refine hstands ((cborIntegerStands_iff hc hinit hhead hm).mpr ?_)
  rw [heq, Item.eq_of_parts hmajor (Option.some.inj hargument) hcontent]

/-- `parse_complete_cbor` always returns: the item is on screen, or the blob is
    refused and no displayable item. -/
theorem wp_parseCompleteCbor (hc : DecodesItems Platform.cbor) (ctx : CborContext) (s : World)
    (E : Exception → World → Prop) :
    wp (parseCompleteCbor ctx) (fun r t => t = s ∧ BlobParsed ctx r) E s := by
  have hsw : errorInvalidTransaction ≠ swoSuccess := by decide
  unfold parseCompleteCbor
  cases hinit : Platform.cbor.parserInit ctx.cborBuf with
  | none =>
    simp only [wp_pure]
    refine ⟨trivial, BlobParsed.refused hsw rfl rfl fun i hi heq => ?_⟩
    have hmajor : i.major < 7 := by cases i <;> simp [Item.major]
    obtain ⟨v, hv⟩ := hc.init_head _ _ (head_of_item hi heq) hmajor
    rw [hinit] at hv
    cases hv
  | some v =>
    obtain ⟨⟨major, argument, len⟩, hhead, htype⟩ := hc.init_some _ _ hinit
    -- A blob of another major type is no displayable item.
    have hother (h0 : major ≠ 0) (h1 : major ≠ 1) (h3 : major ≠ 3) (i : Item)
        (hi : Displayable i) : ctx.cborBuf ≠ i.encode := by
      intro heq
      have := (Head.mk.inj (Option.some.inj ((head_of_item hi heq).symm.trans hhead))).1
      cases i
      · exact h0 this.symm
      · exact h1 this.symm
      · exact h3 this.symm
    have hargument (hm : major ≤ 1) : ∃ n : UInt64, argument = some n.toNat := by
      cases argument with
      | none => exact absurd (decodeHead_indefinite hhead).1 (by omega)
      | some n =>
        have hn := decodeHead_lt hhead
        exact ⟨UInt64.ofNat n, by rw [UInt64.toNat_ofNat', Nat.mod_eq_of_lt hn]⟩
    simp only [htype]
    by_cases h0 : major = 0
    · subst h0
      obtain ⟨n, rfl⟩ := hargument (by decide)
      have hm : (Item.unsigned n).major ≤ 1 := Nat.zero_le 1
      simp only [CborType.ofMajor, hc.getUint64 _ _ _ _ hinit hhead, Bool.not_eq_true']
      refine wp_if (fun hbad => ?_) fun hgood => ?_
      · rw [wp_pure]
        refine ⟨rfl, BlobParsed.refused hsw rfl rfl fun j hj => ?_⟩
        exact integer_refused hc (i := .unsigned n) hinit hhead hm (ne_true_of_eq_false hbad) j hj
      · have hencode := (cborIntegerStands_iff hc (i := .unsigned n) hinit hhead hm).mp
          (eq_true_of_ne_false hgood)
        have hlen := decimal_length_64 n
        rw [wp_bind]
        refine wp_cborSetTypeLabel (by decide) (by decide) fun l hl => ?_
        rw [wp_bind]
        refine wp_binToDec_fits (by omega) ?_
        simp only [wp_bind, wp_memmove, wp_pure]
        refine ⟨fun hw => ⟨trivial, BlobParsed.shown (.unsigned n) trivial rfl rfl hencode hl ?_⟩,
          fun hno => absurd (by simp only [List.length_append, List.length_singleton]; omega) hno⟩
        exact Buf.text_write hw (zero_not_mem_decimal _)
    by_cases h1 : major = 1
    · subst h1
      obtain ⟨n, rfl⟩ := hargument (by decide)
      have hm : (Item.negative n).major ≤ 1 := Nat.le_refl 1
      simp only [CborType.ofMajor, hc.getRawInteger _ _ _ _ hinit hhead, Bool.not_eq_true']
      refine wp_if (fun hbad => ?_) fun hgood => ?_
      · rw [wp_pure]
        refine ⟨rfl, BlobParsed.refused hsw rfl rfl fun j hj => ?_⟩
        exact integer_refused hc (i := .negative n) hinit hhead hm (ne_true_of_eq_false hbad) j hj
      · have hencode := (cborIntegerStands_iff hc (i := .negative n) hinit hhead hm).mp
          (eq_true_of_ne_false hgood)
        rw [wp_bind]
        refine wp_cborSetTypeLabel (by decide) (by decide) fun l hl => ?_
        rw [wp_bind]
        refine wp_negativeText fun hlen h0 => ?_
        simp only [wp_bind, wp_memmove, wp_pure]
        refine ⟨fun hw => ⟨trivial, BlobParsed.shown (.negative n) trivial rfl rfl hencode hl ?_⟩,
          fun hno => absurd (by simp only [List.length_append, List.length_singleton]; omega) hno⟩
        exact Buf.text_write hw h0
    by_cases h3 : major = 3
    · subst h3
      simp only [CborType.ofMajor]
      have hcleared : { ctx with displayLen := 0 }.cborBuf = ctx.cborBuf := rfl
      rw [← hcleared] at hinit hhead
      exact wp_parseCompleteText hc hinit hhead
    obtain ⟨hunsigned, hnegative, htext⟩ := CborType.ofMajor_other h0 h1 h3
    split
    · exact absurd ‹_› hunsigned
    · exact absurd ‹_› hnegative
    · exact absurd ‹_› htext
    · exact ⟨rfl, BlobParsed.refused (by decide) rfl rfl (hother h0 h1 h3)⟩

theorem parseCompleteCbor_ok (hc : DecodesItems Platform.cbor) (ctx : CborContext) (s : World) :
    ∃ r, parseCompleteCbor ctx s = .ok r s := by
  have h := wp_parseCompleteCbor hc ctx s fun _ _ => False
  unfold wp at h
  cases hr : parseCompleteCbor ctx s with
  | ok r t =>
    rw [hr] at h
    exact ⟨r, by rw [h.1]⟩
  | error e t =>
    rw [hr] at h
    exact h.elim

/-! ## The result of the parser -/

omit [Platform] in
/-- Programs whose result does not depend on the state. -/
abbrev Blind {α : Type} (x : App α) : Prop := Respects (fun _ _ : World => True) x

instance {c : Prop} [Decidable c] {sw : UInt16} : Blind (throwIf c sw) := by
  unfold throwIf; infer_instance

instance {n : ℕ} {dst : Buf n} {off : ℕ} {bs : Bytes} : Blind (memmove dst off bs) := by
  unfold memmove
  by_cases h : off + bs.length ≤ n
  · rw [dif_pos h]; infer_instance
  · rw [dif_neg h]; infer_instance

instance {ctx : CborContext} {label : Bytes} : Blind (cborSetTypeLabel ctx label) := by
  unfold cborSetTypeLabel; infer_instance

instance {k n : ℕ} : Blind (binToDec k n) := by
  unfold binToDec numberToText; infer_instance

instance {n : ℕ} : Blind (negativeText n) := by unfold negativeText; infer_instance

instance {ctx : CborContext} {v : Platform.cbor.Value} : Blind (parseCompleteText ctx v) := by
  unfold parseCompleteText
  rcases Platform.cbor.firstChunk v with _ | ⟨_, _, _⟩ <;> infer_instance

instance {ctx : CborContext} : Blind (parseCompleteCbor ctx) := by
  unfold parseCompleteCbor
  rcases Platform.cbor.parserInit ctx.cborBuf with _ | v
  · infer_instance
  · dsimp only
    cases Platform.cbor.getType v <;> infer_instance

/-- What parsing a complete blob comes to, in whatever state. -/
def parsedCbor (ctx : CborContext) : UInt16 × CborContext :=
  match parseCompleteCbor ctx {} with
  | .ok r _ => r
  | .error _ _ => (errorInvalidTransaction, ctx)

theorem parseCompleteCbor_eq (hc : DecodesItems Platform.cbor) (ctx : CborContext) (s : World) :
    parseCompleteCbor ctx s = .ok (parsedCbor ctx) s := by
  obtain ⟨r, hr⟩ := parseCompleteCbor_ok hc ctx s
  obtain ⟨r', hr'⟩ := parseCompleteCbor_ok hc ctx {}
  have hsame := (inferInstance : Blind (parseCompleteCbor ctx)).respects s {} trivial
  rw [hr, hr'] at hsame
  rw [hr, parsedCbor, hr', hsame.1]

theorem blobParsed_parsedCbor (hc : DecodesItems Platform.cbor) (ctx : CborContext) :
    BlobParsed ctx (parsedCbor ctx) :=
  (wp_ok (wp_parseCompleteCbor hc ctx {} fun _ _ => True) (parseCompleteCbor_eq hc ctx {})).2

/-- The context behind a chunk: the blob is parsed when it is complete. -/
def cborRead (ctx : CborContext) : UInt16 × CborContext :=
  if ctx.cborLength = 0 then parsedCbor ctx else (swoSuccess, ctx)

theorem wp_finishCbor (hc : DecodesItems Platform.cbor) {ctx : CborContext} {s : World}
    {Q : UInt16 × CborContext → World → Prop} {E : Exception → World → Prop} :
    wp (finishCbor ctx) Q E s = Q (cborRead ctx) s := by
  unfold finishCbor cborRead
  split_ifs with h
  · unfold wp
    rw [parseCompleteCbor_eq hc]
  · rfl

theorem wp_readCborInitial (hc : DecodesItems Platform.cbor) {ctx : CborContext} {cdata : Bytes}
    {s : World} {Q : UInt16 × CborContext → World → Prop} {E : Exception → World → Prop}
    (hE : cdata.length < 1 ∨ ctx.cborLength < cdata.length →
      E (.statusWord swoIncorrectData) s)
    (hQ : 1 ≤ cdata.length → cdata.length ≤ ctx.cborLength →
      Q (cborRead { ctx with
        cborBuf := cdata, cborLength := ctx.cborLength - cdata.length }) s) :
    wp (readCborInitial ctx cdata) Q E s := by
  unfold readCborInitial
  simp only [wp_bind, wp_throwIf, wp_finishCbor hc]
  exact ⟨fun h => hE (by omega), fun h1 => ⟨fun h => hE (.inr h), fun h2 =>
    hQ (by omega) (by omega)⟩⟩

theorem wp_readCborContent (hc : DecodesItems Platform.cbor) {ctx : CborContext} {cdata : Bytes}
    {s : World} {Q : UInt16 × CborContext → World → Prop} {E : Exception → World → Prop}
    (hE : ctx.cborLength < cdata.length ∨ maxCborBlobSize < ctx.cborBuf.length + cdata.length →
      E (.statusWord swoIncorrectData) s)
    (hQ : cdata.length ≤ ctx.cborLength →
      ctx.cborBuf.length + cdata.length ≤ maxCborBlobSize →
      Q (cborRead { ctx with
        cborBuf := ctx.cborBuf ++ cdata, cborLength := ctx.cborLength - cdata.length }) s) :
    wp (readCborContent ctx cdata) Q E s := by
  unfold readCborContent
  simp only [wp_bind, wp_throwIf, wp_finishCbor hc]
  exact ⟨fun h => hE (.inl h), fun h1 => ⟨fun h => hE (.inr h), fun h2 =>
    hQ (by omega) (by omega)⟩⟩

/-! ## Acceptance -/

theorem blobParsed_of_ok (hc : DecodesItems Platform.cbor) {ctx : CborContext} {s t : World}
    {r : UInt16 × CborContext} (h : parseCompleteCbor ctx s = .ok r t) : BlobParsed ctx r :=
  (wp_ok (wp_parseCompleteCbor hc ctx s fun _ _ => True) h).2

/-- A complete blob is accepted exactly when it is one displayable item in its
    shortest form, and what is shown of accepted blobs tells them apart. -/
theorem cbor_blob_canonical (hc : DecodesItems Platform.cbor) :
    (∀ (ctx : CborContext) (s : World), 1 ≤ ctx.cborBuf.length →
      ctx.cborBuf.length ≤ maxCborBlobSize →
      ((∃ out t, parseCompleteCbor ctx s = .ok (swoSuccess, out) t) ↔
        ∃ i, Displayable i ∧ ctx.cborBuf = i.encode)) ∧
    ∀ (ctx ctx' out out' : CborContext) (s s' t t' : World),
      parseCompleteCbor ctx s = .ok (swoSuccess, out) t →
      parseCompleteCbor ctx' s' = .ok (swoSuccess, out') t' →
      out.typeLabel.text = out'.typeLabel.text → out.display.text = out'.display.text →
      ctx.cborBuf = ctx'.cborBuf := by
  constructor
  · intro ctx s _ _
    constructor
    · rintro ⟨out, t, h⟩
      obtain ⟨-, -, ⟨-, i, hi, hencode, -⟩ | ⟨hno, -⟩⟩ := blobParsed_of_ok hc h
      · exact ⟨i, hi, hencode⟩
      · exact absurd rfl hno
    · intro hitem
      obtain ⟨⟨sw, out⟩, h⟩ := parseCompleteCbor_ok hc ctx s
      obtain ⟨-, -, ⟨rfl, -⟩ | ⟨-, hno⟩⟩ := blobParsed_of_ok hc h
      · exact ⟨out, s, h⟩
      · exact absurd hitem hno
  · intro ctx ctx' out out' s s' t t' h h' hlabel hdisplay
    obtain ⟨-, -, ⟨-, i, -, hi, hshows⟩ | ⟨hno, -⟩⟩ := blobParsed_of_ok hc h
    · obtain ⟨-, -, ⟨-, j, -, hj, hshows'⟩ | ⟨hno, -⟩⟩ := blobParsed_of_ok hc h'
      · have hij : i = j := item_unique
          (hshows.label.symm.trans (hlabel.trans hshows'.label))
          (hshows.display.symm.trans (hdisplay.trans hshows'.display))
        rw [hi, hj, hij]
      · exact absurd rfl hno
    · exact absurd rfl hno

end

/-! ## A library for items of known length -/

/-- A buffer, an offset, and the items left in front of the end of a container. -/
structure ItemCursor where
  bytes : Bytes
  off : ℕ
  left : ℕ

namespace ItemCursor

/-- The head at the cursor. -/
def head (v : ItemCursor) : Option Head := decodeHead (v.bytes.drop v.off)

/-- Its argument. -/
def argument (v : ItemCursor) : Option ℕ := v.head.bind Head.argument

/-- Behind a head; a tag does not count as an item. -/
def behindHead (v : ItemCursor) : Option ItemCursor :=
  v.head.map fun h =>
    { v with off := v.off + h.length, left := if h.major = 6 then v.left else v.left - 1 }

/-- The string at a cursor: where it starts, its bytes, and the cursor behind it. -/
def string (v : ItemCursor) : Option (ℕ × Bytes × ItemCursor) := do
  let h ← v.head
  let n ← h.argument
  let start := v.off + h.length
  if start + n ≤ v.bytes.length then
    some (start, (v.bytes.drop start).take n, { v with off := start + n, left := v.left - 1 })
  else
    none

/-- The string at a cursor, if it has at most `size` bytes. -/
def copyString (v : ItemCursor) (size : ℕ) : Option (Bytes × ItemCursor) := do
  let (_, bytes, next) ← v.string
  if bytes.length ≤ size then some (bytes, next) else none

/-- The first item of a container; a map has two items an entry. -/
def inside (v : ItemCursor) : Option ItemCursor := do
  let h ← v.head
  let n ← h.argument
  some { v with off := v.off + h.length, left := if h.major = 5 then 2 * n else n }

end ItemCursor

/-- A CBOR library on item cursors. -/
def itemCursor : TinyCbor where
  Value := ItemCursor
  parserInit bs := (decodeHead bs).map fun _ => ⟨bs, 0, 1⟩
  getType v := (v.head.map fun h => CborType.ofMajor h.major).getD .other
  isLengthKnown v := v.argument.isSome
  atEnd v := v.left == 0
  getNextByte v := v.off
  getTag v := v.argument.getD 0
  getUint64 v := v.argument.getD 0
  getRawInteger v := v.argument.getD 0
  advanceFixed v := v.behindHead
  advance v :=
    v.head.bind fun h =>
      if h.major = 2 ∨ h.major = 3 then v.string.map fun r => r.2.2 else v.behindHead
  enterContainer v := v.inside
  leaveContainer v child := some { v with off := child.off, left := v.left - 1 }
  copyByteString v size := v.copyString size
  copyTextString v size := v.copyString size
  getStringLength v := v.argument
  firstChunk v := v.string

theorem decodesItems_itemCursor : DecodesItems itemCursor := by
  have hinit {bs : Bytes} {v : ItemCursor} (h : itemCursor.parserInit bs = some v) :
      v = ⟨bs, 0, 1⟩ := by
    obtain ⟨_, -, rfl⟩ := Option.map_eq_some_iff.mp h
    rfl
  refine ⟨fun bs v h => ?_, fun bs h hhead _ => ?_, fun bs v h hv hhead _ => ?_,
    fun bs v n len hv hhead => ?_, fun bs v n len hv hhead => ?_, fun bs v h hv hhead hmajor => ?_,
    fun bs v n len hv hhead hfits => ?_, fun bs v n len hv hhead hfits => ?_⟩
  · obtain ⟨head, hhead, rfl⟩ := Option.map_eq_some_iff.mp h
    exact ⟨head, hhead, by simp [itemCursor, ItemCursor.head, hhead]⟩
  · exact ⟨⟨bs, 0, 1⟩, by simp [itemCursor, hhead]⟩
  · rw [hinit hv]
    simp [itemCursor, ItemCursor.argument, ItemCursor.head, hhead]
  · rw [hinit hv]
    simp [itemCursor, ItemCursor.argument, ItemCursor.head, hhead]
  · rw [hinit hv]
    simp [itemCursor, ItemCursor.argument, ItemCursor.head, hhead]
  · rw [hinit hv]
    refine ⟨⟨bs, h.length, if h.major = 6 then 1 else 0⟩, ?_, rfl⟩
    simp [itemCursor, ItemCursor.behindHead, ItemCursor.head, hhead]
  · rw [hinit hv]
    refine ⟨⟨bs, len + n, 0⟩, ?_, rfl⟩
    simp [itemCursor, ItemCursor.string, ItemCursor.head, hhead, hfits]
  · rw [hinit hv]
    simp [itemCursor, ItemCursor.string, ItemCursor.head, hhead, hfits]

/-- `sdkDevice` with a CBOR library for items of known length. -/
@[reducible] def cborDevice (backend : Backend) : Platform :=
  { sdkDevice backend with cbor := itemCursor }

theorem exactTexts_cborDevice (backend : Backend) :
    letI : Platform := cborDevice backend
    ExactTexts := by
  have h := exactTexts_sdkDevice backend
  let : Platform := cborDevice backend
  refine ⟨?_, ?_, ?_, ?_⟩
  · exact @ExactTexts.base58_length (sdkDevice backend) h
  · exact @ExactTexts.base58_text (sdkDevice backend) h
  · exact @ExactTexts.base58_injective (sdkDevice backend) h
  · exact @ExactTexts.fpu64_injective (sdkDevice backend) h

theorem text_blob_accepted :
    letI : Platform := cborDevice .nbgl
    ∃ out t, parseCompleteCbor { cborBuf := [0x63, 65, 66, 67] } World.start =
      .ok (swoSuccess, out) t := by
  let : Platform := cborDevice .nbgl
  refine ((cbor_blob_canonical decodesItems_itemCursor).1 _ World.start (by decide)
    (by decide)).mpr ⟨.text [65, 66, 67], ⟨by decide, ?_⟩, by decide⟩
  intro b hb
  simp only [List.mem_cons, List.not_mem_nil, or_false] at hb
  rcases hb with rfl | rfl | rfl <;> decide

end Concordium
