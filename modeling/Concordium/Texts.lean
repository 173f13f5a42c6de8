/-
  What the texts on screen say.

  The reviews show amounts, addresses and numbers through the SDK's formatters.
  `ExactTexts` is what they rely on: texts of different values differ.  Under
  it a text that is shown determines the bytes it was made from.
-/
import Concordium.Device
import Concordium.Library.Numerals
import Concordium.Rules

namespace Concordium

open Buffer Wp

/-- The bytes of an address that `base58check_encode` puts in front of the
    checksum. -/
def versionedAddress (address : Bytes) : Bytes := base58VersionByte :: address

section Texts
variable [Platform]

/-- `base58check` of an address, into a buffer of the given size. -/
def addressText (address : Bytes) (size : ℕ) : Option Bytes :=
  let versioned := versionedAddress address
  Platform.base58Encode
    (versioned ++ (Platform.sha256 (Platform.sha256 versioned).bytes).bytes.take 4) size

/-- What the reviews rely on of the SDK's formatters: the 37 bytes of a
    versioned address with its checksum have a text of 50 characters that
    determines them, and so does the trimmed text of a 64-bit number. -/
structure ExactTexts : Prop where
  base58_length : ∀ bs size text, bs.length = 36 →
    Platform.base58Encode (base58VersionByte :: bs) size = some text → text.length = 50
  base58_text : ∀ bs size text, bs.length = 36 →
    Platform.base58Encode (base58VersionByte :: bs) size = some text → 0 ∉ text
  base58_injective : ∀ bs cs size size' text, bs.length = 36 → cs.length = 36 →
    Platform.base58Encode (base58VersionByte :: bs) size = some text →
    Platform.base58Encode (base58VersionByte :: cs) size' = some text → bs = cs
  fpu64_injective : ∀ n m decimals text text', n < 2 ^ 64 → m < 2 ^ 64 →
    Platform.formatFpu64Trimmed fpu64TmpLen n decimals = some text →
    Platform.formatFpu64Trimmed fpu64TmpLen m decimals = some text' →
    text.takeWhile (· != 0) = text'.takeWhile (· != 0) → n = m

/-! ## Addresses -/

/-- The text shows the address.  The terminator stands at a fixed place, so a
    shorter text may be followed by what the buffer held before. -/
def AddressShown (text address : Bytes) : Prop :=
  address.length = 32 ∧ ∃ size t rest, addressText address size = some t ∧
    (0 ∉ t → t.length ≤ base58AddressLength → text = t ++ rest)

theorem checked_length {address : Bytes} (h : address.length = 32) :
    (address ++ (Platform.sha256 (Platform.sha256 (versionedAddress address)).bytes).bytes.take
      4).length = 36 := by
  simp [h, Buf.bytes_length]

theorem addressText_some (hx : ExactTexts) {address t : Bytes} {size : ℕ}
    (ha : address.length = 32) (ht : addressText address size = some t) :
    0 ∉ t ∧ t.length = 50 :=
  ⟨hx.base58_text _ _ _ (checked_length ha) ht, hx.base58_length _ _ _ (checked_length ha) ht⟩

theorem AddressShown.unique (hx : ExactTexts) {text a b : Bytes} (ha : AddressShown text a)
    (hb : AddressShown text b) : a = b := by
  obtain ⟨hla, size, t, rest, hta, htext⟩ := ha
  obtain ⟨hlb, size', t', rest', htb, htext'⟩ := hb
  obtain ⟨h0, ht50⟩ := addressText_some hx hla hta
  obtain ⟨h0', ht50'⟩ := addressText_some hx hlb htb
  have heq : t ++ rest = t' ++ rest' :=
    (htext h0 (by rw [ht50]; decide)).symm.trans (htext' h0' (by rw [ht50']; decide))
  obtain ⟨rfl, -⟩ := List.append_inj heq (ht50.trans ht50'.symm)
  have hbytes := hx.base58_injective _ _ _ _ _ (checked_length hla) (checked_length hlb) hta htb
  exact (List.append_inj hbytes (hla.trans hlb.symm)).1

omit [Platform] in
theorem text_of_writes {n k : ℕ} {b : Buf n} {t : Bytes} (h0 : 0 ∉ t) (hk : t.length ≤ k)
    (hw : 0 + t.length ≤ n) (hw' : k + [(0 : UInt8)].length ≤ n) :
    ∃ rest, ((b.write 0 t hw).write k [0] hw').text = t ++ rest := by
  have hne : ∀ x ∈ t, (x != 0) = true := fun x hx => bne_iff_ne.mpr fun hx0 => h0 (hx0 ▸ hx)
  simp only [Buf.text, Buf.write_bytes, List.take_zero, List.nil_append, List.take_append,
    List.take_of_length_le hk, List.append_assoc, List.takeWhile_append_of_pos hne]
  exact ⟨_, rfl⟩

theorem wp_base58checkEncode {input : Bytes} {size : ℕ} {s : World}
    {Q : Option Bytes → World → Prop} {E : Exception → World → Prop}
    (hE : ∀ sw, E (.statusWord sw) s) (h : input.length = 32 → Q (addressText input size) s) :
    wp (base58checkEncode input size) Q E s := by
  unfold base58checkEncode
  simp only [wp_bind, wp_throwIf, wp_pure]
  exact ⟨fun _ => hE _, fun hlen => h (not_not.mp hlen)⟩

/-- The byte behind the 50 characters of an address. -/
def EndsAddress {n : ℕ} (b : Buf n) : Prop := b.bytes.getD 50 0 = 0

omit [Platform] in
/-- An address of 50 characters keeps the byte behind it, and is the whole text
    where that byte ends it. -/
theorem text_of_address {n : ℕ} {b : Buf n} {t : Bytes} (h0 : 0 ∉ t) (ht : t.length = 50)
    (hb : EndsAddress b) (hw : 0 + t.length ≤ n) (hw' : 55 + [(0 : UInt8)].length ≤ n) :
    EndsAddress ((b.write 0 t hw).write 55 [0] hw') ∧
      ((b.write 0 t hw).write 55 [0] hw').text = t := by
  have hne : ∀ x ∈ t, (x != 0) = true := fun x hx => bne_iff_ne.mpr fun hx0 => h0 (hx0 ▸ hx)
  have hlen : b.bytes.length = n := b.bytes_length
  have hn : 56 ≤ n := hw'
  -- Behind the address stand five old bytes, then the terminator.
  have hdrop : b.bytes.drop 50 = 0 :: b.bytes.drop 51 := by
    rw [List.drop_eq_getElem_cons (by omega)]
    congr 1
    rw [EndsAddress, List.getD_eq_getElem _ _ (by omega)] at hb
    exact hb
  have hbytes : ((b.write 0 t hw).write 55 [0] hw').bytes =
      t ++ (0 :: (b.bytes.drop 51).take 4 ++ 0 :: b.bytes.drop 56) := by
    simp only [Buf.write_bytes, List.take_zero, List.nil_append, List.take_append, ht,
      List.take_of_length_le (show t.length ≤ 55 by omega), List.drop_append,
      List.drop_of_length_le (show t.length ≤ 55 + [(0 : UInt8)].length by simp [ht]),
      Nat.zero_add, hdrop]
    simp [List.append_assoc]
  constructor
  · rw [EndsAddress, hbytes, List.getD_append_right _ _ _ _ (by omega), ht]
    rfl
  · rw [Buf.text, hbytes, List.takeWhile_append_of_pos hne]
    simp

/-- `base58Address` shows the address, and is its text where the buffer ends an
    address. -/
theorem wp_base58Address {n : ℕ} {input : Bytes} {dst : Buf n} {s : World}
    {Q : Buf n → World → Prop} {E : Exception → World → Prop} (hE : ∀ sw, E (.statusWord sw) s)
    (hfault : n ≤ base58AddressLength ∨ ¬ ExactTexts → E .fault s)
    (h : ∀ dst' : Buf n, AddressShown dst'.text input →
      (ExactTexts → EndsAddress dst →
        EndsAddress dst' ∧ addressText input n = some dst'.text) → Q dst' s) :
    wp (base58Address input dst) Q E s := by
  unfold base58Address
  rw [wp_bind]
  refine wp_base58checkEncode hE fun hlen => ?_
  cases htext : addressText input n with
  | none => exact hE _
  | some text =>
    simp only [wp_bind, wp_memmove]
    refine ⟨fun hw => ⟨fun hw' => h _ ⟨hlen, n, text, ?_⟩ fun hx hends => ?_, fun hroom => ?_⟩,
      fun hroom => hfault ?_⟩
    · by_cases h0 : 0 ∉ text ∧ text.length ≤ base58AddressLength
      · obtain ⟨rest, hrest⟩ := text_of_writes (b := dst) h0.1 h0.2 hw hw'
        exact ⟨rest, htext, fun _ _ => hrest⟩
      · exact ⟨[], htext, fun h1 h2 => absurd ⟨h1, h2⟩ h0⟩
    · obtain ⟨h0, h50⟩ := addressText_some hx hlen htext
      obtain ⟨hends', htext'⟩ := text_of_address h0 h50 hends hw hw'
      exact ⟨hends', htext.trans (congrArg some htext'.symm)⟩
    · exact hfault (.inl (Nat.lt_succ_iff.mp (not_le.mp hroom)))
    · by_contra hno
      obtain ⟨hn, hx⟩ := not_or.mp hno
      have h50 : text.length = 50 := (addressText_some (not_not.mp hx) hlen htext).2
      unfold base58AddressLength at hn
      omega

/-! ## Amounts and numbers -/

/-- The text shows an amount of CCD: the formatter's text and four characters
    of unit. -/
def AmountShown (text : Bytes) (amount : ℕ) : Prop :=
  ∃ t unit, Platform.formatFpu64Trimmed fpu64TmpLen amount 6 = some t ∧ unit.length = 4 ∧
    text = t.takeWhile (· != 0) ++ unit

theorem AmountShown.unique (hx : ExactTexts) {text : Bytes} {n m : ℕ} (hn : n < 2 ^ 64)
    (hm : m < 2 ^ 64) (h : AmountShown text n) (h' : AmountShown text m) : n = m := by
  obtain ⟨t, unit, ht, hu, htext⟩ := h
  obtain ⟨t', unit', ht', hu', htext'⟩ := h'
  have heq := htext.symm.trans htext'
  obtain ⟨hsame, -⟩ := List.append_inj' heq (hu.trans hu'.symm)
  exact hx.fpu64_injective n m 6 t t' hn hm ht ht' hsame

/-- The text of an amount of CCD. -/
def amountText (amount : ℕ) : Option Bytes :=
  (Platform.formatFpu64Trimmed fpu64TmpLen amount 6).map fun t =>
    t.takeWhile (· != 0) ++
      if 14 ≤ (t.takeWhile (· != 0)).length ∧ (t.takeWhile (· != 0)).length < 18
      then ascii "\nCCD" else ascii " CCD"

theorem AmountShown.of_text {text : Bytes} {amount : ℕ} (h : amountText amount = some text) :
    AmountShown text amount := by
  obtain ⟨t, ht, rfl⟩ := Option.map_eq_some_iff.mp h
  refine ⟨t, _, ht, ?_, rfl⟩
  split <;> decide

omit [Platform] in
theorem zero_not_mem_takeWhile (t : Bytes) : 0 ∉ t.takeWhile (· != 0) := fun h => by
  simpa using List.mem_takeWhile_imp h

/-- `amount_to_ccd_display` into the start of a buffer. -/
theorem wp_amountToCcdDisplay {n size amount : ℕ} {dst : Buf n} {s : World}
    {Q : Buf n → World → Prop} {E : Exception → World → Prop} (hsize : size ≤ n)
    (hE : ∀ sw, E (.statusWord sw) s)
    (h : ∀ dst' : Buf n, amountText amount = some dst'.text → Q dst' s) :
    wp (do memmove dst 0 (← amountToCcdDisplay size amount)) Q E s := by
  have htext (t unit : Bytes) (h0 : 0 ∉ unit) (hunit : unit.length = 4)
      (hlen : ¬ size < (t.takeWhile (· != 0)).length + 5)
      (ht : amountText amount = some (t.takeWhile (· != 0) ++ unit)) :
      wp (memmove dst 0 (t.takeWhile (· != 0) ++ unit ++ [0])) Q E s := by
    rw [wp_memmove]
    refine ⟨fun hw => h _ (ht.trans (congrArg some ?_)), fun hroom => absurd ?_ hroom⟩
    · refine (Buf.text_write hw fun hm => ?_).symm
      rcases List.mem_append.mp hm with hm | hm
      · exact zero_not_mem_takeWhile t hm
      · exact h0 hm
    · simp only [List.length_append, List.length_singleton, hunit]
      omega
  rw [wp_bind]
  unfold amountToCcdDisplay formatFpu64Tmp
  cases ht : Platform.formatFpu64Trimmed fpu64TmpLen amount 6 with
  | none => exact hE _
  | some t =>
    simp only [wp_bind, wp_pure, wp_throwIf]
    refine ⟨fun _ => hE _, fun hlen => wp_if (fun hlong => ?_) fun hshort => ?_⟩
    · refine htext t (ascii "\nCCD") (by decide) (by decide) hlen ?_
      rw [amountText, ht, Option.map_some, if_pos hlong]
    · refine htext t (ascii " CCD") (by decide) (by decide) hlen ?_
      rw [amountText, ht, Option.map_some, if_neg hshort]

omit [Platform] in
theorem wp_numberToText {size n : ℕ} {s : World} {Q : Bytes → World → Prop}
    {E : Exception → World → Prop} (h : (decimal n).length ≤ size → Q (decimal n) s)
    (hno : size < (decimal n).length → E (.statusWord errorBufferOverflow) s) :
    wp (numberToText size n) Q E s := by
  unfold numberToText
  simp only [wp_bind, wp_throwIf, wp_pure]
  exact ⟨hno, fun hle => h (not_lt.mp hle)⟩

omit [Platform] in
theorem wp_numberToText_fits {size n : ℕ} {s : World} {Q : Bytes → World → Prop}
    {E : Exception → World → Prop} (hlen : (decimal n).length ≤ size) (h : Q (decimal n) s) :
    wp (numberToText size n) Q E s :=
  wp_numberToText (fun _ => h) fun hno => absurd hlen (not_le.mpr hno)

omit [Platform] in
theorem wp_binToDec {size n : ℕ} {s : World} {Q : Bytes → World → Prop}
    {E : Exception → World → Prop} (hE : ∀ sw, E (.statusWord sw) s)
    (h : (decimal n ++ [0]).length ≤ size → Q (decimal n ++ [0]) s) :
    wp (binToDec size n) Q E s := by
  unfold binToDec numberToText
  simp only [wp_bind, wp_throwIf, wp_pure]
  refine ⟨fun _ => hE _, fun _ => ⟨fun _ => hE _, fun hle => h ?_⟩⟩
  rw [List.length_append]
  exact not_lt.mp hle

omit [Platform] in
theorem wp_binToDec_fits {size n : ℕ} {s : World} {Q : Bytes → World → Prop}
    {E : Exception → World → Prop} (hlen : (decimal n).length + 1 ≤ size)
    (h : Q (decimal n ++ [0]) s) : wp (binToDec size n) Q E s := by
  unfold binToDec numberToText
  simp only [wp_bind, wp_throwIf, wp_pure]
  exact ⟨fun hno => by omega, fun _ => ⟨fun hno => by omega, fun _ => h⟩⟩

omit [Platform] in
/-- A text in a buffer that was cleared before needs no terminator. -/
theorem text_write_zero {n : ℕ} {t : Bytes} (hw : 0 + t.length ≤ n) (h0 : 0 ∉ t) :
    ((Buf.zero n).write 0 t hw).text = t := by
  have hne : ∀ x ∈ t, (x != 0) = true := fun x hx => bne_iff_ne.mpr fun hx0 => h0 (hx0 ▸ hx)
  have hrest (k : ℕ) : (List.replicate k (0 : UInt8)).takeWhile (· != 0) = [] := by
    cases k <;> simp [List.replicate_succ]
  simp only [Buf.text, Buf.zero, Buf.write_bytes, List.take_zero, List.nil_append,
    List.drop_replicate, List.takeWhile_append_of_pos hne, hrest, List.append_nil]

omit [Platform] in
theorem text_append {n : ℕ} {b : Buf n} {t : Bytes} (h0 : 0 ∉ t)
    (hw : b.text.length + (t ++ [0]).length ≤ n) :
    (b.write b.text.length (t ++ [0]) hw).text = b.text ++ t := by
  have hne {bs : Bytes} (h : 0 ∉ bs) : ∀ x ∈ bs, (x != 0) = true := fun x hx =>
    bne_iff_ne.mpr fun hx0 => h (hx0 ▸ hx)
  have hprefix : b.bytes.take b.text.length = b.text :=
    (List.prefix_iff_eq_take.mp (List.takeWhile_prefix _)).symm
  rw [Buf.text, Buf.write_bytes, hprefix, List.append_assoc, List.append_assoc,
    List.takeWhile_append_of_pos (hne b.zero_not_mem_text), List.takeWhile_append_of_pos (hne h0)]
  simp

omit [Platform] in
theorem text_of_label {n : ℕ} {b : Buf n} {label t : Bytes} (hl : 0 ∉ label) (ht : 0 ∉ t)
    (hw : 0 + label.length ≤ n) (hw' : label.length + (t ++ [0]).length ≤ n) :
    ((b.write 0 label hw).write label.length (t ++ [0]) hw').text = label ++ t := by
  have hne {bs : Bytes} (h : 0 ∉ bs) : ∀ x ∈ bs, (x != 0) = true := fun x hx =>
    bne_iff_ne.mpr fun hx0 => h (hx0 ▸ hx)
  simp [Buf.text, List.takeWhile_append_of_pos (hne hl), List.takeWhile_append_of_pos (hne ht)]

end Texts

/-! ## A device with the SDK's formatters -/

/-- `device` with base 58 and decimal fractions as the SDK writes them. -/
@[reducible] def sdkDevice (backend : Backend) : Platform :=
  { device backend with
    base58Encode := fun bs size => if 50 ≤ size then some (base58 50 (beNat bs)) else none
    formatFpu64Trimmed := fun size n decimals =>
      if (trimmedFraction n decimals).length < size then some (trimmedFraction n decimals)
      else none }

theorem exactTexts_sdkDevice (backend : Backend) :
    letI : Platform := sdkDevice backend
    ExactTexts := by
  let : Platform := sdkDevice backend
  have hbase (bs : Bytes) (size : ℕ) (text : Bytes)
      (h : Platform.base58Encode bs size = some text) : text = base58 50 (beNat bs) := by
    change (if 50 ≤ size then some (base58 50 (beNat bs)) else none) = some text at h
    split_ifs at h
    exact (Option.some.inj h).symm
  have hfpu (n decimals : ℕ) (text : Bytes)
      (h : Platform.formatFpu64Trimmed fpu64TmpLen n decimals = some text) :
      text.takeWhile (· != 0) = trimmedFraction n decimals := by
    change (if (trimmedFraction n decimals).length < fpu64TmpLen
      then some (trimmedFraction n decimals) else none) = some text at h
    split_ifs at h
    rw [← Option.some.inj h]
    refine List.takeWhile_eq_self_iff.mpr fun b hb => bne_iff_ne.mpr fun h0 => ?_
    exact zero_not_mem_trimmedFraction n decimals (h0 ▸ hb)
  refine ⟨fun bs size text _ h => ?_, fun bs size text _ h => ?_,
    fun bs cs size size' text hb hc h h' => ?_, fun n m decimals text text' _ _ h h' heq => ?_⟩
  · rw [hbase _ _ _ h, base58_length]
  · rw [hbase _ _ _ h]
    exact zero_not_mem_base58 _ _
  · -- A number of 37 bytes whose first is the version fits in 50 places.
    have hlt {bs : Bytes} (hbs : bs.length = 36) :
        beNat (base58VersionByte :: bs) < 58 ^ 50 := by
      have hsum : beNat (base58VersionByte :: bs) < 2 * 256 ^ bs.length := by
        simpa [beNat, base58VersionByte] using beNat_foldl_lt bs 1
      rw [hbs] at hsum
      exact hsum.trans (by norm_num)
    have heq : beNat (base58VersionByte :: bs) = beNat (base58VersionByte :: cs) :=
      base58_injective (hlt hb) (hlt hc) ((hbase _ _ _ h).symm.trans (hbase _ _ _ h'))
    exact (List.cons.inj (beNat_injective (by simp [hb, hc]) heq)).2
  · rw [hfpu _ _ _ h, hfpu _ _ _ h'] at heq
    exact trimmedFraction_injective heq

end Concordium
