/-
  Bytes in hexadecimal.

  Digests are shown in upper case on one line, keys in lower case with a line
  break behind every eighth byte.  Either text determines the bytes.
-/
import Concordium.Texts

namespace Concordium

open Buffer Wp

/-! ## Digests -/

/-- The text of a digest. -/
def hexUpper (bs : Bytes) : Bytes :=
  bs.flatMap fun b => [hexDigitUpper (b.toNat / 16), hexDigitUpper (b.toNat % 16)]

theorem hexDigitUpper_injective :
    ∀ m < 16, ∀ n < 16, hexDigitUpper m = hexDigitUpper n → m = n := by
  decide

theorem hexDigitUpper_ne_zero : ∀ m < 16, hexDigitUpper m ≠ 0 := by decide

theorem zero_not_mem_hexUpper (bs : Bytes) : 0 ∉ hexUpper bs := by
  intro h
  obtain ⟨b, -, hb⟩ := List.mem_flatMap.mp h
  have hlt : b.toNat < 256 := b.toNat_lt
  rcases List.mem_cons.mp hb with hb | hb
  · exact hexDigitUpper_ne_zero _ (by omega) hb.symm
  · exact hexDigitUpper_ne_zero _ (by omega) (List.mem_singleton.mp hb).symm

theorem hexUpper_injective {bs cs : Bytes} (h : hexUpper bs = hexUpper cs) : bs = cs := by
  induction bs generalizing cs with
  | nil =>
    cases cs with
    | nil => rfl
    | cons c cs => simp [hexUpper] at h
  | cons b bs ih =>
    cases cs with
    | nil => simp [hexUpper] at h
    | cons c cs =>
      simp only [hexUpper, List.flatMap_cons, List.cons_append, List.nil_append,
        List.cons.injEq] at h
      obtain ⟨hhigh, hlow, hrest⟩ := h
      have hb : b.toNat < 256 := b.toNat_lt
      have hc : c.toNat < 256 := c.toNat_lt
      have hdiv := hexDigitUpper_injective _ (by omega) _ (by omega) hhigh
      have hmod := hexDigitUpper_injective _ (by omega) _ (by omega) hlow
      have heq : b = c := UInt8.toNat_inj.mp (by omega)
      rw [heq, ih hrest]

theorem hexUpper_length (bs : Bytes) : (hexUpper bs).length = 2 * bs.length := by
  simp [hexUpper, List.length_flatMap, Nat.mul_comm]

theorem wp_formatHexInto {n : ℕ} {bs : Bytes} {dst : Buf n} {sw : UInt16} {s : World}
    {Q : Buf n → World → Prop} {E : Exception → World → Prop} (hroom : 2 * bs.length + 1 ≤ n)
    (h : ∀ dst' : Buf n, dst'.text = hexUpper bs → Q dst' s) :
    wp (formatHexInto bs dst sw) Q E s := by
  unfold formatHexInto formatHex
  rw [if_neg (Nat.not_lt.mpr hroom), wp_memmove]
  refine ⟨fun hw => h _ (Buf.text_write hw (zero_not_mem_hexUpper bs)), fun hno => absurd ?_ hno⟩
  change 0 + (hexUpper bs ++ [0]).length ≤ n
  rw [List.length_append, List.length_singleton, hexUpper_length, Nat.zero_add]
  exact hroom

/-! ## Keys -/

theorem hexDigit_injective : ∀ m < 16, ∀ n < 16, hexDigit m = hexDigit n → m = n := by decide

theorem hexDigit_ne_zero : ∀ m < 16, hexDigit m ≠ 0 := by decide

/-- The text of the bytes from number `i` on, of `len` bytes in all: a line
    break stands behind every eighth byte but the last. -/
def paginatedFrom (len : ℕ) : Bytes → ℕ → Bytes
  | [], _ => []
  | b :: bs, i => [hexDigit (b.toNat / 16), hexDigit (b.toNat % 16)] ++
      ((if (2 * (i + 1)) % hexPaginationWidth = 0 ∧ i ≠ len - 1 then ascii "\n" else []) ++
        paginatedFrom len bs (i + 1))

/-- The text of a key. -/
def paginatedHex (bs : Bytes) : Bytes := paginatedFrom bs.length bs 0

theorem ascii_newline : ascii "\n" = [10] := by decide

theorem zero_not_mem_paginatedFrom {len : ℕ} {bs : Bytes} {i : ℕ} :
    0 ∉ paginatedFrom len bs i := by
  induction bs generalizing i with
  | nil => exact List.not_mem_nil
  | cons b bs ih =>
    have hb : b.toNat < 256 := b.toNat_lt
    have hhigh := hexDigit_ne_zero (b.toNat / 16) (by omega)
    have hlow := hexDigit_ne_zero (b.toNat % 16) (by omega)
    rw [paginatedFrom, ascii_newline]
    simp only [List.mem_append, List.mem_cons, List.not_mem_nil, or_false, not_or]
    refine ⟨⟨hhigh.symm, hlow.symm⟩, ?_, ih⟩
    split_ifs <;> simp

theorem paginatedFrom_length {len : ℕ} {bs : Bytes} {i : ℕ} (h : i + bs.length = len) :
    (paginatedFrom len bs i).length = 2 * bs.length + ((len - 1) / 8 - i / 8) := by
  induction bs generalizing i with
  | nil =>
    simp only [paginatedFrom, List.length_nil] at h ⊢
    omega
  | cons b bs ih =>
    rw [List.length_cons] at h
    have hrest := ih (i := i + 1) (by omega)
    rw [paginatedFrom, ascii_newline]
    by_cases hbreak : (2 * (i + 1)) % hexPaginationWidth = 0 ∧ i ≠ len - 1
    · rw [if_pos hbreak]
      unfold hexPaginationWidth at hbreak
      simp only [List.length_append, List.length_cons, List.length_nil]
      omega
    · rw [if_neg hbreak]
      unfold hexPaginationWidth at hbreak
      simp only [List.length_append, List.length_cons, List.length_nil]
      omega

/-- Keys of one length with the same text are the same. -/
theorem paginatedFrom_injective {len : ℕ} {bs cs : Bytes} {i : ℕ} (hlen : bs.length = cs.length)
    (h : paginatedFrom len bs i = paginatedFrom len cs i) : bs = cs := by
  induction bs generalizing cs i with
  | nil => exact (List.length_eq_zero_iff.mp hlen.symm).symm
  | cons b bs ih =>
    cases cs with
    | nil => cases hlen
    | cons c cs =>
      simp only [paginatedFrom, List.cons_append, List.nil_append, List.cons.injEq] at h
      obtain ⟨hhigh, hlow, hrest⟩ := h
      have hb : b.toNat < 256 := b.toNat_lt
      have hc : c.toNat < 256 := c.toNat_lt
      have hdiv := hexDigit_injective _ (by omega) _ (by omega) hhigh
      have hmod := hexDigit_injective _ (by omega) _ (by omega) hlow
      have heq : b = c := UInt8.toNat_inj.mp (by omega)
      rw [heq, ih (Nat.succ.inj hlen) (List.append_cancel_left hrest)]

theorem paginatedHex_injective {bs cs : Bytes} (hlen : bs.length = cs.length)
    (h : paginatedHex bs = paginatedHex cs) : bs = cs := by
  unfold paginatedHex at h
  rw [hlen] at h
  exact paginatedFrom_injective hlen h

section Paginated
variable {n len : ℕ} {s : World} {Q : Buf n → World → Prop} {E : Exception → World → Prop}

/-- The loop appends to what stands in front of its position; the count of line
    breaks does not wrap. -/
theorem wp_toPaginatedHexFrom_text {bs : Bytes} {i : ℕ} {offset : UInt8} {asHex : Buf n}
    (hlen : i + bs.length = len) (hoffset : offset.toNat + ((len - 1) / 8 - i / 8) < 256)
    (hroom : 2 * i + offset.toNat + (paginatedFrom len bs i).length + 1 ≤ n)
    (h : ∀ buf : Buf n, (∃ rest, buf.bytes = asHex.bytes.take (2 * i + offset.toNat) ++
      (paginatedFrom len bs i ++ 0 :: rest)) → Q buf s) :
    wp (toPaginatedHexFrom len bs i offset asHex) Q E s := by
  induction bs generalizing i offset asHex with
  | nil =>
    rw [List.length_nil, Nat.add_zero] at hlen
    subst hlen
    unfold toPaginatedHexFrom
    rw [wp_memmove]
    refine ⟨fun hw => h _ ⟨_, by rw [Buf.write_bytes, List.append_assoc]; rfl⟩,
      fun hno => absurd ?_ hno⟩
    simpa [paginatedFrom] using hroom
  | cons b bs ih =>
    rw [List.length_cons] at hlen
    have hfits : 2 * i + offset.toNat + 2 + 1 ≤ n := by
      rw [paginatedFrom] at hroom
      simp only [List.length_append, List.length_cons, List.length_nil] at hroom
      omega
    unfold toPaginatedHexFrom
    rw [wp_bind, wp_memmove]
    refine ⟨fun hw => ?_, fun hno => absurd (by simp; omega) hno⟩
    refine wp_if (fun hbreak => ?_) fun hbreak => ?_
    · have hbreaks : (2 * (i + 1)) % 16 = 0 ∧ i ≠ len - 1 := hbreak
      have hnext : (offset + 1).toNat = offset.toNat + 1 := by
        rw [UInt8.toNat_add]
        exact Nat.mod_eq_of_lt (by simp; omega)
      rw [paginatedFrom, if_pos hbreak, ascii_newline] at hroom h
      simp only [List.length_append, List.length_cons, List.length_nil] at hroom
      rw [wp_bind, wp_memmove, ascii_newline]
      refine ⟨fun hw' => ?_, fun hno => absurd (by simp; omega) hno⟩
      refine ih (by omega) (by omega) (by omega) fun buf hbuf => h buf ?_
      obtain ⟨rest, hbuf⟩ := hbuf
      refine ⟨rest, hbuf.trans ?_⟩
      rw [hnext, show 2 * (i + 1) + (offset.toNat + 1) = 2 * i + offset.toNat + 2 + 1 by omega,
        Buf.take_write _ hw' (by simp), Buf.take_write _ hw (by simp)]
      simp only [List.append_assoc, List.cons_append, List.nil_append]
    · rw [paginatedFrom, if_neg hbreak] at hroom h
      simp only [List.length_append, List.length_cons, List.length_nil] at hroom
      refine ih (by omega) (by omega) (by omega) fun buf hbuf => h buf ?_
      obtain ⟨rest, hbuf⟩ := hbuf
      refine ⟨rest, hbuf.trans ?_⟩
      rw [show 2 * (i + 1) + offset.toNat = 2 * i + offset.toNat + 2 by omega,
        Buf.take_write _ hw (by simp)]
      simp only [List.append_assoc, List.cons_append, List.nil_append]

/-- A key into a buffer for its digits. -/
theorem wp_toPaginatedHex {bs : Bytes} {asHex : Buf n} (hpos : bs ≠ []) (hlt : bs.length < 256)
    (hroom : bs.length * 2 + (2 * bs.length - 1) / hexPaginationWidth + 1 ≤ n)
    (h : ∀ buf : Buf n, buf.text = paginatedHex bs → Q buf s) :
    wp (toPaginatedHex bs asHex) Q E s := by
  have hpos' : 0 < bs.length := List.length_pos_iff.mpr hpos
  unfold toPaginatedHex
  rw [wp_bind, wp_throwIf]
  refine ⟨fun hno => absurd hroom (Nat.not_le.mpr hno.2), fun _ => ?_⟩
  have hbreaks : (0 : UInt8).toNat + ((bs.length - 1) / 8 - 0 / 8) < 256 := by
    rw [UInt8.toNat_zero]
    omega
  refine wp_toPaginatedHexFrom_text (Nat.zero_add _) hbreaks ?_ fun buf hbuf => h buf ?_
  · rw [paginatedFrom_length (Nat.zero_add _)]
    unfold hexPaginationWidth at hroom
    simp only [UInt8.toNat_zero]
    omega
  · obtain ⟨rest, hbuf⟩ := hbuf
    have hne : ∀ b ∈ paginatedHex bs, (b != 0) = true := fun b hb =>
      bne_iff_ne.mpr fun h0 => zero_not_mem_paginatedFrom (h0 ▸ hb)
    rw [Buf.text, hbuf]
    simp only [Nat.mul_zero, UInt8.toNat_zero, Nat.add_zero, List.take_zero, List.nil_append]
    exact (List.takeWhile_append_of_pos hne).trans (by simp [paginatedHex])

end Paginated

end Concordium
