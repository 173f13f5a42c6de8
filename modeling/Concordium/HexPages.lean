/-
  What `to_paginated_hex` writes, for every length.

  The text is the digits of the bytes with a line break behind every sixteenth
  of them but the last.  The routine counts its line breaks in one byte, and its
  size check lets an empty input into an empty buffer.
-/
import Concordium.Hex
import Mathlib.Data.List.Enum

namespace Concordium

open Buffer Wp

/-! ## Pages of digits -/

/-- The digits of some bytes. -/
def hexDigits (bs : Bytes) : Bytes :=
  bs.flatMap fun b => [hexDigit (b.toNat / 16), hexDigit (b.toNat % 16)]

/-- Digits with a line break behind every sixteenth of them but the last. -/
def pages (digits : Bytes) : Bytes :=
  digits.zipIdx.flatMap fun (d, k) =>
    if (k + 1) % hexPaginationWidth = 0 ∧ k + 1 ≠ digits.length then [d, 10] else [d]

/-- The value of a digit. -/
def nibble (d : UInt8) : ℕ := if d.toNat < 58 then d.toNat - 48 else d.toNat - 87

/-- The bytes that pairs of digits stand for. -/
def unhex : Bytes → Bytes
  | high :: low :: rest => UInt8.ofNat (16 * nibble high + nibble low) :: unhex rest
  | _ => []

/-- The text without its line breaks. -/
def unpaged (text : Bytes) : Bytes := text.filter (· != 10)

theorem nibble_hexDigit : ∀ n < 16, nibble (hexDigit n) = n := by decide

theorem hexDigit_ne_newline : ∀ n < 16, hexDigit n ≠ 10 := by decide

theorem unhex_hexDigits (bs : Bytes) : unhex (hexDigits bs) = bs := by
  induction bs with
  | nil => rfl
  | cons b bs ih =>
    have hb : b.toNat < 256 := b.toNat_lt
    show UInt8.ofNat (16 * nibble (hexDigit (b.toNat / 16)) + nibble (hexDigit (b.toNat % 16))) ::
      unhex (hexDigits bs) = b :: bs
    rw [nibble_hexDigit _ (by omega), nibble_hexDigit _ (by omega), Nat.div_add_mod,
      UInt8.ofNat_toNat, ih]

theorem hexDigits_length (bs : Bytes) : (hexDigits bs).length = 2 * bs.length := by
  simp [hexDigits, List.length_flatMap, Nat.mul_comm]

theorem newline_not_mem_hexDigits (bs : Bytes) : 10 ∉ hexDigits bs := by
  intro h
  obtain ⟨b, -, hb⟩ := List.mem_flatMap.mp h
  have hlt : b.toNat < 256 := b.toNat_lt
  rcases List.mem_cons.mp hb with hb | hb
  · exact hexDigit_ne_newline _ (by omega) hb.symm
  · exact hexDigit_ne_newline _ (by omega) (List.mem_singleton.mp hb).symm

/-- The line breaks are all that was added. -/
theorem unpaged_pages {digits : Bytes} (h : 10 ∉ digits) : unpaged (pages digits) = digits := by
  have hpart (total : ℕ) (ds : Bytes) (k : ℕ) (hds : 10 ∉ ds) :
      unpaged ((ds.zipIdx k).flatMap fun (d, k) =>
        if (k + 1) % hexPaginationWidth = 0 ∧ k + 1 ≠ total then [d, 10] else [d]) = ds := by
    induction ds generalizing k with
    | nil => rfl
    | cons d ds ih =>
      have htail : 10 ∉ ds := fun h => hds (List.mem_cons_of_mem _ h)
      have hkeep : (d != 10) = true := bne_iff_ne.mpr fun h => hds (h ▸ List.mem_cons_self)
      rw [List.zipIdx_cons, List.flatMap_cons, unpaged, List.filter_append]
      rw [show List.filter (· != 10) ((ds.zipIdx (k + 1)).flatMap _) = ds from ih _ htail]
      dsimp only
      split_ifs <;> simp [hkeep]
  exact hpart _ _ _ h

/-- What the loop writes are the pages of the digits. -/
theorem paginatedHex_eq (bs : Bytes) : paginatedHex bs = pages (hexDigits bs) := by
  have hpart (len : ℕ) (cs : Bytes) (i : ℕ) (hlen : i + cs.length = len) :
      paginatedFrom len cs i = ((hexDigits cs).zipIdx (2 * i)).flatMap fun (d, k) =>
        if (k + 1) % hexPaginationWidth = 0 ∧ k + 1 ≠ 2 * len then [d, 10] else [d] := by
    induction cs generalizing i with
    | nil => rfl
    | cons b cs ih =>
      rw [List.length_cons] at hlen
      have hodd : ¬ ((2 * i + 1) % hexPaginationWidth = 0 ∧ 2 * i + 1 ≠ 2 * len) := by
        unfold hexPaginationWidth
        omega
      have heven : ((2 * i + 1 + 1) % hexPaginationWidth = 0 ∧ 2 * i + 1 + 1 ≠ 2 * len) ↔
          ((2 * (i + 1)) % hexPaginationWidth = 0 ∧ i ≠ len - 1) := by
        unfold hexPaginationWidth
        omega
      rw [paginatedFrom, ih (i + 1) (by omega)]
      show _ = ((hexDigit (b.toNat / 16) :: hexDigit (b.toNat % 16) ::
        hexDigits cs).zipIdx (2 * i)).flatMap _
      rw [List.zipIdx_cons, List.zipIdx_cons, List.flatMap_cons, List.flatMap_cons]
      simp only [if_neg hodd, heven, ascii_newline]
      split_ifs <;> rfl
  rw [paginatedHex, hpart _ _ 0 (Nat.zero_add _), pages, hexDigits_length]

/-! ## The routine -/

/-- The size check of `to_paginated_hex`. -/
def PassesSizeCheck (len n : ℕ) : Prop :=
  ¬ (0 < len ∧ n < len * 2 + (2 * len - 1) / hexPaginationWidth + 1)

/-- The routine writes the pages of the digits and a NUL, all inside the buffer;
    without the line breaks they decode to the bytes. -/
def WritesPages {n : ℕ} (bs : Bytes) (asHex : Buf n) (s : World) : Prop :=
  ∃ (buf : Buf n) (rest : Bytes), toPaginatedHex bs asHex s = .ok buf s ∧
    buf.bytes = pages (hexDigits bs) ++ 0 :: rest ∧
    unhex (unpaged (pages (hexDigits bs))) = bs

section Routine
variable {n len : ℕ} {s : World}

/-- The terminator stands where the count of line breaks says. -/
theorem wp_toPaginatedHexFrom_end {bs : Bytes} {i : ℕ} {offset : UInt8} {asHex : Buf n}
    (hlen : i + bs.length = len) :
    wp (toPaginatedHexFrom len bs i offset asHex)
      (fun buf _ => buf.bytes[2 * len + (offset.toNat + ((len - 1) / 8 - i / 8)) % 256]? = some 0)
      (fun _ _ => True) s := by
  have hoffset : offset.toNat < 256 := offset.toNat_lt
  induction bs generalizing i offset asHex with
  | nil =>
    rw [List.length_nil, Nat.add_zero] at hlen
    subst hlen
    have hplace : (offset.toNat + ((i - 1) / 8 - i / 8)) % 256 = offset.toNat := by omega
    unfold toPaginatedHexFrom
    rw [wp_memmove, hplace]
    refine ⟨fun hw => ?_, fun _ => trivial⟩
    have hfront : (asHex.bytes.take (2 * i + offset.toNat)).length = 2 * i + offset.toNat :=
      List.length_take_of_le (by rw [asHex.bytes_length]; simp at hw; omega)
    rw [Buf.write_bytes, List.append_assoc, List.getElem?_append_right (by omega), hfront,
      Nat.sub_self]
    rfl
  | cons b bs ih =>
    rw [List.length_cons] at hlen
    unfold toPaginatedHexFrom
    rw [wp_bind, wp_memmove]
    refine ⟨fun _ => wp_if (fun hbreak => ?_) fun hbreak => ?_, fun _ => trivial⟩
    · have hbreaks : (2 * (i + 1)) % 16 = 0 ∧ i ≠ len - 1 := hbreak
      have hnext : (offset + 1).toNat = (offset.toNat + 1) % 256 := by
        rw [UInt8.toNat_add]
        rfl
      have hcount : ((offset + 1).toNat + ((len - 1) / 8 - (i + 1) / 8)) % 256 =
          (offset.toNat + ((len - 1) / 8 - i / 8)) % 256 := by
        rw [hnext]
        omega
      rw [wp_bind, wp_memmove]
      refine ⟨fun _ => ?_, fun _ => trivial⟩
      rw [← hcount]
      exact ih (by omega) (offset + 1).toNat_lt
    · have hnone : ¬ ((2 * (i + 1)) % 16 = 0 ∧ i ≠ len - 1) := hbreak
      have hcount : (len - 1) / 8 - (i + 1) / 8 = (len - 1) / 8 - i / 8 := by omega
      rw [← hcount]
      exact ih (by omega) hoffset

theorem pages_length (bs : Bytes) :
    (pages (hexDigits bs)).length = 2 * bs.length + (bs.length - 1) / 8 := by
  rw [← paginatedHex_eq, paginatedHex, paginatedFrom_length (Nat.zero_add _), Nat.zero_div,
    Nat.sub_zero]

theorem zero_not_mem_pages (bs : Bytes) : 0 ∉ pages (hexDigits bs) := by
  rw [← paginatedHex_eq]
  exact zero_not_mem_paginatedFrom

/-- Beyond 256 line breaks their count has wrapped. -/
theorem WritesPages.length_le {bs : Bytes} {asHex : Buf n} (h : WritesPages bs asHex s) :
    bs.length ≤ 2048 := by
  obtain ⟨buf, rest, hbuf, hbytes, -⟩ := h
  have hend : wp (toPaginatedHex bs asHex)
      (fun buf _ => buf.bytes[2 * bs.length + ((bs.length - 1) / 8) % 256]? = some 0)
      (fun _ _ => True) s := by
    have hloop : wp (toPaginatedHexFrom bs.length bs 0 0 asHex) _ _ s :=
      wp_toPaginatedHexFrom_end (Nat.zero_add bs.length)
    unfold toPaginatedHex
    rw [wp_bind, wp_throwIf]
    refine ⟨fun _ => trivial, fun _ => ?_⟩
    simpa using hloop
  have hzero := wp_ok hend hbuf
  by_contra hlong
  have hlt : 2 * bs.length + ((bs.length - 1) / 8) % 256 < (pages (hexDigits bs)).length := by
    rw [pages_length]
    omega
  rw [hbytes, List.getElem?_append_left hlt, List.getElem?_eq_getElem hlt] at hzero
  exact zero_not_mem_pages bs (Option.some.inj hzero ▸ List.getElem_mem hlt)

theorem WritesPages.pos {bs : Bytes} {asHex : Buf n} (h : WritesPages bs asHex s) : 0 < n := by
  obtain ⟨buf, rest, -, hbytes, -⟩ := h
  have hlen := buf.bytes_length
  rw [hbytes, List.length_append, List.length_cons] at hlen
  omega

end Routine

/-- The routine writes its pages exactly when it counts at most 255 line breaks
    and an empty input finds room for the terminator. -/
theorem paginated_hex_iff {n : ℕ} {bs : Bytes} (hcheck : PassesSizeCheck bs.length n)
    (asHex : Buf n) (s : World) :
    WritesPages bs asHex s ↔ bs.length ≤ 2048 ∧ (bs = [] → 0 < n) := by
  constructor
  · exact fun h => ⟨h.length_le, fun _ => h.pos⟩
  · rintro ⟨hle, hempty⟩
    have hroom : (pages (hexDigits bs)).length + 1 ≤ n := by
      rw [pages_length]
      by_cases hnil : bs = []
      · subst hnil
        exact hempty rfl
      · have hpos : 0 < bs.length := List.length_pos_iff.mpr hnil
        unfold PassesSizeCheck hexPaginationWidth at hcheck
        omega
    have hwrites : wp (toPaginatedHex bs asHex)
        (fun buf t => t = s ∧ ∃ rest, buf.bytes = pages (hexDigits bs) ++ 0 :: rest)
        (fun _ _ => False) s := by
      unfold toPaginatedHex
      rw [wp_bind, wp_throwIf]
      refine ⟨fun hno => hcheck hno, fun _ => ?_⟩
      have hbreaks : (0 : UInt8).toNat + ((bs.length - 1) / 8 - 0 / 8) < 256 := by
        rw [UInt8.toNat_zero]
        omega
      refine wp_toPaginatedHexFrom_text (Nat.zero_add _) hbreaks ?_ fun buf hbuf => ⟨rfl, ?_⟩
      · rw [← paginatedHex, paginatedHex_eq]
        simpa using hroom
      · obtain ⟨rest, hbuf⟩ := hbuf
        refine ⟨rest, ?_⟩
        rw [hbuf, ← paginatedHex_eq]
        rfl
    cases hx : toPaginatedHex bs asHex s with
    | error e t => exact (wp_error hwrites hx).elim
    | ok buf t =>
      obtain ⟨rfl, rest, hbuf⟩ := wp_ok hwrites hx
      refine ⟨buf, rest, hx, hbuf, ?_⟩
      rw [unpaged_pages (newline_not_mem_hexDigits bs), unhex_hexDigits]

/-- A key of 32 bytes in the 68 bytes its callers keep for it. -/
theorem paginated_hex_key : WritesPages (List.replicate 32 0xAB) (Buf.zero 68) {} :=
  (paginated_hex_iff (by unfold PassesSizeCheck; decide) _ _).mpr ⟨by decide, by decide⟩

/-- No bytes pass the check of an empty buffer, and 2049 bytes that of a buffer
    with room for their text. -/
theorem paginated_hex_fails :
    (PassesSizeCheck 0 0 ∧ ¬ WritesPages [] (Buf.zero 0) {}) ∧
      (PassesSizeCheck 2049 4355 ∧
        ¬ WritesPages (List.replicate 2049 0) (Buf.zero 4355) {}) := by
  refine ⟨⟨by unfold PassesSizeCheck; decide, fun h => absurd h.pos (by decide)⟩,
    by unfold PassesSizeCheck; decide, fun h => absurd h.length_le ?_⟩
  rw [List.length_replicate]
  decide

end Concordium
