/-
  Amounts of protocol-level tokens on screen.

  The exponent says how many decimal places a token has.  The formatter drops
  zeros from the end of the fraction, so the text has all the places only where
  there is no zero to drop.
-/
import Concordium.Texts
import Mathlib.Algebra.Field.Rat
import Mathlib.Tactic.FieldSimp

namespace Concordium

open Buffer Wp

section Amounts
variable [Platform]

/-- What `plt_amount_to_display` relies on of the SDK: the exact value, without
    trailing zeros, in the scratch buffer of 40 bytes. -/
def FormatsTrimmed : Prop :=
  ∀ n decimals, n < 2 ^ 64 → decimals ≤ 18 → ∃ text,
    Platform.formatFpu64Trimmed fpu64TmpLen n decimals = some text ∧
      text.takeWhile (· != 0) = trimmedFraction n decimals

/-- An amount that a transaction can carry. -/
structure PltAmount where
  significand : ℕ
  exponent : ℤ
  tokenId : Bytes
  significand_lt : significand < 2 ^ 64
  exponent_le : exponent ≤ 0
  le_exponent : -18 ≤ exponent
  tokenId_pos : 1 ≤ tokenId.length
  tokenId_le : tokenId.length ≤ 128

namespace PltAmount
variable (a : PltAmount)

/-- The decimal places of the amount. -/
def decimals : ℕ := a.exponent.natAbs

/-- The number of tokens. -/
def value : ℚ := a.significand * 10 ^ a.exponent

/-- The amount with all its decimal places, a space and the token. -/
def exactText : Bytes := fixedFraction a.significand a.decimals ++ ascii " " ++ a.tokenId

/-- What the formatter makes of it. -/
def trimmedText : Bytes := trimmedFraction a.significand a.decimals ++ ascii " " ++ a.tokenId

/-- The amount as the display routine writes it, for a buffer of 170 bytes. -/
def display : App Bytes := pltAmountToDisplay 170 a.significand a.exponent a.tokenId

/-- The routine writes the exact text and a NUL, inside its caller's buffer. -/
def ShownExactly (s : World) : Prop :=
  a.display s = .ok (a.exactText ++ [0]) s ∧ (a.exactText ++ [0]).length ≤ 170

/-- The routine writes the trimmed text and a NUL, inside its caller's buffer. -/
def ShownTrimmed (s : World) : Prop :=
  a.display s = .ok (a.trimmedText ++ [0]) s ∧ (a.trimmedText ++ [0]).length ≤ 170

end PltAmount

variable {a b : PltAmount} {s : World}

omit [Platform] in
theorem PltAmount.decimals_le : a.decimals ≤ 18 := by
  have := a.exponent_le
  have := a.le_exponent
  unfold PltAmount.decimals
  omega

omit [Platform] in
theorem PltAmount.trimmed_length :
    (trimmedFraction a.significand a.decimals).length ≤ 39 := by
  have hlt : a.significand < 10 ^ 20 := a.significand_lt.trans (by norm_num)
  have hdecimals := a.decimals_le
  exact (trimmedFraction_length (by decide) hlt).trans (by omega)

/-- The routine never fails: it writes the trimmed amount. -/
theorem PltAmount.display_eq (hf : FormatsTrimmed) :
    a.display s = .ok (a.trimmedText ++ [0]) s := by
  obtain ⟨text, htext, htrim⟩ := hf a.significand a.decimals a.significand_lt a.decimals_le
  have hscale : (if a.exponent < 0 then a.exponent.natAbs else 0) = a.decimals := by
    have := a.exponent_le
    unfold PltAmount.decimals
    split_ifs <;> omega
  have hfits : ¬ 170 < (trimmedFraction a.significand a.decimals).length + 1 +
      a.tokenId.length + 1 := by
    have := a.trimmed_length
    have := a.tokenId_le
    omega
  have hrun : wp a.display (fun text t => text = a.trimmedText ++ [0] ∧ t = s)
      (fun _ _ => False) s := by
    unfold PltAmount.display pltAmountToDisplay formatFpu64Tmp
    dsimp only
    rw [hscale, htext]
    simp only [wp_bind, wp_pure, wp_throwIf, htrim]
    exact ⟨hfits, fun _ => ⟨rfl, trivial⟩⟩
  cases hx : a.display s with
  | error e t => exact (wp_error hrun hx).elim
  | ok text t =>
    obtain ⟨rfl, rfl⟩ := wp_ok hrun hx
    rfl

omit [Platform] in
/-- An exact text determines the amount. -/
theorem PltAmount.exactText_injective (h : a.exactText = b.exactText) :
    a.significand = b.significand ∧ a.exponent = b.exponent ∧ a.tokenId = b.tokenId := by
  have hnumber (a : PltAmount) : (a.exactText).takeWhile (· != 32) =
      fixedFraction a.significand a.decimals := by
    have hplain : ∀ c ∈ fixedFraction a.significand a.decimals, (c != 32) = true := fun c hc => by
      refine bne_iff_ne.mpr fun h32 => ?_
      rcases mem_fixedFraction hc with hdigit | hpoint
      · exact absurd (h32 ▸ hdigit).1 (by decide)
      · exact absurd (h32.symm.trans hpoint) (by decide)
    have hspace : ascii " " = [32] := by decide
    unfold PltAmount.exactText
    rw [List.append_assoc, List.takeWhile_append_of_pos hplain, hspace]
    simp
  have hsame : fixedFraction a.significand a.decimals = fixedFraction b.significand b.decimals := by
    rw [← hnumber a, ← hnumber b, h]
  obtain ⟨hsignificand, hdecimals⟩ := fixedFraction_injective hsame
  have ha := a.exponent_le
  have hb := b.exponent_le
  unfold PltAmount.decimals at hdecimals
  refine ⟨hsignificand, by omega, ?_⟩
  unfold PltAmount.exactText at h
  rw [hsame] at h
  exact List.append_cancel_left h

omit [Platform] in
theorem PltAmount.trimmedText_length : (a.trimmedText ++ [0]).length ≤ 170 := by
  have hnumber := a.trimmed_length
  have htoken := a.tokenId_le
  unfold PltAmount.trimmedText
  simp only [List.length_append, List.length_singleton, show (ascii " ").length = 1 from rfl]
  omega

omit [Platform] in
/-- A trimmed text determines the number of tokens and the token, but not the
    scale. -/
theorem PltAmount.trimmedText_value (h : a.trimmedText = b.trimmedText) :
    a.value = b.value ∧ a.tokenId = b.tokenId := by
  have hnumber (a : PltAmount) : (a.trimmedText).takeWhile (· != 32) =
      trimmedFraction a.significand a.decimals := by
    have hplain : ∀ c ∈ trimmedFraction a.significand a.decimals, (c != 32) = true := fun c hc => by
      refine bne_iff_ne.mpr fun h32 => ?_
      rcases mem_trimmedFraction hc with hdigit | hpoint
      · exact absurd (h32 ▸ hdigit).1 (by decide)
      · exact absurd (h32.symm.trans hpoint) (by decide)
    unfold PltAmount.trimmedText
    rw [List.append_assoc, List.takeWhile_append_of_pos hplain, show ascii " " = [32] by decide]
    simp
  have hsame : trimmedFraction a.significand a.decimals =
      trimmedFraction b.significand b.decimals := by
    rw [← hnumber a, ← hnumber b, h]
  refine ⟨?_, ?_⟩
  · have hvalue (a : PltAmount) : a.value = a.significand / 10 ^ a.decimals := by
      have hexponent : a.exponent = -(a.decimals : ℤ) := by
        have := a.exponent_le
        unfold PltAmount.decimals
        omega
      rw [PltAmount.value, hexponent, zpow_neg, zpow_natCast, div_eq_mul_inv]
    rw [hvalue, hvalue, div_eq_div_iff (by positivity) (by positivity)]
    exact_mod_cast trimmedFraction_value hsame
  · unfold PltAmount.trimmedText at h
    rw [hsame] at h
    exact List.append_cancel_left h

/-- An amount is shown exactly when it has no decimal places or does not end in
    zero. -/
theorem PltAmount.shownExactly_iff (hf : FormatsTrimmed) :
    a.ShownExactly s ↔ a.exponent = 0 ∨ a.significand % 10 ≠ 0 := by
  have hzero : a.decimals = 0 ↔ a.exponent = 0 := Int.natAbs_eq_zero
  rw [← hzero, ← trimmedFraction_eq_fixedFraction]
  constructor
  · rintro ⟨h, -⟩
    rw [a.display_eq hf] at h
    simp only [EStateM.Result.ok.injEq, and_true] at h
    have htext := List.append_cancel_right h
    unfold PltAmount.trimmedText PltAmount.exactText at htext
    exact List.append_cancel_right (List.append_cancel_right htext)
  · intro h
    have htext : a.trimmedText = a.exactText := by
      unfold PltAmount.trimmedText PltAmount.exactText
      rw [h]
    exact ⟨by rw [a.display_eq hf, htext], htext ▸ a.trimmedText_length⟩

/-- Every amount is shown without the zeros that end its fraction: all its places
    are there exactly when there is no such zero.  What is shown determines the
    number of tokens and the token, and an exact text determines the scale too. -/
theorem plt_amount_display (hf : FormatsTrimmed) (a : PltAmount) (s : World) :
    a.ShownTrimmed s ∧ (a.ShownExactly s ↔ a.exponent = 0 ∨ a.significand % 10 ≠ 0) ∧
      (∀ b : PltAmount, a.trimmedText = b.trimmedText →
        a.value = b.value ∧ a.tokenId = b.tokenId) ∧
      ∀ b : PltAmount, a.exactText = b.exactText →
        a.significand = b.significand ∧ a.exponent = b.exponent ∧ a.tokenId = b.tokenId :=
  ⟨⟨a.display_eq hf, a.trimmedText_length⟩, a.shownExactly_iff hf,
    fun _ => PltAmount.trimmedText_value, fun _ => PltAmount.exactText_injective⟩

end Amounts

/-! ## The SDK's formatter -/

theorem formatsTrimmed_sdkDevice (backend : Backend) :
    letI : Platform := sdkDevice backend
    FormatsTrimmed := by
  let : Platform := sdkDevice backend
  intro n decimals hn hdecimals
  have hlt : n < 10 ^ 20 := hn.trans (by norm_num)
  have hle : (trimmedFraction n decimals).length ≤ 20 + 1 + decimals :=
    trimmedFraction_length (by decide) hlt
  have hfits : (trimmedFraction n decimals).length < fpu64TmpLen := by
    unfold fpu64TmpLen
    omega
  refine ⟨trimmedFraction n decimals, if_pos hfits, ?_⟩
  refine List.takeWhile_eq_self_iff.mpr fun b hb => bne_iff_ne.mpr fun h0 => ?_
  exact zero_not_mem_trimmedFraction n decimals (h0 ▸ hb)

/-- An amount of a token with six decimal places. -/
def sixPlaces (significand : ℕ) (tokenId : Bytes) (h : significand < 2 ^ 64)
    (hid : 1 ≤ tokenId.length ∧ tokenId.length ≤ 128) : PltAmount where
  significand := significand
  exponent := -6
  tokenId := tokenId
  significand_lt := h
  exponent_le := by decide
  le_exponent := by decide
  tokenId_pos := hid.1
  tokenId_le := hid.2

/-- One token of six decimal places is shown as 1. -/
theorem plt_amount_one :
    letI : Platform := sdkDevice .nbgl
    (sixPlaces 1000000 (ascii "T") (by decide) (by decide)).display {} =
      .ok (ascii "1 T" ++ [0]) {} := by
  let : Platform := sdkDevice .nbgl
  let one := sixPlaces 1000000 (ascii "T") (by decide) (by decide)
  have htext : one.trimmedText = ascii "1 T" := by decide +kernel
  rw [← htext]
  exact (plt_amount_display (formatsTrimmed_sdkDevice .nbgl) one {}).1.1

/-- 1.500000 is shown as 1.5. -/
theorem plt_amount_trimmed :
    letI : Platform := sdkDevice .nbgl
    FormatsTrimmed ∧
      ¬ (sixPlaces 1500000 (ascii "UPEU") (by decide) (by decide)).ShownExactly {} := by
  let : Platform := sdkDevice .nbgl
  have hf : FormatsTrimmed := formatsTrimmed_sdkDevice .nbgl
  refine ⟨hf, fun h => ?_⟩
  have hshown := h.1
  rw [PltAmount.display_eq hf] at hshown
  simp only [EStateM.Result.ok.injEq, and_true] at hshown
  exact absurd hshown (by decide +kernel)

end Concordium
