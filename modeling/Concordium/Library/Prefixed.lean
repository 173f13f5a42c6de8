/-
  Streams behind a length.

  Such a stream starts with its own length, in a fixed number of bytes, and
  arrives in pieces of which the first one has the whole length in it.
-/
import Concordium.Library.Numerals

namespace Prefixed

open Buffer

variable {width : ℕ} {bs cs : Bytes}

/-- The length a stream declares. -/
def declared (width : ℕ) (bs : Bytes) : ℕ := beNat (bs.take width)

/-- The length has arrived, and not more than it declares. -/
def Fits (width : ℕ) (bs : Bytes) : Prop :=
  width ≤ bs.length ∧ bs.length ≤ width + declared width bs

/-- The length and all it declares has arrived. -/
def Complete (width : ℕ) (bs : Bytes) : Prop :=
  width ≤ bs.length ∧ bs.length = width + declared width bs

instance : Decidable (Fits width bs) := inferInstanceAs (Decidable (_ ∧ _))

instance : Decidable (Complete width bs) := inferInstanceAs (Decidable (_ ∧ _))

theorem declared_append (h : width ≤ bs.length) :
    declared width (bs ++ cs) = declared width bs := by
  unfold declared
  rw [List.take_append_of_le_length h]

theorem declared_lt : declared width bs < 256 ^ width := by
  have hlen : (bs.take width).length ≤ width := List.length_take_le _ _
  exact (beNat_lt _).trans_le (Nat.pow_le_pow_right (by decide) hlen)

/-- What the stream carries is as long as declared. -/
theorem Complete.length_body (h : Complete width bs) :
    (bs.drop width).length = declared width bs := by
  rw [List.length_drop, h.2, Nat.add_sub_cancel_left]

/-- A complete stream is a body behind its length. -/
theorem Complete.eq (h : Complete width bs) :
    bs = toBe width (bs.drop width).length ++ bs.drop width := by
  have hlen : (bs.take width).length = width := List.length_take_of_le h.1
  have hhead : toBe width (declared width bs) = bs.take width := by
    have := toBe_beNat (bs.take width)
    rwa [hlen] at this
  rw [h.length_body, hhead, List.take_append_drop]

end Prefixed
