/-
  Lists behind their lengths, and other encodings that are read off the front
  of what follows.

  An encoding that is read off determines the value and where it ends, whatever
  stands behind it.  Such encodings can be put one behind the other, and lists of
  them can be put behind their length.  A list that arrives item by item is, at
  every time, `begun`: the length stands in front and some items are missing.
-/
import Concordium.Library.Numerals

namespace Counted

open Buffer

variable {α β : Type} {enc : α → Bytes} {enc' : β → Bytes} {width : ℕ}

/-! ## Reading off -/

/-- Whatever follows, the bytes determine the value and where it ends. -/
def ReadsOff (enc : α → Bytes) : Prop :=
  ∀ ⦃a b xs ys⦄, enc a ++ xs = enc b ++ ys → a = b ∧ xs = ys

/-- Encodings of one length. -/
theorem readsOff_of_length {n : ℕ} (hlen : ∀ a, (enc a).length = n)
    (hinj : Function.Injective enc) : ReadsOff enc := by
  intro a b xs ys h
  obtain ⟨hhead, htail⟩ := List.append_inj h ((hlen a).trans (hlen b).symm)
  exact ⟨hinj hhead, htail⟩

/-- One behind the other. -/
theorem ReadsOff.append (h : ReadsOff enc) (h' : ReadsOff enc') :
    ReadsOff fun p : α × β => enc p.1 ++ enc' p.2 := by
  rintro ⟨a, c⟩ ⟨b, d⟩ xs ys hab
  simp only [List.append_assoc] at hab
  obtain ⟨rfl, hrest⟩ := h hab
  obtain ⟨rfl, htail⟩ := h' hrest
  exact ⟨rfl, htail⟩

/-- A value of which the parts are encoded. -/
theorem ReadsOff.comp {f : β → α} (h : ReadsOff enc) (hf : Function.Injective f) :
    ReadsOff fun b => enc (f b) := by
  intro a b xs ys hab
  obtain ⟨heq, htail⟩ := h hab
  exact ⟨hf heq, htail⟩

/-- Lists of one length. -/
theorem ReadsOff.flatMap (h : ReadsOff enc) {as bs : List α} {xs ys : Bytes}
    (hlen : as.length = bs.length) (heq : as.flatMap enc ++ xs = bs.flatMap enc ++ ys) :
    as = bs ∧ xs = ys := by
  induction as generalizing bs with
  | nil =>
    obtain rfl := List.length_eq_zero_iff.mp hlen.symm
    exact ⟨rfl, heq⟩
  | cons a as ih =>
    cases bs with
    | nil => cases hlen
    | cons b bs =>
      simp only [List.flatMap_cons, List.append_assoc] at heq
      obtain ⟨rfl, hrest⟩ := h heq
      obtain ⟨rfl, htail⟩ := ih (Nat.succ.inj hlen) hrest
      exact ⟨rfl, htail⟩

/-! ## Behind their length -/

/-- A list whose length can be written in `width` bytes. -/
structure Items (width : ℕ) (α : Type) where
  items : List α
  fits : items.length < 256 ^ width
deriving Repr

instance [DecidableEq α] : DecidableEq (Items width α) := fun as bs =>
  decidable_of_iff (as.items = bs.items) ⟨fun h => by cases as; cases bs; congr, congrArg _⟩

@[ext] theorem Items.ext {as bs : Items width α} (h : as.items = bs.items) : as = bs := by
  cases as; cases bs; congr

/-- The length of a list and its first items; `left` are still to come. -/
def begun (width : ℕ) (enc : α → Bytes) (items : List α) (left : ℕ) : Bytes :=
  toBe width (items.length + left) ++ items.flatMap enc

/-- The number of items and the items. -/
def Items.encode (enc : α → Bytes) (as : Items width α) : Bytes := begun width enc as.items 0

/-- Nothing has arrived but the length. -/
theorem begun_nil (bs : Bytes) : begun bs.length enc [] (beNat bs) = bs := by
  rw [begun, List.length_nil, Nat.zero_add, toBe_beNat, List.flatMap_nil, List.append_nil]

/-- More items. -/
theorem begun_append {items more : List α} {left : ℕ} (h : more.length ≤ left) :
    begun width enc items left ++ more.flatMap enc =
      begun width enc (items ++ more) (left - more.length) := by
  have hlength : (items ++ more).length + (left - more.length) = items.length + left := by
    rw [List.length_append]
    omega
  rw [begun, begun, hlength, List.flatMap_append, List.append_assoc]

/-- One more item. -/
theorem begun_snoc {items : List α} {left : ℕ} (h : left ≠ 0) (a : α) :
    begun width enc items left ++ enc a = begun width enc (items ++ [a]) (left - 1) := by
  have hsingle : enc a = [a].flatMap enc := (List.flatMap_singleton enc a).symm
  rw [hsingle, begun_append (Nat.pos_of_ne_zero h)]
  rfl

theorem ReadsOff.items (h : ReadsOff enc) :
    ReadsOff (Items.encode enc : Items width α → Bytes) := by
  rintro ⟨as, has⟩ ⟨bs, hbs⟩ xs ys heq
  simp only [Items.encode, begun, Nat.add_zero, List.append_assoc] at heq
  obtain ⟨hcount, hrest⟩ := List.append_inj heq ((toBe_length _ _).trans (toBe_length _ _).symm)
  have hlen : as.length = bs.length := by
    have := congrArg beNat hcount
    rwa [beNat_toBe, beNat_toBe, Nat.mod_eq_of_lt has, Nat.mod_eq_of_lt hbs] at this
  obtain ⟨rfl, htail⟩ := h.flatMap hlen hrest
  exact ⟨rfl, htail⟩

/-! ## Bytes and buffers -/

theorem readsOff_byte : ReadsOff fun b : UInt8 => [b] :=
  readsOff_of_length (fun _ => rfl) fun _ _ h => List.singleton_inj.mp h

theorem readsOff_buf {n : ℕ} : ReadsOff (Buf.bytes : Buf n → Bytes) :=
  readsOff_of_length Buf.size fun _ _ h => Buf.ext h

end Counted
