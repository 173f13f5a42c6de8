/-
  CBOR items: the head of an item, and items that are one head or one text.

  A head is read from every width its argument may have; it is written in the
  shortest one.  What is read is what was written exactly when the width was
  the shortest.
-/
import Concordium.Library.Numerals

namespace Cbor

open Buffer

/-! ## Heads -/

/-- What the first bytes of an item say: its major type, its argument, `none`
    for an indefinite length, and how many bytes they are. -/
structure Head where
  major : ℕ
  argument : Option ℕ
  length : ℕ
deriving DecidableEq, Repr

/-- The head that the bytes begin with. -/
def decodeHead : Bytes → Option Head
  | [] => none
  | b :: bs =>
    let major := b.toNat / 32
    let info := b.toNat % 32
    if info < 24 then some ⟨major, some info, 1⟩
    else if info < 28 then
      let width := 2 ^ (info - 24)
      if width ≤ bs.length then some ⟨major, some (beNat (bs.take width)), 1 + width⟩ else none
    else if info = 31 ∧ 2 ≤ major ∧ major ≤ 5 then some ⟨major, none, 1⟩
    else none

/-- The initial byte of a head and its argument in `width` bytes. -/
def headBytes (major info width n : ℕ) : Bytes :=
  UInt8.ofNat (32 * major + info) :: toBe width n

/-- The shortest head. -/
def encodeHead (major n : ℕ) : Bytes :=
  if n < 24 then headBytes major n 0 0
  else if n < 2 ^ 8 then headBytes major 24 1 n
  else if n < 2 ^ 16 then headBytes major 25 2 n
  else if n < 2 ^ 32 then headBytes major 26 4 n
  else headBytes major 27 8 n

@[simp] theorem headBytes_length (major info width n : ℕ) :
    (headBytes major info width n).length = 1 + width := by
  simp [headBytes, Nat.add_comm]

theorem encodeHead_length (major n : ℕ) : (encodeHead major n).length =
    if n < 24 then 1 else if n < 2 ^ 8 then 2 else if n < 2 ^ 16 then 3
      else if n < 2 ^ 32 then 5 else 9 := by
  unfold encodeHead
  split_ifs <;> rw [headBytes_length]

theorem encodeHead_pos (major n : ℕ) : 0 < (encodeHead major n).length := by
  rw [encodeHead_length]
  split_ifs <;> omega

theorem initial_toNat {major info : ℕ} (hm : major < 8) (hi : info < 32) :
    (UInt8.ofNat (32 * major + info)).toNat = 32 * major + info := by
  rw [UInt8.toNat_ofNat']
  omega

/-- An inline argument is read back. -/
theorem decodeHead_inline {major n : ℕ} (hm : major < 8) (hn : n < 24) (rest : Bytes) :
    decodeHead (headBytes major n 0 0 ++ rest) = some ⟨major, some n, 1⟩ := by
  have hb := initial_toNat hm (show n < 32 by omega)
  have hmajor : (32 * major + n) / 32 = major := by omega
  have hinfo : (32 * major + n) % 32 = n := by omega
  simp only [headBytes, List.cons_append, decodeHead, hb, hmajor, hinfo, if_pos hn]

/-- An argument in one, two, four or eight bytes is read back. -/
theorem decodeHead_wide {major k n : ℕ} (hm : major < 8) (hk : k < 4)
    (hn : n < 256 ^ 2 ^ k) (rest : Bytes) :
    decodeHead (headBytes major (24 + k) (2 ^ k) n ++ rest) =
      some ⟨major, some n, 1 + 2 ^ k⟩ := by
  have hb := initial_toNat hm (show 24 + k < 32 by omega)
  have hmajor : (32 * major + (24 + k)) / 32 = major := by omega
  have hinfo : (32 * major + (24 + k)) % 32 = 24 + k := by omega
  have hwidth : 24 + k - 24 = k := by omega
  have hlen : 2 ^ k ≤ (toBe (2 ^ k) n ++ rest).length := by simp
  have htake : (toBe (2 ^ k) n ++ rest).take (2 ^ k) = toBe (2 ^ k) n :=
    List.take_left' (toBe_length _ _)
  simp only [headBytes, List.cons_append, decodeHead, hb, hmajor, hinfo]
  rw [if_neg (by omega), if_pos (by omega), hwidth, if_pos hlen, htake, beNat_toBe,
    Nat.mod_eq_of_lt hn]

/-- What `encodeHead` writes is read back. -/
theorem decodeHead_encodeHead {major n : ℕ} (hm : major < 8) (hn : n < 2 ^ 64) (rest : Bytes) :
    decodeHead (encodeHead major n ++ rest) =
      some ⟨major, some n, (encodeHead major n).length⟩ := by
  unfold encodeHead
  split_ifs with h0 h1 h2 h3 <;> rw [headBytes_length]
  · exact decodeHead_inline hm h0 rest
  · exact decodeHead_wide (k := 0) hm (by omega) (by omega) rest
  · exact decodeHead_wide (k := 1) hm (by omega) (by omega) rest
  · exact decodeHead_wide (k := 2) hm (by omega) (by omega) rest
  · exact decodeHead_wide (k := 3) hm (by omega) (by omega) rest

/-- What is read as a definite head: its bytes, and how the argument stood in
    them. -/
theorem decodeHead_some {bs : Bytes} {major n len : ℕ}
    (h : decodeHead bs = some ⟨major, some n, len⟩) :
    major < 8 ∧ len ≤ bs.length ∧
      ((n < 24 ∧ len = 1 ∧ bs.take len = headBytes major n 0 0) ∨
        ∃ k < 4, n < 256 ^ 2 ^ k ∧ len = 1 + 2 ^ k ∧
          bs.take len = headBytes major (24 + k) (2 ^ k) n) := by
  cases bs with
  | nil => cases h
  | cons b bs =>
    have hb : b.toNat < 256 := b.toNat_lt
    have hbyte : UInt8.ofNat (32 * (b.toNat / 32) + b.toNat % 32) = b := by
      rw [Nat.div_add_mod, UInt8.ofNat_toNat]
    simp only [decodeHead] at h
    split_ifs at h with h0 h1 h2 h3 <;> simp only [Option.some.injEq, Head.mk.injEq] at h
    · obtain ⟨rfl, rfl, rfl⟩ := h
      refine ⟨by omega, by simp, .inl ⟨h0, rfl, ?_⟩⟩
      simp [headBytes, toBe, hbyte]
    · obtain ⟨rfl, rfl, rfl⟩ := h
      have hlen : (bs.take (2 ^ (b.toNat % 32 - 24))).length = 2 ^ (b.toNat % 32 - 24) := by
        rw [List.length_take]
        omega
      refine ⟨by omega, by rw [List.length_cons]; omega,
        .inr ⟨b.toNat % 32 - 24, by omega, ?_, rfl, ?_⟩⟩
      · have := beNat_lt (bs.take (2 ^ (b.toNat % 32 - 24)))
        rwa [hlen] at this
      · have htoBe := toBe_beNat (bs.take (2 ^ (b.toNat % 32 - 24)))
        rw [hlen] at htoBe
        have hinfo : 24 + (b.toNat % 32 - 24) = b.toNat % 32 := by omega
        rw [Nat.add_comm 1, List.take_succ_cons, headBytes, htoBe, hinfo, hbyte]
    · exact absurd h.2.1 (by simp)

theorem decodeHead_lt {bs : Bytes} {major n len : ℕ}
    (h : decodeHead bs = some ⟨major, some n, len⟩) : n < 2 ^ 64 := by
  obtain ⟨-, -, ⟨hn, -⟩ | ⟨k, hk, hn, -⟩⟩ := decodeHead_some h
  · omega
  · interval_cases k <;> omega

/-- Only strings, arrays and maps have an indefinite length. -/
theorem decodeHead_indefinite {bs : Bytes} {major len : ℕ}
    (h : decodeHead bs = some ⟨major, none, len⟩) : 2 ≤ major ∧ major ≤ 5 := by
  cases bs with
  | nil => cases h
  | cons b bs =>
    simp only [decodeHead] at h
    split_ifs at h with h0 h1 h2 h3 <;> simp only [Option.some.injEq, Head.mk.injEq] at h
    · exact absurd h.2.1 (by simp)
    · exact absurd h.2.1 (by simp)
    · exact h.1 ▸ h3.2

/-- A head of the shortest length is the one that is written. -/
theorem take_eq_encodeHead {bs : Bytes} {major n len : ℕ}
    (h : decodeHead bs = some ⟨major, some n, len⟩) (hlen : len = (encodeHead major n).length) :
    bs.take len = encodeHead major n := by
  rw [encodeHead_length] at hlen
  obtain ⟨-, -, ⟨hn, -, htake⟩ | ⟨k, hk, hn, rfl, htake⟩⟩ := decodeHead_some h
  · rw [htake, encodeHead, if_pos hn]
  · rw [htake, encodeHead]
    interval_cases k <;> split_ifs at hlen ⊢ <;> first | rfl | omega

/-! ## Items -/

/-- An integer or a text.  `negative n` stands for `-1 - n`. -/
inductive Item where
  | unsigned (argument : UInt64)
  | negative (argument : UInt64)
  | text (bytes : Bytes)
deriving DecidableEq, Repr

namespace Item

/-- The major type. -/
def major : Item → ℕ
  | .unsigned _ => 0
  | .negative _ => 1
  | .text _ => 3

/-- The argument of the head. -/
def argument : Item → ℕ
  | .unsigned n | .negative n => n.toNat
  | .text bytes => bytes.length

/-- The bytes behind the head. -/
def content : Item → Bytes
  | .unsigned _ | .negative _ => []
  | .text bytes => bytes

/-- The one definite-length encoding whose head is the shortest. -/
def encode (i : Item) : Bytes := encodeHead i.major i.argument ++ i.content

theorem major_lt (i : Item) : i.major < 8 := by cases i <;> simp [major]

/-- An integer has no content. -/
theorem content_eq_nil {i : Item} (h : i.major ≤ 1) : i.content = [] := by
  cases i with
  | unsigned n => rfl
  | negative n => rfl
  | text t => exact absurd h (by decide : ¬ 3 ≤ 1)

/-- An item is its major type, its argument and its content. -/
theorem eq_of_parts {i j : Item} (hm : i.major = j.major) (ha : i.argument = j.argument)
    (hc : i.content = j.content) : i = j := by
  cases i <;> cases j <;> first
    | exact congrArg _ (UInt64.toNat_inj.mp ha)
    | exact congrArg _ hc
    | exact absurd hm (by simp [major])

theorem decodeHead_encode {i : Item} (hi : i.argument < 2 ^ 64) :
    decodeHead i.encode =
      some ⟨i.major, some i.argument, (encodeHead i.major i.argument).length⟩ :=
  decodeHead_encodeHead i.major_lt hi _

/-- Bytes whose head announces the item are its encoding when the head is the
    shortest and the content follows. -/
theorem eq_encode_iff {i : Item} {bs : Bytes} {len : ℕ}
    (h : decodeHead bs = some ⟨i.major, some i.argument, len⟩) :
    bs = i.encode ↔ len = (encodeHead i.major i.argument).length ∧ bs.drop len = i.content := by
  constructor
  · rintro rfl
    rw [decodeHead_encode (decodeHead_lt h)] at h
    obtain rfl := (Head.mk.inj (Option.some.inj h)).2.2
    exact ⟨rfl, List.drop_left⟩
  · rintro ⟨hlen, hcontent⟩
    rw [encode, ← hcontent, ← take_eq_encodeHead h hlen, List.take_append_drop]

end Item

end Cbor
