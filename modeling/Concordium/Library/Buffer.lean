/-
  Byte strings and fixed-size byte buffers.

  A buffer carries its size as an invariant, so a write that would not fit is
  not expressible: `Buf.write` asks for the bound.  Text is a byte string in
  ASCII, and a buffer read as text stops at its first NUL byte.
-/
import Mathlib.Algebra.Group.Nat.Defs
import Mathlib.Data.List.TakeWhile
import Mathlib.Tactic.Common

namespace Buffer

/-- A byte string. -/
abbrev Bytes := List UInt8

/-- The ASCII bytes of a text constant. -/
def ascii (s : String) : Bytes := s.toList.map fun c => UInt8.ofNat c.toNat

/-- The number a big-endian byte string denotes. -/
def beNat (bs : Bytes) : ℕ := bs.foldl (fun n b => n * 256 + b.toNat) 0

/-- The big-endian byte string of `n` in `k` bytes. -/
def toBe : ℕ → ℕ → Bytes
  | 0, _ => []
  | k + 1, n => UInt8.ofNat (n / 256 ^ k) :: toBe k n

@[simp] theorem toBe_length (k n : ℕ) : (toBe k n).length = k := by
  induction k with
  | zero => rfl
  | succ k ih => simp [toBe, ih]

/-- The decimal digits of `n`, without a terminator. -/
def decimal (n : ℕ) : Bytes := (Nat.toDigits 10 n).map fun c => UInt8.ofNat c.toNat

/-- A buffer of `n` bytes. -/
structure Buf (n : ℕ) where
  bytes : Bytes
  size : bytes.length = n
deriving DecidableEq, Repr

namespace Buf
variable {n : ℕ}

/-- All bytes zero, as `explicit_bzero` leaves a buffer. -/
def zero (n : ℕ) : Buf n := ⟨List.replicate n 0, List.length_replicate⟩

instance : Inhabited (Buf n) := ⟨zero n⟩

/-- Overwrite the bytes from `off` on. -/
def write (b : Buf n) (off : ℕ) (bs : Bytes) (h : off + bs.length ≤ n) : Buf n where
  bytes := b.bytes.take off ++ bs ++ b.bytes.drop (off + bs.length)
  size := by
    have := b.size
    simp only [List.length_append, List.length_take, List.length_drop]
    omega

/-- A cleared buffer with `bs` at its start. -/
def ofBytes (n : ℕ) (bs : Bytes) : Buf n where
  bytes := (bs ++ List.replicate n 0).take n
  size := by rw [List.length_take, List.length_append, List.length_replicate]; omega

/-- The text a buffer holds: everything before the first NUL. -/
def text (b : Buf n) : Bytes := b.bytes.takeWhile (· != 0)

@[ext] theorem ext {b c : Buf n} (h : b.bytes = c.bytes) : b = c := by
  cases b; cases c; congr

@[simp] theorem write_bytes (b : Buf n) (off : ℕ) (bs : Bytes) (h : off + bs.length ≤ n) :
    (b.write off bs h).bytes = b.bytes.take off ++ bs ++ b.bytes.drop (off + bs.length) := rfl

theorem bytes_length (b : Buf n) : b.bytes.length = n := b.size

/-- What was written stands behind what stood in front of it. -/
theorem take_write (b : Buf n) {off k : ℕ} {bs : Bytes} (h : off + bs.length ≤ n)
    (hk : k = off + bs.length) : (b.write off bs h).bytes.take k = b.bytes.take off ++ bs := by
  have hoff : (b.bytes.take off).length = off :=
    List.length_take_of_le (by rw [b.bytes_length]; omega)
  rw [hk, write_bytes, List.take_left' (by rw [List.length_append, hoff])]

@[simp] theorem ofBytes_nil : ofBytes n [] = zero n := by
  ext1
  simp [ofBytes, zero]

/-- Zeros fill the rest. -/
theorem ofBytes_bytes {bs : Bytes} (h : bs.length ≤ n) :
    (ofBytes n bs).bytes = bs ++ List.replicate (n - bs.length) 0 := by
  change (bs ++ List.replicate n 0).take n = _
  rw [List.take_append, List.take_of_length_le h, List.take_replicate,
    Nat.min_eq_left (Nat.sub_le n _)]

theorem take_ofBytes {bs : Bytes} (h : bs.length ≤ n) :
    (ofBytes n bs).bytes.take bs.length = bs := by
  rw [ofBytes_bytes h, List.take_left' rfl]

/-- What is written behind the bytes of a buffer is put at its start with them. -/
theorem write_ofBytes {bs cs : Bytes} (h : bs.length + cs.length ≤ n) :
    (ofBytes n bs).write bs.length cs h = ofBytes n (bs ++ cs) := by
  have hsum : (bs ++ cs).length ≤ n := by rw [List.length_append]; omega
  ext1
  rw [write_bytes, take_ofBytes (by omega), ofBytes_bytes (by omega), ofBytes_bytes hsum,
    ← List.drop_drop, List.drop_left' rfl, List.drop_replicate, List.length_append,
    Nat.sub_sub]

theorem write_zero {bs : Bytes} (h : 0 + bs.length ≤ n) :
    (zero n).write 0 bs h = ofBytes n bs := by
  have hw : (ofBytes n []).write ([] : Bytes).length bs h = _ := write_ofBytes h
  rwa [ofBytes_nil, List.nil_append] at hw

theorem zero_not_mem_text (b : Buf n) : 0 ∉ b.text := fun h => by
  simpa using List.mem_takeWhile_imp h

/-- Text and its terminator, written to the start of a buffer, is read back. -/
theorem text_write {b : Buf n} {bs : Bytes} (h : 0 + (bs ++ [0]).length ≤ n) (hbs : 0 ∉ bs) :
    (b.write 0 (bs ++ [0]) h).text = bs := by
  have hne : ∀ x ∈ bs, (x != 0) = true := fun x hx =>
    bne_iff_ne.mpr fun hx0 => hbs (hx0 ▸ hx)
  simp [text, List.takeWhile_append_of_pos hne]

end Buf

end Buffer
