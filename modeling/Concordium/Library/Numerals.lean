/-
  Numerals: numbers as byte strings.

  Big-endian bytes, decimal digits, digits of a fixed number of places, and
  decimal fractions without trailing zeros.  Each numeral determines its
  number.
-/
import Concordium.Library.Buffer
import Mathlib.Data.List.DropRight
import Mathlib.Data.List.GetD
import Mathlib.Data.List.Nodup
import Mathlib.Data.Nat.Digits.Defs
import Mathlib.Tactic.IntervalCases
import Mathlib.Tactic.Ring

namespace Buffer

/-! ## Big-endian bytes -/

theorem beNat_foldl_injective {bs cs : Bytes} {n m : ℕ} (hlen : bs.length = cs.length)
    (h : bs.foldl (fun n b => n * 256 + b.toNat) n = cs.foldl (fun n b => n * 256 + b.toNat) m) :
    n = m ∧ bs = cs := by
  induction bs generalizing cs n m with
  | nil =>
    obtain rfl := List.eq_nil_of_length_eq_zero hlen.symm
    exact ⟨h, rfl⟩
  | cons b bs ih =>
    cases cs with
    | nil => simp at hlen
    | cons c cs =>
      rw [List.foldl_cons, List.foldl_cons] at h
      obtain ⟨heq, rfl⟩ := ih (Nat.succ.inj hlen) h
      have hb : b.toNat < 256 := b.toNat_lt
      have hc : c.toNat < 256 := c.toNat_lt
      have hbc : b = c := UInt8.toNat_inj.mp (by omega)
      exact ⟨by omega, by rw [hbc]⟩

/-- Byte strings of one length are determined by their number. -/
theorem beNat_injective {bs cs : Bytes} (hlen : bs.length = cs.length) (h : beNat bs = beNat cs) :
    bs = cs :=
  (beNat_foldl_injective hlen h).2

theorem beNat_foldl_lt (bs : Bytes) (n : ℕ) :
    bs.foldl (fun n b => n * 256 + b.toNat) n < (n + 1) * 256 ^ bs.length := by
  induction bs generalizing n with
  | nil => simp
  | cons b bs ih =>
    have hb : b.toNat < 256 := b.toNat_lt
    calc (b :: bs).foldl (fun n b => n * 256 + b.toNat) n
        < (n * 256 + b.toNat + 1) * 256 ^ bs.length := ih _
      _ ≤ ((n + 1) * 256) * 256 ^ bs.length := Nat.mul_le_mul_right _ (by omega)
      _ = (n + 1) * 256 ^ (b :: bs).length := by rw [List.length_cons, Nat.pow_succ]; ring

theorem beNat_lt (bs : Bytes) : beNat bs < 256 ^ bs.length := by
  have := beNat_foldl_lt bs 0
  rwa [Nat.zero_add, Nat.one_mul] at this

theorem beNat_foldl (bs : Bytes) (n : ℕ) :
    bs.foldl (fun n b => n * 256 + b.toNat) n = n * 256 ^ bs.length + beNat bs := by
  unfold beNat
  induction bs generalizing n with
  | nil => simp
  | cons b bs ih =>
    rw [List.foldl_cons, List.foldl_cons, ih, ih (0 * 256 + b.toNat), List.length_cons,
      Nat.pow_succ]
    ring

theorem beNat_cons (b : UInt8) (bs : Bytes) :
    beNat (b :: bs) = b.toNat * 256 ^ bs.length + beNat bs := by
  have hfold : beNat (b :: bs) = bs.foldl (fun n b => n * 256 + b.toNat) (0 * 256 + b.toNat) := rfl
  rw [hfold, beNat_foldl, Nat.zero_mul, Nat.zero_add]

theorem beNat_toBe (k n : ℕ) : beNat (toBe k n) = n % 256 ^ k := by
  induction k with
  | zero => simp [toBe, beNat, Nat.mod_one]
  | succ k ih =>
    have hbyte : (UInt8.ofNat (n / 256 ^ k)).toNat = n / 256 ^ k % 256 := by simp
    rw [toBe, beNat_cons, ih, toBe_length, hbyte, Nat.mod_pow_succ]
    ring

/-- Bytes are the numeral of their number in as many places. -/
theorem toBe_beNat (bs : Bytes) : toBe bs.length (beNat bs) = bs := by
  refine beNat_injective (toBe_length _ _) ?_
  rw [beNat_toBe, Nat.mod_eq_of_lt (beNat_lt bs)]

/-! ## Decimal digits -/

/-- The number that decimal digits denote. -/
def ofDecimal (bs : Bytes) : ℕ := bs.foldl (fun n b => 10 * n + (b.toNat - 48)) 0

/-- A decimal digit in ASCII. -/
def IsDigit (b : UInt8) : Prop := 48 ≤ b.toNat ∧ b.toNat ≤ 57

theorem digitByte {c : Char} (hc : c.isDigit) :
    (UInt8.ofNat c.toNat).toNat = c.toNat ∧ 48 ≤ c.toNat ∧ c.toNat ≤ 57 := by
  simp only [Char.isDigit, Bool.and_eq_true, decide_eq_true_eq] at hc
  have hlo : 48 ≤ c.toNat := UInt32.le_iff_toNat_le.mp hc.1
  have hhi : c.toNat ≤ 57 := UInt32.le_iff_toNat_le.mp hc.2
  have hsmall : (UInt8.ofNat c.toNat).toNat = c.toNat % 256 := by simp
  exact ⟨by omega, hlo, hhi⟩

theorem ofDecimal_decimal (n : ℕ) : ofDecimal (decimal n) = n := by
  have hfold : ∀ (cs : List Char) (k : ℕ), (∀ c ∈ cs, c.isDigit) →
      (cs.map fun c => UInt8.ofNat c.toNat).foldl (fun n b => 10 * n + (b.toNat - 48)) k =
        Nat.ofDigitChars 10 cs k := by
    intro cs
    induction cs with
    | nil => simp
    | cons c cs ih =>
      intro k hcs
      obtain ⟨hc, htail⟩ := List.forall_mem_cons.mp hcs
      rw [List.map_cons, List.foldl_cons, ih _ htail, Nat.ofDigitChars_cons, (digitByte hc).1]
      rfl
  unfold ofDecimal decimal
  rw [hfold _ _ fun c hc => Nat.isDigit_of_mem_toDigits (by decide) (by decide) hc]
  exact Nat.ofDigitChars_ten_toDigits

theorem decimal_injective : Function.Injective decimal := fun n m h => by
  rw [← ofDecimal_decimal n, h, ofDecimal_decimal]

theorem isDigit_of_mem_decimal {n : ℕ} {b : UInt8} (h : b ∈ decimal n) : IsDigit b := by
  obtain ⟨c, hc, rfl⟩ := List.mem_map.mp h
  have := digitByte (Nat.isDigit_of_mem_toDigits (by decide) (by decide) hc)
  unfold IsDigit
  omega

theorem zero_not_mem_decimal (n : ℕ) : 0 ∉ decimal n := fun h => by
  have := isDigit_of_mem_decimal h
  exact absurd this.1 (by decide)

theorem decimal_length {n k : ℕ} (hk : 0 < k) (h : n < 10 ^ k) : (decimal n).length ≤ k := by
  unfold decimal
  rw [List.length_map]
  exact Nat.toDigits_length 10 n k hk h

/-- A function that is injective on the members of two lists. -/
theorem map_injOn {α β : Type} {f : α → β} {l l' : List α}
    (hf : ∀ a ∈ l, ∀ b ∈ l', f a = f b → a = b) (h : l.map f = l'.map f) : l = l' := by
  induction l generalizing l' with
  | nil => exact (List.map_eq_nil_iff.mp h.symm).symm
  | cons a l ih =>
    cases l' with
    | nil => cases h
    | cons b l' =>
      obtain ⟨hab, htail⟩ := List.cons.inj h
      rw [hf a List.mem_cons_self b List.mem_cons_self hab,
        ih (fun x hx y hy => hf x (List.mem_cons_of_mem _ hx) y (List.mem_cons_of_mem _ hy)) htail]

/-! ## Digits of a fixed number of places -/

/-- The lowest `k` digits of `n` to base `b`, highest first. -/
def places (b : ℕ) : ℕ → ℕ → List ℕ
  | 0, _ => []
  | k + 1, n => n / b ^ k % b :: places b k n

@[simp] theorem places_length (b k n : ℕ) : (places b k n).length = k := by
  induction k with
  | zero => rfl
  | succ k ih => simp [places, ih]

theorem places_lt {b k n d : ℕ} (hb : 0 < b) (h : d ∈ places b k n) : d < b := by
  induction k with
  | zero => simp [places] at h
  | succ k ih =>
    rcases List.mem_cons.mp h with rfl | h
    · exact Nat.mod_lt _ hb
    · exact ih h

theorem places_injective {b k n m : ℕ} (h : places b k n = places b k m) :
    n % b ^ k = m % b ^ k := by
  induction k with
  | zero => simp [Nat.mod_one]
  | succ k ih =>
    obtain ⟨hd, htail⟩ := List.cons.inj h
    rw [Nat.mod_pow_succ, Nat.mod_pow_succ, hd, ih htail]

/-! ## Decimal fractions -/

/-- `n` scaled down by `10 ^ d`, without trailing zeros behind the point and
    without the point when no digit follows it. -/
def trimmedFraction (n d : ℕ) : Bytes :=
  let fraction := (places 10 d n).rdropWhile (· == 0)
  decimal (n / 10 ^ d) ++
    if fraction = [] then [] else 46 :: fraction.map fun k => UInt8.ofNat (48 + k)

/-- What is trimmed off a list is as many zeros as are missing. -/
theorem rdropWhile_append_zeros (l : List ℕ) :
    l = l.rdropWhile (· == 0) ++
      List.replicate (l.length - (l.rdropWhile (· == 0)).length) 0 := by
  induction l using List.reverseRecOn with
  | nil => rfl
  | append_singleton l x ih =>
    by_cases hx : x = 0
    · rw [hx, List.rdropWhile_concat_pos _ _ _ (by rfl)]
      have hle : (l.rdropWhile (· == 0)).length ≤ l.length :=
        (List.rdropWhile_prefix (· == 0) l).length_le
      rw [List.length_append, List.length_singleton, Nat.sub_add_comm hle, List.replicate_succ',
        ← List.append_assoc, ← ih]
    · rw [List.rdropWhile_concat_neg _ _ _ (by simpa using hx)]
      simp

/-- The two parts of a trimmed fraction can be read off its text. -/
theorem trimmedFraction_parts {n m d e : ℕ} (h : trimmedFraction n d = trimmedFraction m e) :
    n / 10 ^ d = m / 10 ^ e ∧
      (places 10 d n).rdropWhile (· == 0) = (places 10 e m).rdropWhile (· == 0) := by
  have hint (n d : ℕ) : (trimmedFraction n d).takeWhile (· != 46) = decimal (n / 10 ^ d) := by
    have hdigits : ∀ b ∈ decimal (n / 10 ^ d), (b != 46) = true := fun b hb => by
      have := isDigit_of_mem_decimal hb
      refine bne_iff_ne.mpr fun h46 => ?_
      rw [h46] at this
      exact absurd this.1 (by decide)
    unfold trimmedFraction
    simp only [List.takeWhile_append_of_pos hdigits]
    split_ifs <;> simp
  have hdiv : n / 10 ^ d = m / 10 ^ e := decimal_injective (by rw [← hint, ← hint, h])
  refine ⟨hdiv, ?_⟩
  unfold trimmedFraction at h
  rw [hdiv] at h
  have htail := List.append_cancel_left h
  have hlt {n d k : ℕ} (hk : k ∈ (places 10 d n).rdropWhile (· == 0)) : k < 10 :=
    places_lt (by decide) ((List.rdropWhile_prefix (· == 0) _).subset hk)
  by_cases hn : (places 10 d n).rdropWhile (· == 0) = [] <;>
    by_cases hm : (places 10 e m).rdropWhile (· == 0) = []
  · rw [hn, hm]
  · rw [if_pos hn, if_neg hm] at htail
    cases htail
  · rw [if_neg hn, if_pos hm] at htail
    cases htail
  · rw [if_neg hn, if_neg hm] at htail
    refine map_injOn (fun k hk l hl hkl => ?_) (List.cons.inj htail).2
    have hk10 := hlt hk
    have hl10 := hlt hl
    interval_cases k <;> interval_cases l <;> first | rfl | exact absurd hkl (by decide)

theorem trimmedFraction_injective {n m d : ℕ} (h : trimmedFraction n d = trimmedFraction m d) :
    n = m := by
  obtain ⟨hdiv, hfraction⟩ := trimmedFraction_parts h
  have hplaces : places 10 d n = places 10 d m := by
    rw [rdropWhile_append_zeros (places 10 d n), rdropWhile_append_zeros (places 10 d m),
      hfraction]
    simp
  have hmod := places_injective hplaces
  rw [← Nat.div_add_mod n (10 ^ d), ← Nat.div_add_mod m (10 ^ d), hdiv, hmod]

theorem zero_not_mem_trimmedFraction (n d : ℕ) : 0 ∉ trimmedFraction n d := by
  unfold trimmedFraction
  intro h
  rcases List.mem_append.mp h with h | h
  · exact zero_not_mem_decimal _ h
  · split_ifs at h with hf
    · exact absurd h List.not_mem_nil
    · rcases List.mem_cons.mp h with h | h
      · exact absurd h (by decide)
      · obtain ⟨k, hk, hk0⟩ := List.mem_map.mp h
        have hk10 : k < 10 :=
          places_lt (by decide) ((List.rdropWhile_prefix (· == 0) _).subset hk)
        interval_cases k <;> exact absurd hk0 (by decide)

/-- The digits of a numeral in ASCII. -/
def digitText (ks : List ℕ) : Bytes := ks.map fun k => UInt8.ofNat (48 + k)

theorem digitText_injective {ks ls : List ℕ} (hk : ∀ k ∈ ks, k < 10) (hl : ∀ l ∈ ls, l < 10)
    (h : digitText ks = digitText ls) : ks = ls := by
  refine map_injOn (fun k hkm l hlm hkl => ?_) h
  have hk10 := hk k hkm
  have hl10 := hl l hlm
  interval_cases k <;> interval_cases l <;> first | rfl | exact absurd hkl (by decide)

theorem isDigit_of_mem_digitText {ks : List ℕ} (hk : ∀ k ∈ ks, k < 10) {b : UInt8}
    (h : b ∈ digitText ks) : IsDigit b := by
  obtain ⟨k, hmem, rfl⟩ := List.mem_map.mp h
  have hk10 := hk k hmem
  unfold IsDigit
  interval_cases k <;> decide

/-- The lowest places of a number denote its remainder. -/
theorem ofDecimal_digitText (k n : ℕ) : ofDecimal (digitText (places 10 k n)) = n % 10 ^ k := by
  have hfold (a : ℕ) : (digitText (places 10 k n)).foldl (fun n b => 10 * n + (b.toNat - 48)) a =
      a * 10 ^ k + n % 10 ^ k := by
    induction k generalizing a with
    | zero => simp [places, digitText, Nat.mod_one]
    | succ k ih =>
      have hlt : n / 10 ^ k % 10 < 10 := Nat.mod_lt _ (by decide)
      have hbyte : (UInt8.ofNat (48 + n / 10 ^ k % 10)).toNat - 48 = n / 10 ^ k % 10 := by
        rw [UInt8.toNat_ofNat_of_lt' (show 48 + n / 10 ^ k % 10 < 256 by omega)]
        omega
      have hcons : digitText (places 10 (k + 1) n) =
          UInt8.ofNat (48 + n / 10 ^ k % 10) :: digitText (places 10 k n) := rfl
      rw [hcons, List.foldl_cons, ih, hbyte, Nat.mod_pow_succ, Nat.pow_succ]
      ring
  have h0 := hfold 0
  rwa [Nat.zero_mul, Nat.zero_add] at h0

theorem ofDecimal_zeros (ks : List ℕ) (j : ℕ) :
    ofDecimal (digitText (ks ++ List.replicate j 0)) = ofDecimal (digitText ks) * 10 ^ j := by
  induction j with
  | zero => simp
  | succ j ih =>
    rw [List.replicate_succ', ← List.append_assoc, digitText, List.map_append, ofDecimal,
      List.foldl_append]
    change 10 * ofDecimal (digitText (ks ++ List.replicate j 0)) + 0 = _
    rw [ih, Nat.pow_succ]
    ring

/-- The remainder that the digits kept of a fraction stand for. -/
theorem ofDecimal_trimmed (d n : ℕ) :
    n % 10 ^ d * 10 ^ ((places 10 d n).rdropWhile (· == 0)).length =
      ofDecimal (digitText ((places 10 d n).rdropWhile (· == 0))) * 10 ^ d := by
  have hle := (List.rdropWhile_prefix (· == 0) (places 10 d n)).length_le
  rw [places_length] at hle
  have hplaces := rdropWhile_append_zeros (places 10 d n)
  rw [places_length] at hplaces
  rw [← ofDecimal_digitText, hplaces, ofDecimal_zeros, ← hplaces, Nat.mul_assoc, ← Nat.pow_add,
    Nat.sub_add_cancel hle]

/-- A trimmed fraction determines the value it stands for, whatever the scale. -/
theorem trimmedFraction_value {n m d e : ℕ} (h : trimmedFraction n d = trimmedFraction m e) :
    n * 10 ^ e = m * 10 ^ d := by
  obtain ⟨hdiv, hfraction⟩ := trimmedFraction_parts h
  have hn := ofDecimal_trimmed d n
  have hm := ofDecimal_trimmed e m
  rw [← hfraction] at hm
  generalize ((places 10 d n).rdropWhile (· == 0)).length = k at hn hm
  generalize ofDecimal (digitText ((places 10 d n).rdropWhile (· == 0))) = v at hn hm
  -- Both remainders are the same number of units, on their own scales.
  have hmod : n % 10 ^ d * 10 ^ e = m % 10 ^ e * 10 ^ d := by
    refine Nat.eq_of_mul_eq_mul_right (Nat.pow_pos (n := k) (by decide : 0 < 10)) ?_
    calc n % 10 ^ d * 10 ^ e * 10 ^ k = n % 10 ^ d * 10 ^ k * 10 ^ e := by ring
      _ = v * 10 ^ d * 10 ^ e := by rw [hn]
      _ = v * 10 ^ e * 10 ^ d := by ring
      _ = m % 10 ^ e * 10 ^ k * 10 ^ d := by rw [hm]
      _ = m % 10 ^ e * 10 ^ d * 10 ^ k := by ring
  calc n * 10 ^ e = (10 ^ d * (n / 10 ^ d) + n % 10 ^ d) * 10 ^ e := by rw [Nat.div_add_mod]
    _ = n / 10 ^ d * 10 ^ d * 10 ^ e + n % 10 ^ d * 10 ^ e := by ring
    _ = m / 10 ^ e * 10 ^ d * 10 ^ e + m % 10 ^ e * 10 ^ d := by rw [hdiv, hmod]
    _ = (10 ^ e * (m / 10 ^ e) + m % 10 ^ e) * 10 ^ d := by ring
    _ = m * 10 ^ d := by rw [Nat.div_add_mod]

/-- `n` scaled down by `10 ^ d`, with `d` digits behind the point; no point
    stands in front of none. -/
def fixedFraction (n d : ℕ) : Bytes :=
  decimal (n / 10 ^ d) ++ if d = 0 then [] else 46 :: digitText (places 10 d n)

theorem mem_fixedFraction {n d : ℕ} {b : UInt8} (h : b ∈ fixedFraction n d) :
    IsDigit b ∨ b = 46 := by
  unfold fixedFraction at h
  rcases List.mem_append.mp h with h | h
  · exact .inl (isDigit_of_mem_decimal h)
  · split_ifs at h with hd
    · exact absurd h List.not_mem_nil
    · rcases List.mem_cons.mp h with h | h
      · exact .inr h
      · exact .inl (isDigit_of_mem_digitText (fun k hk => places_lt (by decide) hk) h)

theorem mem_trimmedFraction {n d : ℕ} {b : UInt8} (h : b ∈ trimmedFraction n d) :
    IsDigit b ∨ b = 46 := by
  unfold trimmedFraction at h
  rcases List.mem_append.mp h with h | h
  · exact .inl (isDigit_of_mem_decimal h)
  · split_ifs at h with hfraction
    · exact absurd h List.not_mem_nil
    · rcases List.mem_cons.mp h with h | h
      · exact .inr h
      · refine .inl (isDigit_of_mem_digitText (fun k hk => ?_) h)
        exact places_lt (by decide) ((List.rdropWhile_prefix (· == 0) _).subset hk)

/-- The last of the lowest places. -/
theorem places_getLast {b k n : ℕ} (h : places b (k + 1) n ≠ []) :
    (places b (k + 1) n).getLast h = n % b := by
  induction k with
  | zero => simp [places]
  | succ k ih =>
    have hrest : places b (k + 1) n ≠ [] := by
      intro hnil
      simpa [hnil] using places_length b (k + 1) n
    have hcons : places b (k + 1 + 1) n = n / b ^ (k + 1) % b :: places b (k + 1) n := rfl
    simp only [hcons, List.getLast_cons hrest]
    exact ih hrest

/-- A fraction has a zero to trim exactly when it has places and ends in zero. -/
theorem trimmedFraction_eq_fixedFraction {n d : ℕ} :
    trimmedFraction n d = fixedFraction n d ↔ d = 0 ∨ n % 10 ≠ 0 := by
  cases d with
  | zero => simp [trimmedFraction, fixedFraction, places]
  | succ k =>
    have hne : places 10 (k + 1) n ≠ [] := by
      intro hnil
      simpa [hnil] using places_length 10 (k + 1) n
    have hkeeps : (places 10 (k + 1) n).rdropWhile (· == 0) = places 10 (k + 1) n ↔
        n % 10 ≠ 0 := by
      rw [List.rdropWhile_eq_self_iff]
      constructor
      · intro h hzero
        exact h hne (by rw [places_getLast hne, hzero]; rfl)
      · intro h hl
        rw [places_getLast hl]
        simpa using h
    have hd : k + 1 ≠ 0 := Nat.succ_ne_zero k
    have hlt {l : List ℕ} (hl : l <+: places 10 (k + 1) n) : ∀ x ∈ l, x < 10 :=
      fun x hx => places_lt (by decide) (hl.subset hx)
    constructor
    · intro h
      refine .inr (hkeeps.mp ?_)
      unfold trimmedFraction fixedFraction at h
      rw [if_neg hd] at h
      have htail := List.append_cancel_left h
      split_ifs at htail with hnil
      obtain ⟨-, hdigits⟩ := List.cons.inj htail
      exact digitText_injective (hlt (List.rdropWhile_prefix _ _)) (hlt List.prefix_rfl) hdigits
    · rintro (h | h)
      · exact absurd h hd
      · unfold trimmedFraction fixedFraction
        dsimp only
        rw [hkeeps.mpr h, if_neg hne, if_neg hd]
        rfl

/-- A fraction with all its places determines the number and the scale. -/
theorem fixedFraction_injective {n m d e : ℕ} (h : fixedFraction n d = fixedFraction m e) :
    n = m ∧ d = e := by
  have hint (n d : ℕ) : (fixedFraction n d).takeWhile (· != 46) = decimal (n / 10 ^ d) := by
    have hdigits : ∀ b ∈ decimal (n / 10 ^ d), (b != 46) = true := fun b hb => by
      refine bne_iff_ne.mpr fun h46 => ?_
      exact absurd (h46 ▸ isDigit_of_mem_decimal hb).1 (by decide)
    unfold fixedFraction
    rw [List.takeWhile_append_of_pos hdigits]
    split_ifs <;> simp
  have hdecimal : decimal (n / 10 ^ d) = decimal (m / 10 ^ e) := by rw [← hint, ← hint, h]
  have hdiv : n / 10 ^ d = m / 10 ^ e := decimal_injective hdecimal
  unfold fixedFraction at h
  rw [hdecimal] at h
  have htail := List.append_cancel_left h
  by_cases hd : d = 0 <;> by_cases he : e = 0
  · subst hd he
    rw [pow_zero, Nat.div_one, Nat.div_one] at hdiv
    exact ⟨hdiv, rfl⟩
  · rw [if_pos hd, if_neg he] at htail
    cases htail
  · rw [if_neg hd, if_pos he] at htail
    cases htail
  · rw [if_neg hd, if_neg he] at htail
    have hplaces : places 10 d n = places 10 e m :=
      digitText_injective (fun k hk => places_lt (by decide) hk)
        (fun k hk => places_lt (by decide) hk) (List.cons.inj htail).2
    have hde : d = e := by rw [← places_length 10 d n, hplaces, places_length]
    subst hde
    have hmod := places_injective hplaces
    exact ⟨by rw [← Nat.div_add_mod n (10 ^ d), ← Nat.div_add_mod m (10 ^ d), hdiv, hmod], rfl⟩

theorem trimmedFraction_length {n d k : ℕ} (hk : 0 < k) (h : n < 10 ^ k) :
    (trimmedFraction n d).length ≤ k + 1 + d := by
  have hint : (decimal (n / 10 ^ d)).length ≤ k :=
    decimal_length hk (lt_of_le_of_lt (Nat.div_le_self _ _) h)
  have hfraction := (List.rdropWhile_prefix (· == 0) (places 10 d n)).length_le
  rw [places_length] at hfraction
  unfold trimmedFraction
  rw [List.length_append]
  split_ifs
  · simp only [List.length_nil]
    omega
  · rw [List.length_cons, List.length_map]
    omega

/-! ## Base 58 -/

/-- The digits of base 58: letters and digits that are not mistaken for another. -/
def base58Alphabet : Bytes := ascii "123456789ABCDEFGHJKLMNPQRSTUVWXYZabcdefghijkmnopqrstuvwxyz"

/-- A number in base 58, in a fixed number of places. -/
def base58 (k n : ℕ) : Bytes := (places 58 k n).map fun d => base58Alphabet.getD d 0

@[simp] theorem base58_length (k n : ℕ) : (base58 k n).length = k := by simp [base58]

theorem base58Alphabet_getD {d e : ℕ} (hd : d < 58) (he : e < 58)
    (h : base58Alphabet.getD d 0 = base58Alphabet.getD e 0) : d = e := by
  have hlen : base58Alphabet.length = 58 := by decide
  have hnodup : base58Alphabet.Nodup := by decide
  rw [List.getD_eq_getElem _ _ (hlen ▸ hd), List.getD_eq_getElem _ _ (hlen ▸ he)] at h
  exact (List.Nodup.getElem_inj_iff hnodup).mp h

theorem base58_injective {k n m : ℕ} (hn : n < 58 ^ k) (hm : m < 58 ^ k)
    (h : base58 k n = base58 k m) : n = m := by
  have hplaces : places 58 k n = places 58 k m := by
    refine map_injOn (fun d hd e he hde => ?_) h
    exact base58Alphabet_getD (places_lt (by decide) hd) (places_lt (by decide) he) hde
  have := places_injective hplaces
  rwa [Nat.mod_eq_of_lt hn, Nat.mod_eq_of_lt hm] at this

theorem zero_not_mem_base58 (k n : ℕ) : 0 ∉ base58 k n := fun h => by
  obtain ⟨d, hd, h0⟩ := List.mem_map.mp h
  have hlen : base58Alphabet.length = 58 := by decide
  have hmem : base58Alphabet.getD d 0 ∈ base58Alphabet := by
    rw [List.getD_eq_getElem _ _ (hlen ▸ places_lt (by decide) hd)]
    exact List.getElem_mem _
  rw [h0] at hmem
  exact absurd hmem (by decide)

end Buffer
