import SevenLens.Library.Json
import SevenLens.Library.Decimal
import SevenLens.Library.Digits

/-! # Floats and decimal numbers

A finite float is a binary number of 53 digits.  Reading rounds a decimal number to the nearest one, and a
float is known by the shortest decimal number that is rounded to it.  What has the value of these digits
is read as the same float (`readDecimal_of_magnitude`). -/

namespace Json

/-! ### Decimal numbers without zeros at the end -/

section Strip

variable {c c' : Nat} {k k' : Int}

theorem strip_fst_ne_zero (n : Nat) (h : c ≠ 0) : (Decimal.strip n c k).1 ≠ 0 := by
  intro h0
  have hvalue := Decimal.strip_value n c k
  rw [h0, Nat.cast_zero, zero_mul] at hvalue
  exact mul_ne_zero (Nat.cast_ne_zero.mpr h) (Decimal.ten_zpow_pos k).ne' hvalue.symm

/-- With enough rounds no zero is left at the end. -/
theorem strip_fst_mod (n : Nat) (h : c ≠ 0) (hn : c < 10 ^ n) : (Decimal.strip n c k).1 % 10 ≠ 0 := by
  induction n generalizing c k with
  | zero => exact absurd (Nat.lt_one_iff.mp (by simpa using hn)) h
  | succ n ih =>
    rw [Decimal.strip]
    split_ifs with hmod
    · rw [pow_succ] at hn
      exact ih (by omega) (by omega)
    · exact hmod

/-- Two such numbers of the same value have the same coefficient and exponent. -/
theorem eq_of_value_eq (hc : c % 10 ≠ 0) (hc' : c' % 10 ≠ 0) (h : (c : ℚ) * 10 ^ k = c' * 10 ^ k') : c = c' ∧ k = k' := by
  have hle : ∀ {a b : Nat} {i j : Int}, a % 10 ≠ 0 → (a : ℚ) * 10 ^ i = b * 10 ^ j → j ≤ i := by
    intro a b i j ha hab
    by_contra hlt
    have hpow : (10 : ℚ) ^ j = 10 ^ (j - i).toNat * 10 ^ i := by
      rw [← zpow_natCast, Int.toNat_of_nonneg (by omega), ← zpow_add₀ (by norm_num)]
      congr 1
      omega
    rw [hpow, ← mul_assoc, mul_left_inj' (Decimal.ten_zpow_pos i).ne'] at hab
    have hnat : a = b * 10 ^ (j - i).toNat := by exact_mod_cast hab
    obtain ⟨m, hm⟩ : ∃ m, (j - i).toNat = m + 1 := ⟨(j - i).toNat - 1, by omega⟩
    rw [hm, pow_succ, ← mul_assoc] at hnat
    exact ha (by omega)
  obtain rfl : k = k' := le_antisymm (hle hc' h.symm) (hle hc h)
  rw [mul_left_inj' (Decimal.ten_zpow_pos k).ne'] at h
  exact ⟨by exact_mod_cast h, rfl⟩

/-- The digits of a positive number do not start with a zero. -/
theorem head_toDigits {n : Nat} (h : n ≠ 0) : (Nat.toDigits 10 n).head? ≠ some '0' := by
  intro hhead
  obtain ⟨m, hm⟩ : ∃ m, Nat.toDigits 10 n = '0' :: m := by
    cases hdigits : Nat.toDigits 10 n with
    | nil => rw [hdigits] at hhead; cases hhead
    | cons c m => rw [hdigits] at hhead; cases hhead; exact ⟨m, rfl⟩
  have hall := Nat.allDigits_toDigits n
  have hvalue : Nat.ofDigitChars 10 (Nat.toDigits 10 n) 0 = n := Nat.ofDigitChars_ten_toDigits
  rw [hm] at hall hvalue
  rw [Nat.ofDigitChars_cons_zero] at hvalue
  have hlt := Nat.ofDigitChars_lt (Nat.allDigits_cons.mp hall).2
  have hrest : Nat.ofDigitChars 10 m 0 = n := by simpa using hvalue
  rw [hrest] at hlt
  rcases Nat.eq_zero_or_pos m.length with h0 | hpos
  · rw [h0] at hlt
    omega
  · have hlength := (Nat.length_toDigits_le_iff (by decide) hpos).mpr hlt
    rw [hm, List.length_cons] at hlength
    omega

end Strip

namespace Double

/-- The number that the digits make, without the point. -/
def coefficient (d : Double) : Nat := Nat.ofDigitChars 10 d.digits 0

def exponent (d : Double) : Int := d.point - d.digits.length

def magnitude (d : Double) : ℚ := d.coefficient * 10 ^ d.exponent

/-- A decimal number by its digits, without zeros at the end. -/
def ofDecimal (negative : Bool) (c : Nat) (k : Int) : Double :=
  if h : c = 0 then ⟨negative, ['0'], 1, by decide, fun _ => ⟨rfl, rfl⟩⟩
  else ⟨negative, Nat.toDigits 10 (Decimal.strip c c k).1,
    (Nat.toDigits 10 (Decimal.strip c c k).1).length + (Decimal.strip c c k).2,
    ⟨Nat.toDigits_ne_nil, List.all_eq_true.mpr (Nat.allDigits_toDigits _)⟩,
    fun h0 => absurd h0 (head_toDigits (strip_fst_ne_zero c h))⟩

theorem negative_ofDecimal (negative : Bool) (c : Nat) (k : Int) : (ofDecimal negative c k).negative = negative := by
  unfold ofDecimal
  split_ifs <;> rfl

theorem magnitude_ofDecimal (negative : Bool) (c : Nat) (k : Int) : (ofDecimal negative c k).magnitude = c * 10 ^ k := by
  unfold ofDecimal
  split_ifs with h
  · have hzero : (⟨negative, ['0'], 1, by decide, fun _ => ⟨rfl, rfl⟩⟩ : Double).coefficient = 0 := by
      show Nat.ofDigitChars 10 ['0'] 0 = 0
      decide
    rw [magnitude, hzero, h, Nat.cast_zero, zero_mul, zero_mul]
  · rw [magnitude, coefficient, exponent, Nat.ofDigitChars_ten_toDigits, add_sub_cancel_left, Decimal.strip_value]

/-- The digits depend on the value only. -/
theorem ofDecimal_congr {c c' : Nat} {k k' : Int} (negative : Bool) (h : (c : ℚ) * 10 ^ k = c' * 10 ^ k') :
    ofDecimal negative c k = ofDecimal negative c' k' := by
  have hzero : c = 0 ↔ c' = 0 := by
    rw [← Nat.cast_eq_zero (R := ℚ), ← Nat.cast_eq_zero (R := ℚ) (n := c'), ← mul_eq_zero_iff_right (Decimal.ten_zpow_pos k).ne', h,
      mul_eq_zero_iff_right (Decimal.ten_zpow_pos k').ne']
  by_cases hc : c = 0
  · rw [ofDecimal, ofDecimal, dif_pos hc, dif_pos (hzero.mp hc)]
  · have hc' : c' ≠ 0 := fun h0 => hc (hzero.mpr h0)
    have hstrip : Decimal.strip c c k = Decimal.strip c' c' k' := by
      refine Prod.ext_iff.mpr (eq_of_value_eq (strip_fst_mod c hc (Nat.lt_pow_self (by decide)))
        (strip_fst_mod c' hc' (Nat.lt_pow_self (by decide))) ?_)
      rw [Decimal.strip_value, Decimal.strip_value, h]
    rw [ofDecimal, ofDecimal, dif_neg hc, dif_neg hc']
    simp only [hstrip]

end Double

/-! ### Binary numbers -/

/-- The exponent of the last binary digit near a number: 53 digits are kept, and none below `2 ^ -1074`. -/
def binaryExponent (x : ℚ) : Int := max (Int.log 2 x - 52) (-1074)

/-- The nearest binary number, the even one of two. -/
def nearestBinary (x : ℚ) : ℚ := halfEven (x / 2 ^ binaryExponent x) * 2 ^ binaryExponent x

@[simp] theorem nearestBinary_zero : nearestBinary 0 = 0 := by
  have h : halfEven 0 = 0 := by simpa using halfEven_natCast 0
  simp [nearestBinary, h]

/-- Of the two numbers of `n` decimal digits around a binary number those that are rounded to it, and the nearer one of both. -/
def candidate (v : ℚ) (n : Nat) : Option (Nat × Int) :=
  let q := Int.log 10 v + 1 - n
  let low := ⌊v / 10 ^ q⌋₊
  let rounds : Nat → Prop := fun c => nearestBinary (c * 10 ^ q) = v
  if rounds low ∧ (¬ rounds (low + 1) ∨ v - low * 10 ^ q ≤ (low + 1) * 10 ^ q - v) then some (low, q)
  else if rounds (low + 1) then some (low + 1, q)
  else none

theorem candidate_rounds {v : ℚ} {n : Nat} {p : Nat × Int} (h : candidate v n = some p) :
    nearestBinary (p.1 * 10 ^ p.2) = v := by
  unfold candidate at h
  dsimp only at h
  split_ifs at h with hlow hhigh
  · cases h
    exact hlow.1
  · cases h
    exact hhigh

/-- The shortest decimal number that is rounded to a binary one.  It has at most 17 digits, so that the number `p`,
which is rounded to it too, is never needed. -/
def shortest (v : ℚ) (p : Nat × Int) : Nat × Int := ((List.range 17).findSome? fun n => candidate v (n + 1)).getD p

theorem shortest_rounds {v : ℚ} {p : Nat × Int} (h : nearestBinary (p.1 * 10 ^ p.2) = v) :
    nearestBinary ((shortest v p).1 * 10 ^ (shortest v p).2) = v := by
  unfold shortest
  cases hfound : (List.range 17).findSome? fun n => candidate v (n + 1) with
  | none => exact h
  | some q =>
    obtain ⟨n, -, hn⟩ := List.exists_of_findSome?_eq_some hfound
    exact candidate_rounds hn

/-- A float. -/
inductive Float64 where
  | finite (d : Double)
  | inf (negative : Bool)
  | nan
deriving DecidableEq

/-- The float of a sign and a decimal number. -/
def readDecimal (negative : Bool) (c : Nat) (k : Int) : Float64 :=
  let v := nearestBinary (c * 10 ^ k)
  if v = 0 then .finite (Double.ofDecimal negative 0 0)
  else if 2 ^ 1024 ≤ v then .inf negative
  else .finite (Double.ofDecimal negative (shortest v (c, k)).1 (shortest v (c, k)).2)

/-- The digits are those of a float. -/
def Double.Genuine (d : Double) : Prop := ∃ c k, readDecimal d.negative c k = .finite d

/-- What has the value of the digits of a float is read as this float. -/
theorem readDecimal_of_magnitude {d : Double} (hd : d.Genuine) {c : Nat} {k : Int} (h : (c : ℚ) * 10 ^ k = d.magnitude) :
    readDecimal d.negative c k = .finite d := by
  obtain ⟨c₀, k₀, hread⟩ := hd
  generalize hneg : d.negative = negative at hread ⊢
  obtain ⟨v, hv⟩ : ∃ v, nearestBinary (c₀ * 10 ^ k₀) = v := ⟨_, rfl⟩
  unfold readDecimal at hread ⊢
  simp only [hv] at hread
  split_ifs at hread with h0 hinf
  · -- zero
    cases hread
    rw [Double.magnitude_ofDecimal, Nat.cast_zero, zero_mul] at h
    simp only [h, nearestBinary_zero, if_true]
  · cases hread
    have hrounds := shortest_rounds (p := (c₀, k₀)) hv
    rw [Double.magnitude_ofDecimal] at h
    have hv' : nearestBinary (c * 10 ^ k) = v := by rw [h, hrounds]
    simp only [hv', if_neg h0, if_neg hinf]
    -- the search is the same, and where it fails the two numbers are the same
    congr 1
    unfold shortest at h ⊢
    cases hfound : (List.range 17).findSome? fun n => candidate v (n + 1) with
    | none =>
      rw [hfound] at h
      exact Double.ofDecimal_congr negative h
    | some q => rfl

end Json
