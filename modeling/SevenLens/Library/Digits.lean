import Mathlib.Algebra.Order.Group.Nat
import Mathlib.Tactic.Ring

/-! # Numbers as digits

Texts of digits and the numbers they stand for.  A text of decimal digits is the text of a number
when it has no leading zero (`toDigits_ofDigitChars`) or, padded with zeros, when its width is the
one asked for (`padded_ofDigitChars`).  Hexadecimal texts have a fixed width. -/

namespace Nat

/-- A text of decimal digits. -/
def AllDigits (l : List Char) : Prop := ∀ c ∈ l, c.isDigit = true

instance (l : List Char) : Decidable (AllDigits l) := inferInstanceAs (Decidable (∀ c ∈ l, _))

theorem allDigits_cons {c : Char} {l : List Char} : AllDigits (c :: l) ↔ c.isDigit = true ∧ AllDigits l :=
  List.forall_mem_cons

theorem allDigits_toDigits (n : Nat) : AllDigits (toDigits 10 n) :=
  fun _ hc => isDigit_of_mem_toDigits (by decide) (by decide) hc

/-- The value of a digit, which determines it. -/
theorem digit_bounds {c : Char} (h : c.isDigit = true) : 48 ≤ c.toNat ∧ c.toNat ≤ 57 := by
  simp only [Char.isDigit, Bool.and_eq_true, decide_eq_true_eq, UInt32.le_iff_toNat_le, ge_iff_le] at h
  exact h

theorem ofDigitChars_cons_zero (c : Char) (l : List Char) :
    ofDigitChars 10 (c :: l) 0 = 10 ^ l.length * (c.toNat - 48) + ofDigitChars 10 l 0 := by
  rw [ofDigitChars_cons, ofDigitChars_eq_ofDigitChars_zero]
  simp

theorem ofDigitChars_lt {l : List Char} (h : AllDigits l) : ofDigitChars 10 l 0 < 10 ^ l.length := by
  induction l with
  | nil => simp
  | cons c l ih =>
    obtain ⟨hc, hl⟩ := allDigits_cons.mp h
    have hlt := ih hl
    have hdigit := digit_bounds hc
    have hle : 10 ^ l.length * (c.toNat - 48) ≤ 10 ^ l.length * 9 := Nat.mul_le_mul_left _ (by omega)
    rw [ofDigitChars_cons_zero, List.length_cons, pow_succ]
    omega

/-- Texts of the same width that stand for the same number are the same. -/
theorem eq_of_ofDigitChars {l m : List Char} (hl : AllDigits l) (hm : AllDigits m) (hlen : l.length = m.length)
    (h : ofDigitChars 10 l 0 = ofDigitChars 10 m 0) : l = m := by
  induction l generalizing m with
  | nil => exact (List.length_eq_zero_iff.mp hlen.symm).symm
  | cons c l ih =>
    cases m with
    | nil => cases hlen
    | cons d m =>
      obtain ⟨hc, hl⟩ := allDigits_cons.mp hl
      obtain ⟨hd, hm⟩ := allDigits_cons.mp hm
      have hlen : l.length = m.length := by simpa using hlen
      have hc := digit_bounds hc
      have hd := digit_bounds hd
      have hlowl := ofDigitChars_lt hl
      have hlowm := ofDigitChars_lt hm
      rw [ofDigitChars_cons_zero, ofDigitChars_cons_zero, hlen] at h
      rw [hlen] at hlowl
      -- the leading digit is the quotient and the rest the remainder of a division by the power
      have hquot : ∀ (a v : Nat), v < 10 ^ m.length → (10 ^ m.length * a + v) / 10 ^ m.length = a := by
        intro a v hv
        rw [Nat.mul_add_div (Nat.pow_pos (by decide)), Nat.div_eq_of_lt hv, Nat.add_zero]
      have hhead : c.toNat - 48 = d.toNat - 48 := by
        rw [← hquot (c.toNat - 48) _ hlowl, h, hquot _ _ hlowm]
      have hchar : c = d := Char.toNat_inj.mp (by omega)
      rw [hhead] at h
      rw [hchar, ih hl hm hlen (by omega)]

/-- A text without a leading zero is the text of its number. -/
theorem toDigits_ofDigitChars {l : List Char} (h : AllDigits l) (hlead : l = ['0'] ∨ ∃ c m, l = c :: m ∧ c ≠ '0') :
    toDigits 10 (ofDigitChars 10 l 0) = l := by
  obtain rfl | ⟨c, m, rfl, hc⟩ := hlead
  · decide
  obtain ⟨hdigit, hm⟩ := allDigits_cons.mp h
  have hbounds := digit_bounds hdigit
  have hne : c.toNat ≠ 48 := fun he => hc (Char.toNat_inj.mp he)
  have hlower : 10 ^ m.length ≤ ofDigitChars 10 (c :: m) 0 := by
    rw [ofDigitChars_cons_zero]
    have := Nat.mul_le_mul_left (10 ^ m.length) (show 1 ≤ c.toNat - 48 by omega)
    omega
  have hupper := ofDigitChars_lt h
  refine eq_of_ofDigitChars (allDigits_toDigits _) h ?_ ofDigitChars_ten_toDigits
  have hle := (length_toDigits_le_iff (by decide) (by simp)).mpr hupper
  have hge : ¬ (toDigits 10 (ofDigitChars 10 (c :: m) 0)).length ≤ m.length := by
    intro hshort
    rcases Nat.eq_zero_or_pos m.length with h0 | hpos
    · exact absurd (length_toDigits_pos (b := 10) (n := ofDigitChars 10 (c :: m) 0)) (by omega)
    · exact absurd ((length_toDigits_le_iff (by decide) hpos).mp hshort) (by omega)
  rw [List.length_cons] at hle ⊢
  omega

/-! ### Padded numbers -/

/-- The digits of a number, with zeros before them up to a width. -/
def padded (w n : Nat) : List Char := List.replicate (w - (toDigits 10 n).length) '0' ++ toDigits 10 n

theorem allDigits_padded (w n : Nat) : AllDigits (padded w n) := by
  intro c hc
  rcases List.mem_append.mp hc with hc | hc
  · rw [List.eq_of_mem_replicate hc]
    rfl
  · exact allDigits_toDigits n c hc

@[simp] theorem ofDigitChars_padded (w n : Nat) : ofDigitChars 10 (padded w n) 0 = n := by
  rw [padded, ofDigitChars_append, ofDigitChars_replicate_zero, Nat.mul_zero, ofDigitChars_ten_toDigits]

theorem length_padded {w n : Nat} (hw : 0 < w) (h : n < 10 ^ w) : (padded w n).length = w := by
  have hle := (length_toDigits_le_iff (by decide) hw).mpr h
  rw [padded, List.length_append, List.length_replicate]
  omega

/-- A text of digits is the padded text of its number. -/
theorem padded_ofDigitChars {l : List Char} (h : AllDigits l) (hne : l ≠ []) :
    padded l.length (ofDigitChars 10 l 0) = l :=
  eq_of_ofDigitChars (allDigits_padded _ _) h (length_padded (List.length_pos_iff.mpr hne) (ofDigitChars_lt h))
    (ofDigitChars_padded _ _)

/-! ### Hexadecimal numbers -/

/-- The value of a hexadecimal digit of either case. -/
def hexCharValue (c : Char) : Option Nat :=
  if '0' ≤ c ∧ c ≤ '9' then some (c.toNat - 48)
  else if 'a' ≤ c ∧ c ≤ 'f' then some (c.toNat - 87)
  else if 'A' ≤ c ∧ c ≤ 'F' then some (c.toNat - 55)
  else none

/-- The last `w` hexadecimal digits of a number. -/
def hexPadded : Nat → Nat → List Char
  | 0, _ => []
  | w + 1, n => hexPadded w (n / 16) ++ [digitChar (n % 16)]

/-- The number of a hexadecimal text. -/
def ofHexChars (l : List Char) : Option Nat := l.foldlM (fun n c => (hexCharValue c).map (16 * n + ·)) 0

theorem hexCharValue_digitChar {n : Nat} (h : n < 16) : hexCharValue (digitChar n) = some n := by
  revert n
  decide

@[simp] theorem length_hexPadded (w n : Nat) : (hexPadded w n).length = w := by
  induction w generalizing n with
  | zero => rfl
  | succ w ih => rw [hexPadded, List.length_append, ih, List.length_singleton]

theorem ofHexChars_hexPadded (w n : Nat) : ofHexChars (hexPadded w n) = some (n % 16 ^ w) := by
  induction w generalizing n with
  | zero => simp [hexPadded, ofHexChars, Nat.mod_one]
  | succ w ih =>
    have hrest := ih (n / 16)
    rw [ofHexChars] at hrest
    rw [hexPadded, ofHexChars, List.foldlM_append, hrest]
    have hmod : n % 16 ^ (w + 1) = 16 * (n / 16 % 16 ^ w) + n % 16 := by
      rw [pow_succ, mul_comm (16 ^ w), Nat.mod_mul]
      ring
    simp [hexCharValue_digitChar (Nat.mod_lt n (by decide)), hmod]

/-- A hexadecimal text of a digit is one of the sixteen. -/
theorem mem_hexPadded {w n : Nat} {c : Char} (h : c ∈ hexPadded w n) : ∃ d < 16, c = digitChar d := by
  induction w generalizing n with
  | zero => cases h
  | succ w ih =>
    rcases List.mem_append.mp h with h | h
    · exact ih h
    · exact ⟨n % 16, Nat.mod_lt n (by decide), List.mem_singleton.mp h⟩

end Nat
