import Mathlib.Data.Rat.Cast.Order
import Mathlib.Tactic.Linarith
import Mathlib.Tactic.FieldSimp
import SevenLens.Orders

/-! # Price collars

The bounds of a collar against the exact products of reference and offset.  The lower limit
is kept inside the range of prices and the upper one is not, so `PriceCollar.sound_iff` has a
bound on the raised reference. -/

namespace SevenLens
namespace PriceCollar

variable (c : PriceCollar)

/-- The reference raised by the offset, in cents. -/
def raised : ℚ := c.reference.cents * (1 + c.offsetBps / 10000)

/-- The reference lowered by the offset, in cents. -/
def lowered : ℚ := c.reference.cents * (1 - c.offsetBps / 10000)

theorem raised_le_iff (q : Nat) : c.raised ≤ q ↔ c.upperCents ≤ q := by
  have hscale : c.raised ≤ q ↔ c.reference.cents * (10000 + c.offsetBps) ≤ q * 10000 := by
    rw [← @Nat.cast_le ℚ, raised]
    push_cast
    constructor <;> intro h <;> linarith
  rw [hscale, upperCents]
  omega

theorem le_lowered_iff (q : Nat) : (q : ℚ) ≤ c.lowered ↔ q ≤ c.reference.cents * (10000 - c.offsetBps) / 10000 := by
  have hscale : (q : ℚ) ≤ c.lowered ↔ q * 10000 ≤ c.reference.cents * (10000 - c.offsetBps) := by
    rw [← @Nat.cast_le ℚ, lowered]
    have hbps := c.ok
    push_cast [Nat.cast_sub (show c.offsetBps ≤ 10000 by omega)]
    constructor <;> intro h <;> linarith
  rw [hscale, Nat.le_div_iff_mul_le (by decide)]

/-- The limits are prices, they are the nearest whole cents outside the offset, and the collar contains its
reference and its lower limit. -/
structure Sound : Prop where
  upper : ∃ upper, c.upperLimit = .ok upper ∧ c.reference.cents ≤ upper.cents ∧ IsLeast {q : ℕ | c.raised ≤ q} upper.cents
  lower_le : c.lowerLimit.cents ≤ c.reference.cents
  lower : IsGreatest {q : ℕ | q = 1 ∨ (q : ℚ) ≤ c.lowered} c.lowerLimit.cents
  contains_reference : c.contains c.reference = .ok true
  contains_lower : c.contains c.lowerLimit = .ok true

theorem reference_le_raised : (c.reference.cents : ℚ) ≤ c.raised := by
  have hbps : (0 : ℚ) ≤ c.offsetBps / 10000 := div_nonneg (Nat.cast_nonneg _) (by norm_num)
  have hcents : (0 : ℚ) ≤ c.reference.cents := Nat.cast_nonneg _
  exact le_mul_of_one_le_right hcents (by linarith)

theorem lowered_le_reference : c.lowered ≤ c.reference.cents := by
  have hbps : (0 : ℚ) ≤ c.offsetBps / 10000 := div_nonneg (Nat.cast_nonneg _) (by norm_num)
  have hcents : (0 : ℚ) ≤ c.reference.cents := Nat.cast_nonneg _
  exact mul_le_of_le_one_right hcents (by linarith)

theorem reference_le_upperCents : c.reference.cents ≤ c.upperCents := by
  rw [← @Nat.cast_le ℚ]
  exact c.reference_le_raised.trans ((c.raised_le_iff c.upperCents).mpr le_rfl)

theorem isLeast_upperCents : IsLeast {q : ℕ | c.raised ≤ q} c.upperCents :=
  ⟨(c.raised_le_iff _).mpr le_rfl, fun q hq => (c.raised_le_iff q).mp hq⟩

theorem isGreatest_lowerLimit : IsGreatest {q : ℕ | q = 1 ∨ (q : ℚ) ≤ c.lowered} c.lowerLimit.cents := by
  constructor
  · obtain hmax | hmax := max_choice (c.reference.cents * (10000 - c.offsetBps) / 10000) 1
    · exact Or.inr ((c.le_lowered_iff _).mpr (le_of_eq hmax))
    · exact Or.inl hmax
  · rintro q (rfl | hq)
    · exact le_max_right _ _
    · exact le_max_of_le_left ((c.le_lowered_iff q).mp hq)

theorem lowerLimit_le_reference : c.lowerLimit.cents ≤ c.reference.cents := by
  obtain hone | hlowered := c.isGreatest_lowerLimit.1
  · rw [hone]
    exact c.reference.ok.1
  · exact Nat.cast_le.mp (hlowered.trans c.lowered_le_reference)

/-- The upper limit is a price up to the largest one. -/
theorem upperLimit_eq (h : c.upperCents ≤ 1000000000) :
    c.upperLimit = .ok ⟨c.upperCents, c.reference.ok.1.trans c.reference_le_upperCents, h⟩ :=
  dif_pos ⟨c.reference.ok.1.trans c.reference_le_upperCents, h⟩

theorem contains_eq {price : Price} (hlower : c.lowerLimit.cents ≤ price.cents) (hupper : price.cents ≤ c.upperCents)
    (h : c.upperCents ≤ 1000000000) : c.contains price = .ok true := by
  rw [contains, if_pos hlower, c.upperLimit_eq h]
  exact congrArg Except.ok (decide_eq_true hupper)

/-- A collar does what it says exactly if the raised reference is not beyond the largest price. -/
theorem sound_iff (c : PriceCollar) : c.Sound ↔ c.raised ≤ 1000000000 := by
  have hbound := c.raised_le_iff 1000000000
  rw [Nat.cast_ofNat] at hbound
  rw [hbound]
  constructor
  · rintro ⟨⟨upper, hupper, -, hleast⟩, -, -, -, -⟩
    rw [← hleast.unique c.isLeast_upperCents]
    exact upper.ok.2
  · intro h
    have hreference := c.reference_le_upperCents
    have hlower := c.lowerLimit_le_reference
    exact {
      upper := ⟨_, c.upperLimit_eq h, hreference, c.isLeast_upperCents⟩
      lower_le := hlower
      lower := c.isGreatest_lowerLimit
      contains_reference := c.contains_eq hlower hreference h
      contains_lower := c.contains_eq le_rfl (hlower.trans hreference) h }

/-- The largest price is a reference whose collar raises on each question about it. -/
theorem largest_reference_raises : ¬ ∀ c : PriceCollar, c.Sound := by
  intro h
  obtain ⟨upper, hupper, -⟩ := (h ⟨⟨1000000000, by decide⟩, 500, by decide⟩).upper
  cases hupper

end PriceCollar
end SevenLens
