import Mathlib.Analysis.Real.Sqrt
import Mathlib.Algebra.BigOperators.Group.List.Basic

/-! # Correlation of paired observations

The coefficient of Pearson of a list of pairs of rationals is a real number, since its
denominator is a square root.  A threshold on it is decided over the rationals
(`le_pearson_iff`).  The variation of a list vanishes exactly for a constant list
(`var_eq_zero_iff`). -/

namespace Correlation

def mean (l : List ℚ) : ℚ := l.sum / l.length

/-- The sum of the squared deviations from the mean. -/
def var (l : List ℚ) : ℚ := (l.map (fun a => (a - mean l) ^ 2)).sum

/-- The sum of the products of the deviations from the means. -/
def cov (l m : List ℚ) : ℚ := ((l.zip m).map (fun p => (p.1 - mean l) * (p.2 - mean m))).sum

/-- The coefficient of Pearson. -/
noncomputable def pearson (l m : List ℚ) : ℝ := cov l m / √((var l * var m : ℚ) : ℝ)

theorem var_nonneg (l : List ℚ) : 0 ≤ var l := by
  refine List.sum_nonneg fun x hx => ?_
  obtain ⟨a, -, rfl⟩ := List.mem_map.mp hx
  exact sq_nonneg _

theorem sum_eq_of_const {l : List ℚ} {c : ℚ} (h : ∀ a ∈ l, a = c) : l.sum = l.length * c := by
  rw [List.eq_replicate_iff.mpr ⟨rfl, h⟩, List.sum_replicate, List.length_replicate, nsmul_eq_mul]

theorem var_eq_zero_iff {l : List ℚ} : var l = 0 ↔ ∀ a ∈ l, ∀ b ∈ l, a = b := by
  constructor
  · intro h
    have hzero : ∀ a ∈ l, a = mean l := by
      intro a ha
      have hle : (a - mean l) ^ 2 ≤ var l := by
        refine List.single_le_sum (fun x hx => ?_) _ (List.mem_map_of_mem ha)
        obtain ⟨b, -, rfl⟩ := List.mem_map.mp hx
        exact sq_nonneg _
      have hsq : (a - mean l) ^ 2 = 0 := le_antisymm (h ▸ hle) (sq_nonneg _)
      exact sub_eq_zero.mp (pow_eq_zero_iff two_ne_zero |>.mp hsq)
    intro a ha b hb
    rw [hzero a ha, hzero b hb]
  · intro h
    refine List.sum_eq_zero fun x hx => ?_
    obtain ⟨a, ha, rfl⟩ := List.mem_map.mp hx
    have hlength : (l.length : ℚ) ≠ 0 := Nat.cast_ne_zero.mpr (List.length_pos_of_mem ha).ne'
    have hmean : mean l = a := by
      rw [mean, sum_eq_of_const (fun b hb => h b hb a ha), mul_div_cancel_left₀ _ hlength]
    rw [hmean, sub_self, zero_pow two_ne_zero]

theorem var_pos_iff {l : List ℚ} : 0 < var l ↔ ∃ a ∈ l, ∃ b ∈ l, a ≠ b := by
  rw [lt_iff_le_and_ne, and_iff_right (var_nonneg l), ne_comm, ne_eq, var_eq_zero_iff]
  push Not
  rfl

theorem cov_comm (l m : List ℚ) : cov l m = cov m l := by
  rw [cov, cov, ← List.zip_swap, List.map_map]
  refine congrArg List.sum (List.map_congr_left fun p _ => ?_)
  exact mul_comm _ _

theorem pearson_comm (l m : List ℚ) : pearson l m = pearson m l := by
  rw [pearson, pearson, cov_comm, mul_comm]

/-- A threshold without the square root. -/
theorem le_pearson_iff {l m : List ℚ} {t : ℚ} (ht : 0 ≤ t) (hl : 0 < var l) (hm : 0 < var m) :
    (t : ℝ) ≤ pearson l m ↔ 0 ≤ cov l m ∧ t * t * var l * var m ≤ cov l m * cov l m := by
  have hpos : (0 : ℝ) < ((var l * var m : ℚ) : ℝ) := by exact_mod_cast mul_pos hl hm
  have hroot : (t : ℝ) * √((var l * var m : ℚ) : ℝ) = √((t ^ 2 * (var l * var m) : ℚ) : ℝ) := by
    push_cast
    rw [Real.sqrt_mul (sq_nonneg _), Real.sqrt_sq (by exact_mod_cast ht)]
  rw [pearson, le_div_iff₀ (Real.sqrt_pos.mpr hpos), hroot, Real.sqrt_le_iff]
  norm_cast
  rw [sq, sq, mul_assoc (t * t)]

end Correlation
