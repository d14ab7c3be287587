import SevenLens.Library.Rank
import Mathlib.Data.Rat.Floor
import Mathlib.Tactic.Linarith

/-! # Order statistics and midranks

The midrank of a value in a list is the middle of the places it may have when the list is sorted,
scaled to the unit interval (`midrank_nonneg`, `midrank_le_one`).  It grows with the value
(`midrank_mono`) and does not depend on the order of the list (`midrank_perm`).  Winsorizing clamps a
value between two order statistics. -/

namespace List

/-- The `k`-th smallest entry, counted from 1. -/
def orderStatistic (l : List ℚ) (k : Nat) : ℚ := (l.sortOn id).getD (k - 1) 0

/-- A value clamped between the order statistics that a part `p` and a part `q` of the list reach. -/
def winsorized (p q : ℚ) (l : List ℚ) (x : ℚ) : ℚ :=
  min (max x (l.orderStatistic ⌈p * l.length⌉₊)) (l.orderStatistic ⌈q * l.length⌉₊)

/-- The middle of the places of a value, over twice the last place. -/
def midrank (l : List ℚ) (x : ℚ) : ℚ :=
  ((l.countP (· < x) : ℚ) + l.countP (· ≤ x) - 1) / (2 * (l.length - 1))

section

variable {l m : List ℚ}

theorem orderStatistic_perm (h : l.Perm m) (k : Nat) : l.orderStatistic k = m.orderStatistic k := by
  have hsorted : l.sortOn id = m.sortOn id := by
    refine ((sortOn_perm id l).trans (h.trans (sortOn_perm id m).symm)).eq_of_pairwise (fun a b _ _ => le_antisymm) ?_ ?_
    · exact pairwise_sortOn id l
    · exact pairwise_sortOn id m
  rw [orderStatistic, hsorted, orderStatistic]

theorem winsorized_perm (h : l.Perm m) (p q x : ℚ) : l.winsorized p q x = m.winsorized p q x := by
  rw [winsorized, winsorized, h.length_eq, orderStatistic_perm h, orderStatistic_perm h]

theorem winsorized_mono (p q : ℚ) (l : List ℚ) {x y : ℚ} (h : x ≤ y) : l.winsorized p q x ≤ l.winsorized p q y :=
  min_le_min_right _ (max_le_max_right _ h)

theorem midrank_perm (h : l.Perm m) (x : ℚ) : l.midrank x = m.midrank x := by
  rw [midrank, midrank, h.length_eq, h.countP_eq, h.countP_eq]

/-- A value of the list is not below itself, and not above itself. -/
theorem counts_of_mem {x : ℚ} (h : x ∈ l) : l.countP (· < x) + 1 ≤ l.length ∧ 1 ≤ l.countP (· ≤ x) := by
  constructor
  · have hsplit := length_eq_countP_add_countP (· < x) (l := l)
    have hpos : 0 < l.countP (fun a => ¬ (decide (a < x) = true)) := countP_pos_iff.mpr ⟨x, h, by simp⟩
    omega
  · exact countP_pos_iff.mpr ⟨x, h, by simp⟩

theorem midrank_nonneg {x : ℚ} (h : x ∈ l) : 0 ≤ l.midrank x := by
  obtain ⟨hbelow, hupto⟩ := counts_of_mem h
  have h1 : (1 : ℚ) ≤ l.countP (· ≤ x) := by exact_mod_cast hupto
  have h2 : (0 : ℚ) ≤ l.countP (· < x) := Nat.cast_nonneg _
  have h3 : (l.countP (· < x) : ℚ) + 1 ≤ l.length := by exact_mod_cast hbelow
  exact div_nonneg (by linarith) (by linarith)

theorem midrank_le_one {x : ℚ} (h : x ∈ l) : l.midrank x ≤ 1 := by
  obtain ⟨hbelow, -⟩ := counts_of_mem h
  have h1 : (l.countP (· < x) : ℚ) + 1 ≤ l.length := by exact_mod_cast hbelow
  have h2 : (l.countP (· ≤ x) : ℚ) ≤ l.length := by exact_mod_cast countP_le_length
  have h3 : (0 : ℚ) ≤ l.countP (· < x) := Nat.cast_nonneg _
  exact div_le_one_of_le₀ (by linarith) (by linarith)

theorem midrank_mono {x y : ℚ} (h : x ≤ y) (hne : l ≠ []) : l.midrank x ≤ l.midrank y := by
  have hlength : (1 : ℚ) ≤ l.length := by exact_mod_cast length_pos_iff.mpr hne
  have h1 : (l.countP (· < x) : ℚ) ≤ l.countP (· < y) := by exact_mod_cast countP_lt_mono l h
  have h2 : (l.countP (· ≤ x) : ℚ) ≤ l.countP (· ≤ y) := by exact_mod_cast countP_le_mono l h
  exact div_le_div_of_nonneg_right (by linarith) (by linarith)

end

/-- A part of `p` percent of `n` entries, rounded up. -/
theorem ceil_percent (p n : Nat) : ⌈(p / 100 : ℚ) * n⌉₊ = (p * n + 99) / 100 := by
  have hvalue : (p / 100 : ℚ) * n = (p * n : Nat) / 100 := by
    push_cast
    ring
  rw [hvalue]
  refine le_antisymm (Nat.ceil_le.mpr ?_) ?_
  · rw [div_le_iff₀ (by norm_num)]
    have : p * n ≤ (p * n + 99) / 100 * 100 := by omega
    exact_mod_cast this
  · have hle : ((p * n : Nat) : ℚ) ≤ ⌈((p * n : Nat) : ℚ) / 100⌉₊ * 100 := by
      rw [← div_le_iff₀ (by norm_num)]
      exact Nat.le_ceil _
    have : p * n ≤ ⌈((p * n : Nat) : ℚ) / 100⌉₊ * 100 := by exact_mod_cast hle
    omega

end List
