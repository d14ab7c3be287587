import SevenLens.Library.Decimal

/-! # Numbers of bounded length

A number fits `n` digits if it can be written with a coefficient of at most `n` digits, whatever
its exponent.  Away from the least exponent of a context these are the numbers it represents
(`representable_iff`).  Halving what a context has rounded gives the exact half only if nothing
was rounded (`round_half_round_iff`). -/

namespace Decimal

/-- The nonnegative number can be written with at most `n` digits. -/
def FitsDigits (n : Nat) (x : ℚ) : Prop := ∃ (m : Nat) (e : Int), m < 10 ^ n ∧ x = m * 10 ^ e

theorem FitsDigits.mono {n n' : Nat} {x : ℚ} (h : FitsDigits n x) (hn : n ≤ n') : FitsDigits n' x := by
  obtain ⟨m, e, hm, hx⟩ := h
  exact ⟨m, e, hm.trans_le (Nat.pow_le_pow_right (by norm_num) hn), hx⟩

/-- A coefficient that has one digit too many fits if it is the power of ten. -/
theorem fitsDigits_of_le {n m : Nat} {e : Int} (hn : 0 < n) (hm : m ≤ 10 ^ n) : FitsDigits n (m * 10 ^ e) := by
  rcases hm.lt_or_eq with hm | rfl
  · exact ⟨m, e, hm, rfl⟩
  · refine ⟨1, n + e, Nat.one_lt_pow hn.ne' (by norm_num), ?_⟩
    push_cast
    rw [one_mul, zpow_add₀ (by norm_num), zpow_natCast]

namespace Context

variable {c : Context} {x : ℚ}

/-- Away from the least exponent the last digit kept is the one that the precision leaves. -/
theorem quantum_eq (h : c.emin ≤ Int.log 10 x) : c.quantum x = Int.log 10 x + 1 - c.prec := by
  unfold quantum etiny
  omega

theorem le_log {k : Int} (hx : 0 < x) (h : (10 : ℚ) ^ k ≤ x) : k ≤ Int.log 10 x := by
  rw [← Int.zpow_le_iff_le_log (by norm_num) hx]
  exact_mod_cast h

/-- A number of as many digits as the context keeps is left alone. -/
theorem round_of_fits (hx : 0 < x) (he : c.emin ≤ Int.log 10 x) (h : FitsDigits c.prec x) : c.round x = x := by
  obtain ⟨m, e, hm, hxe⟩ := h
  have hlt : x < (10 : ℚ) ^ (c.prec + e : Int) := by
    rw [hxe, zpow_add₀ (by norm_num), zpow_natCast]
    exact mul_lt_mul_of_pos_right (by exact_mod_cast hm) (ten_zpow_pos e)
  have hlog : Int.log 10 x < c.prec + e := by
    rw [← Int.lt_zpow_iff_log_lt (by norm_num) hx]
    exact_mod_cast hlt
  obtain ⟨k, hk⟩ := exists_mul_zpow m (show c.quantum x ≤ e by rw [quantum_eq he]; omega)
  rw [round_of_nonneg hx.le]
  exact roundMagnitude_of_multiple (hxe.trans hk)

/-- Away from the least exponent a context represents the numbers that fit its precision. -/
theorem representable_iff (hx : 0 < x) (he : c.emin ≤ Int.log 10 x) : c.Representable x ↔ FitsDigits c.prec x := by
  refine ⟨fun h => ?_, round_of_fits hx he⟩
  have hround : c.roundMagnitude x = x := by rw [← round_of_nonneg hx.le]; exact h
  rw [← hround, roundMagnitude]
  exact fitsDigits_of_le c.prec_pos (halfEven_le_pow x)

/-- The half of a rounded number fits if the half of the number does. -/
theorem fits_half_round (hx : 0 < x) (he : c.emin ≤ Int.log 10 x) (h : FitsDigits c.prec (x / 2)) :
    FitsDigits c.prec (c.round x / 2) := by
  obtain ⟨m, e, hm, hxe⟩ := h
  have hxm : x = (2 * m : Nat) * 10 ^ e := by
    push_cast
    linarith
  have hprec := c.prec_pos
  by_cases hsmall : 2 * m < 10 ^ c.prec
  · rw [round_of_fits hx he ⟨2 * m, e, hsmall, hxm⟩]
    exact ⟨m, e, hm, hxe⟩
  · -- one digit is rounded off: what is left is a multiple of ten units
    have hp : (10 : ℚ) ^ (c.prec + e : Int) = (10 ^ c.prec : Nat) * 10 ^ e := by
      rw [zpow_add₀ (by norm_num), zpow_natCast]
      push_cast
      rfl
    have hge : (10 : ℚ) ^ (c.prec + e : Int) ≤ x := by
      rw [hp, hxm]
      exact mul_le_mul_of_nonneg_right (by exact_mod_cast not_lt.mp hsmall) (ten_zpow_pos e).le
    have hle : x ≤ 2 * (10 : ℚ) ^ (c.prec + e : Int) := by
      rw [hp, hxm, ← mul_assoc]
      exact mul_le_mul_of_nonneg_right (by exact_mod_cast Nat.mul_le_mul_left 2 hm.le) (ten_zpow_pos e).le
    have hlog : Int.log 10 x = c.prec + e := by
      refine le_antisymm (Int.lt_add_one_iff.mp ?_) (le_log hx hge)
      rw [← Int.lt_zpow_iff_log_lt (by norm_num) hx]
      have hten : (10 : ℚ) ^ (c.prec + e + 1 : Int) = 10 ^ (c.prec + e : Int) * 10 := zpow_add_one₀ (by norm_num) _
      have hpos := ten_zpow_pos (c.prec + e)
      push_cast
      linarith
    have hq : c.quantum x = e + 1 := by
      rw [quantum_eq he, hlog]
      ring
    have htop : 2 * (10 : ℚ) ^ (c.prec + e : Int) = (2 * 10 ^ (c.prec - 1) : Nat) * 10 ^ c.quantum x := by
      have hsplit : (10 : ℚ) ^ c.prec = 10 ^ (c.prec - 1) * 10 := by rw [← pow_succ, Nat.sub_add_cancel hprec]
      rw [hp, hq, zpow_add_one₀ (by norm_num)]
      push_cast
      rw [hsplit]
      ring
    obtain ⟨k, hk⟩ : ∃ k : Nat, c.round x = k * 10 ^ c.quantum x := ⟨_, round_of_nonneg hx.le⟩
    have hround : c.round x ≤ 2 * (10 : ℚ) ^ (c.prec + e : Int) := by
      rw [round_of_nonneg hx.le]
      exact roundMagnitude_le htop hle
    have hbound : k ≤ 2 * 10 ^ (c.prec - 1) := by
      rw [hk, htop, mul_le_mul_iff_of_pos_right (ten_zpow_pos _)] at hround
      exact_mod_cast hround
    have hfive : 5 * k ≤ 10 ^ c.prec := by
      have hsplit : 10 ^ c.prec = 10 ^ (c.prec - 1) * 10 := by rw [← pow_succ, Nat.sub_add_cancel hprec]
      omega
    have hhalf : c.round x / 2 = (5 * k : Nat) * 10 ^ e := by
      rw [hk, hq, zpow_add_one₀ (by norm_num)]
      push_cast
      ring
    rw [hhalf]
    exact fitsDigits_of_le hprec hfive

/-- Rounding a number and then its half gives the exact half only if neither loses a digit. -/
theorem round_half_round_iff (hx : (10 : ℚ) ^ (c.emin + 1) ≤ x) :
    c.round (c.round x / 2) = x / 2 ↔ FitsDigits c.prec x ∧ FitsDigits c.prec (x / 2) := by
  have hpow := ten_zpow_pos (c.emin + 1)
  have hpos : 0 < x := hpow.trans_le hx
  have hlog : c.emin ≤ Int.log 10 x := (Int.le_add_one le_rfl).trans (le_log hpos hx)
  have hhalf : ∀ y : ℚ, (10 : ℚ) ^ (c.emin + 1) ≤ y → 0 < y / 2 ∧ c.emin ≤ Int.log 10 (y / 2) := by
    intro y hy
    have hy0 : 0 < y / 2 := by linarith
    refine ⟨hy0, le_log hy0 ?_⟩
    have hten : (10 : ℚ) ^ (c.emin + 1) = 10 ^ c.emin * 10 := zpow_add_one₀ (by norm_num) _
    have := ten_zpow_pos c.emin
    linarith
  obtain ⟨hx2, hlog2⟩ := hhalf x hx
  constructor
  · intro h
    have hfits : FitsDigits c.prec (x / 2) := (representable_iff hx2 hlog2).mp (h ▸ representable_round _)
    refine ⟨?_, hfits⟩
    -- the power of ten below `x` is left alone, so that the rounded number is not too small
    have hround : (10 : ℚ) ^ (c.emin + 1) ≤ c.round x := by
      have hfix : c.round ((10 : ℚ) ^ (c.emin + 1)) = 10 ^ (c.emin + 1) := by
        refine round_of_fits hpow ((Int.le_add_one le_rfl).trans (le_log hpow le_rfl)) ⟨1, c.emin + 1, ?_, by simp⟩
        exact Nat.one_lt_pow c.prec_pos.ne' (by norm_num)
      exact hfix.symm.le.trans (round_mono hx)
    obtain ⟨hr2, hrlog⟩ := hhalf _ hround
    rw [round_of_fits hr2 hrlog (fits_half_round hpos hlog hfits)] at h
    have hexact : c.round x = x := by linarith
    exact (representable_iff hpos hlog).mp hexact
  · rintro ⟨hfits, hfits2⟩
    rw [round_of_fits hpos hlog hfits, round_of_fits hx2 hlog2 hfits2]

end Context

end Decimal
