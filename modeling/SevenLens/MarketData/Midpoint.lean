import SevenLens.Library.DecimalDigits
import SevenLens.MarketData.Spread
import SevenLens.Securities.Contracts

/-! # The midpoint of a quote

`_mid_exact` adds the two prices and halves the sum in a context of its own.  The precision of
that context is the one of the caller or two digits more than the longer coefficient, whichever
is greater.  Two digits are enough where the prices have one exponent.  Where they have not, the
sum is longer than both by what lies between the exponents, and is rounded unless the caller's
precision makes up for it (`mid_exact_iff`); 22 digits are enough for any quote
(`fits_of_precision`). -/

namespace SevenLens.MarketData

/-- A context of the caller: the precision is free, the range of exponents is the default one. -/
def callerContext (prec : Nat) (h : 0 < prec) : Decimal.Context := ⟨prec, -999999, 999999, h⟩

/-- `len(value.as_tuple().digits)` -/
def digitCount (d : Decimal) : Nat := (Nat.toDigits 10 d.coefficient).length

/-- The precision at which a midpoint is computed. -/
def midPrecision (prec : Nat) (bid ask : Decimal) : Nat := max prec (max (digitCount bid) (digitCount ask) + 2)

/-- `_mid_exact` in a context of the caller. -/
def midExact (c : Decimal.Context) (bid ask : Decimal) : Except Decimal.Signal Decimal := do
  let context : Decimal.Context :=
    { c with prec := midPrecision c.prec bid ask, prec_pos := c.prec_pos.trans_le (le_max_left _ _) }
  let total ← context.add bid ask
  context.div total (Decimal.ofNat 2)

/-- The midpoint is what lies in the middle of the two prices. -/
def MidIsExact (c : Decimal.Context) (q : QuotePrices) : Prop :=
  ∃ mid, midExact c q.bid.decimal q.ask.decimal = .ok mid ∧ mid.value = q.total / 2

/-- The sum of the prices and its half have no more digits than the working precision. -/
def MidFits (prec : Nat) (q : QuotePrices) : Prop :=
  Decimal.FitsDigits (midPrecision prec q.bid.decimal q.ask.decimal) q.total ∧
    Decimal.FitsDigits (midPrecision prec q.bid.decimal q.ask.decimal) (q.total / 2)

/-! ### The size of a quote -/

theorem QuotePrice.unit_le (p : QuotePrice) : (10 : ℚ) ^ (-8 : Int) ≤ p.decimal.value := by
  have hexp : (10 : ℚ) ^ (-8 : Int) ≤ 10 ^ p.decimal.exponent := zpow_le_zpow_right₀ (by norm_num) p.fractional.1
  have hone : (1 : ℚ) ≤ p.decimal.coefficient := by exact_mod_cast p.positive.2
  have hvalue : p.decimal.value = p.decimal.coefficient * 10 ^ p.decimal.exponent := by
    simp [Decimal.value, Decimal.magnitude, p.positive.1]
  rw [hvalue]
  calc (10 : ℚ) ^ (-8 : Int) ≤ 1 * 10 ^ p.decimal.exponent := by rwa [one_mul]
    _ ≤ p.decimal.coefficient * 10 ^ p.decimal.exponent :=
      mul_le_mul_of_nonneg_right hone (Decimal.ten_zpow_pos _).le

namespace QuotePrices

variable (q : QuotePrices)

theorem unit_le_total : (10 : ℚ) ^ (-8 : Int) ≤ q.total :=
  q.bid.unit_le.trans (le_add_of_nonneg_right q.ask.value_pos.le)

theorem total_lt : q.total < 2 * 10 ^ 12 := by
  have hb := q.bid.integral
  have ha := q.ask.integral
  unfold total
  linarith

/-- The sum of two prices is a number of units of the last place of the grammar. -/
theorem exists_units : ∃ k : Nat, q.total = k * 10 ^ (-8 : Int) := by
  have hprice : ∀ p : QuotePrice, ∃ k : Nat, p.decimal.value = k * 10 ^ (-8 : Int) := by
    intro p
    obtain ⟨k, hk⟩ := Decimal.exists_mul_zpow p.decimal.coefficient p.fractional.1
    refine ⟨k, ?_⟩
    rw [← hk]
    simp [Decimal.value, Decimal.magnitude, p.positive.1]
  obtain ⟨b, hb⟩ := hprice q.bid
  obtain ⟨a, ha⟩ := hprice q.ask
  refine ⟨b + a, ?_⟩
  rw [total, hb, ha]
  push_cast
  ring

end QuotePrices

/-- Below the largest exponent a number that fits is delivered as it is. -/
theorem exact_of_fits {c : Decimal.Context} {x : ℚ} (hx : 0 < x) (he : c.emin ≤ Int.log 10 x)
    (hfits : Decimal.FitsDigits c.prec x) (htop : x < 10 ^ (c.emax + 1)) : c.Exact x :=
  ⟨Decimal.Context.round_of_fits hx he hfits, by rwa [abs_of_pos hx]⟩

/-! ### Exactness -/

/-- The midpoint is exact for exactly the quotes whose sum and its half fit the working precision. -/
theorem mid_exact_iff (prec : Nat) (h : 0 < prec) (q : QuotePrices) :
    MidIsExact (callerContext prec h) q ↔ MidFits prec q := by
  obtain ⟨c, hc⟩ : ∃ c : Decimal.Context, c = { callerContext prec h with
      prec := midPrecision prec q.bid.decimal q.ask.decimal, prec_pos := h.trans_le (le_max_left _ _) } := ⟨_, rfl⟩
  have hprec : c.prec = midPrecision prec q.bid.decimal q.ask.decimal := by rw [hc]
  have hmin : c.emin = -999999 := by rw [hc]; rfl
  have hmax : c.emax = 999999 := by rw [hc]; rfl
  have hmid : midExact (callerContext prec h) q.bid.decimal q.ask.decimal = (do
      let total ← c.add q.bid.decimal q.ask.decimal
      c.div total (Decimal.ofNat 2)) := by rw [hc]; rfl
  have hpos := q.total_pos
  have hunit := q.unit_le_total
  have hlow : (10 : ℚ) ^ (c.emin + 1) ≤ q.total :=
    (zpow_le_zpow_right₀ (by norm_num) (by rw [hmin]; norm_num)).trans hunit
  rw [MidIsExact, hmid, MidFits, ← hprec, ← Decimal.Context.round_half_round_iff hlow]
  constructor
  · rintro ⟨mid, hok, hvalue⟩
    obtain ⟨total, hadd, hdiv⟩ := Securities.bind_ok.mp hok
    rw [Decimal.value_of_div hdiv, Decimal.value_of_add hadd, Decimal.value_ofNat] at hvalue
    exact_mod_cast hvalue
  · intro hround
    obtain ⟨hfits, hfits2⟩ := (Decimal.Context.round_half_round_iff hlow).mp hround
    have htop : (2 : ℚ) * 10 ^ 12 ≤ 10 ^ (c.emax + 1) := by
      calc (2 : ℚ) * 10 ^ 12 ≤ 10 ^ (13 : Int) := by norm_num
        _ ≤ 10 ^ (c.emax + 1) := zpow_le_zpow_right₀ (by norm_num) (by rw [hmax]; norm_num)
    have hlt := q.total_lt
    have hlog : c.emin ≤ Int.log 10 q.total ∧ c.emin ≤ Int.log 10 (q.total / 2) := by
      have h9 : (10 : ℚ) ^ (-9 : Int) ≤ q.total / 2 := by
        calc (10 : ℚ) ^ (-9 : Int) ≤ 10 ^ (-8 : Int) / 2 := by norm_num
          _ ≤ q.total / 2 := div_le_div_of_nonneg_right hunit (by norm_num)
      have h1 := Decimal.Context.le_log hpos hunit
      have h2 := Decimal.Context.le_log (half_pos hpos) h9
      omega
    obtain ⟨total, hadd, htotal⟩ := Decimal.add_exact (c := c) (a := q.bid.decimal) (b := q.ask.decimal)
      (exact_of_fits hpos hlog.1 hfits (hlt.trans_le htop))
    have htotal : total.value = q.total := htotal
    obtain ⟨mid, hdiv, hmidvalue⟩ := Decimal.div_exact (c := c) (a := total) (b := Decimal.ofNat 2) (by simp) (by
      rw [Decimal.value_ofNat, htotal]
      exact exact_of_fits (half_pos hpos) hlog.2 hfits2 ((half_lt_self hpos).trans (hlt.trans_le htop)))
    refine ⟨mid, Securities.bind_ok.mpr ⟨total, hadd, hdiv⟩, ?_⟩
    rw [hmidvalue, htotal, Decimal.value_ofNat]
    norm_num

/-- Where both midpoints are exact, what one context has stored passes the check that another one makes. -/
theorem MidIsExact.verified {c c' : Decimal.Context} {q : QuotePrices} {mid expected : Decimal} (h : MidIsExact c q)
    (h' : MidIsExact c' q) (hmid : midExact c q.bid.decimal q.ask.decimal = .ok mid)
    (hexpected : midExact c' q.bid.decimal q.ask.decimal = .ok expected) : mid.equals expected = true := by
  obtain ⟨m, hm, hvalue⟩ := h
  obtain ⟨m', hm', hvalue'⟩ := h'
  cases hm.symm.trans hmid
  cases hm'.symm.trans hexpected
  rw [Decimal.equals_iff, hvalue, hvalue']

/-- At 22 digits every quote fits. -/
theorem fits_of_precision {prec : Nat} (h : 22 ≤ prec) (q : QuotePrices) : MidFits prec q := by
  obtain ⟨k, hk⟩ := q.exists_units
  have hlt : k < 2 * 10 ^ 20 := by
    have hq := q.total_lt
    rw [hk, zpow_neg, ← div_eq_mul_inv, div_lt_iff₀ (by positivity)] at hq
    have hq : (k : ℚ) < 2 * 10 ^ 20 := hq.trans_eq (by norm_num)
    exact_mod_cast hq
  have hprec : 22 ≤ midPrecision prec q.bid.decimal q.ask.decimal := h.trans (le_max_left _ _)
  refine ⟨Decimal.FitsDigits.mono ⟨k, -8, hlt.trans (by norm_num), hk⟩ hprec,
    Decimal.FitsDigits.mono ⟨5 * k, -9, by omega, ?_⟩ hprec⟩
  rw [hk, show (-8 : Int) = -9 + 1 by norm_num, zpow_add_one₀ (by norm_num)]
  push_cast
  ring

/-- The quote 0.00000001 / 999999999999. -/
def spreadOutQuote : QuotePrices where
  bid := ⟨⟨false, 1, -8⟩, by decide, by decide, by decide +kernel⟩
  ask := ⟨⟨false, 999999999999, 0⟩, by decide, by decide, by decide +kernel⟩
  ordered := by decide +kernel

/-- At ten digits of the caller the smaller price is lost. -/
theorem not_mid_exact_spreadOut : ¬ ∀ (prec : Nat) (h : 0 < prec) (q : QuotePrices), MidIsExact (callerContext prec h) q := by
  intro hall
  obtain ⟨mid, hok, hvalue⟩ := hall 10 (by decide) spreadOutQuote
  have hmid : midExact (callerContext 10 (by decide)) spreadOutQuote.bid.decimal spreadOutQuote.ask.decimal =
    .ok ⟨false, 49999999999950, -2⟩ := by decide +kernel
  rw [hmid, Except.ok.injEq] at hok
  subst hok
  exact absurd hvalue (by decide +kernel)

/-- At the default precision the same quote has its midpoint. -/
theorem mid_exact_spreadOut : MidIsExact (callerContext 28 (by decide)) spreadOutQuote :=
  (mid_exact_iff 28 (by decide) spreadOutQuote).mpr (fits_of_precision (by decide) spreadOutQuote)

end SevenLens.MarketData
