import SevenLens.Library.Decimal

/-! # The spread gate of a market snapshot

A quote is too wide when its spread exceeds 30 basis points of the midpoint.  The inequality
is evaluated three times: over exact fractions when the snapshot is assembled, by
cross-multiplied products when the scalar fields of the wire are checked, and by a quotient
when the wire is appended.  Sums, differences and products of SQL numbers are exact; a quotient
is rounded, to a number of digits that the server chooses.

`spread_agrees_iff` says for which quotes the three agree: those whose exact quotient is not
above the limit by less than half a unit of the last digit the server keeps. -/

namespace SevenLens.MarketData

/-! ### Quotes -/

/-- A price of the quote grammar: at most twelve integer and eight fractional digits. -/
structure QuotePrice where
  decimal : Decimal
  positive : decimal.negative = false ∧ 0 < decimal.coefficient
  fractional : -8 ≤ decimal.exponent ∧ decimal.exponent ≤ 0
  integral : decimal.value < 10 ^ 12

/-- The two prices of a quote. -/
structure QuotePrices where
  bid : QuotePrice
  ask : QuotePrice
  ordered : bid.decimal.value ≤ ask.decimal.value

theorem QuotePrice.value_pos (p : QuotePrice) : 0 < p.decimal.value := by
  have hm : 0 < p.decimal.magnitude :=
    mul_pos (by exact_mod_cast p.positive.2) (Decimal.ten_zpow_pos _)
  simpa [Decimal.value, p.positive.1] using hm

namespace QuotePrices

variable (q : QuotePrices)

/-- `ask - bid` -/
def width : ℚ := q.ask.decimal.value - q.bid.decimal.value

/-- `bid + ask` -/
def total : ℚ := q.bid.decimal.value + q.ask.decimal.value

theorem width_nonneg : 0 ≤ q.width := sub_nonneg.mpr q.ordered

theorem total_pos : 0 < q.total := add_pos q.bid.value_pos q.ask.value_pos

theorem width_le_total : q.width ≤ q.total := by
  have := q.bid.value_pos
  unfold width total
  linarith

end QuotePrices

/-! ### The assembler -/

def maxSpreadBps : Nat := 30

/-- `_spread_exact`: the floor of the spread in basis points, and whether the exact spread
exceeds the limit. -/
def spreadExact (bid ask : Decimal) : Int × Bool :=
  let numerator := (ask.value - bid.value) * 20000
  let denominator := bid.value + ask.value
  (⌊numerator / denominator⌋, decide (maxSpreadBps * denominator < numerator))

/-! ### The database -/

/-- A value of the SQL type `numeric` with the number of fraction digits it carries. -/
structure Numeric where
  value : ℚ
  scale : Nat

namespace Numeric

/-- `text::numeric` for the text of a decimal number. -/
def ofDecimal (d : Decimal) : Numeric := ⟨d.value, (-d.exponent).toNat⟩

def ofNat (n : Nat) : Numeric := ⟨n, 0⟩

def add (a b : Numeric) : Numeric := ⟨a.value + b.value, max a.scale b.scale⟩

def sub (a b : Numeric) : Numeric := ⟨a.value - b.value, max a.scale b.scale⟩

def mul (a b : Numeric) : Numeric := ⟨a.value * b.value, a.scale + b.scale⟩

end Numeric

/-- The nearest multiple of `10 ^ -scale`, away from zero in the middle of two. -/
def roundAt (scale : Int) (x : ℚ) : ℚ :=
  if x < 0 then -(⌊-x * 10 ^ scale + 1 / 2⌋ / 10 ^ scale) else ⌊x * 10 ^ scale + 1 / 2⌋ / 10 ^ scale

/-- How many significant digits the server keeps of a quotient, given its operands. -/
structure Division where
  digits : Numeric → Numeric → Nat
  sixteen : ∀ a b, 16 ≤ digits a b

/-- The quotient of two SQL numbers. -/
def Division.div (v : Division) (a b : Numeric) : Numeric :=
  let x := a.value / b.value
  let scale : Int := v.digits a b - 1 - Int.log 10 |x|
  ⟨roundAt scale x, scale.toNat⟩

/-- The check of the scalar fields: `spread_bps` is the floor of the spread, by exact products. -/
def scalarCheck (bid ask : Decimal) (spreadBps : Int) : Bool :=
  let b := Numeric.ofDecimal bid
  let a := Numeric.ofDecimal ask
  let doubled := ((a.sub b).mul (.ofNat 20000)).value
  decide (spreadBps * (b.add a).value ≤ doubled ∧ doubled < (spreadBps + 1) * (b.add a).value)

/-- `(ask - bid) * 10000 / (bid + ask) * 2` -/
def spreadQuotient (v : Division) (bid ask : Decimal) : Numeric :=
  let b := Numeric.ofDecimal bid
  let a := Numeric.ofDecimal ask
  (v.div ((a.sub b).mul (.ofNat 10000)) (b.add a)).mul (.ofNat 2)

/-- The check of the appended wire: the reason `SPREAD_TOO_WIDE` is there exactly when the
quotient exceeds 30. -/
def appendCheck (v : Division) (bid ask : Decimal) (tooWide : Bool) : Bool :=
  let x := (spreadQuotient v bid ask).value
  !(decide (30 < x) && !tooWide) && !(decide (x ≤ 30) && tooWide)

/-! ### Agreement -/

/-- The significant digits kept of the quotient of a quote. -/
def Division.digitsOf (v : Division) (q : QuotePrices) : Nat :=
  let b := Numeric.ofDecimal q.bid.decimal
  let a := Numeric.ofDecimal q.ask.decimal
  v.digits ((a.sub b).mul (.ofNat 10000)) (b.add a)

/-- Both checks of the database accept what the assembler derives from the quote, and
nothing else. -/
def SpreadAgrees (v : Division) (q : QuotePrices) : Prop :=
  (∀ bps, scalarCheck q.bid.decimal q.ask.decimal bps = true ↔
      bps = (spreadExact q.bid.decimal q.ask.decimal).1) ∧
    ∀ tooWide, appendCheck v q.bid.decimal q.ask.decimal tooWide = true ↔
      tooWide = (spreadExact q.bid.decimal q.ask.decimal).2

/-- The spread is within the limit, or beyond it by at least half a unit of the last of the
digits kept: `10000 * width / total` has two integer digits where it is close to 15. -/
def ClearOfLimit (v : Division) (q : QuotePrices) : Prop :=
  10000 * q.width ≤ 15 * q.total ∨
    q.total ≤ 2 * 10 ^ (v.digitsOf q - 2) * (10000 * q.width - 15 * q.total)

instance (v : Division) (q : QuotePrices) : Decidable (ClearOfLimit v q) :=
  inferInstanceAs (Decidable (_ ∨ _))

/-- The scalar check pins the floor exactly. -/
theorem scalarCheck_iff (q : QuotePrices) (bps : Int) :
    scalarCheck q.bid.decimal q.ask.decimal bps = true ↔
      bps = (spreadExact q.bid.decimal q.ask.decimal).1 := by
  have hpos := q.total_pos
  have hfloor : bps = ⌊q.width * 20000 / q.total⌋ ↔
      (bps : ℚ) ≤ q.width * 20000 / q.total ∧ q.width * 20000 / q.total < bps + 1 := by
    rw [eq_comm, Int.floor_eq_iff]
  rw [le_div_iff₀ hpos, div_lt_iff₀ hpos] at hfloor
  simpa [scalarCheck, spreadExact, Numeric.ofDecimal, Numeric.ofNat, Numeric.add, Numeric.sub,
    Numeric.mul, QuotePrices.width, QuotePrices.total] using hfloor.symm

/-- A number rounded at a nonnegative scale exceeds an integer when it does so by half a unit. -/
theorem lt_roundAt_iff {n : Nat} {scale : Int} {x : ℚ} (hx : 0 ≤ x) (hs : 0 ≤ scale) :
    (n : ℚ) < roundAt scale x ↔ 1 ≤ 2 * 10 ^ scale * (x - n) := by
  have hp : (0 : ℚ) < 10 ^ scale := Decimal.ten_zpow_pos scale
  obtain ⟨k, rfl⟩ := Int.eq_ofNat_of_zero_le hs
  have hint : (n : ℚ) * 10 ^ (k : Int) = ((n * 10 ^ k : Int) : ℚ) := by
    push_cast
    rw [zpow_natCast]
  calc (n : ℚ) < roundAt k x
      ↔ (n : ℚ) * 10 ^ (k : Int) < ⌊x * 10 ^ (k : Int) + 1 / 2⌋ := by
        rw [roundAt, if_neg (not_lt.mpr hx), lt_div_iff₀ hp]
    _ ↔ (n * 10 ^ k : Int) + 1 ≤ ⌊x * 10 ^ (k : Int) + 1 / 2⌋ := by
        rw [hint, Int.cast_lt, Int.add_one_le_iff]
    _ ↔ (n : ℚ) * 10 ^ (k : Int) + 1 ≤ x * 10 ^ (k : Int) + 1 / 2 := by
        rw [Int.le_floor, Int.cast_add, ← hint, Int.cast_one]
    _ ↔ 1 ≤ 2 * 10 ^ (k : Int) * (x - n) := by
        constructor <;> intro h <;> linarith

section

variable (v : Division) (q : QuotePrices)

/-- The quotient before it is rounded and doubled. -/
def exactQuotient : ℚ := 10000 * q.width / q.total

theorem exactQuotient_nonneg : 0 ≤ exactQuotient q :=
  div_nonneg (mul_nonneg (by norm_num) q.width_nonneg) q.total_pos.le

theorem exactQuotient_le : exactQuotient q ≤ 10000 := by
  rw [exactQuotient, div_le_iff₀ q.total_pos]
  exact mul_le_mul_of_nonneg_left q.width_le_total (by norm_num)

theorem fifteen_lt_exactQuotient : 15 < exactQuotient q ↔ 15 * q.total < 10000 * q.width := by
  rw [exactQuotient, lt_div_iff₀ q.total_pos]

/-- The scale at which the quotient of a quote is rounded. -/
def quotientScale : Int := v.digitsOf q - 1 - Int.log 10 (exactQuotient q)

theorem quotientScale_nonneg : 0 ≤ quotientScale v q := by
  have hlog : Int.log 10 (exactQuotient q) ≤ 4 := by
    rcases (exactQuotient_nonneg q).lt_or_eq with h | h
    · refine (Int.log_mono_right (b := 10) h (exactQuotient_le q)).trans_eq ?_
      exact_mod_cast Int.log_zpow (R := ℚ) (b := 10) (by norm_num) 4
    · rw [← h, Int.log_zero_right]
      norm_num
  have := v.sixteen (((Numeric.ofDecimal q.ask.decimal).sub (.ofDecimal q.bid.decimal)).mul (.ofNat 10000))
    ((Numeric.ofDecimal q.bid.decimal).add (.ofDecimal q.ask.decimal))
  unfold quotientScale Division.digitsOf
  dsimp only
  omega

/-- The database's quotient exceeds the limit. -/
theorem thirty_lt_spreadQuotient :
    30 < (spreadQuotient v q.bid.decimal q.ask.decimal).value ↔
      1 ≤ 2 * 10 ^ quotientScale v q * (exactQuotient q - 15) := by
  have hx : (q.ask.decimal.value - q.bid.decimal.value) * 10000 /
      (q.bid.decimal.value + q.ask.decimal.value) = exactQuotient q := by
    rw [exactQuotient, QuotePrices.width, QuotePrices.total, mul_comm]
  have hv : (spreadQuotient v q.bid.decimal q.ask.decimal).value =
      roundAt (quotientScale v q) (exactQuotient q) * 2 := by
    have habs : |exactQuotient q| = exactQuotient q := abs_of_nonneg (exactQuotient_nonneg q)
    simp [spreadQuotient, Division.div, Numeric.mul, Numeric.add, Numeric.sub, Numeric.ofNat,
      Numeric.ofDecimal, quotientScale, Division.digitsOf, hx, habs]
  have h15 := lt_roundAt_iff (n := 15) (exactQuotient_nonneg q) (quotientScale_nonneg v q)
  push_cast at h15
  rw [hv, ← h15]
  constructor <;> intro h <;> linarith

/-- Above the limit, the condition says that the quotient rounds to more than 15. -/
theorem clearOfLimit_of_wide (h : 15 < exactQuotient q) :
    ClearOfLimit v q ↔ 1 ≤ 2 * 10 ^ quotientScale v q * (exactQuotient q - 15) := by
  have hpos := q.total_pos
  have hd : 16 ≤ v.digitsOf q := v.sixteen _ _
  have hne : ¬ 10000 * q.width ≤ 15 * q.total := not_le.mpr ((fifteen_lt_exactQuotient q).mp h)
  have hc : ClearOfLimit v q ↔ 1 ≤ 2 * 10 ^ (v.digitsOf q - 2) * (exactQuotient q - 15) := by
    have e : 2 * 10 ^ (v.digitsOf q - 2) * (exactQuotient q - 15) =
        2 * 10 ^ (v.digitsOf q - 2) * (10000 * q.width - 15 * q.total) / q.total := by
      rw [exactQuotient]
      field_simp
    rw [e, le_div_iff₀ hpos, one_mul, ClearOfLimit, or_iff_right hne]
  rw [hc]
  rcases lt_or_ge (exactQuotient q) 100 with hlt | hge
  · -- two integer digits: the scale is the one of the condition
    have hlog : Int.log 10 (exactQuotient q) = 1 := by
      have h0 : 0 < exactQuotient q := by linarith
      have h1 : (1 : Int) ≤ Int.log 10 (exactQuotient q) := by
        rw [← Int.zpow_le_iff_le_log (by norm_num) h0]
        norm_num
        linarith
      have h2 : Int.log 10 (exactQuotient q) < 2 := by
        rw [← Int.lt_zpow_iff_log_lt (by norm_num) h0]
        norm_num
        linarith
      omega
    have hs : quotientScale v q = ((v.digitsOf q - 2 : Nat) : Int) := by
      unfold quotientScale
      omega
    rw [hs, zpow_natCast]
  · -- far above the limit both sides hold
    have hbig : ∀ p : ℚ, 1 ≤ p → 1 ≤ 2 * p * (exactQuotient q - 15) := by
      intro p hp
      nlinarith
    have h1 : (1 : ℚ) ≤ 10 ^ (v.digitsOf q - 2) := one_le_pow₀ (by norm_num)
    have h2 : (1 : ℚ) ≤ 10 ^ quotientScale v q := one_le_zpow₀ (by norm_num) (quotientScale_nonneg v q)
    exact iff_of_true (hbig _ h1) (hbig _ h2)

theorem spreadExact_wide : (spreadExact q.bid.decimal q.ask.decimal).2 = true ↔ 15 < exactQuotient q := by
  rw [fifteen_lt_exactQuotient, spreadExact, maxSpreadBps, QuotePrices.width, QuotePrices.total]
  dsimp only
  rw [decide_eq_true_iff]
  push_cast
  constructor <;> intro h <;> linarith

/-- The appended wire is accepted with the reason the quotient calls for. -/
theorem appendCheck_iff (tooWide : Bool) :
    appendCheck v q.bid.decimal q.ask.decimal tooWide = true ↔
      tooWide = decide (30 < (spreadQuotient v q.bid.decimal q.ask.decimal).value) := by
  unfold appendCheck
  rcases lt_or_ge 30 (spreadQuotient v q.bid.decimal q.ask.decimal).value with h | h
  · cases tooWide <;> simp [h, not_le.mpr h]
  · cases tooWide <;> simp [h, not_lt.mpr h]

end

/-- The assembler, the scalar check and the append check agree on exactly the quotes that are
clear of the limit. -/
theorem spread_agrees_iff (v : Division) (q : QuotePrices) : SpreadAgrees v q ↔ ClearOfLimit v q := by
  have hflag : (∀ tooWide, appendCheck v q.bid.decimal q.ask.decimal tooWide = true ↔
        tooWide = (spreadExact q.bid.decimal q.ask.decimal).2) ↔
      (1 ≤ 2 * 10 ^ quotientScale v q * (exactQuotient q - 15) ↔ 15 < exactQuotient q) := by
    rw [← thirty_lt_spreadQuotient, ← spreadExact_wide]
    simp only [appendCheck_iff]
    cases (spreadExact q.bid.decimal q.ask.decimal).2 <;> simp
  rw [SpreadAgrees, and_iff_right (scalarCheck_iff q), hflag]
  rcases lt_or_ge 15 (exactQuotient q) with h | h
  · rw [clearOfLimit_of_wide v q h, iff_true_right h]
  · -- within the limit rounding cannot reach a number above 15
    have hp : (0 : ℚ) < 10 ^ quotientScale v q := Decimal.ten_zpow_pos _
    have hneg : ¬ 1 ≤ 2 * 10 ^ quotientScale v q * (exactQuotient q - 15) := by
      intro h1
      nlinarith
    have hwithin : ClearOfLimit v q := by
      left
      exact not_lt.mp (fun hlt => absurd ((fifteen_lt_exactQuotient q).mpr hlt) (not_lt.mpr h))
    exact iff_of_true (iff_of_false hneg (not_lt.mpr h)) hwithin

/-- A division that keeps eighteen digits, as the server does of a quotient near 15. -/
def eighteenDigits : Division := ⟨fun _ _ => 18, fun _ _ => by norm_num⟩

/-- The quote 499250000000.00001331 / 500750000000.00001335. -/
def sliverQuote : QuotePrices where
  bid := ⟨⟨false, 49925000000000001331, -8⟩, by decide, by decide, by decide +kernel⟩
  ask := ⟨⟨false, 50075000000000001335, -8⟩, by decide, by decide, by decide +kernel⟩
  ordered := by decide +kernel

/-- The quote is too wide and the assembler says so, but the append check takes it for narrow. -/
theorem not_spread_agrees_sliver : ¬ SpreadAgrees eighteenDigits sliverQuote := by
  intro h
  have wide : (spreadExact sliverQuote.bid.decimal sliverQuote.ask.decimal).2 = true := by decide +kernel
  have refused : appendCheck eighteenDigits sliverQuote.bid.decimal sliverQuote.ask.decimal true = false := by
    decide +kernel
  rw [(h.2 true).mpr wide.symm] at refused
  contradiction

end SevenLens.MarketData
