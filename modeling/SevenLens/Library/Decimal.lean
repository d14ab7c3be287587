import Mathlib.Data.Int.Log
import Mathlib.Data.Rat.Floor
import Mathlib.Tactic.Linarith
import Mathlib.Tactic.Ring

/-! # Decimal arithmetic with a bounded precision

A decimal number is a sign, a coefficient and an exponent; its value is a rational number.
An operation delivers the exact result rounded half-even to the precision of a context, with
an exponent as near to the ideal one of the operation as the precision allows.  Results
beyond the largest exponent raise a signal, results below the least one lose digits.

Rounding to the precision is a function on rational numbers, `Context.round`: it is monotone,
odd and leaves its own results alone.  Every operation is described by it
(`value_of_add`, `value_of_mul`, `value_of_div`, `value_of_minus`), and an operation whose
exact result is `Exact` returns that result (`add_exact`, `mul_exact`, `div_exact`). -/

/-! ### Rounding to an integer -/

/-- The nearest natural number, the even one of two at the same distance. -/
def halfEven (y : ℚ) : Nat :=
  if y < ⌊y⌋₊ + 1 / 2 then ⌊y⌋₊
  else if ⌊y⌋₊ + 1 / 2 < y then ⌊y⌋₊ + 1
  else if ⌊y⌋₊ % 2 = 0 then ⌊y⌋₊
  else ⌊y⌋₊ + 1

theorem floor_le_halfEven (y : ℚ) : ⌊y⌋₊ ≤ halfEven y := by
  unfold halfEven
  split_ifs <;> omega

theorem halfEven_le_floor_add_one (y : ℚ) : halfEven y ≤ ⌊y⌋₊ + 1 := by
  unfold halfEven
  split_ifs <;> omega

@[simp] theorem halfEven_natCast (n : Nat) : halfEven (n : ℚ) = n := by
  have h : (n : ℚ) < n + 1 / 2 := by linarith
  rw [halfEven, Nat.floor_natCast, if_pos h]

theorem halfEven_mono {x y : ℚ} (h : x ≤ y) : halfEven x ≤ halfEven y := by
  rcases (Nat.floor_mono h).lt_or_eq with hlt | heq
  · calc halfEven x ≤ ⌊x⌋₊ + 1 := halfEven_le_floor_add_one x
      _ ≤ ⌊y⌋₊ := hlt
      _ ≤ halfEven y := floor_le_halfEven y
  · -- both lie between the same two integers: only the place of the middle matters
    unfold halfEven
    rw [heq]
    split_ifs <;> first | omega | (exfalso; linarith)

/-- A finite decimal number. -/
structure Decimal where
  negative : Bool
  coefficient : Nat
  exponent : Int
deriving DecidableEq, Repr

namespace Decimal

/-! ### Rounding to a precision -/

/-- Precision and exponent range of an arithmetic context that rounds half-even. -/
structure Context where
  prec : Nat
  emin : Int
  emax : Int
  prec_pos : 0 < prec

namespace Context

variable (c : Context)

/-- The exponent of the least subnormal number. -/
def etiny : Int := c.emin - c.prec + 1

/-- The exponent of the last digit kept of a positive number. -/
def quantum (x : ℚ) : Int := max (Int.log 10 x + 1 - c.prec) c.etiny

/-- A magnitude, rounded to the digits the context keeps of it. -/
def roundMagnitude (x : ℚ) : ℚ := halfEven (x / 10 ^ c.quantum x) * 10 ^ c.quantum x

/-- A number, rounded to the digits the context keeps of it. -/
def round (x : ℚ) : ℚ := if x < 0 then -c.roundMagnitude (-x) else c.roundMagnitude x

/-- The number has no more digits than the context keeps. -/
def Representable (x : ℚ) : Prop := c.round x = x

/-- The number has no more digits than the context keeps and is below its largest exponent. -/
def Exact (x : ℚ) : Prop := c.Representable x ∧ |x| < 10 ^ (c.emax + 1)

instance (x : ℚ) : Decidable (c.Exact x) := inferInstanceAs (Decidable (c.round x = x ∧ _))

end Context

theorem ten_zpow_pos (e : Int) : (0 : ℚ) < 10 ^ e := zpow_pos (by norm_num) e

/-- A natural multiple of a power of ten is one of every smaller power. -/
theorem exists_mul_zpow {e q : Int} (k : Nat) (h : q ≤ e) :
    ∃ m : Nat, (k : ℚ) * 10 ^ e = m * 10 ^ q := by
  refine ⟨k * 10 ^ (e - q).toNat, ?_⟩
  have e1 : (10 : ℚ) ^ e = 10 ^ (e - q).toNat * 10 ^ q := by
    rw [← zpow_natCast, Int.toNat_of_nonneg (by omega), ← zpow_add₀ (by norm_num)]
    congr 1
    omega
  push_cast
  rw [e1]
  ring

namespace Context

variable {c : Context}

theorem roundMagnitude_nonneg (x : ℚ) : 0 ≤ c.roundMagnitude x := by
  unfold roundMagnitude
  exact mul_nonneg (Nat.cast_nonneg _) (ten_zpow_pos _).le

@[simp] theorem roundMagnitude_zero : c.roundMagnitude 0 = 0 := by
  have h : halfEven 0 = 0 := by simpa using halfEven_natCast 0
  simp [roundMagnitude, h]

/-- Multiples of the last digit's unit are left alone. -/
theorem roundMagnitude_of_multiple {x : ℚ} {m : Nat} (h : x = m * 10 ^ c.quantum x) :
    c.roundMagnitude x = x := by
  have e : x / 10 ^ c.quantum x = m := by
    rw [div_eq_iff (ten_zpow_pos _).ne']
    exact h
  rw [roundMagnitude, e, halfEven_natCast, ← h]

/-- A multiple of the last digit's unit is not crossed from below. -/
theorem roundMagnitude_le {x t : ℚ} {m : Nat} (ht : t = m * 10 ^ c.quantum x) (h : x ≤ t) :
    c.roundMagnitude x ≤ t := by
  have hp := ten_zpow_pos (c.quantum x)
  have e : x / 10 ^ c.quantum x ≤ m := by
    rw [div_le_iff₀ hp, ← ht]
    exact h
  have e2 : halfEven (x / 10 ^ c.quantum x) ≤ m := by
    simpa using halfEven_mono e
  rw [roundMagnitude, ht]
  exact mul_le_mul_of_nonneg_right (by exact_mod_cast e2) hp.le

/-- A multiple of the last digit's unit is not crossed from above. -/
theorem le_roundMagnitude {x t : ℚ} {m : Nat} (ht : t = m * 10 ^ c.quantum x) (h : t ≤ x) :
    t ≤ c.roundMagnitude x := by
  have hp := ten_zpow_pos (c.quantum x)
  have e : (m : ℚ) ≤ x / 10 ^ c.quantum x := by
    rw [le_div_iff₀ hp, ← ht]
    exact h
  have e2 : m ≤ halfEven (x / 10 ^ c.quantum x) := by
    simpa using halfEven_mono e
  rw [roundMagnitude, ht]
  exact mul_le_mul_of_nonneg_right (by exact_mod_cast e2) hp.le

theorem quantum_mono {x y : ℚ} (hx : 0 < x) (h : x ≤ y) : c.quantum x ≤ c.quantum y := by
  have := Int.log_mono_right (b := 10) hx h
  unfold quantum
  omega

theorem roundMagnitude_mono {x y : ℚ} (hx : 0 ≤ x) (h : x ≤ y) :
    c.roundMagnitude x ≤ c.roundMagnitude y := by
  rcases hx.lt_or_eq with hx | rfl
  · rcases (quantum_mono (c := c) hx h).lt_or_eq with hq | hq
    · -- the power of ten at or below `y` separates the two
      have hy : 0 < y := hx.trans_le h
      have hlog : Int.log 10 x < Int.log 10 y := by
        unfold quantum at hq
        omega
      have hqy : c.quantum y ≤ Int.log 10 y := by
        have := c.prec_pos
        unfold quantum at hq ⊢
        omega
      obtain ⟨m, hm⟩ := exists_mul_zpow 1 (hq.le.trans hqy)
      obtain ⟨n, hn⟩ := exists_mul_zpow 1 hqy
      rw [Nat.cast_one, one_mul] at hm hn
      have hxt : x ≤ 10 ^ Int.log 10 y := by
        calc x ≤ (10 : ℚ) ^ (Int.log 10 x + 1) := (Int.lt_zpow_succ_log_self (by norm_num) x).le
          _ ≤ 10 ^ Int.log 10 y := zpow_le_zpow_right₀ (by norm_num) hlog
      have hty : (10 : ℚ) ^ Int.log 10 y ≤ y := by
        exact_mod_cast Int.zpow_log_le_self (b := 10) (by norm_num) hy
      exact (roundMagnitude_le hm hxt).trans (le_roundMagnitude hn hty)
    · have hp := ten_zpow_pos (c.quantum y)
      have e : x / 10 ^ c.quantum y ≤ y / 10 ^ c.quantum y :=
        div_le_div_of_nonneg_right h hp.le
      rw [roundMagnitude, roundMagnitude, hq]
      exact mul_le_mul_of_nonneg_right (by exact_mod_cast halfEven_mono e) hp.le
  · rw [roundMagnitude_zero]
    exact roundMagnitude_nonneg y

/-- The digits kept of a positive number fit the precision, up to a carry. -/
theorem halfEven_le_pow (x : ℚ) :
    halfEven (x / 10 ^ c.quantum x) ≤ 10 ^ c.prec := by
  have hlt : x < (10 : ℚ) ^ (Int.log 10 x + 1) := by
    exact_mod_cast Int.lt_zpow_succ_log_self (b := 10) (by norm_num) x
  have hle : (10 : ℚ) ^ (Int.log 10 x + 1) ≤ 10 ^ (c.quantum x + c.prec) := by
    apply zpow_le_zpow_right₀ (by norm_num)
    unfold quantum
    omega
  have e : x / 10 ^ c.quantum x ≤ ((10 ^ c.prec : Nat) : ℚ) := by
    rw [div_le_iff₀ (ten_zpow_pos _)]
    push_cast
    rw [← zpow_natCast, ← zpow_add₀ (by norm_num), add_comm]
    exact hlt.le.trans hle
  exact (halfEven_mono e).trans_eq (halfEven_natCast _)

theorem roundMagnitude_idem {x : ℚ} (hx : 0 ≤ x) :
    c.roundMagnitude (c.roundMagnitude x) = c.roundMagnitude x := by
  rcases hx.lt_or_eq with hx | rfl
  · obtain ⟨k, hk⟩ : ∃ k, halfEven (x / 10 ^ c.quantum x) = k := ⟨_, rfl⟩
    have hr : c.roundMagnitude x = k * 10 ^ c.quantum x := by rw [roundMagnitude, hk]
    rcases Nat.eq_zero_or_pos k with rfl | hpos
    · simp [hr]
    have hr0 : 0 < c.roundMagnitude x := by
      rw [hr]
      exact mul_pos (by exact_mod_cast hpos) (ten_zpow_pos _)
    by_cases hq : c.quantum (c.roundMagnitude x) ≤ c.quantum x
    · obtain ⟨m, hm⟩ := exists_mul_zpow k hq
      exact roundMagnitude_of_multiple (hr.trans hm)
    · -- the rounding carried into a new digit: the result is a power of ten
      have hlog : c.quantum x + c.prec ≤ Int.log 10 (c.roundMagnitude x) := by
        have : c.etiny ≤ c.quantum x := le_max_right _ _
        unfold quantum at hq this ⊢
        omega
      have hle : (10 : ℚ) ^ (c.quantum x + c.prec) ≤ c.roundMagnitude x :=
        (zpow_le_zpow_right₀ (by norm_num) hlog).trans
          (by exact_mod_cast Int.zpow_log_le_self (b := 10) (by norm_num) hr0)
      have hge : c.roundMagnitude x ≤ (10 : ℚ) ^ (c.quantum x + c.prec) := by
        have h10 : (k : ℚ) ≤ 10 ^ c.prec := by exact_mod_cast hk ▸ halfEven_le_pow x
        rw [hr, zpow_add₀ (by norm_num), zpow_natCast, mul_comm]
        exact mul_le_mul_of_nonneg_left h10 (ten_zpow_pos _).le
      have heq : c.roundMagnitude x = 10 ^ (c.quantum x + c.prec) := le_antisymm hge hle
      have hl : Int.log 10 (c.roundMagnitude x) = c.quantum x + c.prec := by
        rw [heq]
        exact_mod_cast Int.log_zpow (R := ℚ) (b := 10) (by norm_num) _
      have hqe : c.quantum (c.roundMagnitude x) ≤ c.quantum x + c.prec := by
        have := c.prec_pos
        have h2 : c.etiny ≤ c.quantum x := le_max_right _ _
        unfold quantum at h2 ⊢
        rw [hl]
        unfold quantum
        omega
      obtain ⟨m, hm⟩ := exists_mul_zpow 1 hqe
      rw [Nat.cast_one, one_mul] at hm
      exact roundMagnitude_of_multiple (heq.trans hm)
  · simp

@[simp] theorem round_zero : c.round 0 = 0 := by simp [round]

theorem round_of_nonneg {x : ℚ} (h : 0 ≤ x) : c.round x = c.roundMagnitude x := by
  rw [round, if_neg (not_lt.mpr h)]

theorem round_neg (x : ℚ) : c.round (-x) = -c.round x := by
  rcases lt_trichotomy x 0 with h | rfl | h
  · rw [round_of_nonneg (by linarith), round, if_pos h, neg_neg]
  · simp
  · rw [round_of_nonneg h.le, round, if_pos (by linarith), neg_neg]

theorem round_nonneg {x : ℚ} (h : 0 ≤ x) : 0 ≤ c.round x := by
  rw [round_of_nonneg h]
  exact roundMagnitude_nonneg x

theorem round_mono : Monotone c.round := by
  intro x y h
  rcases le_or_gt 0 x with hx | hx
  · rw [round_of_nonneg hx, round_of_nonneg (hx.trans h)]
    exact roundMagnitude_mono hx h
  rcases le_or_gt 0 y with hy | hy
  · have h1 : 0 ≤ c.round (-x) := round_nonneg (by linarith)
    have h2 : 0 ≤ c.round y := round_nonneg hy
    rw [round_neg] at h1
    linarith
  · have h1 := roundMagnitude_mono (c := c) (x := -y) (y := -x) (by linarith) (by linarith)
    rw [round, if_pos hx, round, if_pos hy]
    linarith

theorem representable_round (x : ℚ) : c.Representable (c.round x) := by
  unfold Representable
  rcases le_or_gt 0 x with h | h
  · rw [round_of_nonneg (round_nonneg h), round_of_nonneg h, roundMagnitude_idem h]
  · have hx : 0 ≤ -x := by linarith
    rw [← neg_neg x, round_neg, round_neg, round_of_nonneg hx,
      round_of_nonneg (roundMagnitude_nonneg _), roundMagnitude_idem hx]

end Context

/-! ### Numbers -/

/-- The absolute value. -/
def magnitude (d : Decimal) : ℚ := d.coefficient * 10 ^ d.exponent

/-- The number denoted: comparison, equality and sorting go by it. -/
def value (d : Decimal) : ℚ := if d.negative then -d.magnitude else d.magnitude

/-- The integer `n`, with exponent zero. -/
def ofNat (n : Nat) : Decimal := ⟨false, n, 0⟩

/-- The same number with the other sign, unrounded. -/
def copyNegate (d : Decimal) : Decimal := { d with negative := !d.negative }

/-- Numerical equality: the exponents may differ. -/
def equals (a b : Decimal) : Bool := a.value = b.value

theorem magnitude_nonneg (d : Decimal) : 0 ≤ d.magnitude :=
  mul_nonneg (Nat.cast_nonneg _) (ten_zpow_pos _).le

@[simp] theorem value_ofNat (n : Nat) : (ofNat n).value = n := by
  simp [ofNat, value, magnitude]

@[simp] theorem value_copyNegate (d : Decimal) : d.copyNegate.value = -d.value := by
  cases h : d.negative <;> simp [copyNegate, value, magnitude, h]

@[simp] theorem equals_iff {a b : Decimal} : a.equals b = true ↔ a.value = b.value := by
  simp [equals]

/-! ### Text -/

/-- The coefficient with the point before its digit number `dot`, zeros filled in. -/
def pointed (digits : List Char) (dot : Int) : List Char :=
  if dot ≤ 0 then '0' :: '.' :: (List.replicate (-dot).toNat '0' ++ digits)
  else if digits.length ≤ dot.toNat then digits ++ List.replicate (dot.toNat - digits.length) '0'
  else digits.take dot.toNat ++ '.' :: digits.drop dot.toNat

/-- `str(d)`: an exponent is written only after a positive one or more than six leading zeros. -/
def text (d : Decimal) : String :=
  let digits := Nat.toDigits 10 d.coefficient
  let left : Int := d.exponent + digits.length
  let dot : Int := if d.exponent ≤ 0 ∧ -6 < left then left else 1
  let shift : Int := left - dot
  let tail := if shift = 0 then [] else
    'E' :: (if shift < 0 then '-' else '+') :: Nat.toDigits 10 shift.natAbs
  String.ofList ((if d.negative then ['-'] else []) ++ pointed digits dot ++ tail)

/-! ### Results -/

/-- The trapped conditions an operation can raise. -/
inductive Signal where
  | overflow | divisionByZero | invalidOperation
deriving DecidableEq, Repr

/-- Take up to `n` zeros off the end of the coefficient. -/
def strip : Nat → Nat → Int → Nat × Int
  | 0, k, e => (k, e)
  | n + 1, k, e => if k % 10 = 0 then strip n (k / 10) (e + 1) else (k, e)

theorem strip_value (n k : Nat) (e : Int) :
    ((strip n k e).1 : ℚ) * 10 ^ (strip n k e).2 = k * 10 ^ e := by
  induction n generalizing k e with
  | zero => rfl
  | succ n ih =>
    rw [strip]
    split_ifs with h
    · rw [ih]
      have hk : (k : ℚ) = (k / 10 : Nat) * 10 := by exact_mod_cast (Nat.div_mul_cancel (Nat.dvd_of_mod_eq_zero h)).symm
      rw [hk, zpow_add₀ (by norm_num)]
      ring
    · rfl

namespace Context

/-- Deliver the coefficient `k` of exponent `q`, after a carry out of the last place has been
taken in.  An exact result moves its exponent towards the ideal one. -/
def deliver (c : Context) (negative : Bool) (k : Nat) (q : Int) (exact : Bool) (ideal : Int) :
    Except Signal Decimal :=
  let carried := if k = 10 ^ c.prec then (10 ^ (c.prec - 1), q + 1) else (k, q)
  if (10 : ℚ) ^ (c.emax + 1) ≤ carried.1 * 10 ^ carried.2 then .error .overflow
  else if carried.1 = 0 then .ok ⟨negative, 0, carried.2⟩
  else
    let shape := if exact then strip (ideal - carried.2).toNat carried.1 carried.2 else carried
    .ok ⟨negative, shape.1, shape.2⟩

/-- Deliver the nonnegative number `x` with the given sign. -/
def finish (c : Context) (negative : Bool) (x : ℚ) (ideal : Int) : Except Signal Decimal :=
  if x = 0 then .ok ⟨negative, 0, min (max ideal c.etiny) c.emax⟩
  else
    let q := c.quantum x
    let k := halfEven (x / 10 ^ q)
    c.deliver negative k q (decide ((k : ℚ) * 10 ^ q = x)) ideal

variable {c : Context}

/-- The carry does not change the number. -/
theorem carried_value (k : Nat) (q : Int) {p : Nat × Int}
    (h : (if k = 10 ^ c.prec then (10 ^ (c.prec - 1), q + 1) else (k, q)) = p) : (p.1 : ℚ) * 10 ^ p.2 = k * 10 ^ q := by
  subst h
  split_ifs with hk
  · have e : (10 : ℚ) ^ c.prec = 10 ^ (c.prec - 1) * 10 := by
      rw [← pow_succ, Nat.sub_add_cancel c.prec_pos]
    rw [hk]
    push_cast
    rw [e, zpow_add₀ (by norm_num)]
    ring
  · rfl

theorem deliver_spec {negative exact : Bool} {k : Nat} {q ideal : Int} {d : Decimal}
    (h : c.deliver negative k q exact ideal = .ok d) :
    d.negative = negative ∧ d.magnitude = k * 10 ^ q := by
  have hc := fun p => carried_value (c := c) k q (p := p)
  unfold deliver at h
  revert hc h
  generalize (if k = 10 ^ c.prec then (10 ^ (c.prec - 1), q + 1) else (k, q)) = p
  intro h hc
  have hp := hc p rfl
  dsimp only at h
  split_ifs at h with _ h0 hx
  · cases h
    refine ⟨rfl, ?_⟩
    rw [← hp, h0]
    simp [magnitude]
  · cases h
    exact ⟨rfl, (strip_value _ _ _).trans hp⟩
  · cases h
    exact ⟨rfl, hp⟩

/-- A number below the largest exponent is delivered. -/
theorem exists_deliver {k : Nat} {q : Int} (h : (k : ℚ) * 10 ^ q < 10 ^ (c.emax + 1)) (negative exact : Bool)
    (ideal : Int) : ∃ d, c.deliver negative k q exact ideal = .ok d := by
  have hc := fun p => carried_value (c := c) k q (p := p)
  unfold deliver
  revert hc
  generalize (if k = 10 ^ c.prec then (10 ^ (c.prec - 1), q + 1) else (k, q)) = p
  intro hc
  rw [← hc p rfl] at h
  dsimp only
  rw [if_neg (not_le.mpr h)]
  split_ifs <;> exact ⟨_, rfl⟩

theorem finish_spec {negative : Bool} {x : ℚ} {ideal : Int} {d : Decimal}
    (h : c.finish negative x ideal = .ok d) :
    d.negative = negative ∧ d.magnitude = c.roundMagnitude x := by
  unfold finish at h
  split_ifs at h with hx
  · cases h
    subst hx
    simp [magnitude]
  · exact deliver_spec h

/-- A number that is below the largest exponent after rounding is delivered. -/
theorem exists_finish_of_lt {x : ℚ} (h : c.roundMagnitude x < 10 ^ (c.emax + 1)) (negative : Bool) (ideal : Int) :
    ∃ d, c.finish negative x ideal = .ok d := by
  unfold finish
  split_ifs
  · exact ⟨_, rfl⟩
  · exact exists_deliver h _ _ _

theorem exists_finish {x : ℚ} (h : c.Exact x) (negative : Bool) (ideal : Int) :
    ∃ d, c.finish negative |x| ideal = .ok d := by
  have hround : c.roundMagnitude |x| = |x| := by
    rcases le_or_gt 0 x with h0 | h0
    · rw [abs_of_nonneg h0, ← round_of_nonneg h0]
      exact h.1
    · have hr : c.round x = x := h.1
      rw [round, if_pos h0, neg_eq_iff_eq_neg] at hr
      rw [abs_of_neg h0]
      exact hr
  exact exists_finish_of_lt (hround.symm ▸ h.2) negative ideal

/-- A result that carries the sign of `x` has the value of `x`, rounded. -/
theorem finish_value {negative : Bool} {x : ℚ} {ideal : Int} {d : Decimal}
    (hs : x ≠ 0 → negative = decide (x < 0)) (h : c.finish negative |x| ideal = .ok d) :
    d.value = c.round x := by
  obtain ⟨hn, hm⟩ := finish_spec h
  rcases lt_trichotomy x 0 with hx | rfl | hx
  · rw [value, hn, hs hx.ne, if_pos (by simpa using hx), hm, abs_of_neg hx, round, if_pos hx]
  · rw [abs_zero, roundMagnitude_zero] at hm
    simp [value, hm]
  · rw [value, hn, hs hx.ne', if_neg (by simpa using hx.le), hm, abs_of_pos hx,
      round_of_nonneg hx.le]

/-! ### Operations -/

/-- `a + b` -/
def add (c : Context) (a b : Decimal) : Except Signal Decimal :=
  let s := a.value + b.value
  let negative := if s = 0 then a.negative && b.negative else decide (s < 0)
  c.finish negative |s| (min a.exponent b.exponent)

/-- `a - b` -/
def sub (c : Context) (a b : Decimal) : Except Signal Decimal := c.add a b.copyNegate

/-- `a * b` -/
def mul (c : Context) (a b : Decimal) : Except Signal Decimal :=
  c.finish (a.negative ^^ b.negative) |a.value * b.value| (a.exponent + b.exponent)

/-- `a / b` -/
def div (c : Context) (a b : Decimal) : Except Signal Decimal :=
  if b.coefficient = 0 then .error (if a.coefficient = 0 then .invalidOperation else .divisionByZero)
  else c.finish (a.negative ^^ b.negative) |a.value / b.value| (a.exponent - b.exponent)

/-- `-a`: the result is rounded, and a zero is positive. -/
def minus (c : Context) (a : Decimal) : Except Signal Decimal :=
  c.finish (decide (a.coefficient ≠ 0) && !a.negative) |a.value| a.exponent

/-- The sum of a list, from zero on. -/
def sum (c : Context) (l : List Decimal) : Except Signal Decimal := l.foldlM c.add (ofNat 0)

/-- `a ** 2`: the product is taken with three more digits and rounded again. -/
def square (c : Context) (a : Decimal) : Except Signal Decimal := do
  if a.coefficient = 0 then return ofNat 0
  let guarded : Context := { c with prec := c.prec + 3, prec_pos := by omega }
  let p ← guarded.mul a a
  c.finish p.negative p.magnitude p.exponent

/-- The square root, rounded half-even. -/
def sqrt (c : Context) (a : Decimal) : Except Signal Decimal :=
  let ideal := a.exponent / 2
  if a.coefficient = 0 then c.finish a.negative 0 ideal
  else if a.negative then .error .invalidOperation
  else
    let q := max (Int.log 10 a.magnitude / 2 + 1 - c.prec) c.etiny
    let y := a.magnitude / 10 ^ (2 * q)
    let n := Nat.sqrt ⌊y⌋₊
    let half : ℚ := (n + 1 / 2) ^ 2
    let k := if y < half then n else if half < y then n + 1 else if n % 2 = 0 then n else n + 1
    c.deliver false k q (decide ((k : ℚ) ^ 2 = y)) ideal

end Context

/-! ### Values of the operations -/

section Values

variable {c : Context} {a b d : Decimal}

theorem value_of_add (h : c.add a b = .ok d) : d.value = c.round (a.value + b.value) :=
  Context.finish_value (fun hx => by rw [if_neg hx]) h

theorem value_of_sub (h : c.sub a b = .ok d) : d.value = c.round (a.value - b.value) := by
  rw [value_of_add h, value_copyNegate, sub_eq_add_neg]

theorem value_ne_zero_iff : a.value ≠ 0 ↔ a.coefficient ≠ 0 := by
  have h10 : (10 : ℚ) ^ a.exponent ≠ 0 := (ten_zpow_pos _).ne'
  unfold value magnitude
  split_ifs <;> simp [h10]

theorem negative_of_value (h : a.value ≠ 0) : a.negative = decide (a.value < 0) := by
  have hp : 0 ≤ a.magnitude := magnitude_nonneg a
  have h0 : a.magnitude ≠ 0 := by
    intro h0
    apply h
    simp [value, h0]
  have hlt : 0 < a.magnitude := lt_of_le_of_ne hp h0.symm
  cases hn : a.negative
  · simp [value, hn, hp]
  · simp [value, hn, hlt]

/-- The sign of a product is the exclusive or of the signs. -/
theorem sign_mul (ha : a.value ≠ 0) (hb : b.value ≠ 0) :
    (a.negative ^^ b.negative) = decide (a.value * b.value < 0) := by
  rw [negative_of_value ha, negative_of_value hb]
  rcases lt_or_gt_of_ne ha with h1 | h1 <;> rcases lt_or_gt_of_ne hb with h2 | h2 <;>
    simp [mul_neg_iff, h1, h2, not_lt.mpr h1.le, not_lt.mpr h2.le]

theorem value_of_mul (h : c.mul a b = .ok d) : d.value = c.round (a.value * b.value) := by
  refine Context.finish_value (fun hx => ?_) h
  obtain ⟨ha, hb⟩ := mul_ne_zero_iff.mp hx
  exact sign_mul ha hb

theorem value_of_div (h : c.div a b = .ok d) : d.value = c.round (a.value / b.value) := by
  unfold Context.div at h
  split_ifs at h with hb
  refine Context.finish_value (fun hx => ?_) h
  obtain ⟨ha, hb⟩ := div_ne_zero_iff.mp hx
  rw [sign_mul ha hb, decide_eq_decide, mul_neg_iff, div_neg_iff]

theorem value_of_minus (h : c.minus a = .ok d) : d.value = c.round (-a.value) := by
  rw [Context.minus, ← abs_neg] at h
  refine Context.finish_value (fun hx => ?_) h
  have ha : a.value ≠ 0 := neg_ne_zero.mp hx
  rw [negative_of_value ha]
  rcases lt_or_gt_of_ne ha with h1 | h1
  · simp [h1, h1.le, value_ne_zero_iff.mp ha]
  · simp [h1, h1.le, value_ne_zero_iff.mp ha]

/-! ### Exact results -/

theorem add_exact (h : c.Exact (a.value + b.value)) : ∃ d, c.add a b = .ok d ∧ d.value = a.value + b.value := by
  obtain ⟨d, hd⟩ := Context.exists_finish h _ _
  exact ⟨d, hd, (value_of_add hd).trans h.1⟩

theorem mul_exact (h : c.Exact (a.value * b.value)) : ∃ d, c.mul a b = .ok d ∧ d.value = a.value * b.value := by
  obtain ⟨d, hd⟩ := Context.exists_finish h _ _
  exact ⟨d, hd, (value_of_mul hd).trans h.1⟩

/-- A quotient that is below the largest exponent after rounding is delivered. -/
theorem exists_div (hb : b.value ≠ 0) (h : c.roundMagnitude |a.value / b.value| < 10 ^ (c.emax + 1)) :
    ∃ d, c.div a b = .ok d := by
  unfold Context.div
  rw [if_neg (value_ne_zero_iff.mp hb)]
  exact Context.exists_finish_of_lt h _ _

theorem div_exact (hb : b.value ≠ 0) (h : c.Exact (a.value / b.value)) :
    ∃ d, c.div a b = .ok d ∧ d.value = a.value / b.value := by
  have hdiv : ∃ d, c.div a b = .ok d := by
    unfold Context.div
    rw [if_neg (value_ne_zero_iff.mp hb)]
    exact Context.exists_finish h _ _
  obtain ⟨d, hd⟩ := hdiv
  exact ⟨d, hd, (value_of_div hd).trans h.1⟩

end Values

end Decimal
