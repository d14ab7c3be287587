import Mathlib.Data.List.GetD
import SevenLens.Library.DecimalDigits
import SevenLens.Library.Midrank
import SevenLens.Screening.Scores

/-! # Percentiles are midranks

`_percentile` takes the middle of two places that it finds by searching a sorted list, and divides by
the last place.  The places are counts of smaller and of not larger values, so the result is the
midrank of the winsorized value, rounded to the digits of the context (`percentile_midranks`).  It
depends on the population as a whole only, not on its order. -/

namespace SevenLens.Screening

open Securities

/-- `sys.maxsize`: no list has more entries. -/
def maxsize : Nat := 2 ^ 63 - 1

/-! ### Arithmetic of places -/

/-- The middle of two places over the last place, as `_percentile` computes it. -/
def middle (first last top : Nat) : Except Failure Decimal := do
  let s ← arith (context.add (.ofNat first) (.ofNat last))
  let h ← arith (context.div s (.ofNat 2))
  arith (context.div h (.ofNat top))

theorem lt_top {x : ℚ} (h : x < 10 ^ (28 : Int)) : x < 10 ^ (context.emax + 1) :=
  h.trans_le (zpow_le_zpow_right₀ (by norm_num) (by decide))

/-- A number of half units with few digits is computed exactly. -/
theorem exact_half {n : Nat} (h : n < 10 ^ 27) : context.Exact (n / 2 : ℚ) := by
  have hlt : (n / 2 : ℚ) < 10 ^ (28 : Int) := by
    have hn : (n : ℚ) < 10 ^ 27 := by exact_mod_cast h
    have hten : (10 : ℚ) ^ (28 : Int) = 10 * 10 ^ 27 := by norm_num
    have hnonneg : (0 : ℚ) ≤ n := Nat.cast_nonneg n
    linarith
  rcases Nat.eq_zero_or_pos n with rfl | hpos
  · rw [Nat.cast_zero, zero_div]
    exact ⟨Decimal.Context.round_zero, by rw [abs_zero]; exact Decimal.ten_zpow_pos _⟩
  · have hhalf : (10 : ℚ) ^ (-1 : Int) ≤ n / 2 := by
      have hn : (1 : ℚ) ≤ n := by exact_mod_cast hpos
      norm_num
      linarith
    have hx : (0 : ℚ) < n / 2 := (Decimal.ten_zpow_pos _).trans_le hhalf
    have hlog : context.emin ≤ Int.log 10 (n / 2 : ℚ) := le_trans (by decide) (Decimal.Context.le_log hx hhalf)
    refine ⟨Decimal.Context.round_of_fits hx hlog ⟨5 * n, -1, ?_, ?_⟩, by rw [abs_of_pos hx]; exact lt_top hlt⟩
    · show 5 * n < 10 ^ 28
      omega
    · push_cast
      norm_num
      ring

theorem exact_natCast {n : Nat} (h : n < 10 ^ 26) : context.Exact (n : ℚ) := by
  have hexact := exact_half (n := 2 * n) (by omega)
  rwa [Nat.cast_mul, Nat.cast_two, mul_div_cancel_left₀ _ (by norm_num)] at hexact

theorem middle_ok {first last top : Nat} (htop : 0 < top) (hle : first + last ≤ 2 * top) (hbound : top < maxsize) :
    ∃ p, middle first last top = .ok p ∧ p.value = context.round (((first : ℚ) + last) / (2 * top)) := by
  have hsmall : first + last < 10 ^ 26 := by
    unfold maxsize at hbound
    omega
  have htop0 : (top : ℚ) ≠ 0 := by exact_mod_cast htop.ne'
  obtain ⟨s, hs, hsv⟩ := Decimal.add_exact (c := context) (a := .ofNat first) (b := .ofNat last) (by
    rw [Decimal.value_ofNat, Decimal.value_ofNat, ← Nat.cast_add]
    exact exact_natCast hsmall)
  rw [Decimal.value_ofNat, Decimal.value_ofNat] at hsv
  obtain ⟨d, hd, hdv⟩ := Decimal.div_exact (c := context) (a := s) (b := .ofNat 2) (by simp) (by
    rw [Decimal.value_ofNat, hsv, ← Nat.cast_add, Nat.cast_two]
    exact exact_half (hsmall.trans (by norm_num)))
  rw [Decimal.value_ofNat, hsv] at hdv
  have hquotient : d.value / (Decimal.ofNat top).value = ((first : ℚ) + last) / (2 * top) := by
    rw [hdv, Decimal.value_ofNat, Nat.cast_two, div_div]
  have hnonneg : (0 : ℚ) ≤ ((first : ℚ) + last) / (2 * top) := by positivity
  have hone : ((first : ℚ) + last) / (2 * top) ≤ 1 := by
    refine div_le_one_of_le₀ ?_ (by positivity)
    exact_mod_cast hle
  obtain ⟨p, hp⟩ := Decimal.exists_div (c := context) (a := d) (b := .ofNat top) (by rwa [Decimal.value_ofNat]) (by
    rw [hquotient, abs_of_nonneg hnonneg]
    refine lt_top (lt_of_le_of_lt (Decimal.Context.roundMagnitude_mono hnonneg hone) ?_)
    rw [← Decimal.Context.round_of_nonneg zero_le_one, ← Nat.cast_one, (exact_natCast (n := 1) (by norm_num)).1]
    norm_num)
  refine ⟨p, ?_, by rw [Decimal.value_of_div hp, hquotient]⟩
  exact bind_ok.mpr ⟨s, arith_ok.mpr hs, bind_ok.mpr ⟨d, arith_ok.mpr hd, arith_ok.mpr hp⟩⟩

/-! ### Places of winsorized values -/

/-- The numbers of a population. -/
def numbers (values : List Decimal) : List ℚ := values.map Decimal.value

/-- A number clamped between the order statistics at 5% and 95% of a population. -/
def clamped (values : List Decimal) (x : ℚ) : ℚ := (numbers values).winsorized (5 / 100) (95 / 100) x

/-- The winsorized numbers of a population. -/
def clampedAll (values : List Decimal) : List ℚ := (numbers values).map (clamped values)

section Population

variable {values values' : List Decimal}

theorem clamped_perm (h : values'.Perm values) (x : ℚ) : clamped values' x = clamped values x :=
  List.winsorized_perm (h.map _) _ _ x

theorem clampedAll_perm (h : values'.Perm values) : (clampedAll values').Perm (clampedAll values) := by
  have hsame : clamped values' = clamped values := funext (clamped_perm h)
  rw [clampedAll, hsame]
  exact (h.map _).map _

theorem mem_clampedAll {v : Decimal} (hv : v ∈ values) : clamped values v.value ∈ clampedAll values :=
  List.mem_map_of_mem (List.mem_map_of_mem hv)

theorem map_value_sortOn (l : List Decimal) : (l.sortOn Decimal.value).map Decimal.value = (numbers l).sortOn id := by
  have hperm : ((l.sortOn Decimal.value).map Decimal.value).Perm ((numbers l).sortOn id) :=
    ((List.sortOn_perm _ l).map _).trans (List.sortOn_perm id (numbers l)).symm
  refine hperm.eq_of_pairwise (fun a b _ _ => le_antisymm) ?_ (List.pairwise_sortOn id (numbers l))
  exact List.pairwise_map.mpr (List.pairwise_sortOn _ _)

/-- The order statistic that an index of the sorted list stands for. -/
theorem value_getD_sortOn (k : Nat) :
    ((values.sortOn Decimal.value).getD (k - 1) (.ofNat 0)).value = (numbers values).orderStatistic k := by
  have hzero : (Decimal.ofNat 0).value = 0 := by rw [Decimal.value_ofNat, Nat.cast_zero]
  rw [List.orderStatistic, ← map_value_sortOn, ← hzero, List.getD_map]

theorem value_winsorize (v : Decimal) : (winsorize values v).value = clamped values v.value := by
  have hlow : ⌈(5 / 100 : ℚ) * (numbers values).length⌉₊ = (5 * values.length + 99) / 100 := by
    rw [numbers, List.length_map]
    exact_mod_cast List.ceil_percent 5 values.length
  have hhigh : ⌈(95 / 100 : ℚ) * (numbers values).length⌉₊ = (95 * values.length + 99) / 100 := by
    rw [numbers, List.length_map]
    exact_mod_cast List.ceil_percent 95 values.length
  rw [clamped, List.winsorized, hlow, hhigh, ← value_getD_sortOn, ← value_getD_sortOn]
  unfold winsorize
  rw [value_smaller, value_larger]

/-- The percentile of a number of a population, from the counts of smaller and of not larger numbers. -/
def place (values : List Decimal) (x : ℚ) : Except Failure Decimal :=
  middle ((clampedAll values).countP (· < clamped values x)) ((clampedAll values).countP (· ≤ clamped values x) - 1)
    (values.length - 1)

theorem place_perm (h : values'.Perm values) (x : ℚ) : place values' x = place values x := by
  rw [place, place, clamped_perm h, (clampedAll_perm h).countP_eq, (clampedAll_perm h).countP_eq, h.length_eq]

/-- The two searches find the counts. -/
theorem midrank_eq_place {v : Decimal} (hv : v ∈ values) :
    midrank ((values.map (winsorize values)).sortOn Decimal.value) (winsorize values v) = place values v.value := by
  have hperm : (((values.map (winsorize values)).sortOn Decimal.value).map Decimal.value).Perm (clampedAll values) := by
    refine ((List.sortOn_perm _ _).map _).trans (List.Perm.of_eq ?_)
    rw [clampedAll, numbers, List.map_map, List.map_map]
    exact List.map_congr_left fun w _ => value_winsorize w
  have hmem : (winsorize values v).value ∈ ((values.map (winsorize values)).sortOn Decimal.value).map Decimal.value := by
    rw [hperm.mem_iff, value_winsorize]
    exact mem_clampedAll hv
  obtain ⟨hfirst, hlast⟩ := places_eq (List.pairwise_map.mpr (List.pairwise_sortOn _ _)) hmem
  unfold midrank
  rw [hfirst, hlast, hperm.countP_eq, hperm.countP_eq, value_winsorize, List.length_sortOn, List.length_map]
  rfl

theorem percentile_eq (h : 2 ≤ values.length) : percentile values = values.mapM (fun v => place values v.value) := by
  unfold percentile
  rw [if_neg (by omega), if_neg (by omega), List.mapM_map]
  exact Dict.mapM_congr fun v hv => midrank_eq_place hv

/-- The percentile of an entry is its midrank among the winsorized numbers, rounded. -/
theorem place_ok (h2 : 2 ≤ values.length) (hmax : values.length ≤ maxsize) {v : Decimal} (hv : v ∈ values) :
    ∃ p, place values v.value = .ok p ∧
      p.value = context.round ((clampedAll values).midrank (clamped values v.value)) := by
  have hlength : (clampedAll values).length = values.length := by
    rw [clampedAll, numbers, List.length_map, List.length_map]
  obtain ⟨hbelow, hupto⟩ := List.counts_of_mem (mem_clampedAll hv)
  have hle := List.countP_le_length (p := (· ≤ clamped values v.value)) (l := clampedAll values)
  rw [hlength] at hbelow hle
  obtain ⟨p, hp, hpv⟩ := @middle_ok ((clampedAll values).countP (· < clamped values v.value))
    ((clampedAll values).countP (· ≤ clamped values v.value) - 1) (values.length - 1) (by omega) (by omega) (by omega)
  refine ⟨p, hp, hpv.trans (congrArg _ ?_)⟩
  rw [List.midrank, hlength, Nat.cast_sub hupto, Nat.cast_sub (by omega : 1 ≤ values.length), Nat.cast_one]
  ring

/-- **Percentiles are midranks of winsorized values, rounded to the digits of the context.**  They lie in the unit
interval, equal values have equal ones, larger values no smaller ones, and they follow the values into any order. -/
theorem percentile_midranks (h2 : 2 ≤ values.length) (hmax : values.length ≤ maxsize) : ∃ f : Decimal → Decimal,
    (∀ values', values'.Perm values → percentile values' = .ok (values'.map f)) ∧
      ∀ v ∈ values, (f v).value = context.round ((clampedAll values).midrank (clamped values v.value)) ∧
        0 ≤ (f v).value ∧ (f v).value ≤ 1 ∧
        ∀ w ∈ values, (v.value = w.value → f v = f w) ∧ (v.value ≤ w.value → (f v).value ≤ (f w).value) := by
  have hplace : ∀ v ∈ values, place values v.value = .ok ((place values v.value).toOption.getD (.ofNat 0)) := by
    intro v hv
    obtain ⟨p, hp, -⟩ := place_ok h2 hmax hv
    rw [hp]
    rfl
  have hvalue : ∀ v ∈ values, ((place values v.value).toOption.getD (.ofNat 0)).value =
      context.round ((clampedAll values).midrank (clamped values v.value)) := by
    intro v hv
    obtain ⟨p, hp, hpv⟩ := place_ok h2 hmax hv
    rw [hp]
    exact hpv
  have hone : context.round 1 = 1 := by
    rw [← Nat.cast_one]
    exact (exact_natCast (n := 1) (by norm_num)).1
  refine ⟨fun v => (place values v.value).toOption.getD (.ofNat 0), fun values' hperm => ?_, fun v hv => ⟨hvalue v hv, ?_, ?_, ?_⟩⟩
  · rw [percentile_eq (hperm.length_eq ▸ h2)]
    refine Dict.mapM_of_forall₂ (List.forall₂_map_right_iff.mpr (List.forall₂_same.mpr fun v hv => ?_))
    rw [place_perm hperm]
    exact hplace v (hperm.subset hv)
  · rw [hvalue v hv]
    exact Decimal.Context.round_nonneg (List.midrank_nonneg (mem_clampedAll hv))
  · rw [hvalue v hv, ← hone]
    exact Decimal.Context.round_mono (List.midrank_le_one (mem_clampedAll hv))
  · refine fun w hw => ⟨fun hvw => congrArg (fun x => (place values x).toOption.getD (.ofNat 0)) hvw, fun hvw => ?_⟩
    rw [hvalue v hv, hvalue w hw]
    exact Decimal.Context.round_mono (List.midrank_mono (List.winsorized_mono _ _ _ hvw) (List.ne_nil_of_mem (mem_clampedAll hv)))

end Population

/-! ### Four values -/

/-- The values 0, 1, 2 and 3. -/
def fourValues : List Decimal := [.ofNat 0, .ofNat 1, .ofNat 2, .ofNat 3]

theorem midrank_fourValues : (clampedAll fourValues).midrank (clamped fourValues (Decimal.ofNat 1).value) = 1 / 3 := by
  decide +kernel

theorem percentile_midranks_sample : ∃ f : Decimal → Decimal, percentile fourValues = .ok (fourValues.map f) ∧
    (f (.ofNat 1)).value = context.round (1 / 3) := by
  obtain ⟨f, hf, hmidrank⟩ := @percentile_midranks fourValues (by decide) (by decide)
  obtain ⟨hone, -⟩ := hmidrank (.ofNat 1) (by decide)
  exact ⟨f, hf fourValues (List.Perm.refl _), by rw [hone, midrank_fourValues]⟩

/-- The second of four values has the midrank of a third, and its percentile has 28 digits. -/
theorem percentile_not_midrank : ¬ ∃ ps, percentile fourValues = .ok ps ∧
    List.Forall₂ (fun v p => p.value = (clampedAll fourValues).midrank (clamped fourValues v.value)) fourValues ps := by
  rintro ⟨ps, hps, hall⟩
  have hfour : percentile fourValues = .ok [⟨false, 0, 0⟩, ⟨false, 3333333333333333333333333333, -28⟩,
      ⟨false, 6666666666666666666666666667, -28⟩, ⟨false, 1, 0⟩] := Dict.ok_of_toOption (by decide +kernel)
  obtain rfl := Except.ok.inj (hfour.symm.trans hps)
  obtain ⟨hsecond, -⟩ := List.forall₂_cons.mp (List.forall₂_cons.mp hall).2
  rw [midrank_fourValues] at hsecond
  exact absurd hsecond (by decide +kernel)

end SevenLens.Screening
