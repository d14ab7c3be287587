import SevenLens.Library.Rank
import SevenLens.Library.Dict
import SevenLens.Securities.Contracts

/-! # Percentiles and scores of a cross-section

The nine raw subfactors of every complete security are winsorized, turned into midrank
percentiles column by column and averaged into four category scores and a composite.  All
arithmetic rounds to 28 digits.  `dominates_scores`: a security that is at least as good as
another one in every raw column has scores at least as high. -/

namespace SevenLens

namespace Screening

open Securities

/-- `_SCREENING_DECIMAL_CONTEXT`, which agrees with the default context. -/
def context : Decimal.Context := ⟨28, -999999, 999999, by decide⟩

/-- The nine raw subfactors, in the order of the manifest. -/
inductive RawSubfactor where
  | trend12621 | trend25221 | roa | cfoToAssets | accrualQuality
  | earningsYield | fcfYield | vol63 | maxDrawdown252
deriving DecidableEq, Repr

namespace RawSubfactor

def value : RawSubfactor → String
  | trend12621 => "trend_126_21"
  | trend25221 => "trend_252_21"
  | roa => "roa"
  | cfoToAssets => "cfo_to_assets"
  | accrualQuality => "accrual_quality"
  | earningsYield => "earnings_yield"
  | fcfYield => "fcf_yield"
  | vol63 => "vol63"
  | maxDrawdown252 => "max_drawdown_252"

def all : List RawSubfactor :=
  [trend12621, trend25221, roa, cfoToAssets, accrualQuality, earningsYield, fcfYield, vol63, maxDrawdown252]

/-- The risk columns: a small value is a good one. -/
def isRisk : RawSubfactor → Bool
  | vol63 | maxDrawdown252 => true
  | _ => false

theorem mem_all (name : RawSubfactor) : name ∈ all := by
  cases name <;> simp [all]

end RawSubfactor

/-- A dictionary of raw values by subfactor. -/
abbrev Row := RawSubfactor → Option Decimal

/-- The category scores and the composite of one security. -/
structure Scores where
  trend : Decimal
  quality : Decimal
  value : Decimal
  lowRisk : Decimal
  composite : Decimal
deriving DecidableEq, Repr

/-! ### Percentiles -/

/-- `max(a, b)` of two numbers: the first one unless the second is larger. -/
def larger (a b : Decimal) : Decimal := if a.value < b.value then b else a

/-- `min(a, b)` of two numbers: the first one unless the second is smaller. -/
def smaller (a b : Decimal) : Decimal := if b.value < a.value then b else a

/-- The value clamped into `[q05, q95]` of the population. -/
def winsorize (population : List Decimal) (v : Decimal) : Decimal :=
  let n := population.length
  let ordered := population.sortOn Decimal.value
  -- `ceil(p * n) - 1` in integers; both places lie inside the list
  let q05 := ordered.getD ((5 * n + 99) / 100 - 1) (.ofNat 0)
  let q95 := ordered.getD ((95 * n + 99) / 100 - 1) (.ofNat 0)
  smaller (larger v q05) q95

/-- The midrank of a value in a sorted list, between 0 and 1. -/
def midrank (sorted : List Decimal) (v : Decimal) : Except Failure Decimal := do
  let first := sorted.findIdx (fun w => w.equals v)
  let last := sorted.length - 1 - sorted.reverse.findIdx (fun w => w.equals v)
  let s ← arith (context.add (.ofNat first) (.ofNat last))
  let h ← arith (context.div s (.ofNat 2))
  arith (context.div h (.ofNat (sorted.length - 1)))

/-- `_percentile`: winsorize at 5% and 95%, then midrank percentiles. -/
def percentile (values : List Decimal) : Except Failure (List Decimal) :=
  if values.length = 0 then refuse "percentile requires a non-empty cross-section"
  else if values.length = 1 then .ok [⟨false, 5, -1⟩]
  else
    let winsorized := values.map (winsorize values)
    winsorized.mapM (midrank (winsorized.sortOn Decimal.value))

/-! ### Scores -/

/-- One value of the cross-section. -/
def cell (raw : List (SecurityId × Row)) (name : RawSubfactor) (sid : SecurityId) : Except Failure Decimal :=
  match raw.lookup sid with
  | none => .error (.keyError sid.value)
  | some row =>
    match row name with
    | none => .error (.keyError name.value)
    | some v => .ok v

/-- The percentiles of one subfactor, in the order of the securities.  Risk columns are negated
first, so that a high percentile means a low risk. -/
def percentileColumn (raw : List (SecurityId × Row)) (ids : List SecurityId) (name : RawSubfactor) :
    Except Failure (List Decimal) := do
  let column ← ids.mapM (cell raw name)
  let column ← column.mapM (fun v => if name.isRisk then arith (context.minus v) else .ok v)
  percentile column

/-- The percentile of a security under a subfactor. -/
def percentileOf (percentiles : List (RawSubfactor × List (SecurityId × Decimal))) (sid : SecurityId)
    (name : RawSubfactor) : Except Failure Decimal :=
  match percentiles.lookup name with
  | none => .error (.keyError name.value)
  | some column =>
    match column.lookup sid with
    | none => .error (.keyError sid.value)
    | some p => .ok p

/-- The average of a nonempty list, summed from the left. -/
def mean (x : Decimal) (xs : List Decimal) : Except Failure Decimal := do
  let total ← xs.foldlM (fun s y => arith (context.add s y)) x
  arith (context.div total (.ofNat (xs.length + 1)))

/-- `0.35 * trend + 0.25 * quality + 0.15 * value + 0.25 * low_risk` -/
def compositeOf (trend quality value lowRisk : Decimal) : Except Failure Decimal := do
  let t ← arith (context.mul ⟨false, 35, -2⟩ trend)
  let q ← arith (context.mul ⟨false, 25, -2⟩ quality)
  let s ← arith (context.add t q)
  let v ← arith (context.mul ⟨false, 15, -2⟩ value)
  let s ← arith (context.add s v)
  let l ← arith (context.mul ⟨false, 25, -2⟩ lowRisk)
  arith (context.add s l)

/-- The scores of one security from its nine percentiles. -/
def scoresOf (p : RawSubfactor → Except Failure Decimal) : Except Failure Scores := do
  let trend ← mean (← p .trend12621) [← p .trend25221]
  let quality ← mean (← p .roa) [← p .cfoToAssets, ← p .accrualQuality]
  let value ← mean (← p .earningsYield) [← p .fcfYield]
  let lowRisk ← mean (← p .vol63) [← p .maxDrawdown252]
  let composite ← compositeOf trend quality value lowRisk
  return { trend, quality, value, lowRisk, composite }

/-- `_category_scores`: the scores of every security over the complete cross-section. -/
def categoryScores (raw : List (SecurityId × Row)) : Except Failure (List (SecurityId × Scores)) := do
  if raw.isEmpty then return []
  let ids := (raw.map Prod.fst).sortOn id
  let columns ← RawSubfactor.all.mapM (percentileColumn raw ids)
  let percentiles := RawSubfactor.all.zip (columns.map (fun column => ids.zip column))
  let scores ← ids.mapM (fun sid => scoresOf (percentileOf percentiles sid))
  return ids.zip scores

/-! ### Percentiles keep the order -/

theorem value_larger (a b : Decimal) : (larger a b).value = max a.value b.value := by
  unfold larger
  split_ifs with h
  · rw [max_eq_right h.le]
  · rw [max_eq_left (not_lt.mp h)]

theorem value_smaller (a b : Decimal) : (smaller a b).value = min a.value b.value := by
  unfold smaller
  split_ifs with h
  · rw [min_eq_right h.le]
  · rw [min_eq_left (not_lt.mp h)]

theorem winsorize_mono (population : List Decimal) {v w : Decimal} (h : v.value ≤ w.value) :
    (winsorize population v).value ≤ (winsorize population w).value := by
  unfold winsorize
  simp only [value_smaller, value_larger]
  exact min_le_min_right _ (max_le_max_right _ h)

theorem findIdx_equals (l : List Decimal) (v : Decimal) :
    l.findIdx (fun w => w.equals v) = (l.map Decimal.value).findIdx (fun x => decide (x = v.value)) := by
  rw [List.findIdx_map]
  rfl

/-- The places of a value in a sorted list, counted. -/
theorem places_eq {sorted : List Decimal} (hs : (sorted.map Decimal.value).Pairwise (· ≤ ·)) {v : Decimal}
    (hv : v.value ∈ sorted.map Decimal.value) :
    sorted.findIdx (fun w => w.equals v) = (sorted.map Decimal.value).countP (fun x => decide (x < v.value)) ∧
      sorted.length - 1 - sorted.reverse.findIdx (fun w => w.equals v) =
        (sorted.map Decimal.value).countP (fun x => decide (x ≤ v.value)) - 1 := by
  constructor
  · rw [findIdx_equals, List.findIdx_eq_countP hs hv]
  · have hsum := List.countP_le_add_countP_lt (sorted.map Decimal.value) v.value
    rw [List.length_map] at hsum
    rw [findIdx_equals, List.map_reverse, List.findIdx_reverse_eq_countP hs hv]
    omega

/-- The value of a midrank, from the two places. -/
theorem value_of_midrank {sorted : List Decimal} {v p : Decimal} (h : midrank sorted v = .ok p) :
    p.value = context.round (context.round (context.round
      ((sorted.findIdx (fun w => w.equals v) : ℚ) +
        ((sorted.length - 1 - sorted.reverse.findIdx (fun w => w.equals v) : Nat) : ℚ)) / 2) /
      ((sorted.length - 1 : Nat) : ℚ)) := by
  unfold midrank at h
  obtain ⟨s, hs, h⟩ := bind_ok.mp h
  obtain ⟨d, hd, h⟩ := bind_ok.mp h
  rw [Decimal.value_of_div (arith_ok.mp h), Decimal.value_of_div (arith_ok.mp hd),
    Decimal.value_of_add (arith_ok.mp hs)]
  simp

theorem midrank_mono {sorted : List Decimal} (hs : (sorted.map Decimal.value).Pairwise (· ≤ ·))
    {v w p q : Decimal} (hv : v.value ∈ sorted.map Decimal.value) (hw : w.value ∈ sorted.map Decimal.value)
    (hp : midrank sorted v = .ok p) (hq : midrank sorted w = .ok q) (h : v.value ≤ w.value) :
    p.value ≤ q.value := by
  rw [value_of_midrank hp, value_of_midrank hq]
  obtain ⟨fv, lv⟩ := places_eq hs hv
  obtain ⟨fw, lw⟩ := places_eq hs hw
  rw [fv, lv, fw, lw]
  have h1 := List.countP_lt_mono (sorted.map Decimal.value) h
  have h2 := List.countP_le_mono (sorted.map Decimal.value) h
  have hround := Decimal.Context.round_mono (c := context)
  apply hround
  apply div_le_div_of_nonneg_right _ (Nat.cast_nonneg _)
  apply hround
  apply div_le_div_of_nonneg_right _ (by norm_num)
  apply hround
  exact add_le_add (by exact_mod_cast h1) (by exact_mod_cast Nat.sub_le_sub_right h2 1)

/-- Percentiles are related to their values so that larger values have no smaller ones. -/
theorem percentile_mono {values ps : List Decimal} (h : percentile values = .ok ps) :
    ∃ R : Decimal → Decimal → Prop, List.Forall₂ R values ps ∧
      ∀ v w p q, R v p → R w q → v.value ≤ w.value → p.value ≤ q.value := by
  unfold percentile at h
  split_ifs at h with h0 h1
  · cases h
  · cases h
    obtain ⟨v, rfl⟩ := List.length_eq_one_iff.mp h1
    exact ⟨fun _ p => p = ⟨false, 5, -1⟩, .cons rfl .nil, by rintro v w p q rfl rfl _; exact le_rfl⟩
  · dsimp only at h
    obtain ⟨ws, hws⟩ : ∃ ws, values.map (winsorize values) = ws := ⟨_, rfl⟩
    rw [hws] at h
    have hs : ((ws.sortOn Decimal.value).map Decimal.value).Pairwise (· ≤ ·) :=
      List.pairwise_map.mpr (List.pairwise_sortOn _ _)
    refine ⟨fun v p => v ∈ values ∧ midrank (ws.sortOn Decimal.value) (winsorize values v) = .ok p, ?_, ?_⟩
    · have hf := Dict.forall₂_of_mapM h
      rw [← hws, List.forall₂_map_left_iff] at hf
      rw [hws] at hf
      exact (List.forall₂_and_left _ _).mpr ⟨fun v hv => hv, hf⟩
    · rintro v w p q ⟨hv, hp⟩ ⟨hw, hq⟩ hvw
      have hmem : ∀ v ∈ values, (winsorize values v).value ∈ (ws.sortOn Decimal.value).map Decimal.value := by
        intro v hv
        refine List.mem_map.mpr ⟨winsorize values v, List.mem_sortOn.mpr ?_, rfl⟩
        rw [← hws]
        exact List.mem_map_of_mem hv
      exact midrank_mono hs (hmem v hv) (hmem w hw) hp hq (winsorize_mono values hvw)

/-! ### Dominance -/

/-- The first value is at least as good as the second under a subfactor. -/
def AtLeast (name : RawSubfactor) (v w : Decimal) : Prop :=
  if name.isRisk then v.value ≤ w.value else w.value ≤ v.value

instance (name : RawSubfactor) (v w : Decimal) : Decidable (AtLeast name v w) :=
  inferInstanceAs (Decidable (ite _ _ _))

/-- Two complete rows, the first at least as good as the second in each of the nine columns. -/
def Dominates (a b : Row) : Prop :=
  ∀ name, ∃ v w, a name = some v ∧ b name = some w ∧ AtLeast name v w

/-- All five scores are at least those of another security. -/
structure Scores.AtLeast (s t : Scores) : Prop where
  trend : t.trend.value ≤ s.trend.value
  quality : t.quality.value ≤ s.quality.value
  value : t.value.value ≤ s.value.value
  lowRisk : t.lowRisk.value ≤ s.lowRisk.value
  composite : t.composite.value ≤ s.composite.value

/-- In a column the percentiles follow the raw values. -/
theorem percentileColumn_mono {raw : List (SecurityId × Row)} {ids : List SecurityId} {name : RawSubfactor}
    {column : List Decimal} (h : percentileColumn raw ids name = .ok column) {A B : SecurityId}
    (hA : A ∈ ids) (hB : B ∈ ids) {v w : Decimal} (hv : cell raw name A = .ok v) (hw : cell raw name B = .ok w)
    (hvw : AtLeast name v w) :
    ∃ p q, (ids.zip column).lookup A = some p ∧ (ids.zip column).lookup B = some q ∧ q.value ≤ p.value := by
  unfold percentileColumn at h
  obtain ⟨cells, hcells, h⟩ := bind_ok.mp h
  obtain ⟨signed, hsigned, h⟩ := bind_ok.mp h
  obtain ⟨R, hR, hmono⟩ := percentile_mono h
  have hall := Dict.forall₂_comp (Dict.forall₂_of_mapM hcells) (Dict.forall₂_comp (Dict.forall₂_of_mapM hsigned) hR)
  obtain ⟨p, hp, v', hv', y, hy, hRp⟩ := Dict.lookup_zip_of_forall₂ hall hA
  obtain ⟨q, hq, w', hw', z, hz, hRq⟩ := Dict.lookup_zip_of_forall₂ hall hB
  obtain rfl : v = v' := by simpa [hv] using hv'
  obtain rfl : w = w' := by simpa [hw] using hw'
  refine ⟨p, q, hp, hq, hmono z y q p hRq hRp ?_⟩
  unfold AtLeast at hvw
  split_ifs at hy hz hvw
  · -- negation turns the order round, and rounding keeps it
    rw [Decimal.value_of_minus (arith_ok.mp hy), Decimal.value_of_minus (arith_ok.mp hz)]
    exact Decimal.Context.round_mono (neg_le_neg hvw)
  · cases hy
    cases hz
    exact hvw

theorem foldlM_add_mono {x y s t : Decimal} {xs ys : List Decimal}
    (hxs : xs.foldlM (fun s y => arith (context.add s y)) x = .ok s)
    (hys : ys.foldlM (fun s y => arith (context.add s y)) y = .ok t) (h : x.value ≤ y.value)
    (hall : List.Forall₂ (fun a b => a.value ≤ b.value) xs ys) : s.value ≤ t.value := by
  induction hall generalizing x y with
  | nil =>
    cases hxs
    cases hys
    exact h
  | cons hab _ ih =>
    rw [List.foldlM_cons] at hxs hys
    obtain ⟨s', hs', hxs⟩ := bind_ok.mp hxs
    obtain ⟨t', ht', hys⟩ := bind_ok.mp hys
    refine ih hxs hys ?_
    rw [Decimal.value_of_add (arith_ok.mp hs'), Decimal.value_of_add (arith_ok.mp ht')]
    exact Decimal.Context.round_mono (add_le_add h hab)

theorem mean_mono {x y s t : Decimal} {xs ys : List Decimal} (hs : mean x xs = .ok s) (ht : mean y ys = .ok t)
    (h : x.value ≤ y.value) (hall : List.Forall₂ (fun a b => a.value ≤ b.value) xs ys) : s.value ≤ t.value := by
  unfold mean at hs ht
  obtain ⟨a, ha, hs⟩ := bind_ok.mp hs
  obtain ⟨b, hb, ht⟩ := bind_ok.mp ht
  rw [Decimal.value_of_div (arith_ok.mp hs), Decimal.value_of_div (arith_ok.mp ht), hall.length_eq]
  apply Decimal.Context.round_mono
  rw [Decimal.value_ofNat]
  exact div_le_div_of_nonneg_right (foldlM_add_mono ha hb h hall) (Nat.cast_nonneg _)

/-- The value of the composite. -/
theorem value_of_composite {trend quality value lowRisk c : Decimal}
    (h : compositeOf trend quality value lowRisk = .ok c) :
    c.value = context.round (context.round (context.round
      (context.round (35 / 100 * trend.value) + context.round (25 / 100 * quality.value)) +
        context.round (15 / 100 * value.value)) + context.round (25 / 100 * lowRisk.value)) := by
  unfold compositeOf at h
  obtain ⟨t, ht, h⟩ := bind_ok.mp h
  obtain ⟨q, hq, h⟩ := bind_ok.mp h
  obtain ⟨s, hs, h⟩ := bind_ok.mp h
  obtain ⟨v, hv, h⟩ := bind_ok.mp h
  obtain ⟨s', hs', h⟩ := bind_ok.mp h
  obtain ⟨l, hl, h⟩ := bind_ok.mp h
  have h35 : Decimal.value ⟨false, 35, -2⟩ = 35 / 100 := by norm_num [Decimal.value, Decimal.magnitude]
  have h25 : Decimal.value ⟨false, 25, -2⟩ = 25 / 100 := by norm_num [Decimal.value, Decimal.magnitude]
  have h15 : Decimal.value ⟨false, 15, -2⟩ = 15 / 100 := by norm_num [Decimal.value, Decimal.magnitude]
  rw [Decimal.value_of_add (arith_ok.mp h), Decimal.value_of_mul (arith_ok.mp hl),
    Decimal.value_of_add (arith_ok.mp hs'), Decimal.value_of_mul (arith_ok.mp hv),
    Decimal.value_of_add (arith_ok.mp hs), Decimal.value_of_mul (arith_ok.mp hq),
    Decimal.value_of_mul (arith_ok.mp ht), h35, h25, h15]

theorem compositeOf_mono {t q v l t' q' v' l' c c' : Decimal} (h : compositeOf t q v l = .ok c)
    (h' : compositeOf t' q' v' l' = .ok c') (ht : t.value ≤ t'.value) (hq : q.value ≤ q'.value)
    (hv : v.value ≤ v'.value) (hl : l.value ≤ l'.value) : c.value ≤ c'.value := by
  rw [value_of_composite h, value_of_composite h']
  have hround := Decimal.Context.round_mono (c := context)
  have hw : ∀ {w x y : ℚ}, 0 ≤ w → x ≤ y → context.round (w * x) ≤ context.round (w * y) :=
    fun hw hxy => hround (mul_le_mul_of_nonneg_left hxy hw)
  apply hround
  refine add_le_add (hround (add_le_add (hround (add_le_add ?_ ?_)) ?_)) ?_
  · exact hw (by norm_num) ht
  · exact hw (by norm_num) hq
  · exact hw (by norm_num) hv
  · exact hw (by norm_num) hl

/-- What the five scores are computed from. -/
theorem scoresOf_ok {p : RawSubfactor → Except Failure Decimal} {s : Scores} (h : scoresOf p = .ok s)
    {x : RawSubfactor → Decimal} (hx : ∀ name, p name = .ok (x name)) :
    mean (x .trend12621) [x .trend25221] = .ok s.trend ∧
      mean (x .roa) [x .cfoToAssets, x .accrualQuality] = .ok s.quality ∧
      mean (x .earningsYield) [x .fcfYield] = .ok s.value ∧
      mean (x .vol63) [x .maxDrawdown252] = .ok s.lowRisk ∧
      compositeOf s.trend s.quality s.value s.lowRisk = .ok s.composite := by
  have hb : ∀ (d : Decimal) (f : Decimal → Except Failure Scores), ((Except.ok d) >>= f) = f d := fun _ _ => rfl
  simp only [scoresOf, hx, hb] at h
  obtain ⟨trend, ht, h⟩ := bind_ok.mp h
  obtain ⟨quality, hq, h⟩ := bind_ok.mp h
  obtain ⟨value, hv, h⟩ := bind_ok.mp h
  obtain ⟨lowRisk, hl, h⟩ := bind_ok.mp h
  obtain ⟨composite, hc, h⟩ := bind_ok.mp h
  cases h
  exact ⟨ht, hq, hv, hl, hc⟩

/-- Scores follow the percentiles. -/
theorem scoresOf_mono {p p' : RawSubfactor → Except Failure Decimal} {s s' : Scores} (h : scoresOf p = .ok s)
    (h' : scoresOf p' = .ok s')
    (hp : ∀ name, ∃ x x', p name = .ok x ∧ p' name = .ok x' ∧ x'.value ≤ x.value) : s.AtLeast s' := by
  choose x x' hx hx' hle using hp
  obtain ⟨ht, hq, hv, hl, hc⟩ := scoresOf_ok h hx
  obtain ⟨ht', hq', hv', hl', hc'⟩ := scoresOf_ok h' hx'
  have htrend := mean_mono ht' ht (hle _) (.cons (hle _) .nil)
  have hquality := mean_mono hq' hq (hle _) (.cons (hle _) (.cons (hle _) .nil))
  have hvalue := mean_mono hv' hv (hle _) (.cons (hle _) .nil)
  have hlow := mean_mono hl' hl (hle _) (.cons (hle _) .nil)
  exact ⟨htrend, hquality, hvalue, hlow, compositeOf_mono hc' hc htrend hquality hvalue hlow⟩

/-- What the pass over the cross-section has computed when it ends: for each security the
scores of its percentiles, and each percentile from its column. -/
theorem categoryScores_ok {raw : List (SecurityId × Row)} {scores : List (SecurityId × Scores)}
    (h : categoryScores raw = .ok scores) {A : SecurityId} (hA : A ∈ raw.map Prod.fst) :
    ∃ percentiles s, scores.lookup A = some s ∧ scoresOf (percentileOf percentiles A) = .ok s ∧
      ∀ name, ∃ column, percentileColumn raw ((raw.map Prod.fst).sortOn id) name = .ok column ∧
        percentiles.lookup name = some (((raw.map Prod.fst).sortOn id).zip column) := by
  unfold categoryScores at h
  split_ifs at h with h0
  · rw [List.isEmpty_iff] at h0
    simp [h0] at hA
  · dsimp only at h
    obtain ⟨columns, hc, h⟩ := bind_ok.mp h
    obtain ⟨all, hs, h⟩ := bind_ok.mp h
    cases h
    obtain ⟨s, hl, hsc⟩ := Dict.lookup_zip_of_forall₂ (Dict.forall₂_of_mapM hs) (List.mem_sortOn.mpr hA)
    refine ⟨_, s, hl, hsc, fun name => ?_⟩
    have hf : List.Forall₂ (fun name (column : List (SecurityId × Decimal)) => ∃ c,
        percentileColumn raw ((raw.map Prod.fst).sortOn id) name = .ok c ∧
          column = ((raw.map Prod.fst).sortOn id).zip c) RawSubfactor.all
        (columns.map (fun column => ((raw.map Prod.fst).sortOn id).zip column)) := by
      rw [List.forall₂_map_right_iff]
      exact (Dict.forall₂_of_mapM hc).imp (fun _ c hc => ⟨c, hc, rfl⟩)
    obtain ⟨column, hl, c, hc, rfl⟩ := Dict.lookup_zip_of_forall₂ hf (RawSubfactor.mem_all name)
    exact ⟨c, hc, hl⟩

theorem cell_of_mem {raw : List (SecurityId × Row)} (hn : (raw.map Prod.fst).Nodup) {A : SecurityId} {a : Row}
    (hA : (A, a) ∈ raw) {name : RawSubfactor} {v : Decimal} (hv : a name = some v) : cell raw name A = .ok v := by
  rw [cell, Dict.lookup_of_mem hn hA]
  simp [hv]

/-- A security that is at least as good in every raw column has scores at least as high. -/
theorem scores_of_dominates {raw : List (SecurityId × Row)} {scores : List (SecurityId × Scores)}
    (hn : (raw.map Prod.fst).Nodup) (h : categoryScores raw = .ok scores) {A B : SecurityId} {a b : Row}
    (hA : (A, a) ∈ raw) (hB : (B, b) ∈ raw) (hd : Dominates a b) :
    ∃ s t, scores.lookup A = some s ∧ scores.lookup B = some t ∧ s.AtLeast t := by
  have hAk : A ∈ raw.map Prod.fst := List.mem_map.mpr ⟨_, hA, rfl⟩
  have hBk : B ∈ raw.map Prod.fst := List.mem_map.mpr ⟨_, hB, rfl⟩
  obtain ⟨pA, s, hs, hsc, hcolA⟩ := categoryScores_ok h hAk
  obtain ⟨pB, t, ht, htc, hcolB⟩ := categoryScores_ok h hBk
  refine ⟨s, t, hs, ht, scoresOf_mono hsc htc (fun name => ?_)⟩
  obtain ⟨column, hcol, hlA⟩ := hcolA name
  obtain ⟨column', hcol', hlB⟩ := hcolB name
  obtain rfl : column = column' := by simpa [hcol] using hcol'
  obtain ⟨v, w, hv, hw, hvw⟩ := hd name
  obtain ⟨p, q, hp, hq, hle⟩ := percentileColumn_mono hcol (List.mem_sortOn.mpr hAk) (List.mem_sortOn.mpr hBk)
    (cell_of_mem hn hA hv) (cell_of_mem hn hB hw) hvw
  exact ⟨p, q, by simp [percentileOf, hlA, hp], by simp [percentileOf, hlB, hq], hle⟩

/-! ### Digits of the scores -/

/-- None of the five scores has more digits than the context keeps. -/
structure Scores.Representable (s : Scores) : Prop where
  trend : context.Representable s.trend.value
  quality : context.Representable s.quality.value
  value : context.Representable s.value.value
  lowRisk : context.Representable s.lowRisk.value
  composite : context.Representable s.composite.value

theorem mean_representable {x s : Decimal} {xs : List Decimal} (h : mean x xs = .ok s) :
    context.Representable s.value := by
  obtain ⟨a, _, h⟩ := bind_ok.mp h
  rw [Decimal.value_of_div (arith_ok.mp h)]
  exact Decimal.Context.representable_round _

theorem scores_representable {raw : List (SecurityId × Row)} {scores : List (SecurityId × Scores)}
    (h : categoryScores raw = .ok scores) {A : SecurityId} (hA : A ∈ raw.map Prod.fst) {s : Scores}
    (hs : scores.lookup A = some s) : s.Representable := by
  obtain ⟨p, s', hs', hsc, hcol⟩ := categoryScores_ok h hA
  obtain rfl : s = s' := by simpa [hs] using hs'
  have hp : ∀ name, ∃ x, percentileOf p A name = .ok x := by
    intro name
    obtain ⟨column, hcolumn, hl⟩ := hcol name
    have hlen : List.Forall₂ (fun _ _ => True) ((raw.map Prod.fst).sortOn id) column := by
      obtain ⟨cells, hcells, hrest⟩ := bind_ok.mp hcolumn
      obtain ⟨signed, hsigned, hper⟩ := bind_ok.mp hrest
      obtain ⟨R, hR, _⟩ := percentile_mono hper
      exact (Dict.forall₂_comp (Dict.forall₂_of_mapM hcells)
        (Dict.forall₂_comp (Dict.forall₂_of_mapM hsigned) hR)).imp (fun _ _ _ => trivial)
    obtain ⟨x, hx, _⟩ := Dict.lookup_zip_of_forall₂ hlen (List.mem_sortOn.mpr hA)
    exact ⟨x, by simp [percentileOf, hl, hx]⟩
  choose x hx using hp
  obtain ⟨ht, hq, hv, hl, hc⟩ := scoresOf_ok hsc hx
  refine ⟨mean_representable ht, mean_representable hq, mean_representable hv, mean_representable hl, ?_⟩
  rw [value_of_composite hc]
  exact Decimal.Context.representable_round _

end Screening

end SevenLens
