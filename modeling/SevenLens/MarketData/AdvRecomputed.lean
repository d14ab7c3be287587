import SevenLens.MarketData.Adv
import SevenLens.Securities.Eligibility

/-! # The average that the database recomputes

`append_market_snapshot` averages close times volume over the same sessions, exactly and from
the raw bars: it knows of no splits.  Both sides find a value in the same cases.  The values
agree where `computeAdv20` never rounds: where every exact step of its arithmetic
(`advSteps`) has at most 28 digits.  A split leaves the product of close and volume alone, so
without rounding it does not move the average. -/

namespace SevenLens.MarketData

open Securities Screening

/-! ### The recomputation -/

/-- A bar of the payload, as the database reads it. -/
structure SourceRow where
  tradingDate : TradingDate
  close : ℚ
  volume : ℚ

def DailyBar.row (bar : DailyBar) : SourceRow := ⟨bar.tradingDate, bar.close.value, bar.volume⟩

/-- `expected_sessions` -/
def expectedSessions (sessions : List MarketSession) (asOf : UtcTimestamp) : List TradingDate :=
  (((sessions.filter (fun s => (decide (s.dayKind = .regular) || decide (s.dayKind = .halfDay)) &&
    decide (s.tradingDate.days < asOf.day))).map MarketSession.tradingDate).sortOn TradingDate.days).reverse.take 20

/-- `latest_bars`: the rows of the requested dates that are expected sessions.  No date is
requested twice. -/
def latestBars (rows : List SourceRow) (barDates : List TradingDate) (sessions : List MarketSession)
    (asOf : UtcTimestamp) : List ℚ :=
  (rows.filter (fun row => decide (row.tradingDate ∈ barDates) &&
    decide (row.tradingDate ∈ expectedSessions sessions asOf))).map (fun row => row.close * row.volume)

/-- `avg`, which is null for no row. -/
def average (l : List ℚ) : Option ℚ := if l = [] then none else some (l.sum / l.length)

/-- The condition under which a snapshot is not refused for its average.  `adv` is the average in
the wire and `belowMinimum` says that `ADV_BELOW_MINIMUM` is among its reasons. -/
def advDerived (adv : Option ℚ) (belowMinimum : Bool) (latest : List ℚ) : Bool :=
  !((decide (20 ≤ latest.length) && (decide (adv = none) || decide (adv ≠ average latest))) ||
    (decide (latest.length < 20) && decide (adv ≠ none)) || (decide (latest.length < 20) != belowMinimum))

/-- The only average that passes. -/
def expectedAdv (latest : List ℚ) : Option ℚ := if 20 ≤ latest.length then average latest else none

/-- The assembler gives the reason exactly if it has no average. -/
theorem advDerived_iff {adv : Option ℚ} {latest : List ℚ} :
    advDerived adv adv.isNone latest = true ↔ adv = expectedAdv latest := by
  unfold advDerived expectedAdv
  by_cases hlen : 20 ≤ latest.length
  · have hne : latest ≠ [] := by
      rintro rfl
      simp at hlen
    have havg : average latest ≠ none := by
      rw [average, if_neg hne]
      exact Option.some_ne_none _
    rw [if_pos hlen]
    cases adv with
    | none => simpa [hlen] using havg.symm
    | some x => simp [hlen, not_lt.mpr hlen]
  · rw [if_neg hlen]
    cases adv with
    | none => simp [not_le.mp hlen]
    | some x => simp [not_le.mp hlen]

/-- What the database computes from the bars and the calendar of a snapshot. -/
def recomputed (bars : List DailyBar) (sessions : List MarketSession) (asOf : UtcTimestamp) : List ℚ :=
  latestBars (bars.map DailyBar.row) (bars.map DailyBar.tradingDate) sessions asOf

/-! ### The same sessions and bars -/

section

variable {bars : List DailyBar} {sessions : List MarketSession} {splits : List SplitAdjustment}
  {asOf knownAt : UtcTimestamp} {sid : SecurityId}

theorem qualifyingDates_take : (qualifyingDates sessions (some asOf.day)).take 20 = expectedSessions sessions asOf := rfl

theorem nodup_expectedSessions (h : (sessions.map MarketSession.tradingDate).Nodup) :
    (expectedSessions sessions asOf).Nodup := by
  refine List.Nodup.sublist (List.take_sublist _ _) (List.nodup_reverse.mpr ?_)
  refine (List.sortOn_perm _ _).nodup_iff.mpr ?_
  exact h.sublist (List.filter_sublist.map _)

theorem barOn_eq_some_iff (h : (bars.map DailyBar.tradingDate).Nodup) {date : TradingDate} {bar : DailyBar} :
    barOn bars date = some bar ↔ bar ∈ bars ∧ bar.tradingDate = date := by
  rw [barOn, Dict.find?_eq_some_iff_of_unique, decide_eq_true_eq]
  intro a ha b hb hka hkb
  exact List.inj_on_of_nodup_map h ha hb ((of_decide_eq_true hka).trans (of_decide_eq_true hkb).symm)

/-- The bars found session by session are the bars of these sessions. -/
theorem filterMap_barOn_perm (h : (bars.map DailyBar.tradingDate).Nodup) {dates : List TradingDate} (hd : dates.Nodup) :
    (dates.filterMap (barOn bars)).Perm (bars.filter (fun bar => decide (bar.tradingDate ∈ dates))) := by
  refine (List.perm_ext_iff_of_nodup ?_ ?_).mpr ?_
  · refine hd.filterMap fun date date' bar hb hb' => ?_
    exact ((barOn_eq_some_iff h).mp hb).2.symm.trans ((barOn_eq_some_iff h).mp hb').2
  · exact (List.Nodup.of_map _ h).filter _
  · intro bar
    simp only [List.mem_filterMap, barOn_eq_some_iff h, List.mem_filter, decide_eq_true_eq]
    constructor
    · rintro ⟨date, hdate, hbar, rfl⟩
      exact ⟨hbar, hdate⟩
    · rintro ⟨hbar, hdate⟩
      exact ⟨bar.tradingDate, hdate, hbar, rfl⟩

/-- The exact dollar volume of a bar. -/
def DailyBar.dollars (bar : DailyBar) : ℚ := bar.close.value * bar.volume

theorem recomputed_eq : recomputed bars sessions asOf =
    (bars.filter (fun bar => decide (bar.tradingDate ∈ expectedSessions sessions asOf))).map DailyBar.dollars := by
  unfold recomputed latestBars
  rw [List.filter_map, List.map_map]
  congr 1
  refine List.filter_congr fun bar hb => ?_
  have hmem : bar.tradingDate ∈ bars.map DailyBar.tradingDate := List.mem_map_of_mem hb
  simp only [Function.comp_apply, DailyBar.row, hmem, decide_true, Bool.true_and]
  exact decide_eq_decide.mpr Iff.rfl

theorem recomputed_perm (asOf : UtcTimestamp) (h : (bars.map DailyBar.tradingDate).Nodup)
    (hs : (sessions.map MarketSession.tradingDate).Nodup) :
    (((expectedSessions sessions asOf).filterMap (barOn bars)).map DailyBar.dollars).Perm
      (recomputed bars sessions asOf) := by
  rw [recomputed_eq]
  exact (filterMap_barOn_perm h (nodup_expectedSessions hs)).map _

/-- Some of the twenty sessions or of their bars are missing exactly if the database counts fewer
than twenty rows. -/
theorem missing_iff (asOf : UtcTimestamp) (h : (bars.map DailyBar.tradingDate).Nodup) (hs : (sessions.map MarketSession.tradingDate).Nodup) :
    ((expectedSessions sessions asOf).length < 20 ∨ ∃ date ∈ expectedSessions sessions asOf, barOn bars date = none) ↔
      (recomputed bars sessions asOf).length < 20 := by
  have hlen := (recomputed_perm asOf h hs).length_eq
  rw [List.length_map] at hlen
  have hle : ((expectedSessions sessions asOf).filterMap (barOn bars)).length ≤ (expectedSessions sessions asOf).length :=
    List.length_filterMap_le _ _
  have htake : (expectedSessions sessions asOf).length ≤ 20 := List.length_take_le _ _
  have hall := List.filterMap_length_eq_length (f := barOn bars) (l := expectedSessions sessions asOf)
  rw [← hlen]
  constructor
  · rintro (hlt | ⟨date, hdate, hnone⟩)
    · omega
    · refine lt_of_le_of_ne (hle.trans htake) fun h20 => ?_
      have hsome := hall.mp (by omega) date hdate
      rw [hnone] at hsome
      cases hsome
  · intro hlt
    by_contra hnot
    push Not at hnot
    have hsome : ∀ date ∈ expectedSessions sessions asOf, (barOn bars date).isSome = true :=
      fun date hdate => Option.isSome_iff_ne_none.mpr (hnot.2 date hdate)
    have := hall.mpr hsome
    omega

end

/-! ### The exact steps -/

/-- The steps of applying splits to a close and a volume. -/
def splitSteps : ℚ → ℚ → List SplitAdjustment → List ℚ
  | _, _, [] => []
  | close, volume, split :: rest =>
    close * split.denominator :: close * split.denominator / split.numerator ::
      volume * split.numerator :: volume * split.numerator / split.denominator ::
      splitSteps (close * split.denominator / split.numerator) (volume * split.numerator / split.denominator) rest

/-- The steps of the dollar volume of a bar. -/
def barSteps (splits : List SplitAdjustment) (asOf knownAt : UtcTimestamp) (bar : DailyBar) : List ℚ :=
  splitSteps bar.close.value bar.volume (splits.filter (applies (some asOf) (some knownAt) bar)) ++ [bar.dollars]

/-- The steps of the running total. -/
def totalSteps (splits : List SplitAdjustment) (asOf knownAt : UtcTimestamp) : ℚ → List DailyBar → List ℚ
  | _, [] => []
  | total, bar :: rest =>
    barSteps splits asOf knownAt bar ++ (total + bar.dollars) :: totalSteps splits asOf knownAt (total + bar.dollars) rest

/-- The steps of the average. -/
def advSteps (splits : List SplitAdjustment) (asOf knownAt : UtcTimestamp) (eligible : List DailyBar) : List ℚ :=
  totalSteps splits asOf knownAt 0 eligible ++ [(eligible.map DailyBar.dollars).sum / 20]

section

variable {splits : List SplitAdjustment} {asOf knownAt : UtcTimestamp}

/-- One split leaves the product alone where it does not round. -/
theorem applySplit_exact {x : Decimal × Decimal} {s : SplitAdjustment}
    (h : ∀ y ∈ splitSteps x.1.value x.2.value [s], context.Exact y) :
    ∃ x', applySplit x s = .ok x' ∧ x'.1.value = x.1.value * s.denominator / s.numerator ∧
      x'.2.value = x.2.value * s.numerator / s.denominator := by
  obtain ⟨hnum, hden⟩ := s.positive
  have hnum : (Decimal.ofNat s.numerator).value ≠ 0 := by
    rw [Decimal.value_ofNat]
    exact_mod_cast hnum.ne'
  have hden : (Decimal.ofNat s.denominator).value ≠ 0 := by
    rw [Decimal.value_ofNat]
    exact_mod_cast hden.ne'
  simp only [splitSteps, List.forall_mem_cons, List.not_mem_nil, false_imp_iff, implies_true, and_true] at h
  obtain ⟨h1, h2, h3, h4⟩ := h
  obtain ⟨a, ha, hav⟩ := Decimal.mul_exact (c := context) (a := x.1) (b := .ofNat s.denominator)
    (by rwa [Decimal.value_ofNat])
  rw [Decimal.value_ofNat] at hav
  obtain ⟨close, hclose, hcv⟩ := Decimal.div_exact (c := context) (a := a) hnum (by rwa [Decimal.value_ofNat, hav])
  rw [Decimal.value_ofNat, hav] at hcv
  obtain ⟨b, hb, hbv⟩ := Decimal.mul_exact (c := context) (a := x.2) (b := .ofNat s.numerator)
    (by rwa [Decimal.value_ofNat])
  rw [Decimal.value_ofNat] at hbv
  obtain ⟨volume, hvolume, hvv⟩ := Decimal.div_exact (c := context) (a := b) hden (by rwa [Decimal.value_ofNat, hbv])
  rw [Decimal.value_ofNat, hbv] at hvv
  refine ⟨(close, volume), ?_, hcv, hvv⟩
  simp only [applySplit, ha, hclose, hb, hvolume, arith, bind, Except.bind, pure, Except.pure]

theorem applySplits_exact {l : List SplitAdjustment} {x : Decimal × Decimal}
    (h : ∀ y ∈ splitSteps x.1.value x.2.value l, context.Exact y) :
    ∃ x', l.foldlM applySplit x = .ok x' ∧ x'.1.value * x'.2.value = x.1.value * x.2.value := by
  induction l generalizing x with
  | nil => exact ⟨x, rfl, rfl⟩
  | cons split rest ih =>
    obtain ⟨hnum, hden⟩ := split.positive
    have hnum : (split.numerator : ℚ) ≠ 0 := by exact_mod_cast hnum.ne'
    have hden : (split.denominator : ℚ) ≠ 0 := by exact_mod_cast hden.ne'
    simp only [splitSteps, List.forall_mem_cons] at h
    obtain ⟨h1, h2, h3, h4, hrest⟩ := h
    obtain ⟨x', hx', hc, hv⟩ := applySplit_exact (x := x) (s := split) (by
      simp only [splitSteps, List.forall_mem_cons, List.not_mem_nil, false_imp_iff, implies_true, and_true]
      exact ⟨h1, h2, h3, h4⟩)
    rw [← hc, ← hv] at hrest
    obtain ⟨x'', hx'', hprod⟩ := ih hrest
    refine ⟨x'', ?_, ?_⟩
    · rw [List.foldlM_cons, hx']
      exact hx''
    · rw [hprod, hc, hv]
      field_simp

theorem dollarVolume_exact {bar : DailyBar} (h : ∀ y ∈ barSteps splits asOf knownAt bar, context.Exact y) :
    ∃ d, dollarVolume splits (some asOf) (some knownAt) bar = .ok d ∧ d.value = bar.dollars := by
  rw [barSteps, List.forall_mem_append] at h
  obtain ⟨hsplits, hdollars⟩ := h
  obtain ⟨x, hx, hprod⟩ := applySplits_exact (x := (bar.close, .ofNat bar.volume)) (by
    rw [Decimal.value_ofNat]
    exact hsplits)
  rw [Decimal.value_ofNat] at hprod
  obtain ⟨d, hd, hdv⟩ := Decimal.mul_exact (c := context) (a := x.1) (b := x.2) (by
    rw [hprod]
    exact hdollars _ (List.mem_singleton_self _))
  refine ⟨d, ?_, hdv.trans hprod⟩
  simp only [dollarVolume, hx, hd, arith, bind, Except.bind]

/-- The running total is the exact sum where no step rounds. -/
theorem totalDollarVolume_exact {l : List DailyBar} (total : Decimal)
    (h : ∀ y ∈ totalSteps splits asOf knownAt total.value l, context.Exact y) :
    ∃ d, l.foldlM (totalDollarVolume splits (some asOf) (some knownAt)) total = .ok d ∧
      d.value = total.value + (l.map DailyBar.dollars).sum := by
  induction l generalizing total with
  | nil => exact ⟨total, rfl, by simp⟩
  | cons bar rest ih =>
    rw [totalSteps, List.forall_mem_append, List.forall_mem_cons] at h
    obtain ⟨hbar, hsum, hrest⟩ := h
    obtain ⟨d, hd, hdv⟩ := dollarVolume_exact hbar
    obtain ⟨t, ht, htv⟩ := Decimal.add_exact (c := context) (a := total) (b := d) (by rwa [hdv])
    rw [hdv] at htv
    rw [← htv] at hrest
    obtain ⟨e, he, hev⟩ := ih t hrest
    refine ⟨e, ?_, ?_⟩
    · rw [List.foldlM_cons]
      simp only [totalDollarVolume, hd, ht, arith, bind, Except.bind]
      exact he
    · rw [hev, htv, List.map_cons, List.sum_cons, add_assoc]

theorem averageDollarVolume_exact {eligible : List DailyBar}
    (h : ∀ y ∈ advSteps splits asOf knownAt eligible, context.Exact y) :
    ∃ d, averageDollarVolume splits (some asOf) (some knownAt) eligible = .ok d ∧
      d.value = (eligible.map DailyBar.dollars).sum / 20 := by
  rw [advSteps, List.forall_mem_append] at h
  obtain ⟨htotal, havg⟩ := h
  obtain ⟨t, ht, htv⟩ := totalDollarVolume_exact (.ofNat 0) (by
    rw [Decimal.value_ofNat]
    exact_mod_cast htotal)
  rw [Decimal.value_ofNat, Nat.cast_zero, zero_add] at htv
  have h20 : (Decimal.ofNat 20).value = 20 := by
    rw [Decimal.value_ofNat]
    norm_num
  obtain ⟨d, hd, hdv⟩ := Decimal.div_exact (c := context) (a := t) (b := .ofNat 20) (by rw [h20]; norm_num) (by
    rw [h20, htv]
    exact havg _ (List.mem_singleton_self _))
  rw [h20, htv] at hdv
  refine ⟨d, ?_, hdv⟩
  simp only [averageDollarVolume, ht, hd, arith, bind, Except.bind]

end

/-! ### Agreement -/

/-- The arguments of an assembler pass every check, the one of the calendar window included. -/
structure AdvAccepted (bars : List DailyBar) (sessions : List MarketSession) (splits : List SplitAdjustment)
    (asOf knownAt : UtcTimestamp) (sid : SecurityId) : Prop extends
    AdvAdmissible bars sessions splits asOf knownAt sid where
  bound : IdentityBound bars splits
  complete : ∀ start ∈ (expectedSessions sessions asOf).getLast?,
    requireCompleteWeekdayWindow sessions start.days asOf.day = .ok ()

/-- No step of the average of twenty bars has more than 28 digits or an exponent out of range. -/
def NeverRounds (bars : List DailyBar) (sessions : List MarketSession) (splits : List SplitAdjustment)
    (asOf knownAt : UtcTimestamp) : Prop :=
  20 ≤ (recomputed bars sessions asOf).length →
    ∀ x ∈ advSteps splits asOf knownAt ((expectedSessions sessions asOf).filterMap (barOn bars)), context.Exact x

section

variable {bars : List DailyBar} {sessions : List MarketSession} {splits : List SplitAdjustment}
  {asOf knownAt : UtcTimestamp} {sid : SecurityId}

theorem nodup_sessions (h : validateNyseSessions sessions = .ok ()) :
    (sessions.map MarketSession.tradingDate).Nodup := by
  simp only [validateNyseSessions, bind_ok, require_ok, exists_const] at h
  exact h.2.1

/-- The arguments are accepted and the twenty bars are averaged, or one of them is missing. -/
theorem computeAdv20_eq (h : AdvAccepted bars sessions splits asOf knownAt sid) :
    computeAdv20 bars sessions splits (some asOf) (some knownAt) (some sid) =
      if (recomputed bars sessions asOf).length < 20 then .ok none
      else (averageDollarVolume splits (some asOf) (some knownAt)
        ((expectedSessions sessions asOf).filterMap (barOn bars))).map some := by
  have hcheck := checkAdv_ok.mpr ⟨h.toAdvAdmissible, h.bound⟩
  have hmissing := missing_iff asOf h.barDates (nodup_sessions h.calendar)
  have hwindow : (expectedSessions sessions asOf).getLast?.forM
      (fun start => requireCompleteWeekdayWindow sessions start.days asOf.day) = .ok () := by
    have hcomplete := h.complete
    revert hcomplete
    cases (expectedSessions sessions asOf).getLast? with
    | none => exact fun _ => rfl
    | some start => exact fun hcomplete => hcomplete start rfl
  simp only [computeAdv20, hcheck, eligibleBars, qualifyingDates_take, hwindow, bind, Except.bind]
  by_cases hlt : (recomputed bars sessions asOf).length < 20
  · rw [if_pos (hmissing.mpr hlt), if_pos hlt]
    rfl
  · rw [if_neg fun hm => hlt (hmissing.mp hm), if_neg hlt]
    simp only [pure, Except.pure, Option.orElse_eq_orElse, Option.orElse_some]
    cases averageDollarVolume splits (some asOf) (some knownAt)
      ((expectedSessions sessions asOf).filterMap (barOn bars)) <;> rfl

theorem computeAdv20_none_iff (h : AdvAccepted bars sessions splits asOf knownAt sid) :
    computeAdv20 bars sessions splits (some asOf) (some knownAt) (some sid) = .ok none ↔
      expectedAdv (recomputed bars sessions asOf) = none := by
  rw [computeAdv20_eq h, expectedAdv]
  by_cases hlt : (recomputed bars sessions asOf).length < 20
  · simp [hlt]
  · have hne : recomputed bars sessions asOf ≠ [] := by
      intro he
      simp [he] at hlt
    rw [if_neg hlt, if_pos (not_lt.mp hlt), average, if_neg hne]
    cases averageDollarVolume splits (some asOf) (some knownAt)
      ((expectedSessions sessions asOf).filterMap (barOn bars)) <;> simp [Except.map]

/-- Both sides have an average in the same cases.  Where no step rounds, the averages are equal with
and without the splits, the database takes the snapshot and the security is on the same side of the
minimum. -/
theorem adv_agrees_of_neverRounds (h : AdvAccepted bars sessions splits asOf knownAt sid) :
    (computeAdv20 bars sessions splits (some asOf) (some knownAt) (some sid) = .ok none ↔
      expectedAdv (recomputed bars sessions asOf) = none) ∧
    (NeverRounds bars sessions splits asOf knownAt →
      ∃ adv, computeAdv20 bars sessions splits (some asOf) (some knownAt) (some sid) = .ok adv ∧
        adv.map Decimal.value = expectedAdv (recomputed bars sessions asOf) ∧
        advDerived (adv.map Decimal.value) adv.isNone (recomputed bars sessions asOf) = true ∧
        ((∃ d ∈ adv, minAdv20Usd.value ≤ d.value) ↔
          ∃ x ∈ expectedAdv (recomputed bars sessions asOf), minAdv20Usd.value ≤ x)) := by
  refine ⟨computeAdv20_none_iff h, fun hexact => ?_⟩
  have hvalue : ∃ adv, computeAdv20 bars sessions splits (some asOf) (some knownAt) (some sid) = .ok adv ∧
      adv.map Decimal.value = expectedAdv (recomputed bars sessions asOf) := by
    rw [computeAdv20_eq h, expectedAdv]
    by_cases hlt : (recomputed bars sessions asOf).length < 20
    · exact ⟨none, if_pos hlt, by rw [if_neg (not_le.mpr hlt)]; rfl⟩
    · have hperm := recomputed_perm asOf h.barDates (nodup_sessions h.calendar)
      have hle : (recomputed bars sessions asOf).length ≤ 20 := by
        rw [← hperm.length_eq, List.length_map]
        exact (List.length_filterMap_le _ _).trans (List.length_take_le _ _)
      have hlen : (recomputed bars sessions asOf).length = 20 := le_antisymm hle (not_lt.mp hlt)
      have hne : recomputed bars sessions asOf ≠ [] := by
        intro he
        simp [he] at hlen
      obtain ⟨d, hd, hdv⟩ := averageDollarVolume_exact (hexact (not_lt.mp hlt))
      refine ⟨some d, by rw [if_neg hlt, hd]; rfl, ?_⟩
      rw [if_pos (not_lt.mp hlt), average, if_neg hne, Option.map_some, hdv, hperm.sum_eq, hlen]
      norm_num
  obtain ⟨adv, hadv, heq⟩ := hvalue
  refine ⟨adv, hadv, heq, ?_, ?_⟩
  · have hnone : adv.isNone = (adv.map Decimal.value).isNone := by
      cases adv <;> rfl
    rw [hnone]
    exact advDerived_iff.mpr heq
  · rw [← heq]
    cases adv <;> simp

end

/-! ### Twenty sessions -/

instance neZeroDayMinutes : NeZero 1440 := ⟨by decide⟩

instance neZeroJulyDays : NeZero 26 := ⟨by decide⟩

theorem four_dollars : 0 < 4 := by decide

theorem two_for_one : 0 < 2 ∧ 0 < 1 := by decide

theorem sampleNotice_family : sampleNotice.family = .alpacaCorporateActions ∧ sampleNotice ∈ [sampleNotice] :=
  ⟨rfl, List.mem_singleton_self _⟩

/-- A time of a date, in minutes. -/
def timeOn (date : TradingDate) (minutes : Fin 1440) : UtcTimestamp :=
  ⟨date.startMicros + minutes * 60000000, by
    have hday := date.startMicros_add_le
    have hlt := minutes.isLt
    have hmicros : dayMicros = 1440 * 60000000 := by decide
    omega⟩

/-- A day of July 2026, from the sixth on. -/
def julyDate (k : Fin 26) : TradingDate where
  year := 2026
  month := 7
  day := 6 + k
  year_ok := TradingDate.year_2026
  month_ok := TradingDate.july
  day_ok := by
    have hk := k.isLt
    have hdays : daysInMonth 2026 7 = 31 := by decide
    omega

/-- The regular session of that day, from 13:30 to 20:00. -/
def julySession (k : Fin 26) : MarketSession where
  tradingDate := julyDate k
  dayKind := .regular
  regularSession := some ⟨timeOn (julyDate k) 810, timeOn (julyDate k) 1200, by
    rw [UtcTimestamp.lt_iff]
    exact Nat.add_lt_add_left (by decide) _⟩
  window_ok := by simp

/-- The weekdays of the four weeks from 2026-07-06 on. -/
def fourWeeks : List (Fin 26) := [0, 1, 2, 3, 4, 7, 8, 9, 10, 11, 14, 15, 16, 17, 18, 21, 22, 23, 24, 25]

def julySessions : List MarketSession := fourWeeks.map julySession

/-- Monday, 2026-08-03. -/
def monday : TradingDate := ⟨2026, 8, 3, TradingDate.year_2026, TradingDate.august, by decide⟩

/-- 14:00 on that day. -/
def mondayOpen : UtcTimestamp := timeOn monday 840

def sampleSecurity : SecurityId := ⟨"00000001", Eq.refl true⟩

/-- A bar of a day in July with a whole close. -/
def julyBar (close volume : Nat) (h : 0 < close) (k : Fin 26) : DailyBar where
  tradingDate := julyDate k
  close := .ofNat close
  volume := volume
  sourceRef := ⟨"bars-1", .alpacaHistoricalBars, repeated '1' (Eq.refl true), Eq.refl true⟩
  availableAt := timeOn monday 0
  securityId := sampleSecurity
  identityHash := repeated 'a' (Eq.refl true)
  close_pos := by
    rw [Decimal.value_ofNat]
    exact_mod_cast h
  source_ok := rfl

/-- Two bars of 20 times 8,200,000 and eighteen of 4 times 1,000,000. -/
def julyBars : List DailyBar :=
  (fourWeeks.take 2).map (julyBar 20 8200000 (by decide)) ++ (fourWeeks.drop 2).map (julyBar 4 1000000 four_dollars)

/-- A split of the ratio, effective on the day of the average. -/
def mondaySplit (numerator denominator : Nat) (h : 0 < numerator ∧ 0 < denominator) : SplitAdjustment where
  securityId := sampleSecurity
  exDate := monday
  numerator := numerator
  denominator := denominator
  sourceRef := sampleNotice
  availableAt := timeOn monday 0
  eventId := sampleSplit.eventId
  eventRecordHash := repeated 'd' (Eq.refl true)
  securityIdentityHash := repeated 'a' (Eq.refl true)
  actionType := .reverseSplit
  effectiveDate := monday
  sourceRefs := [sampleNotice]
  positive := h
  source_ok := sampleNotice_family

/-- A reverse split of 1 for 7 rounds the volumes: the average falls below the minimum that the exact
one meets, and the database does not take the snapshot. -/
theorem adv_differs_after_reverse_split :
    computeAdv20 julyBars julySessions [mondaySplit 1 7 (by decide)] (some mondayOpen) (some mondayOpen)
        (some sampleSecurity) = .ok (some ⟨false, 1999999999999999999999999999, -20⟩) ∧
      expectedAdv (recomputed julyBars julySessions mondayOpen) = some 20000000 ∧
      advDerived (some (Decimal.value ⟨false, 1999999999999999999999999999, -20⟩)) false
        (recomputed julyBars julySessions mondayOpen) = false := by
  decide +kernel

/-- A reverse split of 1 for 2 rounds nothing. -/
theorem adv_agrees_after_reverse_split :
    ∃ adv, computeAdv20 julyBars julySessions [mondaySplit 1 2 (by decide)] (some mondayOpen) (some mondayOpen)
        (some sampleSecurity) = .ok adv ∧ adv.map Decimal.value = some 20000000 := by
  have hcheck : checkAdv julyBars julySessions [mondaySplit 1 2 (by decide)] (some mondayOpen) (some mondayOpen)
      (some sampleSecurity) = .ok () := by decide +kernel
  obtain ⟨hadmissible, hbound⟩ := checkAdv_ok.mp hcheck
  obtain ⟨-, hagree⟩ := adv_agrees_of_neverRounds ⟨hadmissible, hbound, by decide +kernel⟩
  obtain ⟨adv, hadv, hvalue, -⟩ := hagree (fun _ => by decide +kernel)
  exact ⟨adv, hadv, hvalue.trans (by decide +kernel)⟩

end SevenLens.MarketData
