import SevenLens.Screening.Clusters
import Mathlib.Data.List.Perm.Basic

/-! # Correlated pairs of nodes

What the judgement of two accepted series says about the raw returns.  A series is accepted by
itself (`Accepts`), two nodes are compared over the dates of the window on which both have a
return (`common`), and neither the order of the mapping nor that of a pair matters
(`acceptedSeries_perm`, `judged_iff`).  `mem_keptEdges`: the edges are the correlated pairs of the
nodes that are known. -/

namespace SevenLens.Screening

open Securities MarketData

/-! ### The window -/

section

variable {sessions : List MarketSession} {cutoff count : Nat} {date : TradingDate}

theorem mem_latestOpenDates (h : date ∈ latestOpenDates sessions cutoff count) :
    date.days < cutoff ∧ ∃ session ∈ sessions, session.tradingDate = date ∧ session.isOpen = true := by
  obtain ⟨session, hs, rfl⟩ := List.mem_map.mp (List.mem_sortOn.mp (List.mem_of_mem_drop h))
  obtain ⟨hs, hopen⟩ := List.mem_filter.mp hs
  rw [Bool.and_eq_true, decide_eq_true_eq] at hopen
  exact ⟨hopen.1, session, hs, rfl, hopen.2⟩

/-- The window is in order, and no date is in it twice. -/
theorem latestOpenDates_pairwise (h : (sessions.map MarketSession.tradingDate).Nodup) :
    (latestOpenDates sessions cutoff count).Pairwise (fun d e => d.days < e.days) := by
  refine (List.pairwise_lt_sortOn ?_).sublist (List.drop_sublist _ _)
  rw [List.map_map, ← List.map_map]
  exact (h.sublist (List.filter_sublist.map _)).map days_injective

theorem sessionCalendar_nodup (h : sessionCalendar sessions = .ok ()) :
    (sessions.map MarketSession.tradingDate).Nodup := by
  obtain ⟨_, h, -⟩ := bind_ok.mp h
  exact require_ok.mp h

/-- The window is the latest open dates, and the only failure is the one of an incomplete calendar. -/
theorem latestOpenSessionDates_ok {window : List TradingDate}
    (h : latestOpenSessionDates sessions cutoff count = .ok window) :
    window = latestOpenDates sessions cutoff count := by
  unfold latestOpenSessionDates at h
  obtain ⟨_, -, h⟩ := bind_ok.mp h
  exact (Except.ok.inj h).symm

/-- The failure of a calendar that lacks a weekday of the window. -/
def incompleteWindow : Failure := .raised ⟨.valueError, "NYSE calendar window must include every weekday explicitly"⟩

theorem latestOpenSessionDates_error {e : Failure} (h : latestOpenSessionDates sessions cutoff count = .error e) :
    e = incompleteWindow := by
  unfold latestOpenSessionDates at h
  simp only [requireCompleteWeekdayWindow, require, requireOr] at h
  split_ifs at h
  · cases hd : (latestOpenDates sessions cutoff count).head? with
    | none =>
      rw [hd] at h
      cases h
    | some d =>
      rw [hd] at h
      simp only [Option.forM] at h
      split_ifs at h
      · cases h
      · exact (Except.error.inj h).symm
  · cases h

end

/-! ### Accepted series -/

section

variable {sessions : List MarketSession} {asOf : UtcTimestamp} {nodes nodes' : List SecurityId}
  {node : SecurityId} {returns returns' : ReturnsMapping} {accepted accepted' : List (SecurityId × Series)} {s : Series}

/-- The window of an instant. -/
def window (sessions : List MarketSession) (asOf : UtcTimestamp) : List TradingDate :=
  latestOpenDates sessions asOf.day clusterSessionWindow

/-- The series is accepted. -/
structure Accepts (sessions : List MarketSession) (asOf : UtcTimestamp) (node : SecurityId)
    (series : List ReturnObservation) : Prop where
  acceptable : Acceptable sessions asOf node series
  window_length : (window sessions asOf).length = clusterSessionWindow
  enough : minReturns ≤ (inWindow (window sessions asOf) series).length

instance (node : SecurityId) (series : List ReturnObservation) : Decidable (Accepts sessions asOf node series) :=
  decidable_of_iff (Acceptable sessions asOf node series ∧ (window sessions asOf).length = clusterSessionWindow ∧
      minReturns ≤ (inWindow (window sessions asOf) series).length)
    ⟨fun h => ⟨h.1, h.2.1, h.2.2⟩, fun h => ⟨h.1, h.2, h.3⟩⟩

/-- What is kept of an accepted series. -/
def seriesOf (sessions : List MarketSession) (asOf : UtcTimestamp) (series : List ReturnObservation) : Series :=
  ⟨(inWindow (window sessions asOf) series).map (fun item => (item.tradingDate, item.value.value)), seriesRefs series⟩

theorem acceptSeries_ok {series : List ReturnObservation} {r : Option Series}
    (h : acceptSeries sessions asOf node series = .ok r) :
    r = if Accepts sessions asOf node series then some (seriesOf sessions asOf series) else none := by
  unfold acceptSeries at h
  by_cases hacc : Acceptable sessions asOf node series
  · rw [if_pos hacc] at h
    obtain ⟨w, hw, h⟩ := bind_ok.mp h
    rw [latestOpenSessionDates_ok hw, ← window] at h
    by_cases hlen : (window sessions asOf).length = clusterSessionWindow ∧
        minReturns ≤ (inWindow (window sessions asOf) series).length
    · have hyes : Accepts sessions asOf node series := ⟨hacc, hlen.1, hlen.2⟩
      rw [if_pos hlen] at h
      rw [if_pos hyes]
      exact (Except.ok.inj h).symm
    · have hno : ¬ Accepts sessions asOf node series := fun ha => hlen ⟨ha.window_length, ha.enough⟩
      rw [if_neg hlen] at h
      rw [if_neg hno]
      exact (Except.ok.inj h).symm
  · have hno : ¬ Accepts sessions asOf node series := fun ha => hacc ha.acceptable
    rw [if_neg hacc] at h
    rw [if_neg hno]
    exact (Except.ok.inj h).symm

theorem acceptSeries_error {series : List ReturnObservation} {e : Failure}
    (h : acceptSeries sessions asOf node series = .error e) : e = incompleteWindow := by
  unfold acceptSeries at h
  split_ifs at h
  · cases hw : latestOpenSessionDates sessions asOf.day clusterSessionWindow with
    | error e' =>
      rw [hw] at h
      obtain rfl := Except.error.inj h
      exact latestOpenSessionDates_error hw
    | ok w =>
      rw [hw] at h
      simp only [bind, Except.bind] at h
      split_ifs at h <;> cases h
  · cases h

theorem acceptItem_ok {item : String × List ReturnObservation} {r : Option (SecurityId × Series)}
    (h : acceptItem sessions asOf nodes item = .ok r) :
    r = some (node, s) ↔
      node ∈ nodes ∧ node.value = item.1 ∧ Accepts sessions asOf node item.2 ∧ s = seriesOf sessions asOf item.2 := by
  unfold acceptItem at h
  cases hfind : nodes.find? (fun node => decide (node.value = item.1)) with
  | none =>
    rw [hfind] at h
    cases h
    refine ⟨fun h => absurd h (by simp), fun ⟨hmem, hvalue, _⟩ => ?_⟩
    exact absurd (decide_eq_true hvalue) (List.find?_eq_none.mp hfind node hmem)
  | some found =>
    rw [hfind] at h
    obtain ⟨r', hr, h⟩ := bind_ok.mp h
    obtain rfl := Except.ok.inj h
    rw [acceptSeries_ok hr]
    have hmem := List.mem_of_find?_eq_some hfind
    have hvalue : found.value = item.1 := by simpa using List.find?_some hfind
    constructor
    · intro heq
      split_ifs at heq with hacc
      · obtain ⟨rfl, rfl⟩ := Prod.mk.inj (Option.some.inj heq)
        exact ⟨hmem, hvalue, hacc, rfl⟩
      · cases heq
    · rintro ⟨-, hnode, hacc, rfl⟩
      obtain rfl := SecurityId.value_injective (hvalue.trans hnode.symm)
      rw [if_pos hacc]
      rfl

theorem acceptItem_error {item : String × List ReturnObservation} {e : Failure}
    (h : acceptItem sessions asOf nodes item = .error e) : e = incompleteWindow := by
  unfold acceptItem at h
  split at h
  · cases h
  · rename_i found _
    cases hs : acceptSeries sessions asOf found item.2 with
    | error e' =>
      rw [hs] at h
      obtain rfl := Except.error.inj h
      exact acceptSeries_error hs
    | ok r =>
      rw [hs] at h
      cases h

theorem acceptItem_nodes (hn : nodes.Perm nodes') (item : String × List ReturnObservation) :
    acceptItem sessions asOf nodes item = acceptItem sessions asOf nodes' item := by
  unfold acceptItem
  rw [Dict.find?_perm hn]
  intro a _ b _ ha hb
  exact SecurityId.value_injective ((of_decide_eq_true ha).trans (of_decide_eq_true hb).symm)

/-- The accepted series are those of the nodes that the mapping has an acceptable series for. -/
theorem mem_accepted (h : acceptedSeries sessions asOf nodes returns = .ok accepted) :
    (node, s) ∈ accepted ↔ node ∈ nodes ∧ ∃ series, (node.value, series) ∈ returns.items ∧
      Accepts sessions asOf node series ∧ s = seriesOf sessions asOf series := by
  obtain ⟨r, hr, h⟩ := bind_ok.mp h
  obtain rfl := Except.ok.inj h
  have hf := Dict.forall₂_of_mapM hr
  constructor
  · intro hmem
    obtain ⟨x, hx, hsome⟩ := List.mem_filterMap.mp hmem
    obtain rfl : x = some (node, s) := hsome
    rw [Dict.eq_filterMap_of_mapM hr] at hx
    obtain ⟨item, hitem, hok⟩ := List.mem_filterMap.mp hx
    obtain ⟨hnode, hvalue, hacc, rfl⟩ := (acceptItem_ok (Dict.ok_of_toOption hok)).mp rfl
    exact ⟨hnode, item.2, hvalue ▸ hitem, hacc, rfl⟩
  · rintro ⟨hnode, series, hitem, hacc, rfl⟩
    obtain ⟨x, hx, hok⟩ := Dict.exists_of_forall₂ hf hitem
    refine List.mem_filterMap.mpr ⟨x, hx, ?_⟩
    exact (acceptItem_ok hok).mpr ⟨hnode, rfl, hacc, rfl⟩

theorem nodup_accepted (h : acceptedSeries sessions asOf nodes returns = .ok accepted) :
    (accepted.map Prod.fst).Nodup := by
  obtain ⟨r, hr, h⟩ := bind_ok.mp h
  obtain rfl := Except.ok.inj h
  rw [Dict.eq_filterMap_of_mapM hr, List.filterMap_filterMap, List.Nodup, List.pairwise_map]
  refine List.Pairwise.filterMap _ ?_ (List.pairwise_map.mp returns.keys_nodup)
  intro item item' hne p hp p' hp' heq
  obtain ⟨x, hx, rfl⟩ := Option.bind_eq_some_iff.mp hp
  obtain ⟨x', hx', rfl⟩ := Option.bind_eq_some_iff.mp hp'
  have h1 := ((acceptItem_ok (Dict.ok_of_toOption hx)).mp rfl).2.1
  have h2 := ((acceptItem_ok (Dict.ok_of_toOption hx')).mp rfl).2.1
  exact hne (h1.symm.trans ((congrArg SecurityId.value heq).trans h2))

theorem lookup_accepted (h : acceptedSeries sessions asOf nodes returns = .ok accepted) :
    accepted.lookup node = some s ↔ node ∈ nodes ∧ ∃ series, (node.value, series) ∈ returns.items ∧
      Accepts sessions asOf node series ∧ s = seriesOf sessions asOf series := by
  rw [← mem_accepted h]
  exact ⟨Dict.mem_of_lookup, Dict.lookup_of_mem (nodup_accepted h)⟩

/-- Neither the order of the nodes nor that of the mapping changes what is accepted. -/
theorem acceptedSeries_perm (sessions : List MarketSession) (asOf : UtcTimestamp) (hn : nodes.Perm nodes') (hr : returns.items.Perm returns'.items) :
    acceptedSeries sessions asOf nodes returns = .error incompleteWindow ∧
        acceptedSeries sessions asOf nodes' returns' = .error incompleteWindow ∨
      ∃ accepted accepted', acceptedSeries sessions asOf nodes returns = .ok accepted ∧
        acceptedSeries sessions asOf nodes' returns' = .ok accepted' ∧
        ∀ node, accepted.lookup node = accepted'.lookup node := by
  have hitems : acceptItem sessions asOf nodes = acceptItem sessions asOf nodes' := funext (acceptItem_nodes hn)
  rcases Dict.mapM_perm (f := acceptItem sessions asOf nodes) (fun item _ e h => acceptItem_error h) hr with
    ⟨h1, h2⟩ | ⟨r, r', h1, h2, -⟩
  · refine .inl ⟨?_, ?_⟩
    · rw [acceptedSeries, h1]
      rfl
    · rw [acceptedSeries, ← hitems, h2]
      rfl
  · have hacc : acceptedSeries sessions asOf nodes returns = .ok (r.filterMap id) := by
      rw [acceptedSeries, h1]
      rfl
    have hacc' : acceptedSeries sessions asOf nodes' returns' = .ok (r'.filterMap id) := by
      rw [acceptedSeries, ← hitems, h2]
      rfl
    refine .inr ⟨_, _, hacc, hacc', fun node => Option.ext fun s => ?_⟩
    simp only [lookup_accepted hacc, lookup_accepted hacc', hn.mem_iff, hr.mem_iff]

end

/-! ### Correlated pairs -/

section

variable (sessions : List MarketSession) (asOf : UtcTimestamp) (returns : ReturnsMapping) (a b : SecurityId)

/-- The return of a node on a date, by the mapping. -/
def returnOn (date : TradingDate) : Option ℚ :=
  (((returns.items.lookup a.value).getD []).find? (fun item => decide (item.tradingDate = date))).map
    (fun item => item.value.value)

/-- The observations that two nodes have in common in the window. -/
def common : List (ℚ × ℚ) :=
  (window sessions asOf).filterMap (fun date => do return (← returnOn returns a date, ← returnOn returns b date))

/-- The correlation of two nodes is defined: there are 100 common observations, and neither side of them is
constant. -/
structure Comparable : Prop where
  enough : minReturns ≤ (common sessions asOf returns a b).length
  left : 0 < Correlation.var ((common sessions asOf returns a b).map Prod.fst)
  right : 0 < Correlation.var ((common sessions asOf returns a b).map Prod.snd)

/-- Two nodes have 100 common observations and a correlation of at least 0.75. -/
structure Correlated : Prop where
  enough : minReturns ≤ (common sessions asOf returns a b).length
  coefficient : (correlationThreshold : ℝ) ≤ Correlation.pearson ((common sessions asOf returns a b).map Prod.fst)
    ((common sessions asOf returns a b).map Prod.snd)

/-- The series of a node holds its returns in the window. -/
structure Holds (s : Series) : Prop where
  lookup : ∀ date ∈ window sessions asOf, s.observations.lookup date = returnOn returns a date
  dates_mem : ∀ date ∈ s.dates, date ∈ window sessions asOf
  nodup : s.dates.Nodup

end

section

variable {ri rj : List ℚ}

theorem exists_pearson (hi : minReturns ≤ ri.length) (hij : ri.length = rj.length)
    (h : 0 < Correlation.var ri ∧ 0 < Correlation.var rj) : ∃ rho, pearson ri rj = some rho := by
  unfold pearson
  rw [if_neg (not_or.mpr ⟨not_not.mpr hij, not_lt.mpr hi⟩), dif_pos h]
  exact ⟨_, rfl⟩

theorem pearson_eq_none (h : ¬ (0 < Correlation.var ri ∧ 0 < Correlation.var rj)) : pearson ri rj = none := by
  unfold pearson
  rw [dif_neg h, ite_self]

theorem threshold_nonneg : 0 ≤ correlationThreshold := by norm_num [correlationThreshold]

/-- The rational comparison is the one of the coefficient. -/
theorem pearsonMeetsThreshold_iff {threshold : ℚ} (hi : minReturns ≤ ri.length) (hij : ri.length = rj.length)
    (hvi : 0 < Correlation.var ri) (hvj : 0 < Correlation.var rj) (ht : 0 ≤ threshold) :
    pearsonMeetsThreshold ri rj threshold = true ↔ (threshold : ℝ) ≤ Correlation.pearson ri rj := by
  rw [Correlation.le_pearson_iff ht hvi hvj]
  unfold pearsonMeetsThreshold
  rw [if_neg (not_or.mpr ⟨not_not.mpr hij, not_lt.mpr hi⟩)]
  by_cases hcov : Correlation.cov ri rj < 0
  · simp [hcov, not_le.mpr hcov]
  · simp [hcov, not_lt.mp hcov, not_le.mpr hvi, not_le.mpr hvj]

end

section

variable {sessions : List MarketSession} {asOf : UtcTimestamp} {returns : ReturnsMapping} {a b : SecurityId}
  {s t : Series}

theorem common_swap : common sessions asOf returns b a = (common sessions asOf returns a b).map Prod.swap := by
  rw [common, common, List.map_filterMap]
  refine List.filterMap_congr fun date _ => ?_
  cases returnOn returns a date <;> cases returnOn returns b date <;> rfl

theorem Comparable.symm (h : Comparable sessions asOf returns a b) : Comparable sessions asOf returns b a := by
  refine ⟨?_, ?_, ?_⟩
  · rw [common_swap, List.length_map]
    exact h.enough
  · rw [common_swap, List.map_map]
    exact h.right
  · rw [common_swap, List.map_map]
    exact h.left

theorem Correlated.symm (h : Correlated sessions asOf returns a b) : Correlated sessions asOf returns b a := by
  refine ⟨?_, ?_⟩
  · rw [common_swap, List.length_map]
    exact h.enough
  · rw [common_swap, List.map_map, List.map_map, Correlation.pearson_comm]
    exact h.coefficient

theorem Correlated.comparable (h : Correlated sessions asOf returns a b) : Comparable sessions asOf returns a b := by
  have hprod : Correlation.var ((common sessions asOf returns a b).map Prod.fst) *
      Correlation.var ((common sessions asOf returns a b).map Prod.snd) ≠ 0 := by
    intro hzero
    have hcoefficient := h.coefficient
    rw [Correlation.pearson, hzero, Rat.cast_zero, Real.sqrt_zero, div_zero] at hcoefficient
    norm_num [correlationThreshold] at hcoefficient
  exact ⟨h.enough, lt_of_le_of_ne (Correlation.var_nonneg _) (left_ne_zero_of_mul hprod).symm,
    lt_of_le_of_ne (Correlation.var_nonneg _) (right_ne_zero_of_mul hprod).symm⟩

theorem holds_of_accepts {series : List ReturnObservation} (hmem : (a.value, series) ∈ returns.items)
    (h : Accepts sessions asOf a series) : Holds sessions asOf returns a (seriesOf sessions asOf series) := by
  obtain ⟨-, -, -, -, -, -, -, hnodup⟩ := h.acceptable
  have hdates : (seriesOf sessions asOf series).dates.Nodup := by
    rw [Series.dates, seriesOf, List.map_map]
    exact hnodup.sublist (List.filter_sublist.map _)
  have hunique : ∀ x ∈ series, ∀ y ∈ series, x.tradingDate = y.tradingDate → x = y :=
    fun x hx y hy hxy => List.inj_on_of_nodup_map hnodup hx hy hxy
  refine ⟨fun date hdate => Option.ext fun x => ?_, fun date hdate => ?_, hdates⟩
  · have hlookup : (seriesOf sessions asOf series).observations.lookup date = some x ↔
        (date, x) ∈ (seriesOf sessions asOf series).observations :=
      ⟨Dict.mem_of_lookup, Dict.lookup_of_mem hdates⟩
    rw [hlookup, returnOn, Dict.lookup_of_mem returns.keys_nodup hmem, Option.getD_some, Option.map_eq_some_iff]
    simp only [seriesOf, inWindow, List.mem_map, List.mem_filter, decide_eq_true_eq, Prod.mk.injEq]
    constructor
    · rintro ⟨item, ⟨hitem, -⟩, rfl, rfl⟩
      refine ⟨item, ?_, rfl⟩
      refine (Dict.find?_eq_some_iff_of_unique ?_).mpr ⟨hitem, by simp⟩
      intro x hx y hy hdx hdy
      exact hunique x hx y hy ((of_decide_eq_true hdx).trans (of_decide_eq_true hdy).symm)
    · rintro ⟨item, hfind, rfl⟩
      have hitem := List.mem_of_find?_eq_some hfind
      obtain rfl : item.tradingDate = date := by simpa using List.find?_some hfind
      exact ⟨item, ⟨hitem, hdate⟩, rfl, rfl⟩
  · rw [Series.dates, seriesOf, List.map_map] at hdate
    obtain ⟨item, hitem, rfl⟩ := List.mem_map.mp hdate
    exact of_decide_eq_true (List.mem_filter.mp hitem).2

theorem Holds.mem_dates (h : Holds sessions asOf returns a s) {date : TradingDate}
    (hdate : date ∈ window sessions asOf) : date ∈ s.dates ↔ (returnOn returns a date).isSome = true := by
  rw [← h.lookup date hdate, Option.isSome_iff_exists]
  constructor
  · intro hmem
    obtain ⟨p, hp, rfl⟩ := List.mem_map.mp hmem
    exact ⟨p.2, Dict.lookup_of_mem h.nodup hp⟩
  · rintro ⟨x, hx⟩
    exact List.mem_map_of_mem (Dict.mem_of_lookup hx)

variable (hcal : (sessions.map MarketSession.tradingDate).Nodup) (hs : Holds sessions asOf returns a s)
  (ht : Holds sessions asOf returns b t)
include hcal hs ht

/-- The common dates, in the order of the window. -/
theorem commonDates_eq : commonDates s t =
    (window sessions asOf).filter (fun d => (returnOn returns a d).isSome && (returnOn returns b d).isSome) := by
  have hdays : ((s.dates.filter (fun d => decide (d ∈ t.dates))).map TradingDate.days).Nodup :=
    (hs.nodup.filter _).map days_injective
  refine List.eq_of_pairwise_lt (List.pairwise_lt_sortOn hdays) ((latestOpenDates_pairwise hcal).filter _) fun d => ?_
  rw [commonDates, List.mem_sortOn, List.mem_filter, List.mem_filter, decide_eq_true_eq, Bool.and_eq_true]
  constructor
  · rintro ⟨hds, hdt⟩
    have hd := hs.dates_mem d hds
    exact ⟨hd, (hs.mem_dates hd).mp hds, (ht.mem_dates hd).mp hdt⟩
  · rintro ⟨hd, hds, hdt⟩
    exact ⟨(hs.mem_dates hd).mpr hds, (ht.mem_dates hd).mpr hdt⟩

theorem length_commonDates : (commonDates s t).length = (common sessions asOf returns a b).length := by
  rw [commonDates_eq hcal hs ht, common, List.length_filterMap_eq_countP, ← List.countP_eq_length_filter]
  refine List.countP_congr fun d _ => ?_
  cases returnOn returns a d <;> cases returnOn returns b d <;> simp

theorem valuesOn_left : valuesOn s (commonDates s t) = (common sessions asOf returns a b).map Prod.fst := by
  rw [commonDates_eq hcal hs ht, valuesOn, common, List.filterMap_filter, List.map_filterMap]
  refine List.filterMap_congr fun d hd => ?_
  rw [hs.lookup d hd]
  cases returnOn returns a d <;> cases returnOn returns b d <;> rfl

theorem valuesOn_right : valuesOn t (commonDates s t) = (common sessions asOf returns a b).map Prod.snd := by
  rw [commonDates_eq hcal hs ht, valuesOn, common, List.filterMap_filter, List.map_filterMap]
  refine List.filterMap_congr fun d hd => ?_
  rw [ht.lookup d hd]
  cases returnOn returns a d <;> cases returnOn returns b d <;> rfl

theorem judgePair_eq_unknown_iff : judgePair s t = .unknown ↔ ¬ Comparable sessions asOf returns a b := by
  simp only [judgePair, length_commonDates hcal hs ht, valuesOn_left hcal hs ht, valuesOn_right hcal hs ht]
  by_cases hlen : (common sessions asOf returns a b).length < minReturns
  · rw [if_pos hlen]
    exact ⟨fun _ h => absurd h.enough (not_le.mpr hlen), fun _ => rfl⟩
  · rw [if_neg hlen]
    by_cases hvar : 0 < Correlation.var ((common sessions asOf returns a b).map Prod.fst) ∧
        0 < Correlation.var ((common sessions asOf returns a b).map Prod.snd)
    · obtain ⟨rho, hrho⟩ := exists_pearson (by simpa using not_lt.mp hlen) (by simp) hvar
      rw [hrho]
      have hcmp : Comparable sessions asOf returns a b := ⟨not_lt.mp hlen, hvar.1, hvar.2⟩
      refine ⟨fun h => ?_, fun h => absurd hcmp h⟩
      split_ifs at h
    · rw [pearson_eq_none hvar]
      exact ⟨fun _ h => hvar ⟨h.left, h.right⟩, fun _ => rfl⟩

theorem judgePair_eq_edge_iff : judgePair s t = .edge ↔ Correlated sessions asOf returns a b := by
  constructor
  · intro h
    have hcmp : Comparable sessions asOf returns a b := by
      by_contra hno
      rw [(judgePair_eq_unknown_iff hcal hs ht).mpr hno] at h
      cases h
    refine ⟨hcmp.enough, ?_⟩
    simp only [judgePair, length_commonDates hcal hs ht, valuesOn_left hcal hs ht, valuesOn_right hcal hs ht] at h
    rw [if_neg (not_lt.mpr hcmp.enough)] at h
    split at h
    · cases h
    · split_ifs at h with hmeets
      rwa [pearsonMeetsThreshold_iff (by simpa using hcmp.enough) (by simp) hcmp.left hcmp.right
        threshold_nonneg] at hmeets
  · intro h
    have hcmp := h.comparable
    obtain ⟨rho, hrho⟩ := exists_pearson (by simpa using hcmp.enough) (by simp) ⟨hcmp.left, hcmp.right⟩
    have hmeets := (pearsonMeetsThreshold_iff (by simpa using hcmp.enough) (by simp) hcmp.left hcmp.right
      threshold_nonneg).mpr h.coefficient
    simp only [judgePair, length_commonDates hcal hs ht, valuesOn_left hcal hs ht, valuesOn_right hcal hs ht]
    rw [if_neg (not_lt.mpr hcmp.enough), hrho]
    exact if_pos hmeets

end

/-! ### Pairs of a list -/

section

variable {α : Type} {a b : α} {l : List α}

theorem mem_pairs_cons {c : α} : (a, b) ∈ pairs (c :: l) ↔ a = c ∧ b ∈ l ∨ (a, b) ∈ pairs l := by
  simp [pairs, and_comm, eq_comm]

theorem of_mem_pairs (h : (a, b) ∈ pairs l) : a ∈ l ∧ b ∈ l := by
  induction l with
  | nil => cases h
  | cons c l ih =>
    rcases mem_pairs_cons.mp h with ⟨rfl, hb⟩ | h
    · exact ⟨List.mem_cons_self, List.mem_cons_of_mem _ hb⟩
    · exact ⟨List.mem_cons_of_mem c (ih h).1, List.mem_cons_of_mem c (ih h).2⟩

theorem mem_pairs_of_ne (ha : a ∈ l) (hb : b ∈ l) (hne : a ≠ b) : (a, b) ∈ pairs l ∨ (b, a) ∈ pairs l := by
  induction l with
  | nil => cases ha
  | cons c l ih =>
    rw [mem_pairs_cons, mem_pairs_cons]
    rcases List.mem_cons.mp ha with rfl | hal <;> rcases List.mem_cons.mp hb with rfl | hbl
    · exact absurd rfl hne
    · exact .inl (.inl ⟨rfl, hbl⟩)
    · exact .inr (.inl ⟨rfl, hal⟩)
    · exact (ih hal hbl).imp .inr .inr

theorem ne_of_mem_pairs (hn : l.Nodup) (h : (a, b) ∈ pairs l) : a ≠ b := by
  induction l with
  | nil => cases h
  | cons c l ih =>
    obtain ⟨hc, hn⟩ := List.nodup_cons.mp hn
    rcases mem_pairs_cons.mp h with ⟨rfl, hb⟩ | h
    · rintro rfl
      exact hc hb
    · exact ih hn h

end

/-! ### Known and unknown nodes -/

section

variable {ordered : List SecurityId} {accepted : List (SecurityId × Series)} {a b : SecurityId} {s t : Series}

theorem mem_completeSeries : (a, s) ∈ completeSeries ordered accepted ↔
    a ∈ ordered ∧ accepted.lookup a = some s ∧ 0 < Correlation.var s.values := by
  simp only [completeSeries, List.mem_filterMap, Option.map_eq_some_iff, Option.filter_eq_some_iff, decide_eq_true_eq,
    Prod.mk.injEq]
  constructor
  · rintro ⟨node, hnode, s', ⟨hs, hvar⟩, rfl, rfl⟩
    exact ⟨hnode, hs, hvar⟩
  · rintro ⟨ha, hs, hvar⟩
    exact ⟨a, ha, s, ⟨hs, hvar⟩, rfl, rfl⟩

theorem nodup_completeSeries (accepted : List (SecurityId × Series)) (h : ordered.Nodup) : ((completeSeries ordered accepted).map Prod.fst).Nodup := by
  refine (Dict.sublist_keys_filterMap (fun node p hp => ?_) ordered).nodup h
  obtain ⟨s, -, rfl⟩ := Option.map_eq_some_iff.mp hp
  rfl

theorem mem_keys_completeSeries : a ∈ (completeSeries ordered accepted).map Prod.fst ↔
    ∃ s, (a, s) ∈ completeSeries ordered accepted := by
  simp

theorem mem_completeIds : a ∈ completeIds ordered accepted ↔
    (∃ s, (a, s) ∈ completeSeries ordered accepted) ∧ a ∉ pairUnknown ordered accepted := by
  simp only [completeIds, List.mem_filter, Bool.and_eq_true, decide_eq_true_eq, mem_keys_completeSeries]
  exact ⟨fun h => h.2, fun h => ⟨(mem_completeSeries.mp h.1.choose_spec).1, h⟩⟩

theorem mem_unknownNodes : a ∈ unknownNodes ordered accepted ↔ a ∈ ordered ∧ a ∉ completeIds ordered accepted := by
  simp only [unknownNodes, completeIds, List.mem_filter, Bool.or_eq_true, Bool.and_eq_true, decide_eq_true_eq, not_and,
    not_not]
  refine and_congr_right fun ha => ⟨fun h _ hkey => h.resolve_left (not_not.mpr hkey), fun h => ?_⟩
  exact or_iff_not_imp_left.mpr fun hkey => h ha (not_not.mp hkey)

/-- The known nodes and the unknown ones are all nodes. -/
theorem completeIds_append_unknownNodes :
    (completeIds ordered accepted ++ unknownNodes ordered accepted).Perm ordered := by
  have hnot : unknownNodes ordered accepted = ordered.filter (fun node =>
      !(decide (node ∈ (completeSeries ordered accepted).map Prod.fst) &&
        decide (node ∉ pairUnknown ordered accepted))) := by
    refine List.filter_congr fun node _ => ?_
    simp
  rw [hnot, completeIds]
  exact List.filter_append_perm _ ordered

end

section

variable {sessions : List MarketSession} {asOf : UtcTimestamp} {nodes : List SecurityId} {returns : ReturnsMapping}
  {ordered : List SecurityId} {accepted : List (SecurityId × Series)} {a b : SecurityId} {s t : Series}

variable (hcal : (sessions.map MarketSession.tradingDate).Nodup)
  (hacc : acceptedSeries sessions asOf nodes returns = .ok accepted)

include hacc in
theorem holds_of_mem (h : (a, s) ∈ completeSeries ordered accepted) : Holds sessions asOf returns a s := by
  obtain ⟨-, hlookup, -⟩ := mem_completeSeries.mp h
  obtain ⟨-, series, hitem, haccepts, rfl⟩ := (lookup_accepted hacc).mp hlookup
  exact holds_of_accepts hitem haccepts

/-- The loop over the pairs comes to a verdict on two nodes, in this order. -/
def Judged (ordered : List SecurityId) (accepted : List (SecurityId × Series)) (v : PairVerdict)
    (a b : SecurityId) : Prop :=
  ∃ s t, ((a, s), (b, t)) ∈ pairs (completeSeries ordered accepted) ∧ judgePair s t = v

theorem mem_pairEdges : (a, b) ∈ pairEdges ordered accepted ↔ Judged ordered accepted .edge a b := by
  simp only [pairEdges, List.mem_map, List.mem_filter, decide_eq_true_eq, Prod.mk.injEq, Judged]
  constructor
  · rintro ⟨⟨⟨_, s⟩, ⟨_, t⟩⟩, h, rfl, rfl⟩
    exact ⟨s, t, h⟩
  · rintro ⟨s, t, h⟩
    exact ⟨((a, s), (b, t)), h, rfl, rfl⟩

theorem mem_pairUnknown : a ∈ pairUnknown ordered accepted ↔
    ∃ b, Judged ordered accepted .unknown a b ∨ Judged ordered accepted .unknown b a := by
  simp only [pairUnknown, List.mem_flatMap, List.mem_filter, decide_eq_true_eq, List.mem_cons, List.not_mem_nil,
    or_false, Judged]
  constructor
  · rintro ⟨⟨⟨b, s⟩, ⟨c, t⟩⟩, h, rfl | rfl⟩
    · exact ⟨c, .inl ⟨s, t, h⟩⟩
    · exact ⟨b, .inr ⟨s, t, h⟩⟩
  · rintro ⟨b, ⟨s, t, h⟩ | ⟨s, t, h⟩⟩
    · exact ⟨((a, s), (b, t)), h, .inl rfl⟩
    · exact ⟨((b, s), (a, t)), h, .inr rfl⟩

include hacc

/-- A pair of nodes is judged in one order or in the other, and what it is judged by is the same in both. -/
theorem judged_iff (hn : ordered.Nodup) {v : PairVerdict} {P : SecurityId → SecurityId → Prop}
    (hsymm : ∀ {a b}, P a b → P b a)
    (hP : ∀ {a b s t}, Holds sessions asOf returns a s → Holds sessions asOf returns b t →
      (judgePair s t = v ↔ P a b)) :
    Judged ordered accepted v a b ∨ Judged ordered accepted v b a ↔
      a ≠ b ∧ (∃ s, (a, s) ∈ completeSeries ordered accepted) ∧ (∃ t, (b, t) ∈ completeSeries ordered accepted) ∧
        P a b := by
  have hkeys := nodup_completeSeries accepted hn
  have hone : ∀ {a b}, Judged ordered accepted v a b → a ≠ b ∧ (∃ s, (a, s) ∈ completeSeries ordered accepted) ∧
      (∃ t, (b, t) ∈ completeSeries ordered accepted) ∧ P a b := by
    rintro a b ⟨s, t, hpair, hv⟩
    obtain ⟨ha, hb⟩ := of_mem_pairs hpair
    refine ⟨?_, ⟨s, ha⟩, ⟨t, hb⟩, (hP (holds_of_mem hacc ha) (holds_of_mem hacc hb)).mp hv⟩
    rintro rfl
    exact ne_of_mem_pairs hkeys.of_map hpair (List.inj_on_of_nodup_map hkeys ha hb rfl)
  constructor
  · rintro (h | h)
    · exact hone h
    · obtain ⟨hne, hb, ha, hba⟩ := hone h
      exact ⟨hne.symm, ha, hb, hsymm hba⟩
  · rintro ⟨hne, ⟨s, ha⟩, ⟨t, hb⟩, hab⟩
    have hs := holds_of_mem hacc ha
    have ht := holds_of_mem hacc hb
    refine (mem_pairs_of_ne ha hb fun h => hne (Prod.mk.inj h).1).imp (fun h => ?_) fun h => ?_
    · exact ⟨s, t, h, (hP hs ht).mpr hab⟩
    · exact ⟨t, s, h, (hP ht hs).mpr (hsymm hab)⟩

include hcal

/-- A node becomes unknown by a pair with a node that it cannot be compared with. -/
theorem mem_pairUnknown_iff (hn : ordered.Nodup) : a ∈ pairUnknown ordered accepted ↔
    (∃ s, (a, s) ∈ completeSeries ordered accepted) ∧
      ∃ b, a ≠ b ∧ (∃ t, (b, t) ∈ completeSeries ordered accepted) ∧ ¬ Comparable sessions asOf returns a b := by
  rw [mem_pairUnknown]
  simp only [judged_iff hacc hn (P := fun a b => ¬ Comparable sessions asOf returns a b) (fun h h' => h h'.symm)
    (fun hs ht => judgePair_eq_unknown_iff hcal hs ht)]
  constructor
  · rintro ⟨b, hne, ha, hb, hcmp⟩
    exact ⟨ha, b, hne, hb, hcmp⟩
  · rintro ⟨ha, b, hne, hb, hcmp⟩
    exact ⟨b, hne, ha, hb, hcmp⟩

/-- The edges that are kept are the correlated pairs of known nodes. -/
theorem mem_keptEdges (hn : ordered.Nodup) :
    (a, b) ∈ keptEdges ordered accepted ∨ (b, a) ∈ keptEdges ordered accepted ↔
      a ≠ b ∧ a ∈ completeIds ordered accepted ∧ b ∈ completeIds ordered accepted ∧
        Correlated sessions asOf returns a b := by
  have hedge := judged_iff (a := a) (b := b) hacc hn (fun h => Correlated.symm h)
    (fun hs ht => judgePair_eq_edge_iff hcal hs ht)
  simp only [keptEdges, List.mem_filter, Bool.and_eq_true, decide_eq_true_eq, mem_pairEdges, mem_completeIds]
  constructor
  · intro h
    have hjudged : Judged ordered accepted .edge a b ∨ Judged ordered accepted .edge b a := h.imp And.left And.left
    obtain ⟨hne, ha, hb, hcorr⟩ := hedge.mp hjudged
    rcases h with ⟨-, hua, hub⟩ | ⟨-, hub, hua⟩ <;> exact ⟨hne, ⟨ha, hua⟩, ⟨hb, hub⟩, hcorr⟩
  · rintro ⟨hne, ⟨ha, hua⟩, ⟨hb, hub⟩, hcorr⟩
    exact (hedge.mpr ⟨hne, ha, hb, hcorr⟩).imp (fun h => ⟨h, hua, hub⟩) (fun h => ⟨h, hub, hua⟩)

end

end SevenLens.Screening
