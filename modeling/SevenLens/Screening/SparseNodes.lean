import SevenLens.Library.Windows
import SevenLens.Screening.Components

/-! # A sparse node beside a complete one

A complete node has a return on every session of the window, and its returns vary.  Another
node takes its place among the clusters away in one way only: its own series is accepted and
varies, and on the dates of that series the returns of the complete node do not (`Poisons`,
`complete_assigned_iff`).  A node with too few returns or with constant ones never does. -/

namespace SevenLens.Screening

open Securities MarketData

section

variable (sessions : List MarketSession) (asOf : UtcTimestamp) (returns : ReturnsMapping) (a b : SecurityId)

/-- The mapping has an accepted series for the node. -/
def HasAccepted : Prop := ∃ series, (a.value, series) ∈ returns.items ∧ Accepts sessions asOf a series

/-- The returns of a node in the window. -/
def windowReturns : List ℚ := (window sessions asOf).filterMap (returnOn returns a)

/-- The node has a return on every one of the sessions of the window, and the returns vary. -/
structure Complete : Prop where
  full : (window sessions asOf).length = clusterSessionWindow
  every : ∀ date ∈ window sessions asOf, (returnOn returns a date).isSome = true
  varied : 0 < Correlation.var (windowReturns sessions asOf returns a)

/-- The node has an accepted series that varies, and on its dates the returns of the other node are all one. -/
structure Poisons : Prop where
  accepted : HasAccepted sessions asOf returns a
  varied : 0 < Correlation.var (windowReturns sessions asOf returns a)
  flat : ∀ d ∈ window sessions asOf, ∀ e ∈ window sessions asOf, (returnOn returns a d).isSome = true →
    (returnOn returns a e).isSome = true → returnOn returns b d = returnOn returns b e

end

section

variable {sessions : List MarketSession} {asOf : UtcTimestamp} {returns : ReturnsMapping} {a b : SecurityId}

theorem mem_windowReturns {x : ℚ} : x ∈ windowReturns sessions asOf returns a ↔
    ∃ d ∈ window sessions asOf, returnOn returns a d = some x := List.mem_filterMap

/-- What is kept of an accepted series are the returns of the node in the window. -/
theorem var_seriesOf {series : List ReturnObservation} (hmem : (a.value, series) ∈ returns.items)
    (h : Accepts sessions asOf a series) :
    0 < Correlation.var (seriesOf sessions asOf series).values ↔
      0 < Correlation.var (windowReturns sessions asOf returns a) := by
  have hholds := holds_of_accepts hmem h
  have hvalues : ∀ x, x ∈ (seriesOf sessions asOf series).values ↔ x ∈ windowReturns sessions asOf returns a := by
    intro x
    rw [mem_windowReturns, Series.values, List.mem_map]
    constructor
    · rintro ⟨⟨d, y⟩, hp, rfl⟩
      have hd := hholds.dates_mem d (List.mem_map_of_mem hp)
      exact ⟨d, hd, (hholds.lookup d hd).symm.trans (Dict.lookup_of_mem hholds.nodup hp)⟩
    · rintro ⟨d, hd, hx⟩
      exact ⟨(d, x), Dict.mem_of_lookup ((hholds.lookup d hd).trans hx), rfl⟩
  simp only [Correlation.var_pos_iff, hvalues]

/-- An accepted series has 100 returns in the window. -/
theorem length_windowReturns (h : HasAccepted sessions asOf returns a)
    (hcal : (sessions.map MarketSession.tradingDate).Nodup) :
    minReturns ≤ (windowReturns sessions asOf returns a).length := by
  obtain ⟨series, hmem, haccepts⟩ := h
  have hholds := holds_of_accepts hmem haccepts
  have hnodup : (window sessions asOf).Nodup :=
    (latestOpenDates_pairwise hcal).imp fun hlt e => absurd (congrArg TradingDate.days e) hlt.ne
  have hperm : (seriesOf sessions asOf series).dates.Perm
      ((window sessions asOf).filter (fun d => (returnOn returns a d).isSome)) := by
    refine (List.perm_ext_iff_of_nodup hholds.nodup (hnodup.filter _)).mpr fun d => ?_
    rw [List.mem_filter]
    exact ⟨fun hd => ⟨hholds.dates_mem d hd, (hholds.mem_dates (hholds.dates_mem d hd)).mp hd⟩,
      fun hd => (hholds.mem_dates hd.1).mpr hd.2⟩
  have hlength := hperm.length_eq
  rw [← List.countP_eq_length_filter, Series.dates, List.length_map, seriesOf, List.length_map] at hlength
  rw [windowReturns, List.length_filterMap_eq_countP, ← hlength]
  exact haccepts.enough

/-- A complete node can be compared with a node that does not poison it. -/
theorem comparable_iff (hcal : (sessions.map MarketSession.tradingDate).Nodup) (ha : Complete sessions asOf returns a)
    (hb : HasAccepted sessions asOf returns b) (hvaried : 0 < Correlation.var (windowReturns sessions asOf returns b)) :
    Comparable sessions asOf returns a b ↔ ¬ Poisons sessions asOf returns b a := by
  have hright : (common sessions asOf returns a b).map Prod.snd = windowReturns sessions asOf returns b := by
    rw [common, List.map_filterMap]
    refine List.filterMap_congr fun d hd => ?_
    obtain ⟨x, hx⟩ := Option.isSome_iff_exists.mp (ha.every d hd)
    rw [hx]
    cases returnOn returns b d <;> rfl
  have hleft : ∀ x, x ∈ (common sessions asOf returns a b).map Prod.fst ↔
      ∃ d ∈ window sessions asOf, (returnOn returns b d).isSome = true ∧ returnOn returns a d = some x := by
    intro x
    rw [common, List.map_filterMap, List.mem_filterMap]
    refine exists_congr fun d => and_congr_right fun hd => ?_
    cases returnOn returns a d <;> cases returnOn returns b d <;> simp
  have hlength : (common sessions asOf returns a b).length = (windowReturns sessions asOf returns b).length := by
    rw [← hright, List.length_map]
  constructor
  · intro h hp
    obtain ⟨x, hx, y, hy, hne⟩ := Correlation.var_pos_iff.mp h.left
    obtain ⟨d, hd, hbd, hxd⟩ := (hleft x).mp hx
    obtain ⟨e, he, hbe, hye⟩ := (hleft y).mp hy
    exact hne (Option.some.inj (hxd.symm.trans ((hp.flat d hd e he hbd hbe).trans hye)))
  · intro h
    have henough : minReturns ≤ (common sessions asOf returns a b).length := by
      rw [hlength]
      exact length_windowReturns hb hcal
    have hvar : 0 < Correlation.var ((common sessions asOf returns a b).map Prod.snd) := by
      rw [hright]
      exact hvaried
    refine ⟨henough, ?_, hvar⟩
    by_contra hvar
    refine h ⟨hb, hvaried, fun d hd e he hbd hbe => ?_⟩
    obtain ⟨x, hx⟩ := Option.isSome_iff_exists.mp (ha.every d hd)
    obtain ⟨y, hy⟩ := Option.isSome_iff_exists.mp (ha.every e he)
    rw [hx, hy]
    by_contra hne
    exact hvar (Correlation.var_pos_iff.mpr ⟨x, (hleft x).mpr ⟨d, hd, hbd, hx⟩, y, (hleft y).mpr ⟨e, he, hbe, hy⟩,
      fun e => hne (congrArg some e)⟩)

end

section

variable {auth : Authority} {order order' : SetOrder (SecurityId × SecurityId)} {nodes : List SecurityId}
  {returns returns' : ReturnsMapping} {policyHash : Hash} {asOf : UtcTimestamp} {sessions : List MarketSession}
  {results results' : List (ClusterResult auth)} {a b x : SecurityId}

/-- A node is reported `ASSIGNED`. -/
def Assigned (results : List (ClusterResult auth)) (a : SecurityId) : Prop :=
  ∃ r ∈ results, r.status = .assigned ∧ a ∈ r.members

/-- A node whose returns vary takes part in the pairs when its series is accepted. -/
theorem Built.complete_iff {accepted : List (SecurityId × Series)} {assigned unknown : List (ClusterResult auth)}
    (h : Built auth order nodes returns policyHash asOf sessions results accepted assigned unknown) :
    (∃ s, (a, s) ∈ completeSeries (nodes.sortOn SecurityId.value) accepted) ↔
      a ∈ nodes ∧ HasAccepted sessions asOf returns a ∧ 0 < Correlation.var (windowReturns sessions asOf returns a) := by
  simp only [mem_completeSeries, lookup_accepted h.accepted_ok, List.mem_sortOn]
  constructor
  · rintro ⟨_, ha, ⟨-, series, hmem, hacc, rfl⟩, hvar⟩
    exact ⟨ha, ⟨series, hmem, hacc⟩, (var_seriesOf hmem hacc).mp hvar⟩
  · rintro ⟨ha, ⟨series, hmem, hacc⟩, hvar⟩
    exact ⟨_, ha, ⟨ha, series, hmem, hacc, rfl⟩, (var_seriesOf hmem hacc).mpr hvar⟩

theorem assigned_iff_known (h : buildClusters auth order nodes returns policyHash asOf sessions = .ok results)
    (ha : a ∈ nodes) : Assigned results a ↔ ¬ Unknown results a := by
  obtain ⟨accepted, assigned, unknown, hbuilt⟩ := exists_built h
  have hmem : a ∈ results.flatMap (fun r => r.members) := hbuilt.connectedComponents.partition.mem_iff.mpr ha
  obtain ⟨r, hr, har⟩ := List.mem_flatMap.mp hmem
  constructor
  · intro hassigned
    have hid : a ∈ completeIds (nodes.sortOn SecurityId.value) accepted := by
      obtain ⟨m, hm, ham⟩ := (hbuilt.exists_assigned_iff (p := fun m => a ∈ m)).mp hassigned
      exact (orderedComponents_flatten hbuilt.ids_pairwise).mem_iff.mp (List.mem_flatten.mpr ⟨m, hm, ham⟩)
    exact (hbuilt.known_iff.mpr hid).2
  · intro hknown
    cases hstatus : r.status with
    | assigned => exact ⟨r, hr, hstatus, har⟩
    | unknown => exact absurd ⟨r, hr, hstatus, har⟩ hknown

/-- A complete node is unknown exactly if some node poisons it. -/
theorem unknown_iff_poisoned (h : buildClusters auth order nodes returns policyHash asOf sessions = .ok results)
    (ha : a ∈ nodes) (hacc : HasAccepted sessions asOf returns a) (hc : Complete sessions asOf returns a) :
    Unknown results a ↔ ∃ b ∈ nodes, b ≠ a ∧ Poisons sessions asOf returns b a := by
  obtain ⟨accepted, assigned, unknown, hbuilt⟩ := exists_built h
  have hcal := sessionCalendar_nodup hbuilt.calendar
  have hn : (nodes.sortOn SecurityId.value).Nodup := (List.sortOn_perm _ _).nodup_iff.mpr hbuilt.nodup
  have hown : ∃ s, (a, s) ∈ completeSeries (nodes.sortOn SecurityId.value) accepted :=
    hbuilt.complete_iff.mpr ⟨ha, hacc, hc.varied⟩
  have hpair : Unknown results a ↔ a ∈ pairUnknown (nodes.sortOn SecurityId.value) accepted := by
    rw [hbuilt.unknown_iff, mem_unknownNodes, mem_completeIds, not_and_not_right]
    exact ⟨fun hu => hu.2 hown, fun hu => ⟨List.mem_sortOn.mpr ha, fun _ => hu⟩⟩
  rw [hpair, mem_pairUnknown_iff hcal hbuilt.accepted_ok hn]
  simp only [hbuilt.complete_iff]
  constructor
  · rintro ⟨-, b, hne, ⟨hb, hbacc, hbvar⟩, hcmp⟩
    refine ⟨b, hb, hne.symm, ?_⟩
    by_contra hno
    exact hcmp ((comparable_iff hcal hc hbacc hbvar).mpr hno)
  · rintro ⟨b, hb, hne, hpoisons⟩
    refine ⟨⟨ha, hacc, hc.varied⟩, b, hne.symm, ⟨hb, hpoisons.accepted, hpoisons.varied⟩, fun hcmp => ?_⟩
    exact (comparable_iff hcal hc hpoisons.accepted hpoisons.varied).mp hcmp hpoisons

/-- Only a node with an accepted series is assigned. -/
theorem hasAccepted_of_assigned (h : buildClusters auth order nodes returns policyHash asOf sessions = .ok results)
    (ha : a ∈ nodes) (hassigned : Assigned results a) : HasAccepted sessions asOf returns a := by
  obtain ⟨accepted, assigned, unknown, hbuilt⟩ := exists_built h
  have hid := hbuilt.known_iff.mp ⟨ha, (assigned_iff_known h ha).mp hassigned⟩
  exact (hbuilt.complete_iff.mp (mem_completeIds.mp hid).1).2.1

/-- In a call that returns, a complete node is assigned if its series is accepted and no other node poisons it, and a
further node makes it unknown exactly if that node poisons it. -/
theorem complete_assigned_iff (h : buildClusters auth order nodes returns policyHash asOf sessions = .ok results)
    (ha : a ∈ nodes) (hc : Complete sessions asOf returns a) :
    (Assigned results a ↔ HasAccepted sessions asOf returns a ∧
      ∀ b ∈ nodes, b ≠ a → ¬ Poisons sessions asOf returns b a) ∧
    ∀ order' x returns' results', (∀ b ∈ nodes, returns'.items.lookup b.value = returns.items.lookup b.value) →
      buildClusters auth order' (x :: nodes) returns' policyHash asOf sessions = .ok results' → Assigned results a →
      (Unknown results' a ↔ Poisons sessions asOf returns' x a) := by
  have hiff : HasAccepted sessions asOf returns a →
      (Assigned results a ↔ ∀ b ∈ nodes, b ≠ a → ¬ Poisons sessions asOf returns b a) := by
    intro hacc
    rw [assigned_iff_known h ha, unknown_iff_poisoned h ha hacc hc]
    push Not
    rfl
  refine ⟨⟨fun hassigned => ?_, fun hspared => (hiff hspared.1).mpr hspared.2⟩, ?_⟩
  · have hacc := hasAccepted_of_assigned h ha hassigned
    exact ⟨hacc, (hiff hacc).mp hassigned⟩
  intro order' x returns' results' hsame h' hassigned
  have hacc := hasAccepted_of_assigned h ha hassigned
  have hreturnOn : ∀ b ∈ nodes, returnOn returns' b = returnOn returns b := by
    intro b hb
    funext d
    rw [returnOn, returnOn, hsame b hb]
  have haccepted : ∀ b ∈ nodes, HasAccepted sessions asOf returns' b → HasAccepted sessions asOf returns b := by
    rintro b hb ⟨series, hmem, haccepts⟩
    have hlookup := Dict.lookup_of_mem returns'.keys_nodup hmem
    rw [hsame b hb] at hlookup
    exact ⟨series, Dict.mem_of_lookup hlookup, haccepts⟩
  have hacc' : HasAccepted sessions asOf returns' a := by
    obtain ⟨series, hmem, haccepts⟩ := hacc
    have hlookup := Dict.lookup_of_mem returns.keys_nodup hmem
    rw [← hsame a ha] at hlookup
    exact ⟨series, Dict.mem_of_lookup hlookup, haccepts⟩
  have hc' : Complete sessions asOf returns' a := by
    refine ⟨hc.full, ?_, ?_⟩
    · rw [hreturnOn a ha]
      exact hc.every
    · rw [windowReturns, hreturnOn a ha]
      exact hc.varied
  rw [unknown_iff_poisoned h' (List.mem_cons_of_mem x ha) hacc' hc']
  have hx : x ≠ a := by
    obtain ⟨_, _, _, hbuilt⟩ := exists_built h'
    rintro rfl
    exact (List.nodup_cons.mp hbuilt.nodup).1 ha
  constructor
  · rintro ⟨b, hb, hne, hpoisons⟩
    rcases List.mem_cons.mp hb with rfl | hb
    · exact hpoisons
    · refine absurd ⟨haccepted b hb hpoisons.accepted, ?_, ?_⟩ ((hiff hacc).mp hassigned b hb hne)
      · rw [windowReturns, ← hreturnOn b hb]
        exact hpoisons.varied
      · rw [← hreturnOn b hb, ← hreturnOn a ha]
        exact hpoisons.flat
  · intro hpoisons
    exact ⟨x, List.mem_cons_self, hx, hpoisons⟩

end

/-! ### Calls that return -/

/-- With the weekdays of the window there, every series is accepted or passed over. -/
theorem exists_acceptedSeries {sessions : List MarketSession} {asOf : UtcTimestamp}
    (hw : ∃ w, latestOpenSessionDates sessions asOf.day clusterSessionWindow = .ok w) (nodes : List SecurityId)
    (returns : ReturnsMapping) : ∃ accepted, acceptedSeries sessions asOf nodes returns = .ok accepted := by
  obtain ⟨w, hw⟩ := hw
  have hseries : ∀ node series, ∃ r, acceptSeries sessions asOf node series = .ok r := by
    intro node series
    unfold acceptSeries
    rw [hw]
    simp only [bind, Except.bind]
    split_ifs <;> exact ⟨_, rfl⟩
  obtain ⟨r, hr⟩ := Dict.exists_mapM (f := acceptItem sessions asOf nodes) (l := returns.items) fun item _ => by
    unfold acceptItem
    split
    · exact ⟨_, rfl⟩
    · obtain ⟨r, hr⟩ := hseries _ item.2
      rw [hr]
      exact ⟨_, rfl⟩
  exact ⟨_, bind_ok.mpr ⟨r, hr, rfl⟩⟩

/-! ### Half a year of sessions -/

section

/-- The start of a day, counted from a Monday on. -/
def dayStart (k : Fin 183) : UtcTimestamp :=
  ⟨(739200 + k) * dayMicros, by
    have hk := k.isLt
    have hmicros : maxMicros = 3652059 * dayMicros := by decide
    rw [hmicros]
    exact Nat.mul_lt_mul_of_pos_right (by omega) (by decide)⟩

def dayOf (k : Fin 183) : TradingDate := dateOf (dayStart k)

/-- A session from 14:30 to 21:00 on a weekday, none on another day. -/
def daySession (k : Fin 183) : MarketSession :=
  if k.val % 7 < 5 then
    { tradingDate := dayOf k
      dayKind := .regular
      regularSession := some ⟨timeOn (dayOf k) 870, timeOn (dayOf k) 1260, by
        rw [UtcTimestamp.lt_iff]
        exact Nat.add_lt_add_left (by decide) _⟩
      window_ok := by simp }
  else
    { tradingDate := dayOf k
      dayKind := .closed
      regularSession := none
      window_ok := by simp }

def halfYear : List MarketSession := (List.finRange 183).map daySession

/-- 15:00 on the last day, a Monday. -/
def lastOpen : UtcTimestamp := ⟨(739200 + 182) * dayMicros + 15 * hourMicros, by decide⟩

/-- The weekdays before the last day, from a day on. -/
def weekdaysFrom (start : Nat) : List (Fin 183) :=
  (List.finRange 183).filter (fun k => decide (k.val % 7 < 5 ∧ start ≤ k.val ∧ k.val < 182))

theorem mem_weekdaysFrom {start : Nat} {k : Fin 183} :
    k ∈ weekdaysFrom start ↔ k.val % 7 < 5 ∧ start ≤ k.val ∧ k.val < 182 := by
  rw [weekdaysFrom, List.mem_filter, decide_eq_true_eq, and_iff_right (List.mem_finRange k)]

/-- The weekdays of the window, and those of the late series. -/
theorem weekdaysFrom_counts :
    (weekdaysFrom 0).drop ((weekdaysFrom 0).length - clusterSessionWindow) = weekdaysFrom 4 ∧
      (weekdaysFrom 4).head? = some 4 ∧ (weekdaysFrom 4).length = 126 ∧ (weekdaysFrom 42).length = 100 := by
  decide +kernel

theorem enough_weekdays : minReturns ≤ (weekdaysFrom 4).length ∧ minReturns ≤ (weekdaysFrom 42).length := by
  rw [weekdaysFrom_counts.2.2.1, weekdaysFrom_counts.2.2.2]
  decide

theorem days_dayOf (k : Fin 183) : (dayOf k).days = 739200 + k := by
  rw [dayOf, days_dateOf]
  exact Nat.mul_div_cancel _ (by decide)

theorem dayOf_injective : Function.Injective dayOf := by
  intro k l h
  have hdays := congrArg TradingDate.days h
  rw [days_dayOf, days_dayOf] at hdays
  exact Fin.ext (by omega)

@[simp] theorem tradingDate_daySession (k : Fin 183) : (daySession k).tradingDate = dayOf k := by
  unfold daySession
  split_ifs <;> rfl

theorem isOpen_daySession (k : Fin 183) : (daySession k).isOpen = decide (k.val % 7 < 5) := by
  unfold daySession
  split_ifs with h <;> simp [MarketSession.isOpen, h]

theorem dates_halfYear : halfYear.map MarketSession.tradingDate = (List.finRange 183).map dayOf := by
  rw [halfYear, List.map_map]
  exact List.map_congr_left fun k _ => tradingDate_daySession k

theorem pairwise_dayOf {l : List (Fin 183)} (h : l.Pairwise (· < ·)) :
    (l.map dayOf).Pairwise (fun d e => d.days < e.days) := by
  rw [List.pairwise_map]
  refine h.imp fun {k m} hlt => ?_
  rw [days_dayOf, days_dayOf]
  exact Nat.add_lt_add_left hlt _

theorem sortOn_dayOf {l : List (Fin 183)} (h : l.Pairwise (· < ·)) :
    (l.map dayOf).sortOn TradingDate.days = l.map dayOf :=
  List.sortOn_of_pairwise ((pairwise_dayOf h).imp le_of_lt)

theorem sessionCalendar_halfYear : sessionCalendar halfYear = .ok () := by
  have hfin : (List.finRange 183).Pairwise (· < ·) := List.pairwise_lt_finRange 183
  refine bind_ok.mpr ⟨(), require_ok.mpr ?_, bind_ok.mpr ⟨(), require_ok.mpr ?_, bind_ok.mpr ⟨(), require_ok.mpr ?_, ?_⟩⟩⟩
  · rw [dates_halfYear]
    exact (List.nodup_finRange 183).map dayOf_injective
  · rw [dates_halfYear, sortOn_dayOf hfin]
  · intro session hmem
    obtain ⟨k, -, rfl⟩ := List.mem_map.mp hmem
    intro hweekend
    rw [tradingDate_daySession, days_dayOf, weekday] at hweekend
    rw [daySession, if_neg (by omega)]
  · refine Dict.forM_ok.mpr fun session hmem => ?_
    obtain ⟨k, -, rfl⟩ := List.mem_map.mp hmem
    unfold daySession
    split_ifs
    · have hopens : (timeOn (dayOf k) 870).micros % dayMicros = 870 * 60000000 := by
        change ((dayOf k).days * dayMicros + 870 * 60000000) % dayMicros = 870 * 60000000
        rw [Nat.mul_add_mod_self_right]
        rfl
      have hduration : (timeOn (dayOf k) 1260).micros - (timeOn (dayOf k) 870).micros = 390 * 60000000 := by
        change ((dayOf k).startMicros + 1260 * 60000000) - ((dayOf k).startMicros + 870 * 60000000) = 390 * 60000000
        omega
      refine bind_ok.mpr ⟨(), require_ok.mpr ?_, require_ok.mpr ?_⟩
      · rw [hopens]
        decide
      · rw [hduration]
        decide
    · rfl

theorem sessionOn_dayOf (k : Fin 183) : sessionOn halfYear (dayOf k) = some (daySession k) := by
  refine (Dict.find?_eq_some_iff_of_unique ?_).mpr ⟨List.mem_map_of_mem (List.mem_finRange k), by simp⟩
  intro s hs t ht hsk htk
  obtain ⟨l, -, rfl⟩ := List.mem_map.mp hs
  obtain ⟨m, -, rfl⟩ := List.mem_map.mp ht
  simp only [tradingDate_daySession, decide_eq_true_eq] at hsk htk
  rw [dayOf_injective (hsk.trans htk.symm)]

theorem pairwise_weekdaysFrom (start : Nat) : (weekdaysFrom start).Pairwise (· < ·) :=
  (List.pairwise_lt_finRange 183).filter _

theorem day_lastOpen : lastOpen.day = 739200 + 182 := by decide

/-- The window of the last day: all weekdays but four. -/
theorem window_halfYear : window halfYear lastOpen = (weekdaysFrom 4).map dayOf := by
  have hopen : (halfYear.filter (fun s => decide (s.tradingDate.days < lastOpen.day) && s.isOpen)).map
      MarketSession.tradingDate = (weekdaysFrom 0).map dayOf := by
    rw [halfYear, List.filter_map, List.map_map, weekdaysFrom]
    refine congrArg₂ List.map (funext tradingDate_daySession) (List.filter_congr fun k _ => ?_)
    rw [Function.comp_apply, tradingDate_daySession, days_dayOf, isOpen_daySession, day_lastOpen, ← Bool.decide_and]
    exact decide_eq_decide.mpr (by omega)
  rw [window, latestOpenDates, hopen, sortOn_dayOf (pairwise_weekdaysFrom 0), List.length_map, ← List.map_drop,
    weekdaysFrom_counts.1]

theorem exists_latestOpenSessionDates {sessions : List MarketSession} {cutoff count : Nat} {start : TradingDate}
    (hhead : (latestOpenDates sessions cutoff count).head? = some start)
    (hcomplete : requireCompleteWeekdayWindow sessions start.days cutoff = .ok ()) :
    ∃ w, latestOpenSessionDates sessions cutoff count = .ok w := by
  refine ⟨_, bind_ok.mpr ⟨(), ?_, rfl⟩⟩
  rw [hhead]
  split_ifs
  · exact hcomplete
  · rfl

theorem latestOpenSessionDates_halfYear :
    ∃ w, latestOpenSessionDates halfYear lastOpen.day clusterSessionWindow = .ok w := by
  have hhead : (window halfYear lastOpen).head? = some (dayOf 4) := by
    rw [window_halfYear, List.head?_map, weekdaysFrom_counts.2.1]
    rfl
  have hcomplete : requireCompleteWeekdayWindow halfYear (dayOf 4).days lastOpen.day = .ok () := by
    refine require_ok.mpr fun k hk _ => ?_
    rw [days_dayOf, day_lastOpen] at hk
    rw [days_dayOf, halfYear, List.map_map]
    have hfour : ((4 : Fin 183) : Nat) = 4 := rfl
    rw [hfour] at hk ⊢
    have hlt : 4 + k < 183 := by omega
    refine List.mem_map.mpr ⟨⟨4 + k, hlt⟩, List.mem_finRange _, ?_⟩
    rw [Function.comp_apply, tradingDate_daySession, days_dayOf]
    exact (Nat.add_assoc _ _ _).symm
  exact exists_latestOpenSessionDates hhead hcomplete

def barsRef : SourceRef := ⟨"bars-1", .alpacaHistoricalBars, repeated '1' (Eq.refl true), Eq.refl true⟩

/-- The returns of a node on some days, in hundredths. -/
def dayReturn (node : SecurityId) (value : Fin 183 → Nat) (k : Fin 183) : ReturnObservation where
  tradingDate := dayOf k
  value := ⟨false, value k, -2⟩
  availableAt := lastOpen
  securityId := some node
  sourceRef := some barsRef
  sourceRecordHash := some (repeated '1' (Eq.refl true))
  identityHash := some (repeated 'a' (Eq.refl true))
  family_ok := by
    rintro _ ⟨⟩
    rfl

theorem accepts_dayReturn (node : SecurityId) (value : Fin 183 → Nat) {days : List (Fin 183)}
    (hsorted : days.Pairwise (· < ·)) (hdays : ∀ k ∈ days, k ∈ weekdaysFrom 4) (hlength : minReturns ≤ days.length) :
    Accepts halfYear lastOpen node (days.map (dayReturn node value)) := by
  have hall : ∀ {P : ReturnObservation → Prop}, (∀ k ∈ weekdaysFrom 4, P (dayReturn node value k)) →
      ∀ item ∈ days.map (dayReturn node value), P item := by
    intro P h item hitem
    obtain ⟨k, hk, rfl⟩ := List.mem_map.mp hitem
    exact h k (hdays k hk)
  have hdates : (days.map (dayReturn node value)).map ReturnObservation.tradingDate = days.map dayOf := by
    rw [List.map_map]
    rfl
  have hweekday : ∀ k ∈ weekdaysFrom 4, k.val % 7 < 5 ∧ k.val < 182 := by
    intro k hk
    have := of_decide_eq_true (List.mem_filter.mp hk).2
    exact ⟨this.1, this.2.2⟩
  refine ⟨⟨hall fun k _ => ⟨rfl, rfl⟩, hall fun k _ => ⟨rfl, by simp [dayReturn]⟩, ?_, hall fun k hk => ?_,
    hall fun k hk => ?_, hall fun k _ => le_rfl, ?_, ?_⟩, ?_, ?_⟩
  · rwa [List.length_map]
  · refine ⟨daySession k, sessionOn_dayOf k, ?_⟩
    rw [daySession, if_pos (hweekday k hk).1]
    simp
  · change (dayOf k).days < lastOpen.day
    rw [days_dayOf, day_lastOpen]
    exact Nat.add_lt_add_left (hweekday k hk).2 _
  · rw [hdates, sortOn_dayOf hsorted]
  · rw [hdates]
    exact List.Nodup.map dayOf_injective (hsorted.imp ne_of_lt)
  · rw [window_halfYear, List.length_map, weekdaysFrom_counts.2.2.1]
    decide
  · have hin : inWindow (window halfYear lastOpen) (days.map (dayReturn node value)) = days.map (dayReturn node value) := by
      refine List.filter_eq_self.mpr (hall fun k hk => decide_eq_true ?_)
      rw [window_halfYear]
      exact List.mem_map_of_mem hk
    rwa [hin, List.length_map]

theorem returnOn_dayOf {returns : ReturnsMapping} {node : SecurityId} {value : Fin 183 → Nat} {days : List (Fin 183)}
    (hmem : (node.value, days.map (dayReturn node value)) ∈ returns.items) (k : Fin 183) :
    returnOn returns node (dayOf k) =
      if k ∈ days then some (Decimal.value ⟨false, value k, -2⟩) else none := by
  rw [returnOn, Dict.lookup_of_mem returns.keys_nodup hmem, Option.getD_some]
  by_cases hk : k ∈ days
  · rw [if_pos hk, Option.map_eq_some_iff]
    refine ⟨dayReturn node value k, (Dict.find?_eq_some_iff_of_unique ?_).mpr ⟨List.mem_map_of_mem hk, by simp [dayReturn]⟩,
      rfl⟩
    intro x hx y hy hxk hyk
    obtain ⟨l, -, rfl⟩ := List.mem_map.mp hx
    obtain ⟨m, -, rfl⟩ := List.mem_map.mp hy
    have hlm : dayOf l = dayOf m := (of_decide_eq_true hxk).trans (of_decide_eq_true hyk).symm
    rw [dayOf_injective hlm]
  · rw [if_neg hk, Option.map_eq_none_iff, List.find?_eq_none]
    intro x hx hxk
    obtain ⟨l, hl, rfl⟩ := List.mem_map.mp hx
    exact hk (dayOf_injective (of_decide_eq_true hxk) ▸ hl)

theorem seriesRefs_dayReturn (node : SecurityId) (value : Fin 183 → Nat) {days : List (Fin 183)} (hne : days ≠ []) :
    seriesRefs (days.map (dayReturn node value)) = [barsRef] := by
  have hrefs : (days.map (dayReturn node value)).filterMap ReturnObservation.sourceRef =
      List.replicate days.length barsRef := by
    rw [List.filterMap_map, ← List.map_const', ← List.filterMap_eq_map]
    rfl
  rw [seriesRefs, hrefs, List.replicate_dedup (fun h => hne (List.length_eq_zero_iff.mp h))]
  rfl

/-! ### A flat stretch -/

/-- Returns that vary over the first weeks only. -/
def earlyValue (k : Fin 183) : Nat := if k.val < 42 then k.val % 2 else 0

def lateValue (k : Fin 183) : Nat := k.val % 2

/-- A node with all returns of the window, and a node with the latest 100 of them. -/
def flatReturns : ReturnsMapping where
  items := [(sampleSecurity.value, (weekdaysFrom 4).map (dayReturn sampleSecurity earlyValue)),
    (furtherSecurity.value, (weekdaysFrom 42).map (dayReturn furtherSecurity lateValue))]
  keys_nodup := by decide

theorem weekdaysFrom_subset {start : Nat} (h : 4 ≤ start) {k : Fin 183} (hk : k ∈ weekdaysFrom start) : k ∈ weekdaysFrom 4 := by
  obtain ⟨hfin, hk⟩ := List.mem_filter.mp hk
  have hk := of_decide_eq_true hk
  exact List.mem_filter.mpr ⟨hfin, decide_eq_true ⟨hk.1, h.trans hk.2.1, hk.2.2⟩⟩

theorem hasAccepted_early : HasAccepted halfYear lastOpen flatReturns sampleSecurity :=
  ⟨_, List.mem_cons_self, accepts_dayReturn _ _ (pairwise_weekdaysFrom 4) (fun _ => id) enough_weekdays.1⟩

theorem hasAccepted_late : HasAccepted halfYear lastOpen flatReturns furtherSecurity :=
  ⟨_, List.mem_cons_of_mem _ List.mem_cons_self, accepts_dayReturn _ _ (pairwise_weekdaysFrom 42)
    (fun _ => weekdaysFrom_subset (by decide)) enough_weekdays.2⟩

theorem returnOn_early (k : Fin 183) : returnOn flatReturns sampleSecurity (dayOf k) =
    if k ∈ weekdaysFrom 4 then some (Decimal.value ⟨false, earlyValue k, -2⟩) else none :=
  returnOn_dayOf List.mem_cons_self k

theorem returnOn_late (k : Fin 183) : returnOn flatReturns furtherSecurity (dayOf k) =
    if k ∈ weekdaysFrom 42 then some (Decimal.value ⟨false, lateValue k, -2⟩) else none :=
  returnOn_dayOf (List.mem_cons_of_mem _ List.mem_cons_self) k

/-- Two days with different returns make the returns vary. -/
theorem varied_of_days {returns : ReturnsMapping} {node : SecurityId} {k l : Fin 183} {x y : ℚ}
    (hk : k ∈ weekdaysFrom 4) (hl : l ∈ weekdaysFrom 4) (hx : returnOn returns node (dayOf k) = some x)
    (hy : returnOn returns node (dayOf l) = some y) (hne : x ≠ y) :
    0 < Correlation.var (windowReturns halfYear lastOpen returns node) := by
  refine Correlation.var_pos_iff.mpr ⟨x, mem_windowReturns.mpr ⟨dayOf k, ?_, hx⟩, y, mem_windowReturns.mpr ⟨dayOf l, ?_, hy⟩, hne⟩
  · rw [window_halfYear]
    exact List.mem_map_of_mem hk
  · rw [window_halfYear]
    exact List.mem_map_of_mem hl

theorem complete_early : Complete halfYear lastOpen flatReturns sampleSecurity := by
  refine ⟨?_, fun date hdate => ?_, ?_⟩
  · rw [window_halfYear, List.length_map, weekdaysFrom_counts.2.2.1]
    decide
  · rw [window_halfYear] at hdate
    obtain ⟨k, hk, rfl⟩ := List.mem_map.mp hdate
    rw [returnOn_early, if_pos hk]
    rfl
  · have hfour : (4 : Fin 183) ∈ weekdaysFrom 4 := mem_weekdaysFrom.mpr (by decide)
    have hseven : (7 : Fin 183) ∈ weekdaysFrom 4 := mem_weekdaysFrom.mpr (by decide)
    refine varied_of_days hfour hseven ((returnOn_early 4).trans (if_pos hfour)) ((returnOn_early 7).trans (if_pos hseven)) ?_
    decide +kernel

/-- On the dates of the late series the early one stands still. -/
theorem late_poisons_early : Poisons halfYear lastOpen flatReturns furtherSecurity sampleSecurity := by
  refine ⟨hasAccepted_late, ?_, fun d hd e he hdb heb => ?_⟩
  · have hfirst : (42 : Fin 183) ∈ weekdaysFrom 42 := mem_weekdaysFrom.mpr (by decide)
    have hnext : (43 : Fin 183) ∈ weekdaysFrom 42 := mem_weekdaysFrom.mpr (by decide)
    refine varied_of_days (weekdaysFrom_subset (by decide) hfirst) (weekdaysFrom_subset (by decide) hnext)
      ((returnOn_late 42).trans (if_pos hfirst)) ((returnOn_late 43).trans (if_pos hnext)) ?_
    decide +kernel
  · have hflat : ∀ d ∈ window halfYear lastOpen, (returnOn flatReturns furtherSecurity d).isSome = true →
        returnOn flatReturns sampleSecurity d = some (Decimal.value ⟨false, 0, -2⟩) := by
      intro d hd hlate
      rw [window_halfYear] at hd
      obtain ⟨k, hk, rfl⟩ := List.mem_map.mp hd
      rw [returnOn_late] at hlate
      split_ifs at hlate with hk42
      · have hge := (of_decide_eq_true (List.mem_filter.mp hk42).2).2.1
        rw [returnOn_early, if_pos hk, earlyValue, if_neg (not_lt.mpr hge)]
      · cases hlate
    rw [hflat d hd hdb, hflat e he heb]

theorem refsOf_flatReturns {nodes : List SecurityId} {accepted : List (SecurityId × Series)}
    (hacc : acceptedSeries halfYear lastOpen nodes flatReturns = .ok accepted) {node : SecurityId} (hnode : node ∈ nodes)
    (h : node ∈ [sampleSecurity, furtherSecurity]) : refsOf accepted node = [barsRef] := by
  obtain ⟨value, days, hne, hmem, haccepts⟩ : ∃ value days, days ≠ [] ∧
      (node.value, days.map (dayReturn node value)) ∈ flatReturns.items ∧
      Accepts halfYear lastOpen node (days.map (dayReturn node value)) := by
    have h4 : (4 : Fin 183) ∈ weekdaysFrom 4 := mem_weekdaysFrom.mpr (by decide)
    have h42 : (42 : Fin 183) ∈ weekdaysFrom 42 := mem_weekdaysFrom.mpr (by decide)
    rcases List.mem_pair.mp h with rfl | rfl
    · exact ⟨earlyValue, weekdaysFrom 4, List.ne_nil_of_mem h4, List.mem_cons_self,
        accepts_dayReturn _ _ (pairwise_weekdaysFrom 4) (fun _ => id) enough_weekdays.1⟩
    · exact ⟨lateValue, weekdaysFrom 42, List.ne_nil_of_mem h42, List.mem_cons_of_mem _ List.mem_cons_self,
        accepts_dayReturn _ _ (pairwise_weekdaysFrom 42) (fun _ => weekdaysFrom_subset (by decide)) enough_weekdays.2⟩
  rw [refsOf, (lookup_accepted hacc).mpr ⟨hnode, _, hmem, haccepts, rfl⟩]
  exact seriesRefs_dayReturn node value hne

/-- The two nodes can be clustered together, and each for itself. -/
theorem exists_flat_results {nodes : List SecurityId} (hnodup : nodes.Nodup)
    (hnodes : (nodes.sortOn SecurityId.value).Sublist [sampleSecurity, furtherSecurity]) :
    ∃ results, buildClusters sampleAuthority listOrder nodes flatReturns samplePolicy lastOpen halfYear = .ok results := by
  obtain ⟨accepted, hacc⟩ := exists_acceptedSeries latestOpenSessionDates_halfYear nodes flatReturns
  have hrefs : ∀ a ∈ nodes, refsOf accepted a = [barsRef] := fun a ha =>
    refsOf_flatReturns hacc ha (hnodes.subset (List.mem_sortOn.mpr ha))
  have hlength : ∀ a ∈ [sampleSecurity, furtherSecurity], a.value.length ≤ 64 := by decide
  have hbars : ∀ ref ∈ [barsRef], ref.family = .alpacaHistoricalBars ∧ ref.recordId.length ≤ 96 := by
    rw [List.forall_mem_singleton]
    exact ⟨rfl, by decide⟩
  have hdate : dateOf lastOpen = dayOf 182 := dateOf_eq (day_lastOpen.trans (days_dayOf 182).symm)
  refine exists_results sessionCalendar_halfYear ⟨daySession 182, ?_, ?_⟩ hnodup hacc (fun m hne hm => ?_) fun a ha => ?_
  · rw [hdate]
    exact sessionOn_dayOf 182
  · rw [daySession, if_pos (by decide)]
    simp
  · have hsub : m.Sublist [sampleSecurity, furtherSecurity] := (hm.trans List.filter_sublist).trans hnodes
    have hsorted : [sampleSecurity, furtherSecurity].Pairwise (fun a b => a.value < b.value) := by decide
    have hflat : m.flatMap (refsOf accepted) = m.flatMap (fun _ => [barsRef]) :=
      List.flatMap_congr fun a ha => hrefs a (List.mem_sortOn.mp ((hm.trans List.filter_sublist).subset ha))
    have hone : (m.flatMap (fun _ => [barsRef])).dedup = [barsRef] :=
      List.dedup_eq_singleton.mpr ⟨by simpa using List.exists_mem_of_ne_nil m hne, by simp⟩
    rw [assignedBody, hflat, hone]
    refine postInit_of_small ⟨hne, hsub.length_le⟩ ?_ (fun a ha => hlength a (hsub.subset ha)) le_rfl hbars
      (List.cons_ne_nil barsRef []) rfl
    have hpair := hsorted.sublist hsub
    have hnodup' : m.Nodup := hpair.imp fun hab e => absurd (congrArg SecurityId.value e) hab.ne
    rw [hnodup'.dedup]
    exact (List.sortOn_of_pairwise (hpair.imp fun hab => hab.le)).symm
  · rw [unknownBody, hrefs a ha]
    exact postInit_of_small ⟨List.cons_ne_nil a [], one_le_two⟩ rfl
      (fun m hm => hlength m (List.mem_singleton.mp hm ▸ hnodes.subset (List.mem_sortOn.mpr ha))) le_rfl hbars rfl rfl

/-- The call about some of the two nodes. -/
def flatClusters (nodes : List SecurityId) : Except Failure (List (ClusterResult sampleAuthority)) :=
  buildClusters sampleAuthority listOrder nodes flatReturns samplePolicy lastOpen halfYear

theorem exists_flat_pair : ∃ results results', flatClusters [sampleSecurity] = .ok results ∧
    flatClusters [furtherSecurity, sampleSecurity] = .ok results' := by
  obtain ⟨results, h⟩ := exists_flat_results (List.nodup_singleton sampleSecurity) (by decide)
  obtain ⟨results', h'⟩ := exists_flat_results (show [furtherSecurity, sampleSecurity].Nodup by decide) (by decide)
  exact ⟨results, results', h, h'⟩

/-- A complete node that is assigned by itself becomes unknown beside a node with 100 returns. -/
theorem complete_node_unsettled : ∃ results results', flatClusters [sampleSecurity] = .ok results ∧
    flatClusters [furtherSecurity, sampleSecurity] = .ok results' ∧
    Complete halfYear lastOpen flatReturns sampleSecurity ∧ Assigned results sampleSecurity ∧
    Unknown results' sampleSecurity := by
  obtain ⟨results, results', h, h'⟩ := exists_flat_pair
  refine ⟨results, results', h, h', complete_early, ?_, ?_⟩
  · rw [assigned_iff_known h List.mem_cons_self,
      unknown_iff_poisoned h List.mem_cons_self hasAccepted_early complete_early]
    rintro ⟨b, hb, hne, -⟩
    exact hne (List.mem_singleton.mp hb)
  · refine (unknown_iff_poisoned h' (List.mem_cons_of_mem _ List.mem_cons_self) hasAccepted_early complete_early).mpr ?_
    exact ⟨furtherSecurity, List.mem_cons_self, by decide, late_poisons_early⟩

theorem flat_node_assigned : ∃ results results', flatClusters [sampleSecurity] = .ok results ∧
    flatClusters [furtherSecurity, sampleSecurity] = .ok results' ∧ Assigned results sampleSecurity ∧
    (Unknown results' sampleSecurity ↔ Poisons halfYear lastOpen flatReturns furtherSecurity sampleSecurity) := by
  obtain ⟨results, results', h, h'⟩ := exists_flat_pair
  obtain ⟨hassigned, hadded⟩ := complete_assigned_iff h List.mem_cons_self complete_early
  have hself : Assigned results sampleSecurity :=
    hassigned.mpr ⟨hasAccepted_early, fun b hb hne => absurd (List.mem_singleton.mp hb) hne⟩
  exact ⟨results, results', h, h', hself, hadded _ _ _ _ (fun _ _ => rfl) h' hself⟩

end

end SevenLens.Screening
