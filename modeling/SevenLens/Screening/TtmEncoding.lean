import SevenLens.Screening.TtmWindow

/-! # Trailing twelve months and the way quarters are reported

What is assembled depends neither on the order of the facts nor on whether the quarters of a
fiscal year come one by one or as sums from the start of the year (`LatestFormed.ytd`).  It is
the latest window of every concept among those that are looked at. -/

namespace SevenLens.Screening

open Securities MarketData QuarterlyFact

/-! ### The order of the facts -/

section Order

variable {round : ℚ → ℚ} {facts facts' : List QuarterlyFact}

/-- What an asset fact is to the quarters. -/
inductive AssetRole where
  | other | refused | start | quarter

def roleOf (lineage : String × String × String) (first : Nat × Quarter × TradingDate)
    (keys : List (Nat × Quarter × TradingDate)) (f : QuarterlyFact) : AssetRole :=
  if f.lineage ≠ lineage then .other
  else if f.isYtd then .refused
  else if isStart first f then .start
  else if f.quarterKey ∉ keys then .other
  else .quarter

def AssetScan.take (s : AssetScan) (f : QuarterlyFact) : AssetRole → Option AssetScan
  | .other => some s
  | .refused => none
  | .start => if s.start.isSome then none else some { s with start := some f }
  | .quarter =>
    if (s.byPeriod f.quarterKey).isSome then none
    else some { s with byPeriod := Function.update s.byPeriod f.quarterKey (some f) }

theorem scanAsset_eq_take (lineage : String × String × String) (first : Nat × Quarter × TradingDate)
    (keys : List (Nat × Quarter × TradingDate)) (s : AssetScan) (f : QuarterlyFact) :
    scanAsset lineage first keys s f = s.take f (roleOf lineage first keys f) := by
  unfold scanAsset roleOf
  split_ifs <;> simp_all [AssetScan.take]

theorem take_quarter_comm (s : AssetScan) (f g : QuarterlyFact) :
    (s.take f .quarter).bind (fun t => t.take g .quarter) = (s.take g .quarter).bind (fun t => t.take f .quarter) := by
  by_cases hkey : f.quarterKey = g.quarterKey
  · -- the second of two balances of one quarter is refused
    cases hs : s.byPeriod g.quarterKey <;> simp [AssetScan.take, hkey, hs]
  · cases hf : s.byPeriod f.quarterKey <;> cases hg : s.byPeriod g.quarterKey <;>
      simp [AssetScan.take, hf, hg, hkey, Ne.symm hkey, Function.update_of_ne]
    exact Function.update_comm hkey _ _ _

theorem take_comm (s : AssetScan) (f g : QuarterlyFact) (p q : AssetRole) :
    (s.take f p).bind (fun t => t.take g q) = (s.take g q).bind (fun t => t.take f p) := by
  cases p with
  | quarter =>
    cases q with
    | quarter => exact take_quarter_comm s f g
    | other => simp [AssetScan.take]
    | refused => simp [AssetScan.take]
    | start =>
      cases hs : s.start <;> cases hf : s.byPeriod f.quarterKey <;> simp [AssetScan.take, hs, hf]
  | other => cases q <;> simp [AssetScan.take]
  | refused => cases q <;> simp [AssetScan.take]
  | start =>
    cases q with
    | quarter => cases hs : s.start <;> cases hg : s.byPeriod g.quarterKey <;> simp [AssetScan.take, hs, hg]
    | other => simp [AssetScan.take]
    | refused => simp [AssetScan.take]
    | start => cases hs : s.start <;> simp [AssetScan.take, hs]

/-- The balances do not depend on the order of the asset facts. -/
theorem assetBalances_perm (h : facts.Perm facts') (lineage : String × String × String)
    (first : Nat × Quarter × TradingDate) (keys : List (Nat × Quarter × TradingDate)) :
    assetBalances lineage first keys facts = assetBalances lineage first keys facts' := by
  have hcomm := fun s f g => take_comm s f g (roleOf lineage first keys f) (roleOf lineage first keys g)
  simp only [← scanAsset_eq_take] at hcomm
  rw [assetBalances, assetBalances, Dict.foldlM_perm hcomm h]

theorem oneSecurity_perm (h : facts.Perm facts') : oneSecurity facts ↔ oneSecurity facts' := by
  simp only [oneSecurity, h.mem_iff]

theorem assembleTtm_perm (h : facts.Perm facts') (sharesOutstanding : ℚ) (cutoff : UtcTimestamp)
    (knownAt : Option UtcTimestamp) :
    assembleTtm round facts sharesOutstanding cutoff knownAt =
      assembleTtm round facts' sharesOutstanding cutoff knownAt := by
  have hassets : ∀ k netIncome cfo capex,
      assembleFrom round sharesOutstanding netIncome cfo capex (factByConcept facts .assets cutoff k) =
        assembleFrom round sharesOutstanding netIncome cfo capex (factByConcept facts' .assets cutoff k) := by
    intro k netIncome cfo capex
    have hp : (factByConcept facts .assets cutoff k).Perm (factByConcept facts' .assets cutoff k) := h.filter _
    simp only [assembleFrom, assetBalances_perm hp]
  simp only [assembleTtm, uniqueQuarterKeys_perm h, oneSecurity_perm h, hassets]

end Order

/-! ### Sums from the start of the year -/

/-- A fact that reports, for the quarter of another one, the sum from the start of the year. -/
structure YtdOf (f : QuarterlyFact) (total : ℚ) (y : QuarterlyFact) : Prop where
  concept : y.concept = f.concept
  value : y.value = total
  quarterKey : y.quarterKey = f.quarterKey
  period : y.fiscalPeriod = .ytd
  lineage : y.lineage = f.lineage
  securityId : y.securityId = f.securityId

/-- Facts that report the running sums of others, from a sum that is there already. -/
inductive Accumulates : ℚ → Window → Window → Prop
  | nil (total : ℚ) : Accumulates total [] []
  | cons {total : ℚ} {f y : QuarterlyFact} {fs ys : Window} (hy : YtdOf f (total + f.value) y)
    (h : Accumulates (total + f.value) fs ys) : Accumulates total (f :: fs) (y :: ys)

namespace YtdOf

variable {f y : QuarterlyFact} {total : ℚ}

theorem isYtd (h : YtdOf f total y) : y.isYtd = true := decide_eq_true h.period

theorem fiscalYear (h : YtdOf f total y) : y.fiscalYear = f.fiscalYear := congrArg Prod.fst h.quarterKey

theorem label (h : YtdOf f total y) : y.label = f.label := congrArg (fun k => k.2.1) h.quarterKey

theorem endDay (h : YtdOf f total y) : y.endDay = f.endDay := congrArg (fun k => k.2.2.days) h.quarterKey

theorem ordinal (h : YtdOf f total y) : y.ordinal = f.ordinal := ordinal_eq_iff.mpr ⟨h.fiscalYear, h.label⟩

theorem yearKey (h : YtdOf f total y) : y.yearKey = f.yearKey := Prod.ext h.lineage h.fiscalYear

end YtdOf

namespace Accumulates

variable {round : ℚ → ℚ} {total : ℚ} {w ys : Window}

theorem forall₂ (h : Accumulates total w ys) : List.Forall₂ (fun f y => ∃ t, YtdOf f t y) w ys := by
  induction h with
  | nil => exact .nil
  | cons hy _ ih => exact .cons ⟨_, hy⟩ ih

/-- What the two ways to report a quarter have in common. -/
theorem map_eq {β : Type} {p : QuarterlyFact → β} (hp : ∀ {f y t}, YtdOf f t y → p y = p f) (h : Accumulates total w ys) :
    ys.map p = w.map p := by
  rw [← List.forall₂_eq_eq_eq, List.forall₂_map_left_iff, List.forall₂_map_right_iff]
  exact h.forall₂.flip.imp (fun y f ⟨_, hy⟩ => hp hy)

theorem exists_of_mem (h : Accumulates total w ys) {y : QuarterlyFact} (hy : y ∈ ys) : ∃ f ∈ w, ∃ t, YtdOf f t y :=
  Dict.exists_of_forall₂ h.forall₂.flip hy

theorem isYtd (h : Accumulates total w ys) : ∀ y ∈ ys, y.isYtd = true := by
  intro y hy
  obtain ⟨f, -, t, hf⟩ := h.exists_of_mem hy
  exact hf.isYtd

theorem windowEnd (h : Accumulates total w ys) : windowEnd ys = windowEnd w := by
  have hlast := congrArg List.getLast? (h.map_eq YtdOf.endDay)
  rw [List.getLast?_map, List.getLast?_map] at hlast
  simp only [Screening.windowEnd]
  cases hy : ys.getLast? <;> cases hw : w.getLast? <;> simp_all

/-- The single quarters are found again as the differences of the sums. -/
theorem quarterValues {priorYtd : Option ℚ} (h : Accumulates total w ys) (hprior : priorYtd.getD 0 = total)
    (hround : ∀ f ∈ w, round f.value = f.value) : quarterValues round priorYtd ys = w.map value := by
  induction w generalizing total ys priorYtd with
  | nil =>
    cases h
    rfl
  | cons f fs ih =>
    obtain _ | ⟨hy, h⟩ := h
    rename_i y ys
    have hvalue : quarterValue round y priorYtd = f.value := by
      rw [quarterValue, if_pos hy.isYtd, hy.value, hprior, add_sub_cancel_left, hround f List.mem_cons_self]
    have htail : Screening.quarterValues round (some (total + f.value)) ys = fs.map value :=
      ih h rfl (fun g hg => hround g (List.mem_cons_of_mem f hg))
    rw [Screening.quarterValues, if_pos hy.isYtd, hvalue, List.map_cons, hy.value, htail]

end Accumulates

/-- Single quarters are taken as they are. -/
theorem quarterValues_of_single {round : ℚ → ℚ} {w : Window} (h : ∀ f ∈ w, f.isYtd = false) (priorYtd : Option ℚ) :
    quarterValues round priorYtd w = w.map value := by
  induction w with
  | nil => rfl
  | cons f w ih =>
    rw [quarterValues, if_neg (by simp [h f List.mem_cons_self]), ih (fun g hg => h g (List.mem_cons_of_mem f hg)),
      List.map_cons]

/-! ### One year reported in the other way -/

section Year

variable {round : ℚ → ℚ} {w ys rest : Window} {f : QuarterlyFact}

theorem ofYear_append (l m : List QuarterlyFact) (key : (String × String × String) × Nat) :
    ofYear (l ++ m) key = ofYear l key ++ ofYear m key := List.filter_append l m

theorem singleQuarters_append (l m : List QuarterlyFact) (lineage : String × String × String) :
    singleQuarters (l ++ m) lineage = singleQuarters l lineage ++ singleQuarters m lineage := by
  simp only [singleQuarters, List.filter_append]

theorem ofYear_of_forall {key : (String × String × String) × Nat} (h : ∀ f ∈ w, f.yearKey = key) : ofYear w key = w :=
  List.filter_eq_self.mpr (fun f hf => decide_eq_true (h f hf))

theorem ofYear_eq_nil {key : (String × String × String) × Nat} (h : ∀ f ∈ w, f.yearKey ≠ key) : ofYear w key = [] :=
  List.filter_eq_nil_iff.mpr (fun f hf => by simpa using h f hf)

theorem singleQuarters_eq_nil (h : ∀ f ∈ w, f.isYtd = true) (lineage : String × String × String) :
    singleQuarters w lineage = [] := by
  have hnone : w.filter (fun f => !f.isYtd) = [] := List.filter_eq_nil_iff.mpr (fun f hf => by simp [h f hf])
  rw [singleQuarters, hnone, List.filter_nil]

/-- A window of single quarters of one fiscal year is all that is visible of the year, if no sums are. -/
theorem not_mem_rest (hw : Formed (w ++ rest) w) (hf : f ∈ w) (hyear : ∀ g ∈ w, g.yearKey = f.yearKey)
    (hsums : ∀ g ∈ rest, g.isYtd = true → g.yearKey ≠ f.yearKey) : ∀ g ∈ rest, g.yearKey ≠ f.yearKey := by
  intro g hg hkey
  rcases hw with hw | hw
  · obtain ⟨key, hwhole⟩ := hw.whole
    have hfkey : f.yearKey = key := (mem_ofYear.mp (hwhole.subset hf)).2
    have hlength := hwhole.length_eq
    rw [← hfkey, ofYear_append, ofYear_of_forall hyear, List.length_append] at hlength
    have hmem : g ∈ ofYear rest f.yearKey := mem_ofYear.mpr ⟨hg, hkey⟩
    have := List.length_pos_of_mem hmem
    omega
  · have hsingle : g.isYtd = false := Bool.eq_false_iff.mpr (fun h => hsums g hg h hkey)
    have hlabels := (labels_iff (fun a ha => congrArg Prod.snd (hyear a ha))).mpr hw.consecutive
    obtain ⟨a, ha, hal⟩ : ∃ a ∈ w, a.label = g.label := by
      rw [← List.mem_map, hlabels]
      cases g.label <;> decide
    have hord : a.ordinal = g.ordinal := ordinal_eq_iff.mpr ⟨congrArg Prod.snd ((hyear a ha).trans hkey.symm), hal⟩
    have honce := hw.once f hf
    rw [singleQuarters_append, List.map_append] at honce
    refine (List.disjoint_of_nodup_append honce) (a := a.ordinal) (List.mem_map_of_mem ?_) (hord ▸ List.mem_map_of_mem ?_)
    · exact mem_singleQuarters.mpr ⟨⟨ha, hw.single a ha⟩, congrArg Prod.fst (hyear a ha)⟩
    · exact mem_singleQuarters.mpr ⟨⟨hg, hsingle⟩, congrArg Prod.fst hkey⟩

/-- What becomes of the windows when the year of the latest one is reported by its sums. -/
structure Reported (w ys rest : Window) (key : (String × String × String) × Nat) : Prop where
  length : w.length = 4
  year : ∀ g ∈ w, g.yearKey = key
  apart : ∀ g ∈ rest, g.yearKey ≠ key
  accumulates : Accumulates 0 w ys

namespace Reported

variable {key : (String × String × String) × Nat} {v : Window} (h : Reported w ys rest key)

include h

theorem year_ytd : ∀ y ∈ ys, y.yearKey = key := by
  intro y hy
  obtain ⟨f, hf, t, hyf⟩ := h.accumulates.exists_of_mem hy
  exact hyf.yearKey.trans (h.year f hf)

theorem not_subset : ¬ ∀ f ∈ w, f ∈ rest := by
  intro hsub
  obtain ⟨f, hf⟩ := exists_mem_of_length h.length
  exact h.apart f (hsub f hf) (h.year f hf)

theorem ofYear_self : ofYear (ys ++ rest) key = ys := by
  rw [ofYear_append, ofYear_of_forall h.year_ytd, ofYear_eq_nil h.apart, List.append_nil]

/-- The other fiscal years are as they were. -/
theorem ofYear_other {k : (String × String × String) × Nat} (hk : k ≠ key) :
    ofYear (ys ++ rest) k = ofYear (w ++ rest) k := by
  rw [ofYear_append, ofYear_append, ofYear_eq_nil (fun y hy => (h.year_ytd y hy).trans_ne hk.symm),
    ofYear_eq_nil (fun f hf => (h.year f hf).trans_ne hk.symm)]

theorem consistent (hc : Consistent round (w ++ rest)) : Consistent round (ys ++ rest) := by
  intro f hf hmixed
  by_cases hk : f.yearKey = key
  · rw [hk, h.ofYear_self, mixed_eq_false.mpr (.inl h.accumulates.isYtd)] at hmixed
    cases hmixed
  · have hrest : f ∈ rest := (List.mem_append.mp hf).resolve_left (fun hy => hk (h.year_ytd f hy))
    rw [h.ofYear_other hk] at hmixed ⊢
    exact hc f (List.mem_append_right w hrest) hmixed

/-- The sums of the year are a window. -/
theorem yearWindow (hw : QuarterWindow (w ++ rest) w) : YearWindow (ys ++ rest) ys := by
  have hends : (w.map endDay).Pairwise (· < ·) := List.pairwise_map.mpr hw.increasing
  refine ⟨⟨fun y hy => List.mem_append_left rest hy, fun y hy y' hy' => ?_, ?_, ?_⟩, ⟨key, by rw [h.ofYear_self]⟩,
    .inl h.accumulates.isYtd⟩
  · exact congrArg Prod.fst ((h.year_ytd y hy).trans (h.year_ytd y' hy').symm)
  · rw [h.accumulates.map_eq YtdOf.ordinal]
    exact hw.consecutive
  · rw [← h.accumulates.map_eq YtdOf.endDay] at hends
    exact List.pairwise_map.mp hends

/-- A whole year among the new facts is the sums, or it was there before. -/
theorem yearWindow_cases (hys : YearWindow (ys ++ rest) ys) (hv : YearWindow (ys ++ rest) v) :
    v = ys ∨ YearWindow (w ++ rest) v ∧ v ≠ w := by
  obtain ⟨f, hf, hmixed, ⟨hl, hwhole⟩, hi⟩ := yearWindow_iff.mp hv
  by_cases hk : f.yearKey = key
  · rw [hk, h.ofYear_self] at hwhole
    have hlabels := (labels_iff (fun y hy => congrArg Prod.snd (h.year_ytd y hy))).mpr hys.consecutive
    have hfour : fourQuarters ys = some v := fourQuarters_eq_some.mpr ⟨hl, hwhole⟩
    have hfour' : fourQuarters ys = some ys := fourQuarters_eq_some.mpr ⟨hlabels, .refl _⟩
    exact .inl (Option.some.inj (hfour.symm.trans hfour'))
  · have hrest : f ∈ rest := (List.mem_append.mp hf).resolve_left (fun hy => hk (h.year_ytd f hy))
    rw [h.ofYear_other hk] at hmixed hwhole
    refine .inr ⟨yearWindow_iff.mpr ⟨f, List.mem_append_right w hrest, hmixed, ⟨hl, hwhole⟩, hi⟩, fun hvw => ?_⟩
    obtain ⟨g, hg⟩ := exists_mem_of_length h.length
    have hgk : g.yearKey = f.yearKey := (mem_ofYear.mp (hwhole.subset (hvw ▸ hg))).2
    exact hk (hgk.symm.trans (h.year g hg))

/-- A run of single quarters among the new facts was there before. -/
theorem rollingWindow (hw : QuarterWindow (w ++ rest) w) (hv : RollingWindow (ys ++ rest) v) :
    RollingWindow (w ++ rest) v ∧ v ≠ w := by
  have hmem : ∀ f ∈ v, f ∈ rest := by
    intro f hf
    refine (List.mem_append.mp (hv.mem f hf)).resolve_left (fun hy => ?_)
    exact Bool.false_ne_true ((hv.single f hf).symm.trans (h.accumulates.isYtd f hy))
  refine ⟨⟨⟨fun f hf => List.mem_append_right w (hmem f hf), hv.lineage, hv.consecutive, hv.increasing⟩, hv.single,
    fun f hf => ?_⟩, fun hvw => h.not_subset (hvw ▸ hmem)⟩
  have honce := hv.once f hf
  rw [singleQuarters_append, singleQuarters_eq_nil h.accumulates.isYtd, List.nil_append] at honce
  rw [singleQuarters_append, List.map_append]
  refine List.nodup_append.mpr ⟨?_, honce, fun n hn m hm hnm => ?_⟩
  · obtain ⟨n, hn⟩ := hw.consecutive
    have hnodup : (w.map ordinal).Nodup := hn ▸ List.nodup_range'
    exact hnodup.sublist ((List.filter_sublist.trans List.filter_sublist).map ordinal)
  · -- a single quarter of the rest would be one of the year
    obtain ⟨a, ha, rfl⟩ := List.mem_map.mp hn
    obtain ⟨b, hb, rfl⟩ := List.mem_map.mp hm
    obtain ⟨⟨haw, -⟩, hal⟩ := mem_singleQuarters.mp ha
    obtain ⟨⟨hbr, -⟩, hbl⟩ := mem_singleQuarters.mp hb
    have hkey : b.yearKey = a.yearKey := Prod.ext (hbl.trans hal.symm) (ordinal_eq_iff.mp hnm).1.symm
    exact h.apart b hbr (hkey.trans (h.year a haw))

/-- The sums of the year are the latest window when its single quarters were. -/
theorem latestFormed (hw : LatestFormed (w ++ rest) w) : LatestFormed (ys ++ rest) ys := by
  have hys := h.yearWindow hw.formed.quarterWindow
  refine ⟨.inl hys, fun v hv => ?_⟩
  rw [h.accumulates.windowEnd]
  rcases hv with hv | hv
  · rcases h.yearWindow_cases hys hv with hvy | ⟨hv, hne⟩
    · exact .inl hvy
    · exact .inr ((hw.latest v (.inl hv)).resolve_left hne)
  · obtain ⟨hv, hne⟩ := h.rollingWindow hw.formed.quarterWindow hv
    exact .inr ((hw.latest v (.inr hv)).resolve_left hne)

end Reported

end Year

end SevenLens.Screening
