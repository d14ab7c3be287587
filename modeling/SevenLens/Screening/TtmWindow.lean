import SevenLens.Screening.Ttm

/-! # The window of a concept

The windows that are looked at are the whole fiscal years and the runs of single quarters
(`mem_candidates`); the window of a concept is the one of them that ends last
(`uniqueQuarterKeys_eq_some`).  Nothing of this depends on the order of the facts. -/

namespace SevenLens.Screening

open Securities MarketData QuarterlyFact

/-! ### Windows -/

/-- Four facts of one lineage, of consecutive quarters that end one after the other. -/
structure QuarterWindow (visible : List QuarterlyFact) (w : Window) : Prop where
  mem : ∀ f ∈ w, f ∈ visible
  lineage : ∀ f ∈ w, ∀ g ∈ w, f.lineage = g.lineage
  consecutive : ∃ n, w.map ordinal = List.range' n 4
  increasing : w.Pairwise (fun f g => f.endDay < g.endDay)

/-- What is visible of a fiscal year of a lineage. -/
def ofYear (visible : List QuarterlyFact) (key : (String × String × String) × Nat) : List QuarterlyFact :=
  visible.filter (fun f => decide (f.yearKey = key))

/-- The visible single quarters of a lineage. -/
def singleQuarters (visible : List QuarterlyFact) (lineage : String × String × String) : List QuarterlyFact :=
  (visible.filter (fun f => !f.isYtd)).filter (fun f => decide (f.lineage = lineage))

/-- A window that is all that is visible of its fiscal year, in one kind of facts. -/
structure YearWindow (visible : List QuarterlyFact) (w : Window) : Prop extends QuarterWindow visible w where
  whole : ∃ key, w.Perm (ofYear visible key)
  uniform : (∀ f ∈ w, f.isYtd = true) ∨ ∀ f ∈ w, f.isYtd = false

/-- A window of single quarters, where the lineage has no single quarter twice. -/
structure RollingWindow (visible : List QuarterlyFact) (w : Window) : Prop extends QuarterWindow visible w where
  single : ∀ f ∈ w, f.isYtd = false
  once : ∀ f ∈ w, ((singleQuarters visible f.lineage).map ordinal).Nodup

/-- The windows that are looked at. -/
def Formed (visible : List QuarterlyFact) (w : Window) : Prop := YearWindow visible w ∨ RollingWindow visible w

/-- Every fiscal year that is reported in both ways says the same in both. -/
def Consistent (round : ℚ → ℚ) (visible : List QuarterlyFact) : Prop :=
  ∀ f ∈ visible, mixed (ofYear visible f.yearKey) = true → mixtureAgrees round (ofYear visible f.yearKey) = true

section

variable {visible : List QuarterlyFact} {w : Window}

theorem Formed.quarterWindow (h : Formed visible w) : QuarterWindow visible w := by
  rcases h with h | h
  · exact h.toQuarterWindow
  · exact h.toQuarterWindow

theorem QuarterWindow.length (h : QuarterWindow visible w) : w.length = 4 := by
  obtain ⟨n, hn⟩ := h.consecutive
  simpa using congrArg List.length hn

end

/-! ### Facts -/

section Facts

variable {f g : QuarterlyFact} {w : Window}

theorem label_of_quarter {q : Quarter} (h : f.fiscalPeriod = .quarter q) : f.label = q := by
  unfold label
  split
  · next p hp => exact FiscalPeriod.quarter.inj (hp.symm.trans h)
  · next hp => exact absurd (hp.symm.trans h) (by simp)

theorem label_of_ytd (h : f.fiscalPeriod = .ytd) : f.fiscalQuarter = some f.label := by
  unfold label
  split
  · next p hp => exact absurd (hp.symm.trans h) (by simp)
  · next hp => exact (Option.some_get _).symm

/-- Two facts have one ordinal exactly if they are of one quarter of one fiscal year. -/
theorem ordinal_eq_iff : f.ordinal = g.ordinal ↔ f.fiscalYear = g.fiscalYear ∧ f.label = g.label := by
  have hf := f.label.number_mem
  have hg := g.label.number_mem
  simp only [ordinal]
  refine ⟨fun h => ?_, fun ⟨hy, hl⟩ => by rw [hy, hl]⟩
  have hyear : f.fiscalYear = g.fiscalYear := by omega
  exact ⟨hyear, Quarter.number_injective (by omega)⟩

theorem increasing_iff : increasing w = true ↔ w.Pairwise (fun f g => f.endDay < g.endDay) := by
  simp only [increasing, Bool.and_eq_true, decide_eq_true_eq]
  rw [eq_comm, List.sortOn, List.insertionSort_eq_self, List.Nodup, List.pairwise_map, List.pairwise_map,
    ← List.pairwise_and_iff]
  exact List.Pairwise.iff (fun {f g} => lt_iff_le_and_ne.symm)

theorem consecutive_iff : consecutive w = true ↔ ∃ n, w.map ordinal = List.range' n 4 := by
  simp only [consecutive, decide_eq_true_eq]
  refine ⟨fun h => ⟨_, h⟩, ?_⟩
  rintro ⟨n, hn⟩
  have hhead : w.head?.map ordinal = some n := by
    rw [← List.head?_map, hn]
    rfl
  rw [hn]
  cases hw : w.head? with
  | none => simp [hw] at hhead
  | some f => simpa [hw, eq_comm] using hhead

/-- In one fiscal year consecutive quarters are all its quarters. -/
theorem labels_iff {y : Nat} (h : ∀ f ∈ w, f.fiscalYear = y) :
    w.map label = Quarter.all ↔ ∃ n, w.map ordinal = List.range' n 4 := by
  have hord : w.map ordinal = (w.map label).map (fun q => y * 4 + q.number) := by
    rw [List.map_map]
    exact List.map_congr_left (fun f hf => by simp [ordinal, h f hf])
  constructor
  · intro hl
    refine ⟨y * 4 + 1, ?_⟩
    rw [hord, hl]
    rfl
  · rintro ⟨n, hn⟩
    have hlength : (w.map label).length = 4 := by simpa using congrArg List.length hn
    obtain ⟨a, b, c, d, habcd⟩ := List.length_eq_four.mp hlength
    rw [hord, habcd] at hn
    simp only [List.map_cons, List.map_nil, List.range'_succ, List.range'_zero, List.cons.injEq, and_true] at hn
    obtain ⟨ha, hb, hc, hd⟩ := hn
    have h1 := a.number_mem
    have h4 := d.number_mem
    -- the four numbers follow each other between one and four
    have ha1 : a = .q1 := Quarter.number_injective (show a.number = 1 by omega)
    have hb2 : b = .q2 := Quarter.number_injective (show b.number = 2 by omega)
    have hc3 : c = .q3 := Quarter.number_injective (show c.number = 3 by omega)
    have hd4 : d = .q4 := Quarter.number_injective (show d.number = 4 by omega)
    rw [habcd, ha1, hb2, hc3, hd4, Quarter.all]

end Facts

/-! ### Fiscal years -/

section Year

variable {round : ℚ → ℚ} {group group' : List QuarterlyFact} {w : Window}

theorem fourQuarters_eq_some : fourQuarters group = some w ↔ w.map label = Quarter.all ∧ w.Perm group := by
  have hall : ∀ q : Quarter, q ∈ Quarter.all := by
    intro q
    cases q <;> decide
  constructor
  · intro h
    simp only [fourQuarters] at h
    split_ifs at h with hn
    have hf := Dict.forall₂_of_mapM_some h
    have hfound : ∀ {q f}, group.find? (fun f => decide (f.label = q)) = some f → f.label = q ∧ f ∈ group := fun hq =>
      ⟨by simpa using List.find?_some hq, List.mem_of_find?_eq_some hq⟩
    have hlabels : w.map label = Quarter.all := by
      rw [← List.forall₂_eq_eq_eq, List.forall₂_map_left_iff]
      exact hf.flip.imp (fun f q hq => (hfound hq).1)
    refine ⟨hlabels, (List.perm_ext_iff_of_nodup ?_ (List.Nodup.of_map _ hn)).mpr (fun f => ⟨fun hfw => ?_, fun hfg => ?_⟩)⟩
    · exact List.Nodup.of_map label (by rw [hlabels]; decide)
    · obtain ⟨q, -, hq⟩ := Dict.exists_of_forall₂ hf.flip hfw
      exact (hfound hq).2
    · obtain ⟨g, hgw, hg⟩ := Dict.exists_of_forall₂ hf (hall f.label)
      rwa [← List.inj_on_of_nodup_map hn (hfound hg).2 hfg (hfound hg).1]
  · rintro ⟨hl, hp⟩
    have hn : (group.map label).Nodup := by
      rw [← (hp.map label).nodup_iff, hl]
      decide
    rw [fourQuarters, if_pos hn, ← hl]
    refine Dict.mapM_some_of_forall₂ ?_
    rw [List.forall₂_map_left_iff, List.forall₂_same]
    intro f hf
    refine (Dict.find?_eq_some_iff_of_unique ?_).mpr ⟨hp.subset hf, by simp⟩
    intro a ha b hb hpa hpb
    exact List.inj_on_of_nodup_map hn ha hb ((of_decide_eq_true hpa).trans (of_decide_eq_true hpb).symm)

theorem fourQuarters_perm (h : group.Perm group') : fourQuarters group = fourQuarters group' := by
  refine Option.ext (fun w => ?_)
  rw [fourQuarters_eq_some, fourQuarters_eq_some]
  exact and_congr_right' ⟨fun hw => hw.trans h, fun hw => hw.trans h.symm⟩

theorem mixed_perm (h : group.Perm group') : mixed group = mixed group' := by
  rw [mixed, mixed, h.any_eq, h.any_eq]

theorem mixtureAgrees_perm (h : group.Perm group') : mixtureAgrees round group = mixtureAgrees round group' := by
  rw [mixtureAgrees, mixtureAgrees, fourQuarters_perm (h.filter _), fourQuarters_perm (h.filter _)]

theorem mixed_eq_false : mixed group = false ↔ (∀ f ∈ group, f.isYtd = true) ∨ ∀ f ∈ group, f.isYtd = false := by
  simp only [mixed, Bool.and_eq_false_iff, List.any_eq_false, Bool.not_eq_true, Bool.not_eq_false', or_comm]

theorem yearWindows_eq_none : yearWindows round group = none ↔ ¬ (mixed group = true → mixtureAgrees round group = true) := by
  unfold yearWindows
  split_ifs with hm ha <;> simp_all

theorem mem_yearWindows {ws : List Window} (h : yearWindows round group = some ws) :
    w ∈ ws ↔ mixed group = false ∧ (w.map label = Quarter.all ∧ w.Perm group) ∧
      w.Pairwise (fun f g => f.endDay < g.endDay) := by
  unfold yearWindows at h
  split_ifs at h with hm ha
  · rw [← Option.some.inj h, hm]
    simp
  · rw [← Option.some.inj h, Option.mem_toList, Option.filter_eq_some_iff, fourQuarters_eq_some, increasing_iff]
    simp [hm]

end Year

/-! ### Candidates -/

section Candidates

variable {round : ℚ → ℚ} {visible group : List QuarterlyFact} {w : Window}

theorem mem_rollingWindows : w ∈ rollingWindows group ↔
    (group.map ordinal).Nodup ∧ (∀ f ∈ w, f ∈ group) ∧ (∃ n, w.map ordinal = List.range' n 4) ∧
      w.Pairwise (fun f g => f.endDay < g.endDay) := by
  unfold rollingWindows
  split_ifs with hn
  · rw [List.mem_filter, List.mem_windows, Bool.and_eq_true, consecutive_iff, increasing_iff]
    constructor
    · rintro ⟨⟨-, hrun⟩, hc, hi⟩
      exact ⟨hn, fun f hf => List.mem_sortOn.mp (hrun.subset hf), hc, hi⟩
    · rintro ⟨-, hmem, ⟨n, hc⟩, hi⟩
      have hlength : w.length = 4 := by simpa using congrArg List.length hc
      exact ⟨⟨hlength, List.isInfix_of_consecutive (List.pairwise_lt_sortOn hn)
        (fun f hf => List.mem_sortOn.mpr (hmem f hf)) hc⟩, ⟨n, hc⟩, hi⟩
  · simp [hn]

theorem mem_ofYear {f : QuarterlyFact} {key : (String × String × String) × Nat} :
    f ∈ ofYear visible key ↔ f ∈ visible ∧ f.yearKey = key := by
  simp [ofYear]

theorem mem_singleQuarters {f : QuarterlyFact} {lineage : String × String × String} :
    f ∈ singleQuarters visible lineage ↔ (f ∈ visible ∧ f.isYtd = false) ∧ f.lineage = lineage := by
  simp only [singleQuarters, List.mem_filter, Bool.not_eq_true', decide_eq_true_eq]

theorem exists_mem_of_length (h : w.length = 4) : ∃ f, f ∈ w := List.exists_mem_of_length_pos (by omega)

/-- A window that is formed of a fiscal year, by what is checked of the year. -/
theorem yearWindow_iff : YearWindow visible w ↔ ∃ f ∈ visible, mixed (ofYear visible f.yearKey) = false ∧
    (w.map label = Quarter.all ∧ w.Perm (ofYear visible f.yearKey)) ∧ w.Pairwise (fun f g => f.endDay < g.endDay) := by
  constructor
  · rintro ⟨h, ⟨key, hwhole⟩, huniform⟩
    obtain ⟨f, hf⟩ := exists_mem_of_length h.length
    obtain ⟨hfv, rfl⟩ := mem_ofYear.mp (hwhole.subset hf)
    have hyear : ∀ g ∈ w, g.fiscalYear = f.fiscalYear := fun g hg =>
      congrArg Prod.snd (mem_ofYear.mp (hwhole.subset hg)).2
    refine ⟨f, hfv, mixed_eq_false.mpr ?_, ⟨(labels_iff hyear).mpr h.consecutive, hwhole⟩, h.increasing⟩
    exact huniform.imp (fun hy g hg => hy g (hwhole.mem_iff.mpr hg)) (fun hy g hg => hy g (hwhole.mem_iff.mpr hg))
  · rintro ⟨f, hfv, hmixed, ⟨hl, hwhole⟩, hi⟩
    have hkey : ∀ g ∈ w, g ∈ visible ∧ g.yearKey = f.yearKey := fun g hg => mem_ofYear.mp (hwhole.subset hg)
    have hyear : ∀ g ∈ w, g.fiscalYear = f.fiscalYear := fun g hg => congrArg Prod.snd (hkey g hg).2
    have hlineage : ∀ g ∈ w, g.lineage = f.lineage := fun g hg => congrArg Prod.fst (hkey g hg).2
    refine ⟨⟨fun g hg => (hkey g hg).1, fun g hg g' hg' => (hlineage g hg).trans (hlineage g' hg').symm,
      (labels_iff hyear).mp hl, hi⟩, ⟨_, hwhole⟩, ?_⟩
    exact (mixed_eq_false.mp hmixed).imp (fun hy g hg => hy g (hwhole.subset hg)) (fun hy g hg => hy g (hwhole.subset hg))

theorem rollingWindow_iff : RollingWindow visible w ↔ ∃ f ∈ visible, f.isYtd = false ∧
    w ∈ rollingWindows (singleQuarters visible f.lineage) := by
  constructor
  · rintro ⟨h, hsingle, honce⟩
    obtain ⟨f, hf⟩ := exists_mem_of_length h.length
    refine ⟨f, h.mem f hf, hsingle f hf, mem_rollingWindows.mpr ⟨honce f hf, fun g hg => ?_, h.consecutive, h.increasing⟩⟩
    exact mem_singleQuarters.mpr ⟨⟨h.mem g hg, hsingle g hg⟩, h.lineage g hg f hf⟩
  · rintro ⟨f, hfv, hfs, hw⟩
    obtain ⟨honce, hmem, hc, hi⟩ := mem_rollingWindows.mp hw
    have hall := fun g hg => mem_singleQuarters.mp (hmem g hg)
    refine ⟨⟨fun g hg => (hall g hg).1.1, fun g hg g' hg' => (hall g hg).2.trans (hall g' hg').2.symm, hc, hi⟩,
      fun g hg => (hall g hg).1.2, fun g hg => ?_⟩
    rw [(hall g hg).2]
    exact honce

theorem mem_groupsOf_iff {κ : Type} [DecidableEq κ] {key : QuarterlyFact → κ} :
    group ∈ Dict.groupsOf key visible ↔ ∃ f ∈ visible, group = visible.filter (fun g => decide (key g = key f)) := by
  constructor
  · intro h
    obtain ⟨hne, k, rfl⟩ := Dict.mem_of_mem_groupsOf h
    obtain ⟨f, hf⟩ := List.exists_mem_of_ne_nil _ hne
    obtain ⟨hfv, hk⟩ := List.mem_filter.mp hf
    exact ⟨f, hfv, by rw [of_decide_eq_true hk]⟩
  · rintro ⟨f, hf, rfl⟩
    exact Dict.mem_groupsOf hf

/-- The windows that the search goes through are the whole years and the runs of single quarters. -/
theorem mem_candidates {found : List Window} (h : candidates round visible = some found) :
    w ∈ found ↔ Formed visible w := by
  simp only [candidates, Option.bind_eq_bind, Option.bind_eq_some_iff, Option.pure_def, Option.some.injEq] at h
  obtain ⟨years, hyears, rfl⟩ := h
  rw [List.mem_append, Formed, yearWindow_iff, rollingWindow_iff]
  refine or_congr ?_ ?_
  · rw [List.mem_flatten]
    constructor
    · rintro ⟨ws, hws, hw⟩
      obtain ⟨group, hgroup, hg⟩ := Dict.exists_of_mem_mapM hyears hws
      obtain ⟨f, hf, rfl⟩ := mem_groupsOf_iff.mp hgroup
      exact ⟨f, hf, (mem_yearWindows hg).mp hw⟩
    · rintro ⟨f, hf, hw⟩
      obtain ⟨ws, hws, hg⟩ := Dict.exists_of_forall₂ (Dict.forall₂_of_mapM_some hyears) (Dict.mem_groupsOf hf)
      exact ⟨ws, hws, (mem_yearWindows hg).mpr hw⟩
  · simp only [List.mem_flatMap, mem_groupsOf_iff, List.mem_filter, Bool.not_eq_true']
    constructor
    · rintro ⟨group, ⟨f, ⟨hf, hs⟩, rfl⟩, hw⟩
      exact ⟨f, hf, hs, hw⟩
    · rintro ⟨f, hf, hs, hw⟩
      exact ⟨_, ⟨f, ⟨hf, hs⟩, rfl⟩, hw⟩

/-- The search comes to its end exactly if no year has two reports that differ. -/
theorem exists_candidates_iff : (∃ found, candidates round visible = some found) ↔ Consistent round visible := by
  constructor
  · rintro ⟨found, h⟩ f hf
    simp only [candidates, Option.bind_eq_bind, Option.bind_eq_some_iff] at h
    obtain ⟨years, hyears, -⟩ := h
    obtain ⟨ws, -, hg⟩ := Dict.exists_of_forall₂ (Dict.forall₂_of_mapM_some hyears) (Dict.mem_groupsOf hf)
    by_contra hnot
    exact Option.some_ne_none ws (hg.symm.trans (yearWindows_eq_none.mpr hnot))
  · intro h
    cases hyears : (Dict.groupsOf yearKey visible).mapM (yearWindows round) with
    | some years => exact ⟨_, by rw [candidates, hyears]; rfl⟩
    | none =>
      obtain ⟨group, hgroup, hnone⟩ := Dict.exists_of_mapM_none hyears
      obtain ⟨f, hf, rfl⟩ := mem_groupsOf_iff.mp hgroup
      exact absurd (h f hf) (yearWindows_eq_none.mp hnone)

end Candidates

/-! ### The choice -/

section Choice

variable {round : ℚ → ℚ} {facts facts' : List QuarterlyFact} {concept : FundamentalConcept} {cutoff knownAt : UtcTimestamp}
  {w : Window}

/-- The window that ends after all others that are looked at. -/
structure LatestFormed (visible : List QuarterlyFact) (w : Window) : Prop where
  formed : Formed visible w
  latest : ∀ v, Formed visible v → v = w ∨ windowEnd v < windowEnd w

theorem uniqueQuarterKeys_eq_some : uniqueQuarterKeys round facts concept cutoff knownAt = some w ↔
    Consistent round (factByConcept facts concept cutoff knownAt) ∧
      LatestFormed (factByConcept facts concept cutoff knownAt) w := by
  simp only [uniqueQuarterKeys, Option.bind_eq_bind, Option.bind_eq_some_iff, List.uniqueLatest_eq_some]
  constructor
  · rintro ⟨found, hfound, hw, hlast⟩
    refine ⟨exists_candidates_iff.mp ⟨found, hfound⟩, (mem_candidates hfound).mp hw, fun v hv => ?_⟩
    exact hlast v ((mem_candidates hfound).mpr hv)
  · rintro ⟨hc, hw, hlast⟩
    obtain ⟨found, hfound⟩ := exists_candidates_iff.mpr hc
    refine ⟨found, hfound, (mem_candidates hfound).mpr hw, fun v hv => ?_⟩
    exact hlast v ((mem_candidates hfound).mp hv)

section Perm

variable {visible visible' : List QuarterlyFact}

theorem ofYear_perm (h : visible.Perm visible') (key : (String × String × String) × Nat) :
    (ofYear visible key).Perm (ofYear visible' key) := h.filter _

theorem singleQuarters_perm (h : visible.Perm visible') (lineage : String × String × String) :
    (singleQuarters visible lineage).Perm (singleQuarters visible' lineage) := (h.filter _).filter _

theorem QuarterWindow.perm (h : visible.Perm visible') (hw : QuarterWindow visible w) : QuarterWindow visible' w :=
  ⟨fun f hf => h.subset (hw.mem f hf), hw.lineage, hw.consecutive, hw.increasing⟩

theorem Formed.perm (h : visible.Perm visible') (hw : Formed visible w) : Formed visible' w := by
  rcases hw with hw | hw
  · obtain ⟨key, hwhole⟩ := hw.whole
    exact .inl ⟨hw.toQuarterWindow.perm h, ⟨key, hwhole.trans (ofYear_perm h key)⟩, hw.uniform⟩
  · refine .inr ⟨hw.toQuarterWindow.perm h, hw.single, fun f hf => ?_⟩
    exact ((singleQuarters_perm h f.lineage).map ordinal).nodup_iff.mp (hw.once f hf)

theorem LatestFormed.perm (h : visible.Perm visible') (hw : LatestFormed visible w) : LatestFormed visible' w :=
  ⟨hw.formed.perm h, fun v hv => hw.latest v (hv.perm h.symm)⟩

theorem Consistent.perm (h : visible.Perm visible') (hc : Consistent round visible) : Consistent round visible' := by
  intro f hf
  rw [mixed_perm (ofYear_perm h.symm f.yearKey), mixtureAgrees_perm (ofYear_perm h.symm f.yearKey)]
  exact hc f (h.symm.subset hf)

end Perm

/-- The window of a concept does not depend on the order of the facts. -/
theorem uniqueQuarterKeys_perm (h : facts.Perm facts') : uniqueQuarterKeys round facts concept cutoff knownAt =
    uniqueQuarterKeys round facts' concept cutoff knownAt := by
  have hp : (factByConcept facts concept cutoff knownAt).Perm (factByConcept facts' concept cutoff knownAt) := h.filter _
  refine Option.ext (fun w => ?_)
  rw [uniqueQuarterKeys_eq_some, uniqueQuarterKeys_eq_some]
  exact and_congr ⟨.perm hp, .perm hp.symm⟩ ⟨.perm hp, .perm hp.symm⟩

end Choice

end SevenLens.Screening
