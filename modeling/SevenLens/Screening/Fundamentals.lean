import SevenLens.Screening.TtmEncoding

/-! # The fundamentals of a security

What `assemble_ttm` returns: the same for every order of the facts and for the two ways to
report a fiscal year, and with the sums of the latest windows that are looked at. -/

namespace SevenLens.Screening

open Securities MarketData QuarterlyFact

/-! ### Flows -/

inductive Flow where
  | netIncome | cfo | capex
deriving DecidableEq

def Flow.concept : Flow → FundamentalConcept
  | netIncome => .netIncomeLoss
  | cfo => .netCashOperating
  | capex => .capexPpe

def TtmFundamentals.flow (t : TtmFundamentals) : Flow → ℚ
  | .netIncome => t.ttmNetIncome
  | .cfo => t.ttmCfo
  | .capex => t.ttmCapex

/-- The visible facts of a flow. -/
def flowFacts (facts : List QuarterlyFact) (x : Flow) (cutoff : UtcTimestamp) (knownAt : Option UtcTimestamp) :
    List QuarterlyFact := factByConcept facts x.concept cutoff (knownAt.getD cutoff)

/-- The quarters that are chosen for a flow. -/
def quartersOf (round : ℚ → ℚ) (facts : List QuarterlyFact) (x : Flow) (cutoff : UtcTimestamp)
    (knownAt : Option UtcTimestamp) : Option Window := uniqueQuarterKeys round facts x.concept cutoff (knownAt.getD cutoff)

/-- The part of a quarter: the value of a single quarter, and what a sum from the start of the year adds to the
sum of the quarter before it. -/
def quarterAmount (visible : List QuarterlyFact) (f : QuarterlyFact) : ℚ :=
  if f.isYtd then
    f.value - (((ofYear visible f.yearKey).filter isYtd).find?
      (fun g => decide (g.label.number + 1 = f.label.number))).elim 0 value
  else f.value

section

variable {round : ℚ → ℚ} {facts facts' : List QuarterlyFact} {sharesOutstanding : ℚ} {cutoff : UtcTimestamp}
  {knownAt : Option UtcTimestamp} {t : TtmFundamentals} {x : Flow}

/-! ### Sums -/

theorem quartersOf_eq_some {w : Window} : quartersOf round facts x cutoff knownAt = some w ↔
    Consistent round (flowFacts facts x cutoff knownAt) ∧ LatestFormed (flowFacts facts x cutoff knownAt) w :=
  uniqueQuarterKeys_eq_some

/-- The sums are those of the quarters that are chosen. -/
theorem flow_eq_sumYtd (h : assembleTtm round facts sharesOutstanding cutoff knownAt = .ok (some t)) (x : Flow) :
    ∃ w, quartersOf round facts x cutoff knownAt = some w ∧ t.flow x = sumYtd round w := by
  simp only [assembleTtm, bind_ok, pure, Except.pure, Except.ok.injEq, Option.bind_eq_bind, Option.bind_eq_some_iff] at h
  obtain ⟨-, -, -, -, -, -, netIncome, hn, cfo, ho, capex, hc, ht⟩ := h
  simp only [assembleFrom, Option.bind_eq_bind, Option.bind_eq_some_iff, Option.pure_def, Option.some.injEq] at ht
  obtain ⟨first, -, -, -, -, -, balances, -, -, -, last, -, -, -, rfl⟩ := ht
  cases x with
  | netIncome => exact ⟨netIncome, hn, rfl⟩
  | cfo => exact ⟨cfo, ho, rfl⟩
  | capex => exact ⟨capex, hc, rfl⟩

/-- In a year of sums a quarter adds the difference to the sum before it. -/
theorem quarterAmount_of_year {visible : List QuarterlyFact} {w : Window} (hw : YearWindow visible w)
    (hytd : ∀ f ∈ w, f.isYtd = true) {f : QuarterlyFact} (hf : f ∈ w) :
    (f.label = .q1 → quarterAmount visible f = f.value) ∧
      ∀ g ∈ w, g.label.number + 1 = f.label.number → quarterAmount visible f = f.value - g.value := by
  obtain ⟨e, -, -, ⟨hl, hwhole⟩, -⟩ := yearWindow_iff.mp hw
  have hkey : f.yearKey = e.yearKey := (mem_ofYear.mp (hwhole.subset hf)).2
  have hnodup : (w.map label).Nodup := by
    rw [hl]
    decide
  have hsums : ∀ g, g ∈ (ofYear visible f.yearKey).filter isYtd ↔ g ∈ w := by
    intro g
    rw [List.mem_filter, hkey, ← hwhole.mem_iff]
    exact and_iff_left_of_imp (hytd g)
  rw [quarterAmount, if_pos (hytd f hf)]
  constructor
  · intro hq
    have hnone : ((ofYear visible f.yearKey).filter isYtd).find? (fun g => decide (g.label.number + 1 = f.label.number)) =
        none := by
      rw [List.find?_eq_none]
      intro g _
      have := g.label.number_mem
      have hone : f.label.number = 1 := by rw [hq, Quarter.number]
      simp only [decide_eq_true_eq]
      omega
    rw [hnone, Option.elim_none, sub_zero]
  · intro g hg hnumber
    have hfind : ((ofYear visible f.yearKey).filter isYtd).find? (fun g => decide (g.label.number + 1 = f.label.number)) =
        some g := by
      refine (Dict.find?_eq_some_iff_of_unique ?_).mpr ⟨(hsums g).mpr hg, by simpa using hnumber⟩
      intro a ha b hb hpa hpb
      have hab : a.label.number = b.label.number := by
        have := of_decide_eq_true hpa
        have := of_decide_eq_true hpb
        omega
      exact List.inj_on_of_nodup_map hnodup ((hsums a).mp ha) ((hsums b).mp hb) (Quarter.number_injective hab)
    rw [hfind, Option.elim_some]

/-- Computed exactly, the quarters of a window are the parts that they add. -/
theorem quarterValues_eq_amounts {visible : List QuarterlyFact} {w : Window} (hw : Formed visible w) :
    quarterValues id none w = w.map (quarterAmount visible) := by
  have hsingle : (∀ f ∈ w, f.isYtd = false) → quarterValues id none w = w.map (quarterAmount visible) := by
    intro h
    rw [quarterValues_of_single h]
    exact List.map_congr_left (fun f hf => by simp [quarterAmount, h f hf])
  rcases hw with hw | hw
  · rcases hw.uniform with hytd | h
    · obtain ⟨e, -, -, ⟨hl, -⟩, -⟩ := yearWindow_iff.mp hw
      obtain ⟨a, b, c, d, rfl⟩ := List.length_eq_four.mp hw.length
      simp only [Quarter.all, List.map_cons, List.map_nil, List.cons.injEq, and_true] at hl
      obtain ⟨ha, hb, hc, hd⟩ := hl
      have hamount := fun {f} (hf : f ∈ [a, b, c, d]) => quarterAmount_of_year hw hytd hf
      simp only [List.mem_cons, List.not_mem_nil, or_false, forall_eq_or_imp, forall_eq] at hytd
      simp only [List.map_cons, List.map_nil, quarterValues, quarterValue, hytd, if_true, id, Option.getD_some,
        Option.getD_none, sub_zero]
      rw [(hamount (f := a) (by simp)).1 ha, (hamount (f := b) (by simp)).2 a (by simp) (by rw [ha, hb]; rfl),
        (hamount (f := c) (by simp)).2 b (by simp) (by rw [hb, hc]; rfl),
        (hamount (f := d) (by simp)).2 c (by simp) (by rw [hc, hd]; rfl)]
    · exact hsingle h
  · exact hsingle hw.single

theorem sumYtd_eq_sum {visible : List QuarterlyFact} {w : Window} (hw : Formed visible w) :
    sumYtd id w = (w.map (quarterAmount visible)).sum := by
  rw [sumYtd, quarterValues_eq_amounts hw, List.sum_eq_foldl]
  rfl

/-! ### The two ways to report a year -/

/-- Windows that the assembly cannot tell apart. -/
structure Alike (round : ℚ → ℚ) (w v : Window) : Prop where
  keys : v.map quarterKey = w.map quarterKey
  lineages : v.map lineage = w.map lineage
  values : quarterValues round none v = quarterValues round none w

theorem Alike.refl (w : Window) : Alike round w w := ⟨rfl, rfl, rfl⟩

theorem Alike.sum {w v : Window} (h : Alike round w v) : sumYtd round v = sumYtd round w := by
  rw [sumYtd, sumYtd, h.values]

theorem Alike.sameQuarters {first first' : QuarterlyFact} {netIncome netIncome' w v : Window}
    (h : Alike round w v) (hfirst : first'.lineage = first.lineage) (hn : Alike round netIncome netIncome') :
    sameQuarters first' netIncome' v ↔ sameQuarters first netIncome w := by
  have hlineages : ∀ l : Window, (∀ f ∈ l, f.lineage = first.lineage) ↔ ∀ k ∈ l.map lineage, k = first.lineage := by
    intro l
    rw [List.forall_mem_map]
  rw [Screening.sameQuarters, Screening.sameQuarters, hfirst, hlineages, hlineages, h.lineages, h.keys, hn.keys]

theorem assembleFrom_congr {netIncome netIncome' cfo cfo' capex capex' : Window} (hn : Alike round netIncome netIncome')
    (ho : Alike round cfo cfo') (hc : Alike round capex capex') (assets : List QuarterlyFact) :
    assembleFrom round sharesOutstanding netIncome' cfo' capex' assets =
      assembleFrom round sharesOutstanding netIncome cfo capex assets := by
  have hends : netIncome'.map periodEnd = netIncome.map periodEnd := by
    have h := congrArg (List.map (fun k : Nat × Quarter × TradingDate => k.2.2)) hn.keys
    simpa only [List.map_map, Function.comp_def, quarterKey] using h
  have hlineages := congrArg List.head? hn.lineages
  have hkeys := congrArg List.head? hn.keys
  rw [List.head?_map, List.head?_map] at hlineages hkeys
  simp only [assembleFrom, hn.sum, ho.sum, hc.sum, hc.values, hn.keys, hends]
  cases hf : netIncome.head? with
  | none =>
    rw [hf, Option.map_none, Option.map_eq_none_iff] at hkeys
    rw [hkeys]
    rfl
  | some first =>
    obtain ⟨first', hf', hk⟩ := Option.map_eq_some_iff.mp (hf ▸ hkeys)
    have hl : first'.lineage = first.lineage := by simpa [hf, hf'] using hlineages
    simp only [hf', Option.bind_eq_bind, Option.bind_some, ho.sameQuarters hl hn, hc.sameQuarters hl hn, hl, hk]

theorem bind_of_rel {α β : Type} {R : α → α → Prop} {a b : Option α} (h : Option.Rel R a b) {k k' : α → Option β}
    (hk : ∀ v v', R v v' → k' v' = k v) : b.bind k' = a.bind k := by
  cases h with
  | none => rfl
  | some hr => exact hk _ _ hr

/-- Facts of which a window that is chosen for a flow, four single quarters of one fiscal year, is reported by the
sums from the start of the year. -/
structure Restated (round : ℚ → ℚ) (facts facts' : List QuarterlyFact) (x : Flow) (cutoff : UtcTimestamp)
    (knownAt : Option UtcTimestamp) (w ys rest : Window) : Prop where
  before : facts.Perm (w ++ rest)
  after : facts'.Perm (ys ++ rest)
  chosen : quartersOf round facts x cutoff knownAt = some w
  single : ∀ f ∈ w, f.isYtd = false
  oneYear : ∀ f ∈ w, ∀ g ∈ w, f.fiscalYear = g.fiscalYear
  accumulates : Accumulates 0 w ys
  visible : ∀ y ∈ ys, y.availableAt ≤ knownAt.getD cutoff

/-- Nothing that is visible of a flow reports a sum for a year of a window. -/
def Unsummed (visible : List QuarterlyFact) (w : Window) : Prop :=
  ∀ g ∈ visible, g.isYtd = true → ∀ f ∈ w, g.yearKey ≠ f.yearKey

namespace Restated

variable {w ys rest : Window} (h : Restated round facts facts' x cutoff knownAt w ys rest)

include h

theorem latestFormed : Consistent round (flowFacts (w ++ rest) x cutoff knownAt) ∧
    LatestFormed (flowFacts (w ++ rest) x cutoff knownAt) w := by
  have hp : (flowFacts facts x cutoff knownAt).Perm (flowFacts (w ++ rest) x cutoff knownAt) := h.before.filter _
  obtain ⟨hc, hl⟩ := quartersOf_eq_some.mp h.chosen
  exact ⟨hc.perm hp, hl.perm hp⟩

theorem mem_flow {f : QuarterlyFact} (hf : f ∈ w) :
    f.concept = x.concept ∧ f.availableAt ≤ knownAt.getD cutoff ∧ f.endDay ≤ cutoff.day := by
  have hmem := h.latestFormed.2.formed.quarterWindow.mem f hf
  exact of_decide_eq_true (List.mem_filter.mp hmem).2

theorem mem_flow_ytd {y : QuarterlyFact} (hy : y ∈ ys) :
    y.concept = x.concept ∧ y.availableAt ≤ knownAt.getD cutoff ∧ y.endDay ≤ cutoff.day := by
  obtain ⟨f, hf, t, hyf⟩ := h.accumulates.exists_of_mem hy
  obtain ⟨hconcept, -, hend⟩ := h.mem_flow hf
  exact ⟨hyf.concept.trans hconcept, h.visible y hy, hyf.endDay.trans_le hend⟩

theorem flowFacts_eq : flowFacts (w ++ rest) x cutoff knownAt = w ++ flowFacts rest x cutoff knownAt := by
  rw [flowFacts, factByConcept, List.filter_append, List.filter_eq_self.mpr (fun f hf => decide_eq_true (h.mem_flow hf))]
  rfl

theorem flowFacts_ytd : flowFacts (ys ++ rest) x cutoff knownAt = ys ++ flowFacts rest x cutoff knownAt := by
  rw [flowFacts, factByConcept, List.filter_append,
    List.filter_eq_self.mpr (fun y hy => decide_eq_true (h.mem_flow_ytd hy))]
  rfl

/-- The facts of another concept are as they were. -/
theorem factByConcept_other {concept : FundamentalConcept} (hne : concept ≠ x.concept) (k : UtcTimestamp) :
    factByConcept (ys ++ rest) concept cutoff k = factByConcept (w ++ rest) concept cutoff k := by
  have hnone : ∀ l : Window, (∀ f ∈ l, f.concept = x.concept) → factByConcept l concept cutoff k = [] := by
    intro l hl
    refine List.filter_eq_nil_iff.mpr (fun f hf hd => hne ?_)
    exact (of_decide_eq_true hd).1.symm.trans (hl f hf)
  rw [factByConcept, factByConcept, List.filter_append, List.filter_append]
  exact congrArg (· ++ _) ((hnone ys (fun y hy => (h.mem_flow_ytd hy).1)).trans
    (hnone w (fun f hf => (h.mem_flow hf).1)).symm)

theorem reported (hsums : Unsummed (flowFacts facts x cutoff knownAt) w) {f : QuarterlyFact} (hf : f ∈ w) :
    Reported w ys (flowFacts rest x cutoff knownAt) f.yearKey := by
  have hl := h.latestFormed.2
  have hyear : ∀ g ∈ w, g.yearKey = f.yearKey := fun g hg =>
    Prod.ext (hl.formed.quarterWindow.lineage g hg f hf) (h.oneYear g hg f hf)
  refine ⟨hl.formed.quarterWindow.length, hyear, ?_, h.accumulates⟩
  rw [h.flowFacts_eq] at hl
  refine not_mem_rest hl.formed hf hyear (fun g hg hytd => hsums g ?_ hytd f hf)
  have hp : (flowFacts facts x cutoff knownAt).Perm (flowFacts (w ++ rest) x cutoff knownAt) := h.before.filter _
  rw [hp.mem_iff, h.flowFacts_eq]
  exact List.mem_append_right w hg

/-- The sums are chosen in the place of the single quarters. -/
theorem quartersOf_ytd (hsums : Unsummed (flowFacts facts x cutoff knownAt) w) :
    quartersOf round (ys ++ rest) x cutoff knownAt = some ys := by
  obtain ⟨hc, hl⟩ := h.latestFormed
  obtain ⟨f, hf⟩ := exists_mem_of_length hl.formed.quarterWindow.length
  have hr := h.reported hsums hf
  rw [h.flowFacts_eq] at hc hl
  rw [quartersOf_eq_some, h.flowFacts_ytd]
  exact ⟨hr.consistent hc, hr.latestFormed hl⟩

theorem alike (hround : ∀ f ∈ w, round f.value = f.value) : Alike round w ys := by
  have hys : quarterValues round none ys = w.map value := h.accumulates.quarterValues rfl hround
  refine ⟨h.accumulates.map_eq YtdOf.quarterKey, h.accumulates.map_eq YtdOf.lineage, ?_⟩
  rw [hys, quarterValues_of_single h.single]

/-- The windows of every flow are alike before and after. -/
theorem rel_quartersOf (hsums : Unsummed (flowFacts facts x cutoff knownAt) w)
    (hround : ∀ f ∈ w, round f.value = f.value) (z : Flow) :
    Option.Rel (Alike round) (quartersOf round (w ++ rest) z cutoff knownAt) (quartersOf round (ys ++ rest) z cutoff knownAt) := by
  by_cases hz : z = x
  · rw [hz, h.quartersOf_ytd hsums, quartersOf_eq_some.mpr h.latestFormed]
    exact .some (h.alike hround)
  · have hconcept : z.concept ≠ x.concept := by
      intro heq
      cases z <;> cases x <;> first | exact hz rfl | cases heq
    have hsame : quartersOf round (ys ++ rest) z cutoff knownAt = quartersOf round (w ++ rest) z cutoff knownAt := by
      simp only [quartersOf, uniqueQuarterKeys, h.factByConcept_other hconcept]
    rw [hsame]
    cases quartersOf round (w ++ rest) z cutoff knownAt with
    | none => exact .none
    | some v => exact .some (Alike.refl v)

theorem oneSecurity_iff : oneSecurity (ys ++ rest) ↔ oneSecurity (w ++ rest) := by
  have hids : (ys ++ rest).map securityId = (w ++ rest).map securityId := by
    rw [List.map_append, List.map_append, h.accumulates.map_eq YtdOf.securityId]
  have hmap : ∀ l : List QuarterlyFact, oneSecurity l ↔ (∀ s ∈ l.map securityId, s.isSome) ∧
      ∀ s ∈ l.map securityId, ∀ s' ∈ l.map securityId, s = s' := by
    intro l
    simp only [oneSecurity, List.forall_mem_map]
  rw [hmap, hmap, hids]

/-- Nothing that is assembled changes. -/
theorem assembleTtm_eq (hsums : Unsummed (flowFacts facts x cutoff knownAt) w)
    (hround : ∀ f ∈ w, round f.value = f.value) :
    assembleTtm round facts' sharesOutstanding cutoff knownAt =
      assembleTtm round facts sharesOutstanding cutoff knownAt := by
  have hassets : factByConcept (ys ++ rest) .assets cutoff (knownAt.getD cutoff) =
      factByConcept (w ++ rest) .assets cutoff (knownAt.getD cutoff) :=
    h.factByConcept_other (by cases x <;> decide) _
  have hrel := h.rel_quartersOf hsums hround
  rw [assembleTtm_perm h.after, assembleTtm_perm h.before]
  simp only [assembleTtm, h.oneSecurity_iff, hassets]
  refine bind_congr (fun _ => bind_congr (fun _ => congrArg pure (bind_congr (fun _ => ?_))))
  exact bind_of_rel (hrel .netIncome) (fun _ _ hn => bind_of_rel (hrel .cfo) (fun _ _ ho =>
    bind_of_rel (hrel .capex) (fun _ _ hc => assembleFrom_congr hn ho hc _)))

end Restated

end

/-- Every order of the facts gives the same fundamentals.  A fiscal year of a flow that is chosen whole, in
single quarters and without sums beside them, may as well be reported by its sums.  What is summed is the window
that ends last among the whole fiscal years of one kind and the runs of single quarters. -/
theorem assembleTtm_independent (round : ℚ → ℚ) :
    (∀ facts facts' sharesOutstanding cutoff knownAt, facts.Perm facts' →
      assembleTtm round facts sharesOutstanding cutoff knownAt =
        assembleTtm round facts' sharesOutstanding cutoff knownAt) ∧
    (∀ facts facts' sharesOutstanding x cutoff knownAt w ys rest,
      Restated round facts facts' x cutoff knownAt w ys rest → Unsummed (flowFacts facts x cutoff knownAt) w →
      (∀ f ∈ w, round f.value = f.value) →
      assembleTtm round facts' sharesOutstanding cutoff knownAt =
        assembleTtm round facts sharesOutstanding cutoff knownAt) ∧
    (∀ facts sharesOutstanding cutoff knownAt t,
      assembleTtm round facts sharesOutstanding cutoff knownAt = .ok (some t) → ∀ x, ∃ w,
        LatestFormed (flowFacts facts x cutoff knownAt) w ∧ t.flow x = sumYtd round w ∧
        ((∀ v, round v = v) → t.flow x = (w.map (quarterAmount (flowFacts facts x cutoff knownAt))).sum)) := by
  refine ⟨fun facts facts' s cutoff knownAt h => assembleTtm_perm h s cutoff knownAt,
    fun facts facts' s x cutoff knownAt w ys rest h hsums hround => h.assembleTtm_eq hsums hround,
    fun facts s cutoff knownAt t h x => ?_⟩
  obtain ⟨w, hw, hsum⟩ := flow_eq_sumYtd h x
  have hl := (quartersOf_eq_some.mp hw).2
  refine ⟨w, hl, hsum, fun hround => ?_⟩
  rw [hsum, funext hround]
  exact sumYtd_eq_sum hl.formed

/-! ### Years that are passed over -/

section Samples

def sampleCutoff : UtcTimestamp := ⟨739067 * dayMicros, by decide⟩

/-- The last day of a quarter of 2022, 2023 or 2024. -/
def quarterEnd (k : Fin 3) (q : Quarter) : TradingDate where
  year := 2022 + k
  month := 3 * q.number
  day := if q = .q1 ∨ q = .q4 then 31 else 30
  year_ok := by omega
  month_ok := by cases q <;> decide
  day_ok := by cases q <;> decide +revert

def sampleFact (concept : FundamentalConcept) (k : Fin 3) (q : Quarter) (ytd : Bool) (value : ℚ) : QuarterlyFact where
  concept
  value
  periodEnd := quarterEnd k q
  fiscalYear := 2022 + k
  fiscalPeriod := if ytd then .ytd else .quarter q
  currency := "USD"
  entity := "1"
  consolidation := "entity"
  sourceRef := ⟨"facts", .secEdgar, repeated '1' (Eq.refl true), by decide⟩
  availableAt := sampleCutoff
  securityId := some ⟨"00000001", Eq.refl true⟩
  fiscalQuarter := some q
  fiscalYear_ok := by omega
  ytd_ok _ := rfl
  quarter_ok p hp r hr := by
    cases ytd with
    | true => cases hp
    | false => exact (Option.some.inj hr).symm.trans (FiscalPeriod.quarter.inj hp)
  texts_ok := by decide
  family_ok := rfl

def reportYear (x : Flow) (k : Fin 3) (ytd : Bool) (value : Quarter → ℚ) : List QuarterlyFact :=
  Quarter.all.map (fun q => sampleFact x.concept k q ytd (value q))

def sampleBalances : List QuarterlyFact :=
  sampleFact .assets 0 .q4 false 100 :: Quarter.all.map (fun q => sampleFact .assets 1 q false 100)

def sampleResult : TtmFundamentals where
  ttmNetIncome := 4
  ttmCfo := 4
  ttmCapex := 4
  assetsAtTtmStart := 100
  assetsAtTtmEnd := 100
  sharesOutstanding := 1
  facts := Quarter.all.map (fun q => sampleFact .assets 1 q false 100)

/-- The facts of cash flow and capital expenditure, one a quarter. -/
def otherFacts : List QuarterlyFact :=
  reportYear .cfo 1 false (fun _ => 1) ++ reportYear .capex 1 false (fun _ => 1) ++ sampleBalances

theorem accumulates_reportYear (x : Flow) (k : Fin 3) :
    Accumulates 0 (reportYear x k false (fun _ => 1)) (reportYear x k true (fun q => q.number)) := by
  have hytd : ∀ (q : Quarter) {total : ℚ}, (q.number : ℚ) = total + 1 →
      YtdOf (sampleFact x.concept k q false 1) (total + 1) (sampleFact x.concept k q true q.number) :=
    fun q total hq => ⟨rfl, hq, rfl, rfl, rfl, rfl⟩
  refine .cons (hytd .q1 ?_) (.cons (hytd .q2 ?_) (.cons (hytd .q3 ?_) (.cons (hytd .q4 ?_) (.nil _))))
  all_goals simp only [sampleFact, Quarter.number]; norm_num

theorem restated_reportYear (rest : List QuarterlyFact)
    (h : quartersOf id (reportYear .netIncome 1 false (fun _ => 1) ++ rest) .netIncome sampleCutoff none =
      some (reportYear .netIncome 1 false (fun _ => 1))) :
    Restated id (reportYear .netIncome 1 false (fun _ => 1) ++ rest)
      (reportYear .netIncome 1 true (fun q => q.number) ++ rest) .netIncome sampleCutoff none
      (reportYear .netIncome 1 false (fun _ => 1)) (reportYear .netIncome 1 true (fun q => q.number)) rest :=
  ⟨.refl _, .refl _, h, by decide, by decide, accumulates_reportYear .netIncome 1, by decide⟩

theorem single_year_restated :
    assembleTtm id (reportYear .netIncome 1 true (fun q => q.number) ++ otherFacts) 1 sampleCutoff none =
      .ok (some sampleResult) := by
  have hsingle : assembleTtm id (reportYear .netIncome 1 false (fun _ => 1) ++ otherFacts) 1 sampleCutoff none =
      .ok (some sampleResult) := by decide +kernel
  have hchosen := restated_reportYear otherFacts (by decide +kernel)
  rw [← hsingle]
  exact (assembleTtm_independent id).2.1 _ _ 1 _ _ _ _ _ _ hchosen (by unfold Unsummed; decide +kernel) (fun _ _ => rfl)

/-- The sums are those of the window that ends last among all windows of visible quarters. -/
def SumsLatest (facts : List QuarterlyFact) (x : Flow) (cutoff : UtcTimestamp) (knownAt : Option UtcTimestamp)
    (t : TtmFundamentals) : Prop :=
  ∃ w, QuarterWindow (flowFacts facts x cutoff knownAt) w ∧
    t.flow x = (w.map (quarterAmount (flowFacts facts x cutoff knownAt))).sum ∧
    ∀ v, QuarterWindow (flowFacts facts x cutoff knownAt) v → windowEnd v ≤ windowEnd w

/-- A year of sums, and the sum of the first quarter of the next year. -/
def nextYearFacts : List QuarterlyFact :=
  reportYear .netIncome 1 true (fun q => q.number) ++ [sampleFact .netIncomeLoss 2 .q1 true 10] ++ otherFacts

/-- A year of single quarters and the first quarter of the next year, after a quarter that is there twice. -/
def repeatedFacts : List QuarterlyFact :=
  [sampleFact .netIncomeLoss 0 .q1 false 1, sampleFact .netIncomeLoss 0 .q1 false 2] ++
    reportYear .netIncome 1 false (fun _ => 1) ++ [sampleFact .netIncomeLoss 2 .q1 false 10] ++ otherFacts

/-- Where the quarters that lead up to the last one have another sum, it is not the latest that is summed. -/
theorem not_sumsLatest {facts : List QuarterlyFact} {x : Flow} {cutoff : UtcTimestamp} {knownAt : Option UtcTimestamp}
    {t : TtmFundamentals} {v : Window} (hv : QuarterWindow (flowFacts facts x cutoff knownAt) v)
    (h : ∀ d ∈ flowFacts facts x cutoff knownAt, windowEnd v ≤ d.endDay →
      ∀ c ∈ flowFacts facts x cutoff knownAt, c.ordinal + 1 = d.ordinal →
      ∀ b ∈ flowFacts facts x cutoff knownAt, b.ordinal + 2 = d.ordinal →
      ∀ a ∈ flowFacts facts x cutoff knownAt, a.ordinal + 3 = d.ordinal →
      t.flow x ≠ ([a, b, c, d].map (quarterAmount (flowFacts facts x cutoff knownAt))).sum) :
    ¬ SumsLatest facts x cutoff knownAt t := by
  rintro ⟨w, hw, hsum, hlast⟩
  obtain ⟨a, b, c, d, rfl⟩ := List.length_eq_four.mp hw.length
  obtain ⟨n, hn⟩ := hw.consecutive
  simp only [List.map_cons, List.map_nil, List.range'_succ, List.range'_zero, List.cons.injEq, and_true] at hn
  obtain ⟨ha, hb, hc, hd⟩ := hn
  exact h d (hw.mem d (by simp)) (hlast v hv) c (hw.mem c (by simp)) (by omega) b (hw.mem b (by simp)) (by omega)
    a (hw.mem a (by simp)) (by omega) hsum

theorem later_quarters_left_out :
    (assembleTtm id nextYearFacts 1 sampleCutoff none = .ok (some sampleResult) ∧
      ¬ SumsLatest nextYearFacts .netIncome sampleCutoff none sampleResult) ∧
    (assembleTtm id repeatedFacts 1 sampleCutoff none = .ok (some sampleResult) ∧
      ¬ SumsLatest repeatedFacts .netIncome sampleCutoff none sampleResult) ∧
    ∃ facts facts' w ys rest, Restated id facts facts' .netIncome sampleCutoff none w ys rest ∧
      assembleTtm id facts 1 sampleCutoff none = .ok (some sampleResult) ∧
      assembleTtm id facts' 1 sampleCutoff none = .ok none := by
  refine ⟨⟨by decide +kernel, ?_⟩, ⟨by decide +kernel, ?_⟩, _, _, _, _,
    reportYear .netIncome 1 true (fun q => q.number) ++ otherFacts, restated_reportYear _ (by decide +kernel),
    by decide +kernel, by decide +kernel⟩
  · have hv : QuarterWindow (flowFacts nextYearFacts .netIncome sampleCutoff none)
        [sampleFact .netIncomeLoss 1 .q2 true 2, sampleFact .netIncomeLoss 1 .q3 true 3,
          sampleFact .netIncomeLoss 1 .q4 true 4, sampleFact .netIncomeLoss 2 .q1 true 10] :=
      ⟨by decide +kernel, by decide +kernel, ⟨8094, by decide +kernel⟩, by decide +kernel⟩
    exact not_sumsLatest hv (by decide +kernel)
  · have hv : QuarterWindow (flowFacts repeatedFacts .netIncome sampleCutoff none)
        [sampleFact .netIncomeLoss 1 .q2 false 1, sampleFact .netIncomeLoss 1 .q3 false 1,
          sampleFact .netIncomeLoss 1 .q4 false 1, sampleFact .netIncomeLoss 2 .q1 false 10] :=
      ⟨by decide +kernel, by decide +kernel, ⟨8094, by decide +kernel⟩, by decide +kernel⟩
    exact not_sumsLatest hv (by decide +kernel)

end Samples

end SevenLens.Screening
