import SevenLens.Analysis.Proposals

/-! # Round trips of the analysis contracts

What a contract writes on the wire is read back when its numbers are within the bounds of the
reader.  The constructors of some contracts have no upper bound on a number where the reader has
one: orders, fills, borrow statuses, the sums of a snapshot and the bands of a plan.  `Readable`
says which values are below these bounds, and `Kind.read_write_iff` that exactly these are read
back.  What is read is always what would be written (`Kind.write_of_read`). -/

namespace SevenLens.Analysis

open Securities

variable {R : Rules}

/-! ### Decimals -/

theorem not_negativeZero {d : Decimal} (h : 0 < d.value) : ¬ NegativeZero d := by
  rintro ⟨hz, -⟩
  simp only [Decimal.value, Decimal.magnitude, hz, Nat.cast_zero, zero_mul, neg_zero, ite_self, lt_self_iff_false] at h

/-- A positive decimal of a scale is not below the unit of the scale. -/
theorem unit_le_value {d : Decimal} {scale : Nat} (he : d.exponent = -scale) (h : 0 < d.value) :
    1 / 10 ^ scale ≤ d.value := by
  have hpos : (0 : ℚ) < 10 ^ d.exponent := Decimal.ten_zpow_pos _
  have hunit : (10 : ℚ) ^ d.exponent = 1 / 10 ^ scale := by
    rw [he, zpow_neg, zpow_natCast, one_div]
  unfold Decimal.value Decimal.magnitude at h ⊢
  split_ifs at h ⊢ with hneg
  · exfalso
    have hnonneg : (0 : ℚ) ≤ d.coefficient * 10 ^ d.exponent := mul_nonneg (Nat.cast_nonneg _) hpos.le
    linarith
  · have hone : (1 : ℚ) ≤ d.coefficient := by
      rw [Nat.one_le_cast, Nat.one_le_iff_ne_zero]
      intro hz
      rw [hz, Nat.cast_zero, zero_mul] at h
      exact lt_irrefl _ h
    rw [← hunit]
    nlinarith

theorem good_positive {d : Decimal} {n : Nat} {minimum maximum : ℚ} (he : d.exponent = -n)
    (h : 0 < d.value) (hmin : minimum = 1 / 10 ^ n) :
    Wire.GoodDecimal n minimum maximum d ↔ d.value ≤ maximum :=
  ⟨Wire.GoodDecimal.le_maximum, fun hmax => ⟨he, not_negativeZero h, hmin ▸ unit_le_value he h, hmax⟩⟩

theorem sixth_unit : (0.000001 : ℚ) = 1 / 10 ^ 6 := by norm_num

theorem second_unit : (0.01 : ℚ) = 1 / 10 ^ 2 := by norm_num

theorem good_nonnegative {d : Decimal} {n : Nat} {maximum : ℚ} (he : d.exponent = -n) (h : 0 ≤ d.value)
    (hz : ¬ NegativeZero d) : Wire.GoodDecimal n 0 maximum d ↔ d.value ≤ maximum :=
  ⟨Wire.GoodDecimal.le_maximum, fun hmax => ⟨he, hz, h, hmax⟩⟩

theorem rejectNegativeZero_ok {field : String} {d : Decimal} {u : Unit} :
    rejectNegativeZero field d = .ok u ↔ ¬ NegativeZero d := require_ok

theorem checkConfidence_ok {d : Decimal} {u : Unit} : checkConfidence d = .ok u ↔ Wire.confidence.good d := by
  simp only [checkConfidence, check_ok, require_ok, rejectNegativeZero_ok]
  constructor
  · rintro ⟨⟨he, hlo, hhi⟩, hz⟩
    exact ⟨he, hz, hlo, hhi⟩
  · rintro ⟨he, hz, hlo, hhi⟩
    exact ⟨⟨he, hlo, hhi⟩, hz⟩

/-! ### Lists -/

theorem strings_ok {field : String} {l : List String} {u : Unit} :
    R.strings field l = .ok u ↔ (Wire.strings R field).good l := sequence_ok

theorem refs_ok {field : String} {maximum : Nat} {nonempty : Bool} {l : List String} {u : Unit} :
    R.refs field maximum nonempty l = .ok u ↔ (Wire.refs R field maximum nonempty).good l := sequence_ok

theorem symbols_ok {field : String} {maximum : Nat} {l : List String} {u : Unit} :
    R.symbols field maximum l = .ok u ↔ (Wire.symbols R field maximum).good l := sequence_ok

theorem enums_ok {E : Type} [DecidableEq E] [StrEnum E] {field item : String} {maximum : Nat} {l : List E} {u : Unit} :
    enums field maximum l = .ok u ↔ (Wire.sequence field (Wire.exactEnum item) maximum true true).good l := by
  rw [enums, sequence_ok]
  exact and_congr_right fun _ => and_congr_right fun _ => and_congr_left fun _ =>
    ⟨fun _ _ _ => trivial, fun _ _ _ => rfl⟩

/-- A list whose items are only bounded in number is read when each of its items is. -/
theorem good_items {α : Type} [DecidableEq α] {field : String} {c : Wire α} {maximum : Nat} {l : List α}
    (h : l.length ≤ maximum) : (Wire.sequence field c maximum false false).good l ↔ ∀ a ∈ l, c.good a :=
  ⟨fun hg => hg.2.2.1, fun hg => ⟨h, fun hc => (Bool.false_ne_true hc).elim, hg, fun hc => (Bool.false_ne_true hc).elim⟩⟩

/-! ### Portfolio contracts -/

theorem ContractMeta.good (v : ContractMeta R) : (ContractMeta.wire R).good v := by
  obtain ⟨a, h⟩ := v
  simp only [postInit, check_ok, require_ok] at h
  exact ⟨h.1, trivial, trivial, h.2, trivial⟩

theorem PortfolioPosition.bounded_ok {field : String} {scale : Nat} {low high : ℚ} {d : Decimal} {u : Unit} :
    bounded field scale low high d = .ok u ↔ Wire.GoodDecimal scale low high d := by
  simp only [bounded, check_ok, require_ok, rejectNegativeZero_ok]
  constructor
  · rintro ⟨⟨he, hlo, hhi⟩, hz⟩
    exact ⟨he, hz, hlo, hhi⟩
  · rintro ⟨he, hz, hlo, hhi⟩
    exact ⟨⟨he, hlo, hhi⟩, hz⟩

theorem PortfolioPosition.good (v : PortfolioPosition R) : (PortfolioPosition.wire R).good v := by
  obtain ⟨a, h⟩ := v
  simp only [postInit, check_ok, require_ok, bounded_ok] at h
  obtain ⟨hsymbol, hquantity, hweight, hentry, hcurrent, hmarket, hunrealized, hrealized, -⟩ := h
  have hquantity' : Wire.GoodDecimal 6 0 1000000000 a.quantity :=
    ⟨hquantity.exponent, hquantity.nonNegativeZero, le_trans (by norm_num) hquantity.minimum_le, hquantity.le_maximum⟩
  exact ⟨trivial, hsymbol, trivial, hquantity', hweight, hentry, hcurrent, hmarket, hunrealized, hrealized, trivial,
    trivial⟩

/-- The remaining quantity is at most 1,000,000,000. -/
def OpenOrderSummary.Readable (v : OpenOrderSummary R) : Prop := v.val.remainingQuantity.value ≤ 1000000000

theorem OpenOrderSummary.good_iff (v : OpenOrderSummary R) : (OpenOrderSummary.wire R).good v ↔ Readable v := by
  obtain ⟨a, h⟩ := v
  simp only [postInit, check_ok, require_ok] at h
  obtain ⟨href, hsymbol, -, hexp, hpos⟩ := h
  rw [Readable, ← good_positive (n := 6) hexp hpos sixth_unit]
  exact ⟨fun hg => hg.2.2.2.1, fun hg => ⟨href, hsymbol, trivial, hg, trivial⟩⟩

/-- The quantity is at most 1,000,000,000 and the price at most 10,000,000. -/
def SameDayFillSummary.Readable (v : SameDayFillSummary R) : Prop :=
  v.val.quantity.value ≤ 1000000000 ∧ v.val.price.value ≤ 10000000

theorem SameDayFillSummary.good_iff (v : SameDayFillSummary R) : (SameDayFillSummary.wire R).good v ↔ Readable v := by
  obtain ⟨a, h⟩ := v
  simp only [postInit, check_ok, require_ok] at h
  obtain ⟨href, hsymbol, -, ⟨hexp, hpos⟩, hexp', hpos'⟩ := h
  rw [Readable, ← good_positive (n := 6) hexp hpos sixth_unit,
    ← good_positive (n := 2) hexp' hpos' second_unit]
  exact ⟨fun hg => ⟨hg.2.2.2.1, hg.2.2.2.2.1⟩, fun hg => ⟨href, hsymbol, trivial, hg.1, hg.2, trivial, trivial⟩⟩

/-- The located quantity is at most 1,000,000,000. -/
def BorrowStatus.Readable (v : BorrowStatus R) : Prop := v.val.locatedQuantity.value ≤ 1000000000

theorem BorrowStatus.good_iff (v : BorrowStatus R) : (BorrowStatus.wire R).good v ↔ Readable v := by
  obtain ⟨a, h⟩ := v
  simp only [postInit, check_ok, require_ok, rejectNegativeZero_ok] at h
  obtain ⟨hsymbol, ⟨hexp, hnonneg⟩, hz, -⟩ := h
  rw [Readable, ← good_nonnegative (n := 6) hexp hnonneg hz]
  exact ⟨fun hg => hg.2.2.1, fun hg => ⟨hsymbol, trivial, hg, trivial⟩⟩

theorem RemainingLimits.room_ok {field : String} {d : Decimal} {u : Unit} :
    room field d = .ok u ↔ Wire.GoodDecimal 6 (-2) 2 d := by
  simp only [room, require_ok]
  constructor
  · rintro ⟨he, hlo, hhi, hz⟩
    exact ⟨he, hz, hlo, hhi⟩
  · rintro ⟨he, hz, hlo, hhi⟩
    exact ⟨he, hlo, hhi, hz⟩

theorem RemainingLimits.good (v : RemainingLimits) : RemainingLimits.wire.good v := by
  obtain ⟨a, h⟩ := v
  simp only [postInit, check_ok, require_ok, room_ok] at h
  obtain ⟨hslots, hlong, hshort, htotal, hlower, hupper, hsingle, hturnover⟩ := h
  exact ⟨hslots, hlong, hshort, htotal, hlower, hupper, hsingle, hturnover, trivial⟩

/-- The sums are at most 1,000,000,000,000, and the orders, fills and borrow statuses are readable. -/
def PortfolioSnapshot.Readable (v : PortfolioSnapshot R) : Prop :=
  (v.val.nav.value ≤ 1000000000000 ∧ v.val.cash.value ≤ 1000000000000 ∧ v.val.buyingPower.value ≤ 1000000000000) ∧
    (∀ order ∈ v.val.openOrders, order.Readable) ∧ (∀ fill ∈ v.val.sameDayFills, fill.Readable) ∧
    ∀ borrow ∈ v.val.borrowStatuses, borrow.Readable

theorem PortfolioSnapshot.good_iff (v : PortfolioSnapshot R) : (PortfolioSnapshot.wire R).good v ↔ Readable v := by
  obtain ⟨a, h⟩ := v
  simp only [postInit, check_ok, money, boundedItems, uniqueItems, require_ok, rejectNegativeZero_ok] at h
  obtain ⟨⟨hnav, -⟩, ⟨hcash, hcash0⟩, ⟨hpower, hpower0⟩, hcashz, hpowerz, hpos, hpositions, horders, hfills,
    hborrows, -⟩ := h
  have hlists : (∀ order ∈ a.openOrders, order.Readable) ∧ (∀ fill ∈ a.sameDayFills, fill.Readable) ∧
      (∀ borrow ∈ a.borrowStatuses, borrow.Readable) ↔
      (Wire.sequence "open_orders" (OpenOrderSummary.wire R) 64 false false).good a.openOrders ∧
      (Wire.sequence "same_day_fills" (SameDayFillSummary.wire R) 128 false false).good a.sameDayFills ∧
      (Wire.sequence "borrow_statuses" (BorrowStatus.wire R) 64 false false).good a.borrowStatuses := by
    simp only [good_items horders, good_items hfills, good_items hborrows, OpenOrderSummary.good_iff,
      SameDayFillSummary.good_iff, BorrowStatus.good_iff]
  rw [Readable, hlists, ← good_positive (n := 2) hnav hpos second_unit,
    ← good_nonnegative (n := 2) hcash hcash0 hcashz, ← good_nonnegative (n := 2) hpower hpower0 hpowerz]
  have hgood := (@good_items _ _ "positions" _ _ _ hpositions).mpr fun p _ => PortfolioPosition.good p
  constructor
  · rintro ⟨-, hn, hc, hb, -, ho, hf, hs, -⟩
    exact ⟨⟨hn, hc, hb⟩, ho, hf, hs⟩
  · rintro ⟨⟨hn, hc, hb⟩, ho, hf, hs⟩
    exact ⟨trivial, hn, hc, hb, hgood, ho, hf, hs, RemainingLimits.good _, trivial, trivial⟩

theorem AnalysisInput.good_iff (v : AnalysisInput R) :
    (AnalysisInput.wire R).good v ↔ v.val.portfolioSnapshot.Readable := by
  obtain ⟨a, h⟩ := v
  simp only [postInit, check_ok, require_ok, symbols_ok, refs_ok] at h
  obtain ⟨-, hholding, hcandidate, hfocus, hevidence, hdata, -⟩ := h
  rw [← PortfolioSnapshot.good_iff]
  constructor
  · rintro ⟨-, -, -, -, -, hsnapshot, -⟩
    exact hsnapshot
  · intro hsnapshot
    exact ⟨ContractMeta.good _, trivial, trivial, trivial, trivial, hsnapshot, hholding, hcandidate, hfocus, hevidence,
      hdata, trivial, trivial⟩

/-! ### Contracts of the stages -/

theorem AnalystReport.good (v : AnalystReport R) : (AnalystReport.wire R).good v := by
  obtain ⟨a, h⟩ := v
  simp only [postInit, check_ok, require_ok, strings_ok, refs_ok, checkConfidence_ok] at h
  obtain ⟨hsymbol, hsummary, hobservations, hclaims, hmissing, hrisks, hcatalysts, hinvalidators, hevidence, hcounter,
    hconfidence, -⟩ := h
  exact ⟨ContractMeta.good _, trivial, trivial, trivial, hsymbol, trivial, hsummary, hobservations, hclaims, hevidence,
    hcounter, hmissing, hrisks, hcatalysts, hinvalidators, hconfidence, trivial⟩

theorem InvestmentDebateState.good (v : InvestmentDebateState R) : (InvestmentDebateState.wire R).good v := by
  obtain ⟨a, h⟩ := v
  simp only [postInit, check_ok, checkRounds, require_ok, strings_ok, refs_ok] at h
  obtain ⟨hsymbol, hbull, hbear, hconflicts, hverified, hdisputed, ⟨hrounds, -⟩, -⟩ := h
  exact ⟨trivial, ContractMeta.good _, trivial, trivial, hsymbol, hbull, hbear, hverified, hdisputed, hconflicts,
    hrounds, trivial⟩

theorem ResearchConclusion.good (v : ResearchConclusion R) : (ResearchConclusion.wire R).good v := by
  obtain ⟨a, h⟩ := v
  simp only [postInit, check_ok, require_ok, strings_ok, refs_ok, checkConfidence_ok] at h
  obtain ⟨hsymbol, hsummary, hdrivers, hrisks, hinvalidators, hevidence, hconfidence, -⟩ := h
  exact ⟨ContractMeta.good _, trivial, trivial, hsymbol, trivial, hsummary, hdrivers, hrisks, hinvalidators, hevidence,
    hconfidence, trivial, trivial⟩

/-- The bands that are there are at most 10,000,000. -/
def TraderPlan.Readable (v : TraderPlan R) : Prop :=
  (∀ d ∈ v.val.entryBandLow, d.value ≤ 10000000) ∧ (∀ d ∈ v.val.entryBandHigh, d.value ≤ 10000000) ∧
    ∀ d ∈ v.val.downsideBand, d.value ≤ 10000000

theorem TraderPlan.price_good {field field' : String} {d : Option Decimal} (h : band field d = .ok ()) :
    (price field').good d ↔ ∀ x ∈ d, x.value ≤ 10000000 := by
  have hband := require_ok.mp h
  refine forall_congr' fun x => ?_
  constructor
  · intro hg hx
    exact (hg (Option.mem_def.mp hx)).le_maximum
  · intro hle hx
    obtain ⟨hexp, hpos⟩ := hband x hx
    exact (good_positive (n := 2) hexp hpos second_unit).mpr (hle hx)

theorem TraderPlan.good_iff (v : TraderPlan R) : (TraderPlan.wire R).good v ↔ v.Readable := by
  obtain ⟨a, h⟩ := v
  simp only [postInit, check_ok, require_ok, refs_ok] at h
  obtain ⟨hsymbol, hreasons, hevidence, hlow, hhigh, hdownside, -⟩ := h
  rw [Readable, ← @price_good _ "entry_band_low" _ hlow, ← @price_good _ "entry_band_high" _ hhigh,
    ← @price_good _ "downside_band" _ hdownside]
  -- a VALID plan has to have references, which the reader does not ask for
  have hrefs : (Wire.refs R "evidence_refs" maxSequenceItems false).good a.evidenceRefs :=
    ⟨hevidence.1, fun hc => (Bool.false_ne_true hc).elim, hevidence.2.2⟩
  constructor
  · rintro ⟨-, -, -, -, -, -, -, hl, hh, hd, -⟩
    exact ⟨hl, hh, hd⟩
  · rintro ⟨hl, hh, hd⟩
    exact ⟨enums_ok.mp hreasons, ContractMeta.good _, trivial, trivial, hsymbol, trivial, hrefs, hl, hh, hd, trivial,
      trivial⟩

theorem RiskDebateState.good (v : RiskDebateState R) : (RiskDebateState.wire R).good v := by
  obtain ⟨a, h⟩ := v
  simp only [postInit, check_ok, checkRounds, require_ok, strings_ok] at h
  obtain ⟨haggressive, hconservative, hneutral, hconflicts, ⟨hrounds, -⟩, -⟩ := h
  exact ⟨trivial, ContractMeta.good _, trivial, trivial, haggressive, hconservative, hneutral, hconflicts, hrounds,
    trivial⟩

theorem PortfolioRequest.good (v : PortfolioRequest R) : (PortfolioRequest.wire R).good v := by
  obtain ⟨a, h⟩ := v
  simp only [postInit, check_ok, require_ok, rejectNegativeZero_ok, strings_ok, refs_ok, checkConfidence_ok] at h
  obtain ⟨hsymbol, ⟨hexp, hlow, hhigh⟩, hz, hconfidence, hevidence, hreasons, hinvalidators, -⟩ := h
  exact ⟨fun _ _ => trivial, enums_ok.mp hreasons, hsymbol, trivial, trivial, ⟨hexp, hz, hlow, hhigh⟩, hconfidence,
    hevidence, hinvalidators, trivial⟩

theorem versions_good {v : Versions} (h : R.versions v = .ok ()) {ρ τ : Type} {value : ρ → Versions} {r : ρ}
    (hr : value r = v) {rest : Json.Fields mapping ρ τ} (hrest : rest.good r) :
    (versionFields R value rest).good r := by
  subst hr
  simp only [Rules.versions, check_ok] at h
  obtain ⟨hgraph, hprompt, hmodel, hprovider, hdata, hmemory⟩ := h
  exact ⟨hgraph, hprompt, hmodel, hprovider, hdata, hmemory, hrest⟩

/-- The requests of a proposal are read back. -/
theorem requests_good {requests : List (PortfolioRequest R)} (h : checkRequests requests = .ok ()) :
    (Wire.sequence "requests" (PortfolioRequest.wire R) 27 false false).good requests := by
  simp only [checkRequests, check_ok, require_ok] at h
  exact (good_items h.1).mpr fun r _ => PortfolioRequest.good r

theorem PortfolioProposal.good (v : PortfolioProposal R) : (PortfolioProposal.wire R).good v := by
  obtain ⟨a, h⟩ := v
  simp only [postInit, check_ok, require_ok] at h
  obtain ⟨hattempt, -, hrequests, hversions, -⟩ := h
  exact ⟨fun _ _ => trivial, requests_good hrequests, ContractMeta.good _, trivial, hattempt, trivial, trivial, trivial,
    trivial, versions_good hversions rfl ⟨trivial, trivial, trivial⟩⟩

theorem RiskRejectionFeedback.good (v : RiskRejectionFeedback R) : (RiskRejectionFeedback.wire R).good v := by
  obtain ⟨a, h⟩ := v
  simp only [postInit, check_ok, require_ok, symbols_ok] at h
  obtain ⟨hround, hcodes, hsymbols⟩ := h
  exact ⟨enums_ok.mp hcodes, ContractMeta.good _, trivial, ⟨hround.ge, hround.le⟩, hsymbols, RemainingLimits.good _,
    trivial, trivial, trivial⟩

/-! ### Contracts of the proposal -/

namespace Proposals

theorem ResearchBundleItem.good_iff (v : ResearchBundleItem R) :
    (ResearchBundleItem.wire R).good v ↔ v.val.traderPlan.Readable := by
  obtain ⟨a, h⟩ := v
  simp only [postInit, bind_ok, exists_unit, require_ok, refs_ok] at h
  obtain ⟨hsymbol, -, hash, -, -, hevidence, hproducer, hgraph, hprompt, hdata, -⟩ := h
  rw [← TraderPlan.good_iff]
  constructor
  · rintro ⟨-, -, -, -, -, -, -, hplan, -⟩
    exact hplan
  · intro hplan
    exact ⟨hsymbol, trivial, trivial, trivial, trivial, trivial, trivial, hplan, hevidence, hproducer, hgraph, hprompt,
      hdata, trivial, trivial⟩

/-- The plans of the items are readable. -/
def ResearchBundle.Readable (v : ResearchBundle R) : Prop := ∀ item ∈ v.val.items, item.val.traderPlan.Readable

theorem ResearchBundle.good_iff (v : ResearchBundle R) : (ResearchBundle.wire R).good v ↔ v.Readable := by
  obtain ⟨a, h⟩ := v
  simp only [postInit, bind_ok, exists_unit, require_ok, refs_ok, symbols_ok] at h
  obtain ⟨-, hdata, hholding, hcandidate, -, expected, -, -, hfocus, -, -, hlength, -, -, -, -, -, -, -, -, -, -,
    hcitations, -⟩ := h
  have hitems : a.items.length ≤ 27 := hlength ▸ hfocus.1
  rw [Readable, show (∀ item ∈ a.items, item.val.traderPlan.Readable) ↔ _ from
    forall₂_congr fun item _ => (ResearchBundleItem.good_iff item).symm, ← @good_items _ _ "items" _ _ _ hitems]
  constructor
  · rintro ⟨-, -, -, -, -, -, -, -, -, -, -, -, hgood, -⟩
    exact hgood
  · intro hgood
    exact ⟨ContractMeta.good _, trivial, trivial, trivial, trivial, trivial, trivial, trivial, hdata, hholding,
      hcandidate, hfocus, hgood, hcitations, trivial, trivial⟩

theorem ProposalContext.good_iff (v : ProposalContext R) :
    (ProposalContext.wire R).good v ↔ v.val.snapshot.Readable := by
  obtain ⟨a, h⟩ := v
  simp only [postInit, bind_ok, exists_unit, require_ok, refs_ok, symbols_ok] at h
  obtain ⟨hattempt, -, hsymbols, -, hcitations, -, hversions, -⟩ := h
  rw [← PortfolioSnapshot.good_iff]
  constructor
  · rintro ⟨-, -, -, -, -, hsnapshot, -⟩
    exact hsnapshot
  · intro hsnapshot
    exact ⟨ContractMeta.good _, trivial, hattempt, trivial, trivial, hsnapshot, trivial, trivial, trivial, trivial,
      hsymbols, hcitations, versions_good hversions rfl ⟨fun _ _ => trivial, fun _ _ => trivial, fun _ _ => trivial,
        fun feedback _ => RiskRejectionFeedback.good feedback, trivial, trivial⟩⟩

theorem RiskArgument.good (v : RiskArgument R) : (RiskArgument.wire R).good v := by
  obtain ⟨a, h⟩ := v
  simp only [postInit, bind_ok, exists_unit, require_ok, refs_ok] at h
  obtain ⟨hround, htext, hevidence, hproducer, -⟩ := h
  exact ⟨ContractMeta.good _, trivial, trivial, trivial, trivial, trivial, hround, htext, hevidence, hproducer, trivial⟩

theorem RiskDebateState.good (v : RiskDebateState R) : (RiskDebateState.wire R).good v := by
  obtain ⟨a, h⟩ := v
  simp only [postInit, bind_ok, exists_unit, require_ok] at h
  have hlength : a.arguments.length ≤ 6 := by
    obtain ⟨hlength, -⟩ := h
    omega
  have harguments := (@good_items _ _ "arguments" _ _ _ hlength).mpr fun argument _ => RiskArgument.good argument
  exact ⟨trivial, ContractMeta.good _, trivial, trivial, trivial, trivial, harguments, trivial, trivial⟩

theorem PortfolioProposal.good (v : PortfolioProposal R) : (PortfolioProposal.wire R).good v := by
  obtain ⟨a, h⟩ := v
  simp only [postInit, check_ok, require_ok] at h
  obtain ⟨hattempt, -, -, -, hrequests, hversions, -⟩ := h
  exact ⟨fun _ _ => trivial, requests_good hrequests, ContractMeta.good _, trivial, hattempt, trivial, trivial, trivial,
    trivial, trivial, trivial, trivial, versions_good hversions rfl ⟨trivial, trivial, trivial⟩⟩

end Proposals

/-! ### All contracts -/

/-- The contracts that are kept in JSON.  Risk debates and proposals have two forms. -/
inductive Kind where
  | portfolioPosition | openOrderSummary | sameDayFillSummary | borrowStatus | remainingLimits | portfolioSnapshot
  | analysisInput | analystReport | investmentDebateState | researchConclusion | traderPlan | portfolioRequest
  | riskRejectionFeedback | firstRiskDebateState | firstPortfolioProposal | researchBundle | proposalContext
  | riskDebateState | portfolioProposal

namespace Kind

/-- The values that the constructor of a contract accepts. -/
def Value (R : Rules) : Kind → Type
  | portfolioPosition => PortfolioPosition R
  | openOrderSummary => OpenOrderSummary R
  | sameDayFillSummary => SameDayFillSummary R
  | borrowStatus => BorrowStatus R
  | remainingLimits => RemainingLimits
  | portfolioSnapshot => PortfolioSnapshot R
  | analysisInput => AnalysisInput R
  | analystReport => AnalystReport R
  | investmentDebateState => InvestmentDebateState R
  | researchConclusion => ResearchConclusion R
  | traderPlan => TraderPlan R
  | portfolioRequest => PortfolioRequest R
  | riskRejectionFeedback => RiskRejectionFeedback R
  | firstRiskDebateState => RiskDebateState R
  | firstPortfolioProposal => PortfolioProposal R
  | researchBundle => Proposals.ResearchBundle R
  | proposalContext => Proposals.ProposalContext R
  | riskDebateState => Proposals.RiskDebateState R
  | portfolioProposal => Proposals.PortfolioProposal R

/-- `to_wire` and `from_wire` of a contract. -/
def wire (R : Rules) : (k : Kind) → Wire (k.Value R)
  | portfolioPosition => PortfolioPosition.wire R
  | openOrderSummary => OpenOrderSummary.wire R
  | sameDayFillSummary => SameDayFillSummary.wire R
  | borrowStatus => BorrowStatus.wire R
  | remainingLimits => RemainingLimits.wire
  | portfolioSnapshot => PortfolioSnapshot.wire R
  | analysisInput => AnalysisInput.wire R
  | analystReport => AnalystReport.wire R
  | investmentDebateState => InvestmentDebateState.wire R
  | researchConclusion => ResearchConclusion.wire R
  | traderPlan => TraderPlan.wire R
  | portfolioRequest => PortfolioRequest.wire R
  | riskRejectionFeedback => RiskRejectionFeedback.wire R
  | firstRiskDebateState => RiskDebateState.wire R
  | firstPortfolioProposal => PortfolioProposal.wire R
  | researchBundle => Proposals.ResearchBundle.wire R
  | proposalContext => Proposals.ProposalContext.wire R
  | riskDebateState => Proposals.RiskDebateState.wire R
  | portfolioProposal => Proposals.PortfolioProposal.wire R

/-- The numbers of a value are within the bounds of the reader. -/
def Readable : (k : Kind) → k.Value R → Prop
  | openOrderSummary, v => OpenOrderSummary.Readable v
  | sameDayFillSummary, v => SameDayFillSummary.Readable v
  | borrowStatus, v => BorrowStatus.Readable v
  | portfolioSnapshot, v => PortfolioSnapshot.Readable v
  | analysisInput, v => PortfolioSnapshot.Readable v.val.portfolioSnapshot
  | traderPlan, v => TraderPlan.Readable v
  | researchBundle, v => Proposals.ResearchBundle.Readable v
  | proposalContext, v => PortfolioSnapshot.Readable v.val.snapshot
  | _, _ => True

theorem good_iff (k : Kind) (v : k.Value R) : (k.wire R).good v ↔ k.Readable v := by
  cases k with
  | openOrderSummary => exact OpenOrderSummary.good_iff v
  | sameDayFillSummary => exact SameDayFillSummary.good_iff v
  | borrowStatus => exact BorrowStatus.good_iff v
  | portfolioSnapshot => exact PortfolioSnapshot.good_iff v
  | analysisInput => exact AnalysisInput.good_iff v
  | traderPlan => exact TraderPlan.good_iff v
  | researchBundle => exact Proposals.ResearchBundle.good_iff v
  | proposalContext => exact Proposals.ProposalContext.good_iff v
  | portfolioPosition => exact iff_of_true (PortfolioPosition.good v) trivial
  | remainingLimits => exact iff_of_true (RemainingLimits.good v) trivial
  | analystReport => exact iff_of_true (AnalystReport.good v) trivial
  | investmentDebateState => exact iff_of_true (InvestmentDebateState.good v) trivial
  | researchConclusion => exact iff_of_true (ResearchConclusion.good v) trivial
  | portfolioRequest => exact iff_of_true (PortfolioRequest.good v) trivial
  | riskRejectionFeedback => exact iff_of_true (RiskRejectionFeedback.good v) trivial
  | firstRiskDebateState => exact iff_of_true (RiskDebateState.good v) trivial
  | firstPortfolioProposal => exact iff_of_true (PortfolioProposal.good v) trivial
  | riskDebateState => exact iff_of_true (Proposals.RiskDebateState.good v) trivial
  | portfolioProposal => exact iff_of_true (Proposals.PortfolioProposal.good v) trivial

end Kind

/-! ### Nothing is lost -/

theorem OpenOrderSummary.exact (v : OpenOrderSummary R) : (OpenOrderSummary.wire R).exact v := by
  obtain ⟨a, h⟩ := v
  simp only [postInit, check_ok, require_ok] at h
  obtain ⟨-, -, -, hexp, -⟩ := h
  exact ⟨trivial, trivial, trivial, hexp, trivial⟩

theorem SameDayFillSummary.exact (v : SameDayFillSummary R) : (SameDayFillSummary.wire R).exact v := by
  obtain ⟨a, h⟩ := v
  simp only [postInit, check_ok, require_ok] at h
  obtain ⟨-, -, -, ⟨hexp, -⟩, hexp', -⟩ := h
  exact ⟨trivial, trivial, trivial, hexp, hexp', trivial, trivial⟩

theorem BorrowStatus.exact (v : BorrowStatus R) : (BorrowStatus.wire R).exact v := by
  obtain ⟨a, h⟩ := v
  simp only [postInit, check_ok, require_ok] at h
  obtain ⟨-, ⟨hexp, -⟩, -⟩ := h
  exact ⟨trivial, trivial, hexp, trivial⟩

theorem PortfolioSnapshot.exact (v : PortfolioSnapshot R) : (PortfolioSnapshot.wire R).exact v := by
  obtain ⟨a, h⟩ := v
  simp only [postInit, check_ok, money, require_ok] at h
  obtain ⟨⟨hnav, -⟩, ⟨hcash, -⟩, ⟨hpower, -⟩, -⟩ := h
  exact ⟨trivial, hnav, hcash, hpower, fun p _ => (PortfolioPosition.wire R).exact_of_good p.good,
    fun order _ => order.exact, fun fill _ => fill.exact, fun borrow _ => borrow.exact,
    RemainingLimits.wire.exact_of_good (RemainingLimits.good _), trivial, trivial⟩

theorem ContractMeta.exact (v : ContractMeta R) : (ContractMeta.wire R).exact v :=
  (ContractMeta.wire R).exact_of_good v.good

theorem AnalysisInput.exact (v : AnalysisInput R) : (AnalysisInput.wire R).exact v :=
  ⟨ContractMeta.exact _, trivial, trivial, trivial, trivial, PortfolioSnapshot.exact _, fun _ _ => trivial,
    fun _ _ => trivial, fun _ _ => trivial, fun _ _ => trivial, fun _ _ => trivial, trivial, trivial⟩

theorem TraderPlan.exact (v : TraderPlan R) : (TraderPlan.wire R).exact v := by
  obtain ⟨a, h⟩ := v
  simp only [postInit, check_ok, band, require_ok] at h
  obtain ⟨-, -, -, hlow, hhigh, hdownside, -⟩ := h
  exact ⟨fun _ _ => trivial, ContractMeta.exact _, trivial, trivial, trivial, trivial, fun _ _ => trivial,
    fun d hd => (hlow d hd).1, fun d hd => (hhigh d hd).1, fun d hd => (hdownside d hd).1, trivial, trivial⟩

namespace Proposals

theorem ResearchBundleItem.exact (v : ResearchBundleItem R) : (ResearchBundleItem.wire R).exact v :=
  ⟨trivial, trivial, trivial, trivial, trivial, trivial, trivial, TraderPlan.exact _, fun _ _ => trivial, trivial,
    trivial, trivial, trivial, trivial, trivial⟩

theorem ResearchBundle.exact (v : ResearchBundle R) : (ResearchBundle.wire R).exact v :=
  ⟨ContractMeta.exact _, trivial, trivial, trivial, trivial, trivial, trivial, trivial, fun _ _ => trivial,
    fun _ _ => trivial, fun _ _ => trivial, fun _ _ => trivial, fun item _ => item.exact, fun _ _ => trivial, trivial,
    trivial⟩

theorem ProposalContext.exact (v : ProposalContext R) : (ProposalContext.wire R).exact v :=
  ⟨ContractMeta.exact _, trivial, trivial, trivial, trivial, PortfolioSnapshot.exact _, trivial, trivial, trivial,
    trivial, fun _ _ => trivial, fun _ _ => trivial, trivial, trivial, trivial, trivial, trivial, trivial,
    fun _ _ => trivial, fun _ _ => trivial, fun _ _ => trivial,
    fun feedback _ => (RiskRejectionFeedback.wire R).exact_of_good feedback.good, trivial, trivial⟩

end Proposals

/-- The JSON of a contract determines the value. -/
theorem Kind.exact (k : Kind) (v : k.Value R) : (k.wire R).exact v := by
  cases k with
  | openOrderSummary => exact OpenOrderSummary.exact v
  | sameDayFillSummary => exact SameDayFillSummary.exact v
  | borrowStatus => exact BorrowStatus.exact v
  | portfolioSnapshot => exact PortfolioSnapshot.exact v
  | analysisInput => exact AnalysisInput.exact v
  | traderPlan => exact TraderPlan.exact v
  | researchBundle => exact Proposals.ResearchBundle.exact v
  | proposalContext => exact Proposals.ProposalContext.exact v
  | _ => exact (Kind.wire R _).exact_of_good ((Kind.good_iff _ v).mpr trivial)

/-- `canonical_wire_json` -/
def canonicalWireJson {α : Type} (c : Wire α) (v : α) : Except Failure String := toJson (c.write v)

/-- A value with canonical JSON is read back when its numbers are within the bounds of the reader. -/
theorem read_write_iff (k : Kind) {v : k.Value R} {text : String} (h : canonicalWireJson (k.wire R) v = .ok text) :
    (k.wire R).read ((k.wire R).write v) = .ok v ↔ k.Readable v := by
  rw [(k.wire R).read_write (Json.Budget.within_of_enter (toJson_ok.mp h).1), k.good_iff]

/-- Each contract is read back from its own JSON exactly when its numbers are within the bounds of the
reader, and what is read is what was on the wire. -/
theorem contracts_round_trip_iff (R : Rules) (k : Kind) :
    (∀ (v : k.Value R) (text : String), canonicalWireJson (k.wire R) v = .ok text →
      ((k.wire R).read ((k.wire R).write v) = .ok v ↔ k.Readable v)) ∧
    ∀ (w : Json) (v : k.Value R), (k.wire R).read w = .ok v → (k.wire R).write v = w.canon :=
  ⟨fun _ _ h => read_write_iff k h, fun _ _ h => ((k.wire R).sound h).1.symm⟩

/-- Rules that prohibit nothing, with a constant digest and no parser. -/
def plainRules : Rules where
  prohibited _ _ := none
  sha256 _ := ⟨"aaaaaaaaaaaaaaaaaaaaaaaaaaaaaaaaaaaaaaaaaaaaaaaaaaaaaaaaaaaaaaaa", by decide⟩
  loads _ := refuse "no parser"
  prohibited_runId _ := rfl
  prohibited_timestamp _ := rfl
  prohibited_schema := rfl

def sampleMeta : ContractMeta plainRules :=
  ⟨⟨schemaVersion, ⟨⟨1, by decide⟩, by decide⟩, ⟨0, by decide⟩, "p3c.v1"⟩, by decide +kernel⟩

/-- A plan without an entry band, whose downside band has the given number of cents. -/
def samplePlanArgs (cents : Nat) : TraderPlan.Args plainRules where
  contractMeta := sampleMeta
  planId := ⟨⟨2, by decide⟩, by decide⟩
  inputId := ⟨⟨3, by decide⟩, by decide⟩
  symbol := "AAPL"
  rating := .hold
  reasonCodes := [.technical]
  evidenceRefs := ["claim.1"]
  entryBandLow := none
  entryBandHigh := none
  downsideBand := some ⟨false, cents, -2⟩
  status := .valid

def samplePlan : TraderPlan plainRules := ⟨samplePlanArgs 9500, by decide +kernel⟩

/-- A plan with a downside band of 10,000,000.01. -/
def largePlan : TraderPlan plainRules := ⟨samplePlanArgs 1000000001, by decide +kernel⟩

theorem fits_samplePlan : Fits ((TraderPlan.wire plainRules).write samplePlan) := by decide +kernel

theorem fits_largePlan : Fits ((TraderPlan.wire plainRules).write largePlan) := by decide +kernel

theorem samplePlan_round_trip :
    (TraderPlan.wire plainRules).read ((TraderPlan.wire plainRules).write samplePlan) = .ok samplePlan := by
  refine ((contracts_round_trip_iff plainRules .traderPlan).1 samplePlan _ (toJson_ok.mpr ⟨fits_samplePlan, rfl⟩)).mpr ?_
  refine ⟨fun d hd => (nomatch hd), fun d hd => (nomatch hd), fun d hd => ?_⟩
  obtain rfl : (⟨false, 9500, -2⟩ : Decimal) = d := Option.some.inj hd
  norm_num [Decimal.value, Decimal.magnitude]

/-- A plan with a large downside band has canonical JSON, and is not read back from it. -/
theorem largePlan_not_read_back : ¬ ∀ (R : Rules) (k : Kind) (v : k.Value R) (text : String),
    canonicalWireJson (k.wire R) v = .ok text → (k.wire R).read ((k.wire R).write v) = .ok v := by
  intro h
  have hjson : canonicalWireJson (Kind.traderPlan.wire plainRules) largePlan = .ok _ :=
    toJson_ok.mpr ⟨fits_largePlan, rfl⟩
  obtain ⟨-, -, hdownside⟩ := (read_write_iff Kind.traderPlan hjson).mp (h plainRules .traderPlan largePlan _ hjson)
  have hle := hdownside ⟨false, 1000000001, -2⟩ rfl
  norm_num [Decimal.value, Decimal.magnitude] at hle

end SevenLens.Analysis
