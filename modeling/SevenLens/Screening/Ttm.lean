import SevenLens.Library.Windows
import SevenLens.MarketData.Bars

/-! # Trailing twelve months

The four quarters that are chosen for a concept, and the fundamentals that are assembled from
them.  Values are exact rationals; `round` is what the decimal context makes of the result of an
operation. -/

namespace SevenLens.Screening

open Securities MarketData

/-! ### Facts -/

inductive FundamentalConcept where
  | netIncomeLoss | netCashOperating | assets | capexPpe | sharesOutstanding
deriving DecidableEq

inductive Quarter where
  | q1 | q2 | q3 | q4
deriving DecidableEq

namespace Quarter

/-- `quarter_number` -/
def number : Quarter → Nat
  | q1 => 1
  | q2 => 2
  | q3 => 3
  | q4 => 4

def all : List Quarter := [q1, q2, q3, q4]

/-- The quarter before a quarter of a fiscal year, with its fiscal year. -/
def before (year : Nat) : Quarter → Nat × Quarter
  | q1 => (year - 1, q4)
  | q2 => (year, q1)
  | q3 => (year, q2)
  | q4 => (year, q3)

theorem number_injective : Function.Injective number := by
  intro p q h
  cases p <;> cases q <;> first | rfl | exact absurd h (by decide)

theorem number_mem (q : Quarter) : 1 ≤ q.number ∧ q.number ≤ 4 := by cases q <;> decide

end Quarter

inductive FiscalPeriod where
  | quarter (q : Quarter)
  | ytd
deriving DecidableEq

/-- One normalized SEC fact. -/
structure QuarterlyFact where
  concept : FundamentalConcept
  value : ℚ
  periodEnd : TradingDate
  fiscalYear : Nat
  fiscalPeriod : FiscalPeriod
  currency : String
  entity : String
  consolidation : String
  sourceRef : SourceRef
  availableAt : UtcTimestamp
  securityId : Option SecurityId
  fiscalQuarter : Option Quarter
  fiscalYear_ok : 1900 ≤ fiscalYear ∧ fiscalYear ≤ 2999
  ytd_ok : fiscalPeriod = .ytd → fiscalQuarter.isSome
  quarter_ok : ∀ q, fiscalPeriod = .quarter q → ∀ p ∈ fiscalQuarter, p = q
  texts_ok : currency ≠ "" ∧ entity ≠ "" ∧ consolidation ≠ ""
  family_ok : sourceRef.family = .secEdgar
deriving DecidableEq

namespace QuarterlyFact

def isYtd (f : QuarterlyFact) : Bool := f.fiscalPeriod = .ytd

/-- `fact.fiscal_quarter or fact.fiscal_period` -/
def label (f : QuarterlyFact) : Quarter :=
  match h : f.fiscalPeriod with
  | .quarter q => q
  | .ytd => f.fiscalQuarter.get (f.ytd_ok h)

/-- Entity, currency and consolidation. -/
def lineage (f : QuarterlyFact) : String × String × String := (f.entity, f.currency, f.consolidation)

/-- The lineage and the fiscal year. -/
def yearKey (f : QuarterlyFact) : (String × String × String) × Nat := (f.lineage, f.fiscalYear)

/-- `year * 4 + quarter` -/
def ordinal (f : QuarterlyFact) : Nat := f.fiscalYear * 4 + f.label.number

/-- The fiscal year, the quarter and the end of the period. -/
def quarterKey (f : QuarterlyFact) : Nat × Quarter × TradingDate := (f.fiscalYear, f.label, f.periodEnd)

def endDay (f : QuarterlyFact) : Nat := f.periodEnd.days

end QuarterlyFact

abbrev Window := List QuarterlyFact

/-- The day on which the last quarter of a window ends. -/
def windowEnd (w : Window) : Nat := w.getLast?.elim 0 QuarterlyFact.endDay

/-! ### The quarters of a concept -/

/-- `_fact_by_concept` -/
def factByConcept (facts : List QuarterlyFact) (concept : FundamentalConcept) (cutoff knownAt : UtcTimestamp) :
    List QuarterlyFact :=
  facts.filter (fun f => decide (f.concept = concept ∧ f.availableAt ≤ knownAt ∧ f.endDay ≤ cutoff.day))

section

variable (round : ℚ → ℚ)

/-- `_quarter_value` -/
def quarterValue (f : QuarterlyFact) (priorYtd : Option ℚ) : ℚ :=
  if f.isYtd then round (f.value - priorYtd.getD 0) else f.value

/-- The facts of the four quarters, in order, where each quarter has one fact. -/
def fourQuarters (group : List QuarterlyFact) : Option Window :=
  if (group.map QuarterlyFact.label).Nodup then
    Quarter.all.mapM (fun q => group.find? (fun f => decide (f.label = q)))
  else none

/-- Single quarters that have the ends and the values of the year-to-date facts beside them. -/
def quartersAgree : Option ℚ → List (QuarterlyFact × QuarterlyFact) → Bool
  | _, [] => true
  | priorYtd, (direct, ytd) :: rest =>
    decide (direct.periodEnd = ytd.periodEnd ∧ direct.value = quarterValue round ytd priorYtd) &&
      quartersAgree (some ytd.value) rest

/-- Whether a year that is reported in both ways says the same in both. -/
def mixtureAgrees (group : List QuarterlyFact) : Bool :=
  match fourQuarters (group.filter (fun f => !f.isYtd)), fourQuarters (group.filter QuarterlyFact.isYtd) with
  | some direct, some ytd => quartersAgree round none (direct.zip ytd)
  | _, _ => false

/-- `period_ends == sorted(period_ends) and len(set(period_ends)) == 4`, for four facts. -/
def increasing (w : Window) : Bool :=
  let ends := w.map QuarterlyFact.endDay
  ends = ends.sortOn id && decide ends.Nodup

def mixed (group : List QuarterlyFact) : Bool := group.any QuarterlyFact.isYtd && group.any (fun f => !f.isYtd)

/-- The windows of one fiscal year of a lineage; nothing when its two reports differ. -/
def yearWindows (group : List QuarterlyFact) : Option (List Window) :=
  if mixed group then if mixtureAgrees round group then some [] else none
  else some ((fourQuarters group).filter increasing).toList

/-- `ordinal == tuple(range(ordinal[0], ordinal[0] + 4))` -/
def consecutive (w : Window) : Bool :=
  w.map QuarterlyFact.ordinal = List.range' (w.head?.elim 0 QuarterlyFact.ordinal) 4

/-- The windows of the single quarters of a lineage, whatever their fiscal years. -/
def rollingWindows (group : List QuarterlyFact) : List Window :=
  if (group.map QuarterlyFact.ordinal).Nodup then
    ((group.sortOn QuarterlyFact.ordinal).windows 4).filter (fun w => consecutive w && increasing w)
  else []

def candidates (visible : List QuarterlyFact) : Option (List Window) := do
  let years ← (Dict.groupsOf QuarterlyFact.yearKey visible).mapM (yearWindows round)
  let direct := Dict.groupsOf QuarterlyFact.lineage (visible.filter (fun f => !f.isYtd))
  return years.flatten ++ direct.flatMap rollingWindows

/-- `_unique_quarter_keys` -/
def uniqueQuarterKeys (facts : List QuarterlyFact) (concept : FundamentalConcept) (cutoff knownAt : UtcTimestamp) :
    Option Window := do
  let found ← candidates round (factByConcept facts concept cutoff knownAt)
  found.uniqueLatest windowEnd

/-- `_quarter_values` -/
def quarterValues : Option ℚ → Window → List ℚ
  | _, [] => []
  | priorYtd, q :: rest =>
    if q.isYtd then quarterValue round q priorYtd :: quarterValues (some q.value) rest
    else q.value :: quarterValues priorYtd rest

/-- `_sum_ytd` -/
def sumYtd (quarters : Window) : ℚ := (quarterValues round none quarters).foldl (fun total v => round (total + v)) 0

end

/-! ### Balances -/

/-- The balance before the first quarter and the balances at the ends of the quarters. -/
structure AssetScan where
  start : Option QuarterlyFact
  byPeriod : Nat × Quarter × TradingDate → Option QuarterlyFact

section

variable (lineage : String × String × String) (first : Nat × Quarter × TradingDate)
  (keys : List (Nat × Quarter × TradingDate))

/-- Whether a balance is that of the quarter before the first one. -/
def isStart (f : QuarterlyFact) : Bool :=
  decide ((f.fiscalYear, f.label) = Quarter.before first.1 first.2.1 ∧ f.endDay < first.2.2.days)

instance lawfulBEqDatedQuarter : LawfulBEq (Nat × Quarter × TradingDate) := inferInstance

/-- One asset fact. -/
def scanAsset (s : AssetScan) (f : QuarterlyFact) : Option AssetScan :=
  if f.lineage ≠ lineage then some s
  else if f.isYtd then none
  else if isStart first f then
    if s.start.isSome then none else some { s with start := some f }
  else if f.quarterKey ∉ keys then some s
  else if (s.byPeriod f.quarterKey).isSome then none
  else some { s with byPeriod := Function.update s.byPeriod f.quarterKey (some f) }

/-- The balance before the quarters, and those at their ends in order. -/
def assetBalances (assets : List QuarterlyFact) : Option (QuarterlyFact × List QuarterlyFact) := do
  let scan ← assets.foldlM (scanAsset lineage first keys) ⟨none, fun _ => none⟩
  let start ← scan.start
  -- a quarter without a balance ends the search
  let ordered ← keys.mapM scan.byPeriod
  return (start, ordered)

end

/-! ### Assembly -/

structure TtmFundamentals where
  ttmNetIncome : ℚ
  ttmCfo : ℚ
  ttmCapex : ℚ
  assetsAtTtmStart : ℚ
  assetsAtTtmEnd : ℚ
  sharesOutstanding : ℚ
  facts : List QuarterlyFact
deriving DecidableEq

section

variable (round : ℚ → ℚ)

/-- Quarters of the lineage of the first quarter of net income, and of the same years, labels and ends. -/
def sameQuarters (first : QuarterlyFact) (netIncome quarters : Window) : Prop :=
  (∀ f ∈ quarters, f.lineage = first.lineage) ∧
    quarters.map QuarterlyFact.quarterKey = netIncome.map QuarterlyFact.quarterKey

instance (first : QuarterlyFact) (netIncome quarters : Window) : Decidable (sameQuarters first netIncome quarters) :=
  inferInstanceAs (Decidable (_ ∧ _))

/-- What is assembled of quarters that have been found. -/
def assembleFrom (sharesOutstanding : ℚ) (netIncome cfo capex : Window) (assets : List QuarterlyFact) :
    Option TtmFundamentals := do
  let first ← netIncome.head?
  guard (sameQuarters first netIncome cfo ∧ sameQuarters first netIncome capex)
  guard ((∀ v ∈ quarterValues round none capex, 0 ≤ v) ∧ 0 ≤ sumYtd round capex)
  let (start, ordered) ← assetBalances first.lineage first.quarterKey (netIncome.map QuarterlyFact.quarterKey) assets
  guard (ordered.map QuarterlyFact.periodEnd = netIncome.map QuarterlyFact.periodEnd)
  let last ← ordered.getLast?
  guard (0 < start.value ∧ 0 < last.value)
  return {
    ttmNetIncome := sumYtd round netIncome
    ttmCfo := sumYtd round cfo
    ttmCapex := sumYtd round capex
    assetsAtTtmStart := start.value
    assetsAtTtmEnd := last.value
    sharesOutstanding
    facts := ordered }

/-- The facts are of one security. -/
def oneSecurity (facts : List QuarterlyFact) : Prop :=
  (∀ f ∈ facts, f.securityId.isSome) ∧ ∀ f ∈ facts, ∀ g ∈ facts, f.securityId = g.securityId

instance (facts : List QuarterlyFact) : Decidable (oneSecurity facts) := inferInstanceAs (Decidable (_ ∧ _))

/-- `assemble_ttm` -/
def assembleTtm (facts : List QuarterlyFact) (sharesOutstanding : ℚ) (cutoff : UtcTimestamp)
    (knownAt : Option UtcTimestamp) : Except Failure (Option TtmFundamentals) := do
  require (0 < sharesOutstanding) "shares_outstanding must be a positive finite Decimal"
  let knownAt := knownAt.getD cutoff
  require (knownAt ≤ cutoff) "known_at cannot be after cutoff"
  return do
    guard (oneSecurity facts)
    let netIncome ← uniqueQuarterKeys round facts .netIncomeLoss cutoff knownAt
    let cfo ← uniqueQuarterKeys round facts .netCashOperating cutoff knownAt
    let capex ← uniqueQuarterKeys round facts .capexPpe cutoff knownAt
    assembleFrom round sharesOutstanding netIncome cfo capex (factByConcept facts .assets cutoff knownAt)

end

end SevenLens.Screening
