import SevenLens.Analysis.Portfolio

/-! # Reports, debates, conclusions, plans and requests

The contracts that the stages of an analysis produce, and the first form of risk debates and
portfolio proposals with the feedback of a risk review. -/

namespace SevenLens.Analysis

open Securities

/-! ### Kinds -/

inductive AnalysisStatus where
  | valid | invalid | abstain
deriving DecidableEq, Repr

instance : StrEnum AnalysisStatus where
  value
    | .valid => "VALID"
    | .invalid => "INVALID"
    | .abstain => "ABSTAIN"
  members := [.valid, .invalid, .abstain]
  mem_members e := by cases e <;> decide
  nodup_values := by decide

inductive AnalystRole where
  | technical | fundamentals | news | sentiment
deriving DecidableEq, Repr

instance : StrEnum AnalystRole where
  value
    | .technical => "TECHNICAL"
    | .fundamentals => "FUNDAMENTALS"
    | .news => "NEWS"
    | .sentiment => "SENTIMENT"
  members := [.technical, .fundamentals, .news, .sentiment]
  mem_members e := by cases e <;> decide
  nodup_values := by decide

inductive ResearchRating where
  | buy | overweight | hold | underweight | sell
deriving DecidableEq, Repr

instance : StrEnum ResearchRating where
  value
    | .buy => "BUY"
    | .overweight => "OVERWEIGHT"
    | .hold => "HOLD"
    | .underweight => "UNDERWEIGHT"
    | .sell => "SELL"
  members := [.buy, .overweight, .hold, .underweight, .sell]
  mem_members e := by cases e <;> decide
  nodup_values := by decide

inductive ProposalAction where
  | open | increase | reduce | close | hold
deriving DecidableEq, Repr

instance : StrEnum ProposalAction where
  value
    | .open => "OPEN"
    | .increase => "INCREASE"
    | .reduce => "REDUCE"
    | .close => "CLOSE"
    | .hold => "HOLD"
  members := [.open, .increase, .reduce, .close, .hold]
  mem_members e := by cases e <;> decide
  nodup_values := by decide

inductive SameDayExitReason where
  | downsideBandExceeded | thesisInvalidated | materialNewEvent | borrowLiquidityAnomaly | hardRiskTrigger
deriving DecidableEq, Repr

instance : StrEnum SameDayExitReason where
  value
    | .downsideBandExceeded => "DOWNSIDE_BAND_EXCEEDED"
    | .thesisInvalidated => "THESIS_INVALIDATED"
    | .materialNewEvent => "MATERIAL_NEW_EVENT"
    | .borrowLiquidityAnomaly => "BORROW_LIQUIDITY_ANOMALY"
    | .hardRiskTrigger => "HARD_RISK_TRIGGER"
  members := [.downsideBandExceeded, .thesisInvalidated, .materialNewEvent, .borrowLiquidityAnomaly, .hardRiskTrigger]
  mem_members e := by cases e <;> decide
  nodup_values := by decide

inductive ProposalReasonCode where
  | technical | fundamental | news | sentiment | valuation | rebalance
deriving DecidableEq, Repr

instance : StrEnum ProposalReasonCode where
  value
    | .technical => "TECHNICAL"
    | .fundamental => "FUNDAMENTAL"
    | .news => "NEWS"
    | .sentiment => "SENTIMENT"
    | .valuation => "VALUATION"
    | .rebalance => "REBALANCE"
  members := [.technical, .fundamental, .news, .sentiment, .valuation, .rebalance]
  mem_members e := by cases e <;> decide
  nodup_values := by decide

inductive RiskRejectionCode where
  | cash | buyingPower | maxSymbols | singleName | longGross | shortGross | totalGross | netExposure | turnover
  | borrow | openOrderConflict | staleSnapshot | sameDayExit | dataConflict | schemaInvalid
deriving DecidableEq, Repr

instance : StrEnum RiskRejectionCode where
  value
    | .cash => "CASH"
    | .buyingPower => "BUYING_POWER"
    | .maxSymbols => "MAX_SYMBOLS"
    | .singleName => "SINGLE_NAME"
    | .longGross => "LONG_GROSS"
    | .shortGross => "SHORT_GROSS"
    | .totalGross => "TOTAL_GROSS"
    | .netExposure => "NET_EXPOSURE"
    | .turnover => "TURNOVER"
    | .borrow => "BORROW"
    | .openOrderConflict => "OPEN_ORDER_CONFLICT"
    | .staleSnapshot => "STALE_SNAPSHOT"
    | .sameDayExit => "SAME_DAY_EXIT"
    | .dataConflict => "DATA_CONFLICT"
    | .schemaInvalid => "SCHEMA_INVALID"
  members := [.cash, .buyingPower, .maxSymbols, .singleName, .longGross, .shortGross, .totalGross, .netExposure,
    .turnover, .borrow, .openOrderConflict, .staleSnapshot, .sameDayExit, .dataConflict, .schemaInvalid]
  mem_members e := by cases e <;> decide
  nodup_values := by decide

/-- The checks of a `confidence`. -/
def checkConfidence (d : Decimal) : Except Failure Unit := do
  require (d.exponent = -4 ∧ 0 ≤ d.value ∧ d.value ≤ 1) "confidence must be a scale-4 Decimal from zero to one"
  rejectNegativeZero "confidence" d

def Wire.confidence : Wire Decimal := Wire.decimal "confidence" 4 0 1 Wire.four_places

/-- A list of enumeration members in a constructor: they are exact by their type. -/
def enums {E : Type} [DecidableEq E] (field : String) (maximum : Nat) (l : List E) : Except Failure Unit :=
  sequence field (fun _ => .ok ()) maximum true l

/-! ### Analyst reports -/

namespace AnalystReport

structure Args (R : Rules) where
  contractMeta : ContractMeta R
  reportId : RunId
  inputId : RunId
  role : AnalystRole
  symbol : String
  status : AnalysisStatus
  summary : String
  observations : List String
  materialClaims : List String
  evidenceRefs : List String
  counterevidenceRefs : List String
  missingEvidence : List String
  risks : List String
  catalysts : List String
  invalidators : List String
  confidence : Decimal
deriving DecidableEq

def postInit {R : Rules} (a : Args R) : Except Failure Unit := do
  R.symbol a.symbol
  R.text "summary" maxTextBytes a.summary
  R.strings "observations" a.observations
  R.strings "material_claims" a.materialClaims
  R.strings "missing_evidence" a.missingEvidence
  R.strings "risks" a.risks
  R.strings "catalysts" a.catalysts
  R.strings "invalidators" a.invalidators
  R.refs "evidence_refs" maxSequenceItems false a.evidenceRefs
  R.refs "counterevidence_refs" maxSequenceItems false a.counterevidenceRefs
  checkConfidence a.confidence
  require (a.status = .valid → a.materialClaims ≠ []) "VALID analyst report requires material claims"
  require (a.status ≠ .valid → a.confidence.value = 0) "INVALID or ABSTAIN analyst report confidence must be zero"

end AnalystReport

abbrev AnalystReport (R : Rules) : Type := Accepted (AnalystReport.postInit (R := R))

def AnalystReport.wire (R : Rules) : Wire (AnalystReport R) :=
  .contract _
    (.field "meta" Args.contractMeta (ContractMeta.wire R) <|
      .field "report_id" Args.reportId (Wire.runId R) <|
      .field "input_id" Args.inputId (Wire.runId R) <|
      .field "role" Args.role (Wire.exactEnum "role") <|
      .field "symbol" Args.symbol (Wire.symbol R) <|
      .field "status" Args.status (Wire.exactEnum "status") <|
      .field "summary" Args.summary (Wire.text R "summary") <|
      .field "observations" Args.observations (Wire.strings R "observations") <|
      .field "material_claims" Args.materialClaims (Wire.strings R "material_claims") <|
      .field "evidence_refs" Args.evidenceRefs (Wire.refs R "evidence_refs" maxSequenceItems false) <|
      .field "counterevidence_refs" Args.counterevidenceRefs
        (Wire.refs R "counterevidence_refs" maxSequenceItems false) <|
      .field "missing_evidence" Args.missingEvidence (Wire.strings R "missing_evidence") <|
      .field "risks" Args.risks (Wire.strings R "risks") <|
      .field "catalysts" Args.catalysts (Wire.strings R "catalysts") <|
      .field "invalidators" Args.invalidators (Wire.strings R "invalidators") <|
      .field "confidence" Args.confidence Wire.confidence .nil)
    (fun ⟨contractMeta, reportId, inputId, role, symbol, status, summary, observations, materialClaims, evidenceRefs,
        counterevidenceRefs, missingEvidence, risks, catalysts, invalidators, confidence, _⟩ =>
      ⟨contractMeta, reportId, inputId, role, symbol, status, summary, observations, materialClaims, evidenceRefs,
        counterevidenceRefs, missingEvidence, risks, catalysts, invalidators, confidence⟩)
    (of_decide_eq_true rfl) (fun _ => rfl) (fun _ => rfl)

/-! ### Investment debates -/

/-- The checks of the number of rounds of a debate and of its end. -/
def checkRounds (roundCount : Int) (complete : Bool) : Except Failure Unit := do
  require (0 ≤ roundCount ∧ roundCount ≤ 2) "round_count must be an exact bounded integer"
  require (complete = decide (roundCount = 2)) "complete debate state requires exactly two rounds"

namespace InvestmentDebateState

structure Args (R : Rules) where
  contractMeta : ContractMeta R
  debateId : RunId
  inputId : RunId
  symbol : String
  bullArguments : List String
  bearArguments : List String
  verifiedClaims : List String
  disputedClaims : List String
  unresolvedConflicts : List String
  roundCount : Int
  complete : Bool
deriving DecidableEq

def postInit {R : Rules} (a : Args R) : Except Failure Unit := do
  R.symbol a.symbol
  R.strings "bull_arguments" a.bullArguments
  R.strings "bear_arguments" a.bearArguments
  R.strings "unresolved_conflicts" a.unresolvedConflicts
  R.refs "verified_claims" maxSequenceItems false a.verifiedClaims
  R.refs "disputed_claims" maxSequenceItems false a.disputedClaims
  checkRounds a.roundCount a.complete
  require (0 < a.roundCount → a.bullArguments ≠ [] ∧ a.bearArguments ≠ [])
    "started investment debate requires bull and bear arguments"

end InvestmentDebateState

abbrev InvestmentDebateState (R : Rules) : Type := Accepted (InvestmentDebateState.postInit (R := R))

def InvestmentDebateState.wire (R : Rules) : Wire (InvestmentDebateState R) :=
  .contract _
    (.field "complete" Args.complete (Wire.exactBool "complete") <|
      .field "meta" Args.contractMeta (ContractMeta.wire R) <|
      .field "debate_id" Args.debateId (Wire.runId R) <|
      .field "input_id" Args.inputId (Wire.runId R) <|
      .field "symbol" Args.symbol (Wire.symbol R) <|
      .field "bull_arguments" Args.bullArguments (Wire.strings R "bull_arguments") <|
      .field "bear_arguments" Args.bearArguments (Wire.strings R "bear_arguments") <|
      .field "verified_claims" Args.verifiedClaims (Wire.refs R "verified_claims" maxSequenceItems false) <|
      .field "disputed_claims" Args.disputedClaims (Wire.refs R "disputed_claims" maxSequenceItems false) <|
      .field "unresolved_conflicts" Args.unresolvedConflicts (Wire.strings R "unresolved_conflicts") <|
      .field "round_count" Args.roundCount (Wire.integer "round_count" 0 2) .nil)
    (fun ⟨complete, contractMeta, debateId, inputId, symbol, bullArguments, bearArguments, verifiedClaims,
        disputedClaims, unresolvedConflicts, roundCount, _⟩ =>
      ⟨contractMeta, debateId, inputId, symbol, bullArguments, bearArguments, verifiedClaims, disputedClaims,
        unresolvedConflicts, roundCount, complete⟩)
    (of_decide_eq_true rfl) (fun _ => rfl) (fun _ => rfl)

/-! ### Conclusions and plans -/

namespace ResearchConclusion

structure Args (R : Rules) where
  contractMeta : ContractMeta R
  conclusionId : RunId
  inputId : RunId
  symbol : String
  rating : ResearchRating
  summary : String
  drivers : List String
  risks : List String
  invalidators : List String
  evidenceRefs : List String
  confidence : Decimal
  status : AnalysisStatus
deriving DecidableEq

def postInit {R : Rules} (a : Args R) : Except Failure Unit := do
  R.symbol a.symbol
  R.text "summary" maxTextBytes a.summary
  R.strings "drivers" a.drivers
  R.strings "risks" a.risks
  R.strings "invalidators" a.invalidators
  R.refs "evidence_refs" maxSequenceItems false a.evidenceRefs
  checkConfidence a.confidence
  require (a.status ≠ .valid → a.confidence.value = 0) "non-VALID conclusion confidence must be zero"

end ResearchConclusion

abbrev ResearchConclusion (R : Rules) : Type := Accepted (ResearchConclusion.postInit (R := R))

def ResearchConclusion.wire (R : Rules) : Wire (ResearchConclusion R) :=
  .contract _
    (.field "meta" Args.contractMeta (ContractMeta.wire R) <|
      .field "conclusion_id" Args.conclusionId (Wire.runId R) <|
      .field "input_id" Args.inputId (Wire.runId R) <|
      .field "symbol" Args.symbol (Wire.symbol R) <|
      .field "rating" Args.rating (Wire.exactEnum "rating") <|
      .field "summary" Args.summary (Wire.text R "summary") <|
      .field "drivers" Args.drivers (Wire.strings R "drivers") <|
      .field "risks" Args.risks (Wire.strings R "risks") <|
      .field "invalidators" Args.invalidators (Wire.strings R "invalidators") <|
      .field "evidence_refs" Args.evidenceRefs (Wire.refs R "evidence_refs" maxSequenceItems false) <|
      .field "confidence" Args.confidence Wire.confidence <|
      .field "status" Args.status (Wire.exactEnum "status") .nil)
    (fun ⟨contractMeta, conclusionId, inputId, symbol, rating, summary, drivers, risks, invalidators, evidenceRefs,
        confidence, status, _⟩ =>
      ⟨contractMeta, conclusionId, inputId, symbol, rating, summary, drivers, risks, invalidators, evidenceRefs,
        confidence, status⟩)
    (of_decide_eq_true rfl) (fun _ => rfl) (fun _ => rfl)

namespace TraderPlan

structure Args (R : Rules) where
  contractMeta : ContractMeta R
  planId : RunId
  inputId : RunId
  symbol : String
  rating : ResearchRating
  reasonCodes : List ProposalReasonCode
  evidenceRefs : List String
  entryBandLow : Option Decimal
  entryBandHigh : Option Decimal
  downsideBand : Option Decimal
  status : AnalysisStatus
deriving DecidableEq

/-- One round of the loop over the bands. -/
def band (field : String) (d : Option Decimal) : Except Failure Unit :=
  require (∀ x ∈ d, x.exponent = -2 ∧ 0 < x.value) (field ++ " must be null or a positive scale-2 Decimal")

def postInit {R : Rules} (a : Args R) : Except Failure Unit := do
  R.symbol a.symbol
  enums "reason_codes" 6 a.reasonCodes
  R.refs "evidence_refs" maxSequenceItems (decide (a.status = .valid)) a.evidenceRefs
  band "entry_band_low" a.entryBandLow
  band "entry_band_high" a.entryBandHigh
  band "downside_band" a.downsideBand
  require (a.entryBandLow = none ↔ a.entryBandHigh = none) "entry band low and high must appear together"
  require (∀ low ∈ a.entryBandLow, ∀ high ∈ a.entryBandHigh, low.value ≤ high.value)
    "entry band low must not exceed high"

end TraderPlan

abbrev TraderPlan (R : Rules) : Type := Accepted (TraderPlan.postInit (R := R))

/-- `price` of `from_wire`: null or a price. -/
def TraderPlan.price (field : String) : Wire (Option Decimal) :=
  (Wire.decimal field 2 0.01 10000000 Nat.zero_lt_two).nullable (fun _ h => nomatch h)

def TraderPlan.wire (R : Rules) : Wire (TraderPlan R) :=
  .contract _
    (.field "reason_codes" Args.reasonCodes
        (Wire.sequence "reason_codes" (Wire.exactEnum "reason_code") 6 true true) <|
      .field "meta" Args.contractMeta (ContractMeta.wire R) <|
      .field "plan_id" Args.planId (Wire.runId R) <|
      .field "input_id" Args.inputId (Wire.runId R) <|
      .field "symbol" Args.symbol (Wire.symbol R) <|
      .field "rating" Args.rating (Wire.exactEnum "rating") <|
      .field "evidence_refs" Args.evidenceRefs (Wire.refs R "evidence_refs" maxSequenceItems false) <|
      .field "entry_band_low" Args.entryBandLow (price "entry_band_low") <|
      .field "entry_band_high" Args.entryBandHigh (price "entry_band_high") <|
      .field "downside_band" Args.downsideBand (price "downside_band") <|
      .field "status" Args.status (Wire.exactEnum "status") .nil)
    (fun ⟨reasonCodes, contractMeta, planId, inputId, symbol, rating, evidenceRefs, entryBandLow, entryBandHigh,
        downsideBand, status, _⟩ =>
      ⟨contractMeta, planId, inputId, symbol, rating, reasonCodes, evidenceRefs, entryBandLow, entryBandHigh,
        downsideBand, status⟩)
    (of_decide_eq_true rfl) (fun _ => rfl) (fun _ => rfl)

/-! ### Risk debates and requests -/

namespace RiskDebateState

structure Args (R : Rules) where
  contractMeta : ContractMeta R
  debateId : RunId
  inputId : RunId
  aggressiveArguments : List String
  conservativeArguments : List String
  neutralArguments : List String
  unresolvedConflicts : List String
  roundCount : Int
  complete : Bool
deriving DecidableEq

def postInit {R : Rules} (a : Args R) : Except Failure Unit := do
  R.strings "aggressive_arguments" a.aggressiveArguments
  R.strings "conservative_arguments" a.conservativeArguments
  R.strings "neutral_arguments" a.neutralArguments
  R.strings "unresolved_conflicts" a.unresolvedConflicts
  checkRounds a.roundCount a.complete
  require (0 < a.roundCount →
      a.aggressiveArguments ≠ [] ∧ a.conservativeArguments ≠ [] ∧ a.neutralArguments ≠ [])
    "started risk debate requires all three viewpoints"

end RiskDebateState

abbrev RiskDebateState (R : Rules) : Type := Accepted (RiskDebateState.postInit (R := R))

def RiskDebateState.wire (R : Rules) : Wire (RiskDebateState R) :=
  .contract _
    (.field "complete" Args.complete (Wire.exactBool "complete") <|
      .field "meta" Args.contractMeta (ContractMeta.wire R) <|
      .field "debate_id" Args.debateId (Wire.runId R) <|
      .field "input_id" Args.inputId (Wire.runId R) <|
      .field "aggressive_arguments" Args.aggressiveArguments (Wire.strings R "aggressive_arguments") <|
      .field "conservative_arguments" Args.conservativeArguments (Wire.strings R "conservative_arguments") <|
      .field "neutral_arguments" Args.neutralArguments (Wire.strings R "neutral_arguments") <|
      .field "unresolved_conflicts" Args.unresolvedConflicts (Wire.strings R "unresolved_conflicts") <|
      .field "round_count" Args.roundCount (Wire.integer "round_count" 0 2) .nil)
    (fun ⟨complete, contractMeta, debateId, inputId, aggressiveArguments, conservativeArguments, neutralArguments,
        unresolvedConflicts, roundCount, _⟩ =>
      ⟨contractMeta, debateId, inputId, aggressiveArguments, conservativeArguments, neutralArguments,
        unresolvedConflicts, roundCount, complete⟩)
    (of_decide_eq_true rfl) (fun _ => rfl) (fun _ => rfl)

namespace PortfolioRequest

structure Args where
  symbol : String
  action : ProposalAction
  side : PositionSide
  targetWeight : Decimal
  confidence : Decimal
  evidenceRefs : List String
  reasonCodes : List ProposalReasonCode
  invalidators : List String
  sameDayExitReason : Option SameDayExitReason
deriving DecidableEq

def postInit (R : Rules) (a : Args) : Except Failure Unit := do
  R.symbol a.symbol
  require (a.targetWeight.exponent = -6 ∧ -0.15 ≤ a.targetWeight.value ∧ a.targetWeight.value ≤ 0.15)
    "target_weight must be a canonical scale-6 Decimal within +/-0.15"
  rejectNegativeZero "target_weight" a.targetWeight
  checkConfidence a.confidence
  R.refs "evidence_refs" maxSequenceItems true a.evidenceRefs
  enums "reason_codes" 6 a.reasonCodes
  R.strings "invalidators" a.invalidators
  require (a.side = .long → 0 < a.targetWeight.value) "LONG request requires positive target weight"
  require (a.side = .short → a.targetWeight.value < 0) "SHORT request requires negative target weight"
  require (a.side = .flat → a.targetWeight.value = 0) "FLAT request requires zero target weight"
  require (a.action = .close → a.side = .flat ∧ a.targetWeight.value = 0) "CLOSE requires FLAT and zero target weight"
  require (a.action = .open ∨ a.action = .increase → a.side ≠ .flat ∧ a.targetWeight.value ≠ 0)
    "OPEN or INCREASE requires directional non-zero target"
  require (a.action ≠ .hold → 0.65 ≤ a.confidence.value) "confidence below 0.65 permits HOLD only"
  require (a.sameDayExitReason ≠ none → a.action = .reduce ∨ a.action = .close)
    "same-day exit reason is valid only for REDUCE or CLOSE"

end PortfolioRequest

abbrev PortfolioRequest (R : Rules) : Type := Accepted (PortfolioRequest.postInit R)

def PortfolioRequest.wire (R : Rules) : Wire (PortfolioRequest R) :=
  .contract _
    (.field "same_day_exit_reason" Args.sameDayExitReason
        ((Wire.exactEnum "same_day_exit_reason").nullable (fun _ h => nomatch h)) <|
      .field "reason_codes" Args.reasonCodes
        (Wire.sequence "reason_codes" (Wire.exactEnum "reason_code") 6 true true) <|
      .field "symbol" Args.symbol (Wire.symbol R) <|
      .field "action" Args.action (Wire.exactEnum "action") <|
      .field "side" Args.side (Wire.exactEnum "side") <|
      .field "target_weight" Args.targetWeight (Wire.decimal "target_weight" 6 (-0.15) 0.15 Wire.six_places) <|
      .field "confidence" Args.confidence Wire.confidence <|
      .field "evidence_refs" Args.evidenceRefs (Wire.refs R "evidence_refs" maxSequenceItems true) <|
      .field "invalidators" Args.invalidators (Wire.strings R "invalidators") .nil)
    (fun ⟨sameDayExitReason, reasonCodes, symbol, action, side, targetWeight, confidence, evidenceRefs, invalidators,
        _⟩ =>
      ⟨symbol, action, side, targetWeight, confidence, evidenceRefs, reasonCodes, invalidators, sameDayExitReason⟩)
    (of_decide_eq_true rfl) (fun _ => rfl) (fun _ => rfl)

/-! ### Proposals and feedback -/

/-- The six versions that a proposal names. -/
structure Versions where
  graphVersion : String
  promptVersion : String
  modelVersion : String
  providerVersion : String
  dataVersion : String
  memoryVersion : String
deriving DecidableEq

/-- The loop over the versions. -/
def Rules.versions (R : Rules) (v : Versions) : Except Failure Unit := do
  R.version "graph_version" v.graphVersion
  R.version "prompt_version" v.promptVersion
  R.version "model_version" v.modelVersion
  R.version "provider_version" v.providerVersion
  R.version "data_version" v.dataVersion
  R.version "memory_version" v.memoryVersion

/-- The fields of the versions of a record, before further ones. -/
def versionFields (R : Rules) {ρ τ : Type} (value : ρ → Versions) (rest : Json.Fields mapping ρ τ) :=
  Json.Fields.field "graph_version" (fun r => (value r).graphVersion) (Wire.version R "graph_version") <|
    .field "prompt_version" (fun r => (value r).promptVersion) (Wire.version R "prompt_version") <|
    .field "model_version" (fun r => (value r).modelVersion) (Wire.version R "model_version") <|
    .field "provider_version" (fun r => (value r).providerVersion) (Wire.version R "provider_version") <|
    .field "data_version" (fun r => (value r).dataVersion) (Wire.version R "data_version") <|
    .field "memory_version" (fun r => (value r).memoryVersion) (Wire.version R "memory_version") rest

/-- The checks of the requests of a proposal. -/
def checkRequests {R : Rules} (requests : List (PortfolioRequest R)) : Except Failure Unit := do
  require (requests.length ≤ 27) "requests must be bounded exact PortfolioRequest values"
  require (requests.map (·.val.symbol)).Nodup "proposal request symbols must be unique"

/-- The checks of the status of a proposal. -/
def checkProposalStatus {R : Rules} (status : AnalysisStatus) (requests : List (PortfolioRequest R)) :
    Except Failure Unit := do
  require (status = .valid → requests ≠ []) "VALID proposal requires at least one request"
  require (status ≠ .valid → requests = []) "INVALID or ABSTAIN proposal must not contain requests"

/-- The checks of the attempt of a proposal and of the proposal that it supersedes. -/
def checkAttempt (attempt : Int) (proposalId : RunId) (supersededProposalId : Option RunId) : Except Failure Unit := do
  require (attempt = 1 ↔ supersededProposalId = none) "attempt 1 has no superseded id; attempt 2 requires one"
  require (supersededProposalId ≠ some proposalId) "proposal cannot supersede itself"

namespace PortfolioProposal

structure Args (R : Rules) where
  contractMeta : ContractMeta R
  proposalId : RunId
  attempt : Int
  supersededProposalId : Option RunId
  analysisInputId : RunId
  universeHash : Hash
  snapshotHash : Hash
  window : AnalysisWindow
  requests : List (PortfolioRequest R)
  versions : Versions
  expirationAt : UtcTimestamp
  status : AnalysisStatus
deriving DecidableEq

def postInit {R : Rules} (a : Args R) : Except Failure Unit := do
  require (1 ≤ a.attempt ∧ a.attempt ≤ 2) "attempt must be an exact bounded integer"
  checkAttempt a.attempt a.proposalId a.supersededProposalId
  checkRequests a.requests
  R.versions a.versions
  checkProposalStatus a.status a.requests

end PortfolioProposal

abbrev PortfolioProposal (R : Rules) : Type := Accepted (PortfolioProposal.postInit (R := R))

def PortfolioProposal.wire (R : Rules) : Wire (PortfolioProposal R) :=
  .contract _
    (.field "superseded_proposal_id" Args.supersededProposalId
        ((Wire.runId R).nullable (Wire.runId_ne_null R)) <|
      .field "requests" Args.requests (Wire.sequence "requests" (PortfolioRequest.wire R) 27 false false) <|
      .field "meta" Args.contractMeta (ContractMeta.wire R) <|
      .field "proposal_id" Args.proposalId (Wire.runId R) <|
      .field "attempt" Args.attempt (Wire.integer "attempt" 1 2) <|
      .field "analysis_input_id" Args.analysisInputId (Wire.runId R) <|
      .field "universe_hash" Args.universeHash (Wire.hash "universe_hash") <|
      .field "snapshot_hash" Args.snapshotHash (Wire.hash "snapshot_hash") <|
      .field "window" Args.window (Wire.exactEnum "window") <|
      versionFields R Args.versions <|
      .field "expiration_at" Args.expirationAt (Wire.timestamp R) <|
      .field "status" Args.status (Wire.exactEnum "status") .nil)
    (fun ⟨supersededProposalId, requests, contractMeta, proposalId, attempt, analysisInputId, universeHash,
        snapshotHash, window, graphVersion, promptVersion, modelVersion, providerVersion, dataVersion, memoryVersion,
        expirationAt, status, _⟩ =>
      ⟨contractMeta, proposalId, attempt, supersededProposalId, analysisInputId, universeHash, snapshotHash, window,
        requests, ⟨graphVersion, promptVersion, modelVersion, providerVersion, dataVersion, memoryVersion⟩,
        expirationAt, status⟩)
    (of_decide_eq_true rfl) (fun _ => rfl) (fun _ => rfl)

namespace RiskRejectionFeedback

structure Args (R : Rules) where
  contractMeta : ContractMeta R
  rejectedProposalId : RunId
  reviewRound : Int
  rejectionCodes : List RiskRejectionCode
  rejectedSymbols : List String
  remainingLimits : RemainingLimits
  constraintsSnapshotHash : Hash
  reviewedAt : UtcTimestamp
deriving DecidableEq

def postInit {R : Rules} (a : Args R) : Except Failure Unit := do
  require (a.reviewRound = 1) "Risk rejection feedback review_round is fixed at 1"
  enums "rejection_codes" 15 a.rejectionCodes
  R.symbols "rejected_symbols" 27 a.rejectedSymbols

end RiskRejectionFeedback

abbrev RiskRejectionFeedback (R : Rules) : Type := Accepted (RiskRejectionFeedback.postInit (R := R))

def RiskRejectionFeedback.wire (R : Rules) : Wire (RiskRejectionFeedback R) :=
  .contract _
    (.field "rejection_codes" Args.rejectionCodes
        (Wire.sequence "rejection_codes" (Wire.exactEnum "rejection_code") 15 true true) <|
      .field "meta" Args.contractMeta (ContractMeta.wire R) <|
      .field "rejected_proposal_id" Args.rejectedProposalId (Wire.runId R) <|
      .field "review_round" Args.reviewRound (Wire.integer "review_round" 1 1) <|
      .field "rejected_symbols" Args.rejectedSymbols (Wire.symbols R "rejected_symbols" 27) <|
      .field "remaining_limits" Args.remainingLimits RemainingLimits.wire <|
      .field "constraints_snapshot_hash" Args.constraintsSnapshotHash (Wire.hash "constraints_snapshot_hash") <|
      .field "reviewed_at" Args.reviewedAt (Wire.timestamp R) .nil)
    (fun ⟨rejectionCodes, contractMeta, rejectedProposalId, reviewRound, rejectedSymbols, remainingLimits,
        constraintsSnapshotHash, reviewedAt, _⟩ =>
      ⟨contractMeta, rejectedProposalId, reviewRound, rejectionCodes, rejectedSymbols, remainingLimits,
        constraintsSnapshotHash, reviewedAt⟩)
    (of_decide_eq_true rfl) (fun _ => rfl) (fun _ => rfl)

end SevenLens.Analysis
