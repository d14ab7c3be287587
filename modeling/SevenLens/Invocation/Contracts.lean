import SevenLens.Analysis.JsonObjects
import SevenLens.Analysis.Proposals
import SevenLens.Library.Table

/-! # Calls of the model

An envelope asks a model for an output of one of six contracts.  The identity of the call is derived from what the
envelope is about, so that a repetition of the call has the same identity.  A claim is what is made durable before
the request, a record with the canonical text of the output what is made durable before the output is returned. -/

namespace SevenLens.Invocation

open Securities Analysis Analysis.Proposals

/-! ### Stages, roles and kinds -/

/-- `EnvelopeStage` and `ModelCallStage`, which have the same values. -/
inductive ModelCallStage where
  | analyst | investmentDebate | researchManager | trader | riskDebate | portfolioManager
deriving DecidableEq, Repr

instance : StrEnum ModelCallStage where
  value
    | .analyst => "ANALYST"
    | .investmentDebate => "INVESTMENT_DEBATE"
    | .researchManager => "RESEARCH_MANAGER"
    | .trader => "TRADER"
    | .riskDebate => "RISK_DEBATE"
    | .portfolioManager => "PORTFOLIO_MANAGER"
  members := [.analyst, .investmentDebate, .researchManager, .trader, .riskDebate, .portfolioManager]
  mem_members e := by cases e <;> decide
  nodup_values := by decide

inductive ModelCallRole where
  | technical | fundamentals | news | sentiment | bull | bear | researchManager | trader | aggressive | conservative
  | neutral | portfolioManager
deriving DecidableEq, Repr

instance : StrEnum ModelCallRole where
  value
    | .technical => "TECHNICAL"
    | .fundamentals => "FUNDAMENTALS"
    | .news => "NEWS"
    | .sentiment => "SENTIMENT"
    | .bull => "BULL"
    | .bear => "BEAR"
    | .researchManager => "RESEARCH_MANAGER"
    | .trader => "TRADER"
    | .aggressive => "AGGRESSIVE"
    | .conservative => "CONSERVATIVE"
    | .neutral => "NEUTRAL"
    | .portfolioManager => "PORTFOLIO_MANAGER"
  members := [.technical, .fundamentals, .news, .sentiment, .bull, .bear, .researchManager, .trader, .aggressive,
    .conservative, .neutral, .portfolioManager]
  mem_members e := by cases e <;> decide
  nodup_values := by decide

/-- The roles of calls, and the retry of the portfolio manager. -/
inductive EnvelopeRole where
  | call (role : ModelCallRole)
  | portfolioManagerRetry
deriving DecidableEq, Repr

/-- `role.value` -/
def EnvelopeRole.value : EnvelopeRole → String
  | .call role => StrEnum.value role
  | .portfolioManagerRetry => "PORTFOLIO_MANAGER_RETRY"

/-- `_ROLE_MAP` -/
def EnvelopeRole.callRole : EnvelopeRole → ModelCallRole
  | .call role => role
  | .portfolioManagerRetry => .portfolioManager

/-- The roles of `_STAGE_ROLE_ROUNDS`. -/
def ModelCallStage.roles : ModelCallStage → List ModelCallRole
  | .analyst => [.technical, .fundamentals, .news, .sentiment]
  | .investmentDebate => [.bull, .bear]
  | .researchManager => [.researchManager]
  | .trader => [.trader]
  | .riskDebate => [.aggressive, .conservative, .neutral]
  | .portfolioManager => [.portfolioManager]

/-- The rounds of `_STAGE_ROLE_ROUNDS`. -/
def ModelCallStage.rounds : ModelCallStage → List Int
  | .investmentDebate | .riskDebate => [1, 2]
  | .analyst | .researchManager | .trader | .portfolioManager => [0]

/-- `OutputContract` and `ModelCallResultKind`, which have the same values. -/
inductive OutputContract where
  | analystReport | debateArgument | researchConclusion | traderPlan | riskArgument | portfolioProposal
deriving DecidableEq, Repr

/-- `_STAGE_CONTRACT` and `_STAGE_RESULT_KIND` -/
def ModelCallStage.contract : ModelCallStage → OutputContract
  | .analyst => .analystReport
  | .investmentDebate => .debateArgument
  | .researchManager => .researchConclusion
  | .trader => .traderPlan
  | .riskDebate => .riskArgument
  | .portfolioManager => .portfolioProposal

/-- The member of an enumeration with a value. -/
def ofValue? (E : Type) [StrEnum E] (s : String) : Option E :=
  (StrEnum.members : List E).find? fun e => StrEnum.value e == s

/-! ### Debate arguments -/

/-- The members of `ProviderStage` that argue. -/
inductive DebateSide where
  | bull | bear
deriving DecidableEq, Repr

instance : StrEnum DebateSide where
  value
    | .bull => "BULL"
    | .bear => "BEAR"
  members := [.bull, .bear]
  mem_members e := by cases e <;> decide
  nodup_values := by decide

namespace DebateArgument

structure Args where
  inputId : RunId
  packetHash : Hash
  symbol : String
  side : DebateSide
  roundNumber : Int
  argument : String
  evidenceRefs : List String
deriving DecidableEq

def postInit (R : Rules) (a : Args) : Except Failure Unit := do
  require (a.roundNumber = 1 ∨ a.roundNumber = 2) "debate round is invalid"
  R.validateSanitizedText "debate argument" 2048 false a.argument
  require (a.evidenceRefs ≠ []) "debate argument requires evidence"

end DebateArgument

abbrev DebateArgument (R : Rules) : Type := Accepted (DebateArgument.postInit R)

namespace DebateArgument

def fields : List String :=
  ["input_id", "packet_hash", "symbol", "side", "round_number", "argument", "evidence_refs"]

/-- The characters of a symbol, which are their own uppercase. -/
def isSymbolChar (c : Char) : Bool := isUpper c || isDigit c || c == '.' || c == '-'

def evidenceRef : Json → Except Failure String
  | .str ref => do
    require (1 ≤ ref.utf8ByteSize ∧ ref.utf8ByteSize ≤ 96) "debate argument evidence is invalid"
    return ref
  | _ => refuse "debate argument evidence is invalid"

/-- The checks of the members of a debate argument. -/
def ofMembers (R : Rules) (inputId packetHash symbol side : String) (roundNumber : Int) (argument : String)
    (refs : List Json) : Except Failure (DebateArgument R) := do
  let packetHash ← parseHash "debate packet" packetHash
  require (1 ≤ symbol.length ∧ symbol.length ≤ 10 ∧ symbol.toList.all isSymbolChar = true)
    "debate argument evidence is invalid"
  require (roundNumber = 1 ∨ roundNumber = 2) "debate argument evidence is invalid"
  let evidenceRefs ← refs.mapM evidenceRef
  require (evidenceRefs ≠ [] ∧ evidenceRefs.length ≤ 64 ∧ evidenceRefs.Nodup) "debate argument evidence is invalid"
  match ofValue? DebateSide side with
  | none => refuse "debate argument evidence is invalid"
  | some side =>
    let inputId ← RunId.fromString inputId
    construct (postInit R) ⟨inputId, packetHash, symbol, side, roundNumber, argument, evidenceRefs⟩

/-- `_debate_argument_from_wire`, and `_parse_debate_argument`, which refuses the same values. -/
def fromWire (R : Rules) : Json → Except Failure (DebateArgument R)
  | .obj members => do
    require (members.map Prod.fst ⊆ fields ∧ fields ⊆ members.map Prod.fst) "debate argument fields are invalid"
    match members.lookup "input_id", members.lookup "packet_hash", members.lookup "symbol", members.lookup "side",
      members.lookup "round_number", members.lookup "argument", members.lookup "evidence_refs" with
    | some (.str inputId), some (.str packetHash), some (.str symbol), some (.str side), some (.int roundNumber),
        some (.str argument), some (.arr refs) => ofMembers R inputId packetHash symbol side roundNumber argument refs
    | _, _, _, _, _, _, _ => refuse "debate argument evidence is invalid"
  | _ => refuse "debate argument fields are invalid"

/-- The case of `_contract_wire` for debate arguments. -/
def toWire {R : Rules} (v : DebateArgument R) : Json :=
  .obj [("input_id", .str v.val.inputId.text), ("packet_hash", .str v.val.packetHash.text), ("symbol", .str v.val.symbol),
    ("side", .str (StrEnum.value v.val.side)), ("round_number", .int v.val.roundNumber), ("argument", .str v.val.argument),
    ("evidence_refs", .arr (v.val.evidenceRefs.map .str))]

end DebateArgument

/-! ### Outputs -/

inductive ModelOutput (R : Rules) where
  | analystReport (v : AnalystReport R)
  | debateArgument (v : DebateArgument R)
  | researchConclusion (v : ResearchConclusion R)
  | traderPlan (v : TraderPlan R)
  | riskArgument (v : RiskArgument R)
  | portfolioProposal (v : Proposals.PortfolioProposal R)

namespace ModelOutput

variable {R : Rules}

/-- The contract of an output: `_RESULT_TYPES` -/
def contract : ModelOutput R → OutputContract
  | .analystReport _ => .analystReport
  | .debateArgument _ => .debateArgument
  | .researchConclusion _ => .researchConclusion
  | .traderPlan _ => .traderPlan
  | .riskArgument _ => .riskArgument
  | .portfolioProposal _ => .portfolioProposal

/-- `_contract_wire` -/
def wire : ModelOutput R → Json
  | .analystReport v => (AnalystReport.wire R).write v
  | .debateArgument v => v.toWire
  | .researchConclusion v => (ResearchConclusion.wire R).write v
  | .traderPlan v => (TraderPlan.wire R).write v
  | .riskArgument v => (RiskArgument.wire R).write v
  | .portfolioProposal v => (Proposals.PortfolioProposal.wire R).write v

/-- `JsonObject.from_value(_contract_wire(value))` -/
def payload (output : ModelOutput R) : Except Failure JsonObject := JsonObject.fromValue (Json.toValue output.wire)

end ModelOutput

/-- `from_wire` of the contract: `_RESULT_PARSERS` -/
def OutputContract.fromWire (R : Rules) : OutputContract → Json → Except Failure (ModelOutput R)
  | .analystReport, j => .analystReport <$> (AnalystReport.wire R).read j
  | .debateArgument, j => .debateArgument <$> DebateArgument.fromWire R j
  | .researchConclusion, j => .researchConclusion <$> (ResearchConclusion.wire R).read j
  | .traderPlan, j => .traderPlan <$> (TraderPlan.wire R).read j
  | .riskArgument, j => .riskArgument <$> (RiskArgument.wire R).read j
  | .portfolioProposal, j => .portfolioProposal <$> (Proposals.PortfolioProposal.wire R).read j

/-- A decoded value as a contract reads it. -/
def wireValue (v : Json.Value) : Except Failure Json := do
  let normalized ← JsonObject.normalize 0 0 v
  return normalized.1

/-- `_parse_output` -/
def parseOutput (R : Rules) (content : String) (contract : OutputContract) : Except Failure (ModelOutput R) :=
  match Json.loads .strict content with
  | none => refuse "model output is not JSON"
  | some value => do
    let _ ← JsonObject.fromValue value
    let j ← wireValue value
    contract.fromWire R j

/-! ### Claims -/

inductive ProviderKind where
  | agnes | openaiCompatible
deriving DecidableEq, Repr

/-- `derive_model_call_id` of the only route. -/
def Rules.deriveModelCallId (R : Rules) (inputId contextId : RunId) (stage : ModelCallStage) (role : ModelCallRole)
    (roundNumber : Int) : RunId :=
  R.deriveRunId "seven-lens.p3e.model-call.v1"
    [inputId.text, contextId.text, StrEnum.value stage, StrEnum.value role, toString roundNumber, "1"]

def isModelChar (c : Char) : Bool := isAlnum c || c == '.' || c == '_' || c == ':' || c == '-'

/-- `_valid_generic_model_id` -/
def validGenericModelId (model : String) : Bool :=
  let segments := model.splitOn "/"
  decide (1 ≤ model.length) && decide (model.length ≤ 128) && decide (segments.length ≤ 2) &&
    segments.all fun segment => segment != "" && segment != "." && segment != ".." && segment.toList.all isModelChar

def policyPrefix : String := "analysis-route-v1:"

/-- `_valid_generic_policy_id` -/
def validGenericPolicyId (policy : String) : Bool :=
  policyPrefix.toList.isPrefixOf policy.toList && decide (policy.length = policyPrefix.length + 64) &&
    (policy.toList.drop policyPrefix.length).all isHex

def legacyEndpointPolicyId : String := "p3e-agnes-2.5-flash-only-v1"

/-- `_validate_route_identity` -/
def validRouteIdentity : ProviderKind → String → String → Bool
  | .agnes, model, policy => model == "agnes-2.5-flash" && policy == legacyEndpointPolicyId
  | .openaiCompatible, model, policy => validGenericModelId model && validGenericPolicyId policy

namespace ModelCallClaim

structure Args where
  callId : RunId
  runId : RunId
  inputId : RunId
  contextId : RunId
  stage : ModelCallStage
  role : ModelCallRole
  roundNumber : Int
  provider : ProviderKind
  model : String
  endpointPolicyId : String
  promptTemplateHash : Hash
  requestEnvelopeHash : Hash
deriving DecidableEq

/-- The checks that claims and records share. -/
def closure (R : Rules) (subject : String) (a : Args) : Except Failure Unit := do
  require (0 ≤ a.roundNumber ∧ a.roundNumber ≤ 2) "model-call audit round number is invalid"
  require (a.role ∈ a.stage.roles ∧ a.roundNumber ∈ a.stage.rounds)
    ("model-call " ++ subject ++ " stage role round closure is invalid")
  require (a.callId = Rules.deriveModelCallId R a.inputId a.contextId a.stage a.role a.roundNumber)
    ("model-call " ++ subject ++ " identity is invalid")
  require (validRouteIdentity a.provider a.model a.endpointPolicyId = true)
    ("model-call " ++ subject ++ " provider is invalid")

def postInit (R : Rules) (a : Args) : Except Failure Unit := closure R "claim" a

end ModelCallClaim

abbrev ModelCallClaim (R : Rules) : Type := Accepted (ModelCallClaim.postInit R)

/-! ### Records -/

inductive ModelCallOutcome where
  | success | failure
deriving DecidableEq, Repr

inductive ModelCallErrorCode where
  | none | config | auth | permanent | rateLimit | transient | timeout | protocol | schema | oversize | deadline
deriving DecidableEq, Repr

namespace ModelCallAuditRecord

/-- The fields of the claim, and those of the attempt. -/
structure Args where
  claim : ModelCallClaim.Args
  responseHash : Option String
  tokenCountsTrusted : Bool
  inputTokens : Option Int
  outputTokens : Option Int
  latencyMs : Int
  startedAt : UtcTimestamp
  completedAt : UtcTimestamp
  outcome : ModelCallOutcome
  errorCode : ModelCallErrorCode
deriving DecidableEq

def isTokenCount (n : Int) : Prop := 0 ≤ n ∧ n ≤ 1000000

instance (n : Int) : Decidable (isTokenCount n) := inferInstanceAs (Decidable (_ ∧ _))

/-- The microseconds of an attempt. -/
def elapsed (a : Args) : Nat := a.completedAt.micros - a.startedAt.micros

/-- `milliseconds` is `timedelta.total_seconds() * 1_000` for a number of microseconds, which is computed with floats. -/
def postInit (R : Rules) (milliseconds : Nat → ℚ) (a : Args) : Except Failure Unit := do
  ModelCallClaim.closure R "audit" a.claim
  require (∀ h ∈ a.responseHash, h.length = 64 ∧ h.toList.all isHex = true) "model-call audit response hash is invalid"
  require (∀ n ∈ a.inputTokens, isTokenCount n) "model-call audit input token count is invalid"
  require (∀ n ∈ a.outputTokens, isTokenCount n) "model-call audit output token count is invalid"
  require (a.tokenCountsTrusted = (a.inputTokens.isSome && a.outputTokens.isSome))
    "model-call audit trusted token counts are inconsistent"
  require (0 ≤ a.latencyMs ∧ a.latencyMs ≤ 900000) "model-call audit latency is invalid"
  require (a.startedAt < a.completedAt) "model-call audit timestamps are invalid"
  require (|milliseconds (elapsed a) - a.latencyMs| ≤ 1) "model-call audit latency does not match its timestamps"
  match a.outcome with
  | .success => do
    require (a.errorCode = .none) "model-call audit outcome is inconsistent"
    require (a.responseHash ≠ none) "model-call audit success requires a response hash"
  | .failure => require (a.errorCode ≠ .none) "model-call audit outcome is inconsistent"

end ModelCallAuditRecord

abbrev ModelCallAuditRecord (R : Rules) (milliseconds : Nat → ℚ) : Type :=
  Accepted (ModelCallAuditRecord.postInit R milliseconds)

/-- `to_claim` -/
def ModelCallAuditRecord.toClaim {R : Rules} {milliseconds : Nat → ℚ} (record : ModelCallAuditRecord R milliseconds) :
    Except Failure (ModelCallClaim R) := construct (ModelCallClaim.postInit R) record.val.claim

/-! ### Results -/

namespace CanonicalModelCallResult

structure Args where
  callId : RunId
  kind : OutputContract
  resultHash : Hash
  payload : JsonObject

def postInit (R : Rules) (a : Args) : Except Failure Unit := do
  require (R.sha256 a.payload.canonical = a.resultHash) "model-call result hash does not match canonical payload"
  match a.payload.toDict with
  | none => refuse "canonical JsonObject did not decode to an object"
  | some value =>
    let j ← wireValue value
    let parsed ← a.kind.fromWire R j
    let payload ← parsed.payload
    require (payload.canonical = a.payload.canonical) "model-call result payload is not the exact parsed contract"

end CanonicalModelCallResult

abbrev CanonicalModelCallResult (R : Rules) : Type := Accepted (CanonicalModelCallResult.postInit R)

/-- `from_contract` -/
def CanonicalModelCallResult.fromContract {R : Rules} (callId : RunId) (kind : OutputContract) (value : ModelOutput R) :
    Except Failure (CanonicalModelCallResult R) := do
  require (value.contract = kind) "model-call result contract type is invalid"
  let payload ← value.payload
  construct (CanonicalModelCallResult.postInit R) ⟨callId, kind, R.sha256 payload.canonical, payload⟩

namespace StoredModelCallAttempt

structure Args (R : Rules) (milliseconds : Nat → ℚ) where
  record : ModelCallAuditRecord R milliseconds
  result : Option (CanonicalModelCallResult R)

def postInit {R : Rules} {milliseconds : Nat → ℚ} (a : Args R milliseconds) : Except Failure Unit :=
  match a.record.val.outcome, a.result with
  | .success, some result =>
    require (result.val.callId = a.record.val.claim.callId ∧ result.val.kind = a.record.val.claim.stage.contract)
      "model-call audit result identity is invalid"
  | .success, none => refuse "successful model-call audit requires canonical result authority"
  | .failure, some _ => refuse "failed model-call audit cannot carry result authority"
  | .failure, none => .ok ()

end StoredModelCallAttempt

abbrev StoredModelCallAttempt (R : Rules) (milliseconds : Nat → ℚ) : Type :=
  Accepted (@StoredModelCallAttempt.postInit R milliseconds)

end SevenLens.Invocation
