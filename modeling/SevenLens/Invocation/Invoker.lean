import SevenLens.Invocation.Contracts
import SevenLens.Library.Prog
import Mathlib.Data.Rat.Floor

/-! # The audited invoker

An invocation claims its call in the database, sends the request, makes the outcome durable and only then returns the
output.  Who finds the call claimed does not send a request; who finds it recorded answers from the record.  The
claim and the record of a call are rows that are written by two functions of the database, each in a transaction of
its own. -/

namespace SevenLens.Invocation

open Securities Analysis Analysis.Proposals Calls

/-! ### Envelopes -/

/-- What one invocation of the model may observe.  The sections are their canonical texts. -/
structure SanitizedProviderEnvelope where
  stage : ModelCallStage
  role : EnvelopeRole
  roundNumber : Option Int
  runId : RunId
  inputId : RunId
  outputId : RunId
  producerVersion : String
  symbol : Option String
  attempt : Option Int
  supersededProposalId : Option RunId
  supersededProposalHash : Option Hash
  contextId : Option RunId
  previousContextId : Option RunId
  bundleId : Option RunId
  packetHash : Option Hash
  snapshotHash : Hash
  projectedSnapshotHash : Hash
  contextHash : Option Hash
  bundleHash : Option Hash
  universeHash : Hash
  createdAt : UtcTimestamp
  deadline : UtcTimestamp
  window : Option AnalysisWindow
  allowedSymbols : List String
  citationIds : List String
  portfolioSnapshot : String
  untrustedData : String
  priorOutputs : List String
  feedback : Option String
  versions : Versions
  promptTemplateId : String
  promptTemplateHash : Hash
  envelopeHash : Hash

/-- The route of the analysis.  `routeModelVersion` is missing when the model has no version text. -/
structure AnalysisProviderConfig where
  packageDefault : Bool
  modelId : String
  endpointPolicyId : String
  routeModelVersion : Option String
  maxOutputTokens : Nat

namespace AnalysisProviderConfig

def routeProviderKind (c : AnalysisProviderConfig) : ProviderKind := if c.packageDefault then .agnes else .openaiCompatible

def routePolicyId (c : AnalysisProviderConfig) : String :=
  if c.packageDefault then legacyEndpointPolicyId else c.endpointPolicyId

def routeProviderVersion (c : AnalysisProviderConfig) : String :=
  if c.packageDefault then "agnes.1" else "openai-compatible.1"

end AnalysisProviderConfig

/-- `P3E_PROMPT_VERSION` -/
def promptVersion : String := "p3e.1"

/-- `validate_configured_route` -/
def OnConfiguredRoute (e : SanitizedProviderEnvelope) (c : AnalysisProviderConfig) : Prop :=
  e.versions.promptVersion = promptVersion ∧ e.versions.providerVersion = c.routeProviderVersion ∧
    some e.versions.modelVersion = c.routeModelVersion

instance (e : SanitizedProviderEnvelope) (c : AnalysisProviderConfig) : Decidable (OnConfiguredRoute e c) :=
  inferInstanceAs (Decidable (_ ∧ _))

/-! ### Outputs that answer an envelope -/

section Outputs

variable {R : Rules} (e : SanitizedProviderEnvelope)

/-- The metadata that outputs repeat of the envelope. -/
def RepeatsMeta (runId : RunId) (m : ContractMeta R) : Prop :=
  m.val.runId = runId ∧ m.val.createdAt = e.createdAt ∧ m.val.producerVersion = e.producerVersion

/-- The exposure that an emergency forbids. -/
def AddsExposure (request : PortfolioRequest R) : Prop :=
  request.val.action = .open ∨ request.val.action = .increase

instance (runId : RunId) (m : ContractMeta R) : Decidable (RepeatsMeta e runId m) := inferInstanceAs (Decidable (_ ∧ _))

instance (request : PortfolioRequest R) : Decidable (AddsExposure request) := inferInstanceAs (Decidable (_ ∨ _))

/-- `_validate_output` -/
def validateOutput : ModelOutput R → Except Failure Unit
  | .analystReport v => do
    let some expectedRole := ofValue? AnalystRole e.role.value | refuse "analyst role is invalid"
    require (RepeatsMeta e e.runId v.val.contractMeta ∧ v.val.reportId = e.outputId ∧ v.val.inputId = e.inputId ∧
      v.val.role = expectedRole ∧ some v.val.symbol = e.symbol ∧ v.val.evidenceRefs ⊆ e.citationIds ∧
      v.val.counterevidenceRefs ⊆ e.citationIds) "analyst output identity or evidence is invalid"
  | .debateArgument v => do
    let some expectedSide := ofValue? DebateSide e.role.value | refuse "debate side is invalid"
    require (v.val.inputId = e.inputId ∧ some v.val.packetHash = e.packetHash ∧ some v.val.symbol = e.symbol ∧
      v.val.side = expectedSide ∧ some v.val.roundNumber = e.roundNumber ∧ v.val.evidenceRefs ⊆ e.citationIds)
      "debate output identity or evidence is invalid"
  | .researchConclusion v =>
    require (RepeatsMeta e e.runId v.val.contractMeta ∧ v.val.conclusionId = e.outputId ∧ v.val.inputId = e.inputId ∧
      some v.val.symbol = e.symbol ∧ v.val.evidenceRefs ⊆ e.citationIds)
      "research output identity or evidence is invalid"
  | .traderPlan v =>
    require (RepeatsMeta e e.runId v.val.contractMeta ∧ v.val.planId = e.outputId ∧ v.val.inputId = e.inputId ∧
      some v.val.symbol = e.symbol ∧ v.val.evidenceRefs ⊆ e.citationIds)
      "trader output identity or evidence is invalid"
  | .riskArgument v => do
    let some expectedViewpoint := ofValue? RiskViewpoint e.role.value | refuse "risk viewpoint is invalid"
    require (RepeatsMeta e e.runId v.val.contractMeta ∧ v.val.argumentId = e.outputId ∧
      some v.val.contextId = e.contextId ∧ some v.val.bundleId = e.bundleId ∧ some v.val.bundleHash = e.bundleHash ∧
      v.val.viewpoint = expectedViewpoint ∧ some v.val.roundNumber = e.roundNumber ∧
      v.val.producerVersion = e.producerVersion ∧ v.val.evidenceRefs ⊆ e.citationIds)
      "risk output identity or evidence is invalid"
  | .portfolioProposal v => do
    require (e.attempt = some 1 ∨ e.attempt = some 2) "portfolio output attempt identity is invalid"
    require (RepeatsMeta e e.outputId v.val.contractMeta ∧ v.val.proposalId = e.outputId ∧
      some v.val.contextId = e.contextId ∧ some v.val.bundleId = e.bundleId ∧ some v.val.bundleHash = e.bundleHash ∧
      some v.val.contextHash = e.contextHash ∧ v.val.snapshotHash = e.snapshotHash ∧
      v.val.universeHash = e.universeHash ∧ some v.val.window = e.window ∧ some v.val.attempt = e.attempt ∧
      v.val.versions = e.versions ∧ v.val.expirationAt ≤ e.deadline ∧
      (∀ request ∈ v.val.requests, request.val.symbol ∈ e.allowedSymbols) ∧
      ∀ request ∈ v.val.requests, request.val.evidenceRefs ⊆ e.citationIds)
      "portfolio output identity or evidence is invalid"
    require (e.window = some .emergency → ∀ request ∈ v.val.requests, ¬ AddsExposure request)
      "portfolio emergency output cannot add exposure"
    require (v.val.supersededProposalId = e.supersededProposalId) "portfolio output retry lineage is invalid"

end Outputs

/-! ### Requests and responses -/

/-- The texts of a prompt, in their order: system, developer and user. -/
structure BuiltModelPrompt where
  systemText : String
  developerText : String
  userText : String

structure JsonModelRequest where
  callId : RunId
  messages : List String
  deadline : UtcTimestamp
  maxOutputTokens : Nat

/-- The checks of `JsonModelMessage` and `JsonModelRequest`. -/
def JsonModelRequest.check (r : JsonModelRequest) : Except Failure Unit := do
  require (∀ text ∈ r.messages, text ≠ "" ∧ text.utf8ByteSize ≤ 131072 ∧ hasNul text = false)
    "model message content is invalid"
  require (1 ≤ r.maxOutputTokens ∧ r.maxOutputTokens ≤ 65536) "model request output token limit is invalid"

structure JsonModelResponse where
  providerResponseId : String
  modelId : String
  content : String
  responseHash : String
  promptTokens : Int
  completionTokens : Int
  totalTokens : Int

/-- `_RESPONSE_ID` -/
def responseIdPattern : Pattern := .cat [.cls isAlnum, .upTo 127 isRecordChar]

/-- `JsonModelResponse.__post_init__` -/
def JsonModelResponse.postInit (r : JsonModelResponse) : Except Failure Unit := do
  require (responseIdPattern.fullmatch r.providerResponseId = true) "model response identity is invalid"
  require (r.modelId ≠ "") "model response model identity is invalid"
  require (r.content ≠ "" ∧ r.content.utf8ByteSize ≤ 131072) "model response content is invalid"
  require (r.responseHash.length = 64 ∧ r.responseHash.toList.all isHex = true) "model response hash is invalid"
  require (∀ n ∈ [r.promptTokens, r.completionTokens, r.totalTokens], 0 ≤ n ∧ n ≤ 10000000)
    "model response token counts are invalid"
  require (r.totalTokens = r.promptTokens + r.completionTokens) "model response token counts are inconsistent"

inductive ModelTransportErrorCode where
  | config | auth | permanent | rateLimit | transient | timeout | protocol | schema | oversize | deadline | audit
deriving DecidableEq, Repr

/-- The constructors of `ModelInvocationError` and `ModelTransportError` replace the code of a deadline. -/
def ModelTransportErrorCode.normalized : ModelTransportErrorCode → ModelTransportErrorCode
  | .deadline => .timeout
  | code => code

/-- `_TRANSPORT_AUDIT_CODE` of a normalized code other than that of the audit. -/
def ModelTransportErrorCode.auditCode : ModelTransportErrorCode → ModelCallErrorCode
  | .config => .config
  | .auth => .auth
  | .permanent => .permanent
  | .rateLimit => .rateLimit
  | .transient => .transient
  | .timeout | .deadline | .audit => .timeout
  | .protocol => .protocol
  | .schema => .schema
  | .oversize => .oversize

/-- `_AUDIT_TRANSPORT_CODE` -/
def ModelCallErrorCode.transportCode : ModelCallErrorCode → Option ModelTransportErrorCode
  | .none => .none
  | .config => some .config
  | .auth => some .auth
  | .permanent => some .permanent
  | .rateLimit => some .rateLimit
  | .transient => some .transient
  | .timeout | .deadline => some .timeout
  | .protocol => some .protocol
  | .schema => some .schema
  | .oversize => some .oversize

/-! ### The database -/

/-- A row of `model_call_claims`.  It is closed at `closedAt`. -/
structure ClaimRow where
  claim : ModelCallClaim.Args
  claimedAt : Nat
  closedAt : Option Nat
deriving DecidableEq

/-- A row of `model_call_audits`: the record, and the kind, hash and text of the result. -/
structure AuditRow where
  record : ModelCallAuditRecord.Args
  authority : Option (OutputContract × Hash × String)
deriving DecidableEq

def ClaimRow.callId (r : ClaimRow) : RunId := r.claim.callId

def AuditRow.callId (r : AuditRow) : RunId := r.record.claim.callId

structure AuditDb where
  claims : Table ClaimRow.callId
  audits : Table AuditRow.callId

def AuditDb.empty : AuditDb := ⟨.empty, .empty⟩

inductive ModelCallClaimDecision where
  | claimed | inProgress | replay
deriving DecidableEq, Repr

/-- The route that the functions of the database accept. -/
def databaseRoute (a : ModelCallClaim.Args) : Bool :=
  let first : Pattern := .cat [.cls isAlnum, .upTo 126 isModelChar]
  let policy : Pattern := .cat [.lit policyPrefix, .between 64 64 isHex]
  match a.provider with
  | .agnes => a.model == "agnes-2.5-flash" && a.endpointPolicyId == legacyEndpointPolicyId
  | .openaiCompatible => decide (a.model.length ≤ 128) &&
      (first.fullmatch a.model || (Pattern.cat [first, .lit "/", first]).fullmatch a.model) &&
      policy.fullmatch a.endpointPolicyId

/-- `claim_model_call_attempt`, issued at `now`. -/
def AuditDb.claimModelCallAttempt (db : AuditDb) (now : Nat) (a : ModelCallClaim.Args) :
    Except Failure (ModelCallClaimDecision × AuditDb) := do
  require (databaseRoute a = true) "model-call claim route identity is invalid"
  match db.claims.get a.callId with
  | some existing =>
    require (existing.claim = a) "model-call claim identity collision"
    return (if existing.closedAt.isSome then .replay else .inProgress, db)
  | none => return (.claimed, { db with claims := db.claims.add ⟨a, now, none⟩ })

/-- `register_model_call_attempt`, issued at `now`.  `clock` is the time at which it runs, and `isAuthority` what it
asks of the text of a result besides its size and its digest. -/
def AuditDb.registerModelCallAttempt (db : AuditDb) (R : Rules) (isAuthority : String → Bool) (now clock : Nat)
    (row : AuditRow) : Except Failure (Bool × AuditDb) := do
  let a := row.record
  require (a.claim.callId = Rules.deriveModelCallId R a.claim.inputId a.claim.contextId a.claim.stage a.claim.role
    a.claim.roundNumber) "model-call audit identity is invalid"
  require (databaseRoute a.claim = true) "model-call audit route identity is invalid"
  match db.claims.get a.claim.callId with
  | none => refuse "model-call attempt has no exact open claim"
  | some claim =>
    require (claim.claim = a.claim) "model-call attempt has no exact open claim"
    require (a.completedAt.micros ≤ clock ∧
      |(a.completedAt.micros : Int) - a.startedAt.micros - 1000 * a.latencyMs| ≤ 1000) "model-call audit timing is invalid"
    require (∀ x ∈ row.authority, 2 ≤ x.2.2.utf8ByteSize ∧ x.2.2.utf8ByteSize ≤ 65536 ∧ isAuthority x.2.2 = true ∧
      R.sha256 x.2.2 = x.2.1) "model-call result authority is invalid"
    match db.audits.get a.claim.callId with
    | some existing =>
      require (existing = row) "model-call audit identity collision"
      return (false, db)
    | none =>
      require (claim.closedAt = none) "closed model-call claim has no audit authority"
      require (claim.claimedAt ≤ now) "model-call claim mutation is not legal"
      return (true, { claims := db.claims.put { claim with closedAt := some now }, audits := db.audits.add row })

/-! ### The program -/

/-- What the invoker calls: the statements of the database, the clock and the transport. -/
inductive Call where
  | select (callId : RunId)
  | claim (a : ModelCallClaim.Args)
  | register (row : AuditRow)
  | now
  | execute (request : JsonModelRequest)

/-- The answers.  An answer of the transport that is not a response is `none`. -/
abbrev calls : Sig where
  Call := Call
  Ans
    | .select _ => Option AuditRow
    | .claim _ => ModelCallClaimDecision
    | .register _ => Bool
    | .now => UtcTimestamp
    | .execute _ => Option JsonModelResponse

/-- `ModelInvocationError`, `ModelTransportError` and any other exception. -/
inductive Raised where
  | invocation (code : ModelTransportErrorCode)
  | transport (code : ModelTransportErrorCode)
  | failed (e : Failure)

abbrev Invoke (α : Type) : Type := Prog calls Raised α

/-- `raise ModelInvocationError(code)` -/
def fail {α : Type} (code : ModelTransportErrorCode) : Invoke α := .raise (.invocation code.normalized)

/-- A computation of the program itself. -/
def compute {α : Type} (x : Except Failure α) : Invoke α := .ofExcept (x.mapError .failed)

/-- `try: … except Exception: raise ModelInvocationError(ModelTransportErrorCode.AUDIT)` -/
def audited {α : Type} (p : Invoke α) : Invoke α := p.tryCatch fun _ => fail .audit

/-- What the invoker computes with the envelope, besides what is modelled. -/
structure Services where
  /-- `validate_integrity` -/
  validateIntegrity : SanitizedProviderEnvelope → Bool
  /-- `build_model_prompt` -/
  buildModelPrompt : SanitizedProviderEnvelope → OutputContract → Option BuiltModelPrompt
  /-- `timedelta.total_seconds() * 1_000` for a number of microseconds -/
  milliseconds : Nat → ℚ

variable {R : Rules} (s : Services)

/-- The row of an attempt. -/
def rowOf {milliseconds : Nat → ℚ} (attempt : StoredModelCallAttempt R milliseconds) : AuditRow where
  record := attempt.val.record.val
  authority := attempt.val.result.map fun result => (result.val.kind, result.val.resultHash, result.val.payload.canonical)

/-- `_stored_attempt` -/
def storedAttempt (R : Rules) (milliseconds : Nat → ℚ) (row : AuditRow) :
    Except Failure (StoredModelCallAttempt R milliseconds) := do
  let record ← construct (ModelCallAuditRecord.postInit R milliseconds) row.record
  match row.authority with
  | none => construct StoredModelCallAttempt.postInit ⟨record, none⟩
  | some authority =>
    let payload ← JsonObject.construct authority.2.2
    let result ← construct (CanonicalModelCallResult.postInit R) ⟨row.callId, authority.1, authority.2.1, payload⟩
    construct StoredModelCallAttempt.postInit ⟨record, some result⟩

/-- `PostgresModelCallAuditRepository.load` -/
def load (R : Rules) (callId : RunId) : Invoke (Option (StoredModelCallAttempt R s.milliseconds)) := do
  match ← Prog.perform (S := calls) (.select callId) with
  | none => return none
  | some row => some <$> compute (storedAttempt R s.milliseconds row)

/-- A `ModelCallClaimResult`: a replay has the attempt. -/
inductive ModelCallClaimResult (R : Rules) (milliseconds : Nat → ℚ) where
  | claimed
  | inProgress
  | replay (attempt : StoredModelCallAttempt R milliseconds)

/-- `PostgresModelCallAuditRepository.claim` -/
def claim (c : ModelCallClaim R) : Invoke (ModelCallClaimResult R s.milliseconds) := do
  match ← Prog.perform (S := calls) (.claim c.val) with
  | .claimed => return .claimed
  | .inProgress => return .inProgress
  | .replay =>
    match ← load s R c.val.callId with
    | some attempt => return .replay attempt
    | none => compute (refuse "model-call claim replay authority is invalid")

/-- `_audit_persist`, with `PostgresModelCallAuditRepository.persist` -/
def auditPersist (record : ModelCallAuditRecord R s.milliseconds) (result : Option (CanonicalModelCallResult R)) :
    Invoke Unit :=
  audited do
    let attempt ← compute (construct StoredModelCallAttempt.postInit ⟨record, result⟩)
    let persisted ← Prog.perform (S := calls) (.register (rowOf attempt))
    if persisted then return ()
    else
      let existing ← load s R record.val.claim.callId
      compute (require (existing.map rowOf = some (rowOf attempt)) "model-call audit collision")

/-- `_timestamp` -/
def timestamp : Invoke UtcTimestamp := audited (Prog.perform (S := calls) .now)

/-- The instant a microsecond later. -/
@[irreducible] def nextInstant (t : UtcTimestamp) : Except Failure UtcTimestamp := (t.shift 1).mapError .raised

/-- `_after` -/
def after (t : UtcTimestamp) : Invoke UtcTimestamp := compute (nextInstant t)

/-- `_completed` -/
def completed (startedAt : UtcTimestamp) : Invoke UtcTimestamp := do
  let completedAt ← timestamp
  if startedAt < completedAt then return completedAt else after startedAt

/-- `_record` -/
def recordOf (c : ModelCallClaim R) (startedAt completedAt : UtcTimestamp) (outcome : ModelCallOutcome)
    (errorCode : ModelCallErrorCode) (response : Option JsonModelResponse) :
    Except Failure (ModelCallAuditRecord R s.milliseconds) :=
  let fitting := response.filter fun r => decide (max r.promptTokens r.completionTokens ≤ 1000000)
  construct (ModelCallAuditRecord.postInit R s.milliseconds)
    { claim := c.val
      responseHash := response.map (·.responseHash)
      tokenCountsTrusted := fitting.isSome
      inputTokens := fitting.map (·.promptTokens)
      outputTokens := fitting.map (·.completionTokens)
      latencyMs := ⌊s.milliseconds (completedAt.micros - startedAt.micros)⌋
      startedAt := startedAt
      completedAt := completedAt
      outcome := outcome
      errorCode := errorCode }

/-- `_persist_failure` -/
def persistFailure (c : ModelCallClaim R) (startedAt completedAt : UtcTimestamp) (errorCode : ModelCallErrorCode)
    (response : Option JsonModelResponse) : Invoke Unit := do
  let record ← audited (compute (recordOf s c startedAt completedAt .failure errorCode response))
  auditPersist s record none

/-- A failure that is made durable before it is raised. -/
def failWith {α : Type} (c : ModelCallClaim R) (startedAt completedAt : UtcTimestamp) (errorCode : ModelCallErrorCode)
    (response : Option JsonModelResponse) (code : ModelTransportErrorCode) : Invoke α := do
  persistFailure s c startedAt completedAt errorCode response
  fail code

variable (config : AnalysisProviderConfig) (e : SanitizedProviderEnvelope) (contract : OutputContract)

/-- `_validate_request` -/
def validateRequest : Invoke Unit :=
  if s.validateIntegrity e = true ∧ OnConfiguredRoute e config ∧ e.stage.contract = contract then return ()
  else fail .schema

/-- The claim that is derived of an envelope. -/
def claimArgs (R : Rules) : ModelCallClaim.Args :=
  let contextId := e.contextId.getD e.inputId
  let roundNumber := e.roundNumber.getD 0
  { callId := Rules.deriveModelCallId R e.inputId contextId e.stage e.role.callRole roundNumber
    runId := e.runId
    inputId := e.inputId
    contextId := contextId
    stage := e.stage
    role := e.role.callRole
    roundNumber := roundNumber
    provider := config.routeProviderKind
    model := config.modelId
    endpointPolicyId := config.routePolicyId
    promptTemplateHash := e.promptTemplateHash
    requestEnvelopeHash := e.envelopeHash }

/-- `claim_for`, whose failures `invoke` replaces. -/
def claimFor (R : Rules) : Invoke (ModelCallClaim R) := do
  validateRequest s config e contract
  match construct (ModelCallClaim.postInit R) (claimArgs config e R) with
  | .ok c => return c
  | .error _ => fail .schema

/-- `_replay` -/
def replay (attempt : StoredModelCallAttempt R s.milliseconds) (c : ModelCallClaim R) : Invoke (ModelOutput R) := do
  let recorded ← audited (compute (ModelCallAuditRecord.toClaim attempt.val.record))
  if recorded.val ≠ c.val then fail .audit
  else
    let now ← timestamp
    if e.deadline < now then fail .timeout
    else if attempt.val.record.val.outcome = .failure then
      match attempt.val.record.val.errorCode.transportCode with
      | none => fail .audit
      | some code => fail code
    else
      match attempt.val.result with
      | none => fail .audit
      | some result =>
        if result.val.kind ≠ contract then fail .audit
        else
          audited <| compute do
            let output ← parseOutput R result.val.payload.canonical contract
            validateOutput e output
            return output

/-- What is done with a response. -/
def conclude (c : ModelCallClaim R) (startedAt completedAt : UtcTimestamp) :
    Option JsonModelResponse → Invoke (ModelOutput R)
  | none => failWith s c startedAt completedAt .protocol none .protocol
  | some response => do
    if response.postInit ≠ .ok () then failWith s c startedAt completedAt .protocol none .protocol
    else if response.modelId ≠ config.modelId then failWith s c startedAt completedAt .protocol (some response) .protocol
    else if e.deadline < completedAt then failWith s c startedAt completedAt .timeout (some response) .timeout
    else if 65536 < response.content.utf8ByteSize then
      failWith s c startedAt completedAt .oversize (some response) .oversize
    else
      let parsed : Except Failure (ModelOutput R × CanonicalModelCallResult R) := do
        let output ← parseOutput R response.content contract
        validateOutput e output
        let result ← CanonicalModelCallResult.fromContract c.val.callId contract output
        return (output, result)
      match parsed with
      | .error _ => failWith s c startedAt completedAt .schema (some response) .schema
      | .ok parsed => do
        let record ← audited (compute (recordOf s c startedAt completedAt .success .none (some response)))
        auditPersist s record (some parsed.2)
        return parsed.1

/-- The handlers of the exceptions of the transport. -/
def transportFailed {α : Type} (c : ModelCallClaim R) (startedAt : UtcTimestamp) : Raised → Invoke α
  | .transport code => do
    let completedAt ← completed startedAt
    if code.normalized = .audit then fail .audit
    else failWith s c startedAt completedAt code.normalized.auditCode none code.normalized
  | _ => do
    let completedAt ← completed startedAt
    failWith s c startedAt completedAt .transient none .transient

/-- What is done with the claim. -/
def attemptCall (c : ModelCallClaim R) : Invoke (ModelOutput R) := do
  let startedAt ← timestamp
  if ¬ OnConfiguredRoute e config then do
    let completedAt ← completed startedAt
    failWith s c startedAt completedAt .schema none .schema
  else if e.deadline < startedAt then do
    let completedAt ← after startedAt
    failWith s c startedAt completedAt .timeout none .timeout
  else
    match s.buildModelPrompt e contract with
    | none => do
      let completedAt ← completed startedAt
      failWith s c startedAt completedAt .schema none .schema
    | some prompt => do
      let request : JsonModelRequest :=
        ⟨c.val.callId, [prompt.systemText, prompt.developerText, prompt.userText], e.deadline, config.maxOutputTokens⟩
      compute request.check
      let response ← (Prog.perform (S := calls) (.execute request)).tryCatch (transportFailed s c startedAt)
      let completedAt ← completed startedAt
      conclude s config e contract c startedAt completedAt response

/-- `invoke` -/
def invoke (R : Rules) : Invoke (ModelOutput R) := do
  validateRequest s config e contract
  let c ← claimFor s config e contract R
  match ← audited (load s R c.val.callId) with
  | some attempt => replay s e contract attempt c
  | none =>
    match ← audited (claim s c) with
    | .replay attempt => replay s e contract attempt c
    | .inProgress => fail .audit
    | .claimed => attemptCall s config e contract c

end SevenLens.Invocation
