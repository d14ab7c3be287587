import SevenLens.Analysis.RoundTrip
import SevenLens.Library.Method

/-! # The proposal repository

The stage authority of proposals keeps bundles, contexts, runs with their stage results, proposals
and feedback in dictionaries.  Its five methods check what they are given against what is there and
then write.  The methods run on the state of the object, so that what they write before an
exception would stay. -/

namespace SevenLens.Analysis.Proposals

open Securities

/-! ### Stages -/

inductive ProposalStage where
  | planned | riskDebate | proposal | complete | invalid | expired
deriving DecidableEq, Repr

/-- `LEGAL_PROPOSAL_TRANSITIONS` -/
def legalTransitions : List (ProposalStage × ProposalStage) :=
  [(.planned, .riskDebate), (.riskDebate, .proposal), (.proposal, .complete), (.planned, .invalid),
    (.riskDebate, .invalid), (.proposal, .invalid), (.planned, .expired), (.riskDebate, .expired),
    (.proposal, .expired)]

/-- COMPLETE, INVALID and EXPIRED. -/
def ProposalStage.IsTerminal : ProposalStage → Prop
  | complete | invalid | expired => True
  | planned | riskDebate | proposal => False

instance : DecidablePred ProposalStage.IsTerminal := fun stage => by
  cases stage <;> simp only [ProposalStage.IsTerminal] <;> infer_instance

/-- `stage.value.lower()` -/
def ProposalStage.lower : ProposalStage → String
  | planned => "planned"
  | riskDebate => "risk_debate"
  | proposal => "proposal"
  | complete => "complete"
  | invalid => "invalid"
  | expired => "expired"

/-- The place of a stage in `_STAGE_ORDER`. -/
def ProposalStage.order : ProposalStage → Option Nat
  | planned => some 0
  | riskDebate => some 1
  | proposal => some 2
  | complete => some 3
  | invalid | expired => none

/-- `proposal_stage_order_at_least` -/
def proposalStageOrderAtLeast (current required : ProposalStage) : Except Failure Bool :=
  match current.order with
  | none => refuse "terminal proposal run cannot resume"
  | some n => return decide (required.order.getD 0 ≤ n)

def maxProposalStageAttempts : Nat := 8

def maxProposalStagePayloadBytes : Nat := 262144

/-! ### Payloads -/

/-- `try: … except …: raise ValueError(message)` -/
def orRaise {α : Type} (message : String) : Except Failure α → Except Failure α
  | .ok a => .ok a
  | .error _ => refuse message

theorem orRaise_ok {α : Type} {message : String} {x : Except Failure α} {a : α} :
    orRaise message x = .ok a ↔ x = .ok a := by
  cases x with
  | ok b => rfl
  | error e => simp [orRaise, refuse, throwing]

variable {R : Rules}

/-- `_strict_json_loads` -/
def strictJsonLoads (R : Rules) (payload : String) : Except Failure Json := do
  require (1 ≤ payload.utf8ByteSize ∧ payload.utf8ByteSize ≤ maxProposalStagePayloadBytes)
    "persisted proposal payload is outside its byte bound"
  R.loads payload

/-- A contract that is read from a payload and has to be written as that payload. -/
def parsePayload {α : Type} (R : Rules) (c : Wire α) (malformed noncanonical : String) (payload : String) :
    Except Failure α := do
  let value ← orRaise malformed (strictJsonLoads R payload >>= c.read)
  let text ← canonicalWireJson c value
  require (text = payload) noncanonical
  return value

/-- `_parse_debate_payload` -/
def parseDebatePayload (R : Rules) (payload : String) : Except Failure (RiskDebateState R) :=
  parsePayload R (RiskDebateState.wire R) "persisted risk debate payload is malformed"
    "persisted risk debate payload is not canonical" payload

/-- `_parse_proposal_payload` -/
def parseProposalPayload (R : Rules) (payload : String) : Except Failure (PortfolioProposal R) :=
  parsePayload R (PortfolioProposal.wire R) "persisted proposal payload is malformed"
    "persisted proposal payload is not canonical" payload

/-- `RiskDebateState.validate_citations` -/
def RiskDebateState.validateCitations (debate : RiskDebateState R) (citationIds : List String) : Except Failure Unit :=
  require (∀ argument ∈ debate.val.arguments, argument.val.evidenceRefs ⊆ citationIds)
    "risk argument cites evidence outside the frozen bundle set"

/-- The identity that a proposal repeats of its context. -/
def PortfolioProposal.MatchesContext (p : PortfolioProposal R) (c : ProposalContext R) : Prop :=
  p.val.attempt = c.val.attempt ∧ p.val.contextId = c.val.contextId ∧ p.val.contextHash = c.val.contextHash ∧
    p.val.bundleId = c.val.bundleId ∧ p.val.bundleHash = c.val.bundleHash ∧
    p.val.supersededProposalId = c.val.supersededProposalId ∧ p.val.universeHash = c.val.universeHash ∧
    p.val.snapshotHash = c.val.snapshotHash ∧ p.val.window = c.val.window ∧
    p.val.contractMeta.val.createdAt = c.val.contractMeta.val.createdAt ∧
    p.val.contractMeta.val.schemaVersion = c.val.contractMeta.val.schemaVersion

instance (p : PortfolioProposal R) (c : ProposalContext R) : Decidable (p.MatchesContext c) :=
  inferInstanceAs (Decidable (_ ∧ _))

/-- `PortfolioProposal.validate_against` -/
def PortfolioProposal.validateAgainst (p : PortfolioProposal R) (c : ProposalContext R) : Except Failure Unit := do
  require (p.MatchesContext c) "proposal does not match the exact proposal context boundary"
  require (∀ request ∈ p.val.requests, request.val.symbol ∈ c.val.allowedSymbols)
    "proposal request symbol is outside the allowed context universe"
  require (∀ request ∈ p.val.requests, request.val.evidenceRefs ⊆ c.val.citationIds)
    "proposal cites evidence outside the frozen bundle set"
  require (c.val.window = .emergency →
      ∀ request ∈ p.val.requests, request.val.action ≠ .open ∧ request.val.action ≠ .increase)
    "emergency proposal cannot open or increase exposure"
  require (p.val.expirationAt.micros ≤ c.val.deadline.micros) "proposal expiration cannot exceed the context deadline"
  require (p.val.versions = c.val.versions) "proposal producer versions must equal the context versions"

/-! ### The state -/

structure StoredProposalResult where
  runId : String
  stage : ProposalStage
  resultHash : String
  payload : String
deriving DecidableEq

/-- An entry of `_proposals`. -/
structure ProposalRecord where
  attempt : Int
  superseded : Option String
  status : AnalysisStatus
  bundleId : String
  contextId : String
  proposalHash : String
deriving DecidableEq

/-- An entry of `_identities`. -/
structure RunIdentity where
  contextId : String
  bundleId : String
  bundleHash : String
deriving DecidableEq

/-- The dictionaries and sets of `InMemoryProposalStateRepository`, by what they hold under a key. -/
structure Repository (R : Rules) where
  runs : String → Option ProposalStage
  identities : String → Option RunIdentity
  runByContext : String → Option String
  results : String × ProposalStage → Option StoredProposalResult
  attempts : String × ProposalStage → Option Nat
  proposals : String → Option ProposalRecord
  proposalContracts : String → Option (PortfolioProposal R)
  proposalByContext : String → Option String
  superseded : String → Bool
  attemptOneBundles : String → Bool
  bundles : String → Option (ResearchBundle R)
  bundleByParent : String → Option String
  bundleByChildRun : String → Option String
  bundleByChildInput : String → Option String
  contexts : String → Option (ProposalContext R)
  attemptOneContexts : String → Bool
  attemptTwoContextByBundle : String → Option String
  feedback : String → Option (RiskRejectionFeedback R × String)

/-- A repository with nothing in it. -/
def Repository.empty (R : Rules) : Repository R where
  runs _ := none
  identities _ := none
  runByContext _ := none
  results _ := none
  attempts _ := none
  proposals _ := none
  proposalContracts _ := none
  proposalByContext _ := none
  superseded _ := false
  attemptOneBundles _ := false
  bundles _ := none
  bundleByParent _ := none
  bundleByChildRun _ := none
  bundleByChildInput _ := none
  contexts _ := none
  attemptOneContexts _ := false
  attemptTwoContextByBundle _ := none
  feedback _ := none

/-- `d[key] = value` -/
def insert {κ ν : Type} [DecidableEq κ] (d : κ → Option ν) (k : κ) (v : ν) : κ → Option ν :=
  Function.update d k (some v)

/-- `d.setdefault(key, value)` -/
def setdefault {κ ν : Type} [DecidableEq κ] (d : κ → Option ν) (k : κ) (v : ν) : κ → Option ν :=
  match d k with
  | none => insert d k v
  | some _ => d

/-- A method of the repository. -/
abbrev Operation (R : Rules) (α : Type) : Type := Method (Repository R) Failure α

open Method

/-- `if not p: raise ValueError(message)` -/
def check (p : Prop) [Decidable p] (message : String) : Operation R Unit := lift (require p message)

/-- `_check_authority_deadline` -/
def checkAuthorityDeadline (now deadline : UtcTimestamp) : Operation R Unit :=
  check (now.micros ≤ deadline.micros) "proposal authority deadline expired"

/-! ### Bundles -/

/-- The checks of the loop over the items of a bundle. -/
def checkChild (s : Repository R) (bundleId : String) (item : ResearchBundleItem R) : Except Failure Unit := do
  require ((s.bundleByChildRun item.val.analysisRunId.text).getD bundleId = bundleId)
    "child analysis run is already bound to another bundle"
  require ((s.bundleByChildInput item.val.analysisInputId.text).getD bundleId = bundleId)
    "child analysis input is already bound to another bundle"

/-- The writes of the loop over the items of a bundle. -/
def bindChild (bundleId : String) (s : Repository R) (item : ResearchBundleItem R) : Repository R :=
  { s with
    bundleByChildRun := setdefault s.bundleByChildRun item.val.analysisRunId.text bundleId
    bundleByChildInput := setdefault s.bundleByChildInput item.val.analysisInputId.text bundleId }

/-- `register_bundle` of a value that may have been changed since it was built.  The verifier reads
another repository; what it says is given with the call. -/
def registerBundle (now : UtcTimestamp) (verifier : Option (ResearchBundle R → Except Failure Unit))
    (a : ResearchBundle.Args R) : Operation R Unit := do
  let bundle ← lift (orRaise "research bundle integrity is invalid" (construct ResearchBundle.postInit a))
  checkAuthorityDeadline now bundle.val.deadline
  lift (match verifier with
    | none => refuse "research bundle verifier is required"
    | some verify => verify bundle)
  let frozen ← lift ((ResearchBundle.wire R).read ((ResearchBundle.wire R).write bundle))
  let bundleId := bundle.val.bundleId.text
  let s ← state
  check (∀ existing ∈ s.bundles bundleId, existing = frozen) "research bundle identity collision"
  let parentId := bundle.val.parentInputId.text
  check ((s.bundleByParent parentId).getD bundleId = bundleId) "parent input already has a research bundle"
  lift (bundle.val.items.forM (checkChild s bundleId))
  write (fun s => { s with bundles := setdefault s.bundles bundleId frozen })
  write (fun s => { s with bundleByParent := setdefault s.bundleByParent parentId bundleId })
  write (fun s => bundle.val.items.foldl (bindChild bundleId) s)

/-! ### Completed proposals -/

/-- What `_proposal_authority_is_complete` asks of the persisted results of a run. -/
def CompleteResults (R : Rules) (runId : String) (record : ProposalRecord) (contract : PortfolioProposal R)
    (persisted terminal : StoredProposalResult) : Prop :=
  persisted.runId = runId ∧ persisted.stage = .proposal ∧ persisted.resultHash = record.proposalHash ∧
    (R.sha256 persisted.payload).text = persisted.resultHash ∧ contract.val.contextId.text = record.contextId ∧
    terminal.runId = runId ∧ terminal.stage = .complete ∧ terminal.payload = "complete" ∧
    (R.sha256 terminal.payload).text = terminal.resultHash ∧ parseProposalPayload R persisted.payload = .ok contract

instance (runId : String) (record : ProposalRecord) (contract : PortfolioProposal R)
    (persisted terminal : StoredProposalResult) : Decidable (CompleteResults R runId record contract persisted terminal) :=
  inferInstanceAs (Decidable (_ ∧ _))

/-- `_proposal_authority_is_complete` -/
def Repository.proposalAuthorityIsComplete (s : Repository R) (record : ProposalRecord) : Bool :=
  match s.runByContext record.contextId with
  | none => false
  | some runId =>
    if s.runs runId = some .complete then
      match s.proposalByContext record.contextId with
      | none => false
      | some proposalId =>
        match s.proposalContracts proposalId, s.results (runId, .proposal), s.results (runId, .complete) with
        | some contract, some persisted, some terminal =>
          decide (contract.val.proposalId.text = proposalId ∧ CompleteResults R runId record contract persisted terminal)
        | _, _, _ => false
    else false

/-! ### Contexts -/

/-- What a context repeats of its bundle. -/
def MatchesBundle (c : ProposalContext R) (b : ResearchBundle R) : Prop :=
  c.val.window = b.val.window ∧ c.val.deadline = b.val.deadline ∧ c.val.universeHash = b.val.universeHash ∧
    c.val.allowedSymbols = b.val.holdingSymbols ++ b.val.candidateSymbols ∧ c.val.citationIds = b.val.citationIds ∧
    c.val.contractMeta.val.schemaVersion = b.val.contractMeta.val.schemaVersion ∧
    c.val.contractMeta.val.createdAt = b.val.contractMeta.val.createdAt ∧
    c.val.contractMeta.val.producerVersion = b.val.contractMeta.val.producerVersion ∧
    (∀ first ∈ b.val.items.head?, c.val.versions.graphVersion = first.val.graphVersion ∧
      c.val.versions.promptVersion = first.val.promptVersion ∧ c.val.versions.dataVersion = first.val.dataVersion)

instance (c : ProposalContext R) (b : ResearchBundle R) : Decidable (MatchesBundle c b) :=
  inferInstanceAs (Decidable (_ ∧ _))

/-- The proposal record, when it can be superseded by the context. -/
def supersedable (s : Repository R) (c : ProposalContext R) : Except Failure ProposalRecord :=
  match s.proposals (c.val.supersededProposalId.elim "" RunId.text) with
  | none => refuse "attempt 2 context supersedes an unknown proposal"
  | some record => do
    require (record.attempt = 1 ∧ record.bundleId = c.val.bundleId.text ∧
        c.val.supersededProposalHash.map Hash.text = some record.proposalHash)
      "attempt 2 context supersedes an unknown proposal"
    return record

/-- The checks of a context of the second attempt. -/
def checkRetryContext (s : Repository R) (c : ProposalContext R) : Except Failure Unit := do
  require (∃ previous ∈ s.contexts (c.val.previousContextId.elim "" RunId.text),
      previous.val.bundleId = c.val.bundleId ∧ previous.val.attempt = 1)
    "attempt 2 context requires the attempt 1 context"
  let record ← supersedable s c
  require (s.proposalAuthorityIsComplete record = true) "attempt 2 context requires a completed attempt 1 proposal"
  match s.feedback (c.val.feedback.elim "" (fun feedback => feedback.val.contractMeta.val.runId.text)) with
  | none => refuse "attempt 2 context requires registered risk feedback"
  | some (feedback, _) => do
    require (feedback.val.rejectedProposalId.text = c.val.supersededProposalId.elim "" RunId.text)
      "attempt 2 context requires registered risk feedback"
    require (c.val.feedback = some feedback) "attempt 2 context feedback is not the registered authority"
    require (c.val.snapshot.val.remainingLimits = feedback.val.remainingLimits)
      "attempt 2 context limits do not match risk feedback"
    require (∀ prior ∈ s.attemptTwoContextByBundle c.val.bundleId.text, prior = c.val.contextId.text)
      "bundle already has an attempt 2 context"

/-- The bundle that a context binds. -/
def boundBundle (s : Repository R) (c : ProposalContext R) : Except Failure (ResearchBundle R) :=
  match s.bundles c.val.bundleId.text with
  | none => refuse "proposal context binds an unknown research bundle"
  | some bundle => do
    require (bundle.val.bundleHash = c.val.bundleHash) "proposal context binds an unknown research bundle"
    return bundle

/-- `register_context` -/
def registerContext (now : UtcTimestamp) (a : ProposalContext.Args R) : Operation R Unit := do
  let context ← lift (orRaise "proposal context integrity is invalid" (construct ProposalContext.postInit a))
  checkAuthorityDeadline now context.val.deadline
  let s ← state
  let bundle ← lift (boundBundle s context)
  check (MatchesBundle context bundle) "proposal context does not match the frozen research bundle"
  check (context.val.attempt = 1 → context.val.snapshotHash = bundle.val.portfolioSnapshotHash)
    "attempt 1 context snapshot is not the frozen bundle snapshot"
  let frozen ← lift ((ProposalContext.wire R).read ((ProposalContext.wire R).write context))
  let contextId := context.val.contextId.text
  let bundleId := context.val.bundleId.text
  match s.contexts contextId with
  | some existing => check (existing = frozen) "proposal context identity collision"
  | none => do
    lift (if context.val.attempt = 1 then
        require (s.attemptOneContexts bundleId = false) "bundle already has an attempt 1 context"
      else checkRetryContext s context)
    write (fun s => { s with contexts := insert s.contexts contextId frozen })
    if context.val.attempt = 1 then
      write (fun s => { s with attemptOneContexts := Function.update s.attemptOneContexts bundleId true })
    else
      write (fun s =>
        { s with attemptTwoContextByBundle := insert s.attemptTwoContextByBundle bundleId contextId })

/-! ### Runs -/

/-- The context of a run that is to be created, when context and bundle are registered. -/
def registeredContext (s : Repository R) (contextId bundleId bundleHash : String) :
    Except Failure (ProposalContext R) :=
  match s.contexts contextId, s.bundles bundleId with
  | some context, some bundle => do
    require (context.val.bundleId.text = bundleId ∧ context.val.bundleHash.text = bundleHash ∧
      bundle.val.bundleHash.text = bundleHash) "proposal run binds unregistered authority"
    return context
  | _, _ => refuse "proposal run binds unregistered authority"

/-- `create_run` -/
def createRun (now : UtcTimestamp) (runId contextId bundleId bundleHash : String) : Operation R Unit := do
  let s ← state
  let context ← lift (registeredContext s contextId bundleId bundleHash)
  checkAuthorityDeadline now context.val.deadline
  let id ← lift (orRaise "proposal run identity is malformed" (RunId.fromString contextId))
  check (runId = (R.deriveProposalRunId id).text) "proposal run identity does not match its context"
  let identity : RunIdentity := ⟨contextId, bundleId, bundleHash⟩
  check (∀ existing ∈ s.identities runId, existing = identity) "proposal run identity collision"
  check (∀ existing ∈ s.runByContext contextId, existing = runId) "proposal context already has an authority run"
  write (fun s => { s with identities := setdefault s.identities runId identity })
  write (fun s => { s with runByContext := setdefault s.runByContext contextId runId })
  write (fun s => { s with runs := setdefault s.runs runId .planned })

/-! ### Feedback -/

/-- The proposal that feedback may reject, with its record. -/
def rejectable (s : Repository R) (f : RiskRejectionFeedback R) :
    Except Failure (PortfolioProposal R × ProposalRecord) :=
  match s.proposalContracts f.val.rejectedProposalId.text with
  | none => refuse "risk rejection feedback targets unknown proposal authority"
  | some proposal => do
    require (proposal.val.attempt = 1 ∧ proposal.val.status = .valid)
      "risk rejection feedback targets unknown proposal authority"
    match s.proposals f.val.rejectedProposalId.text with
    | none => refuse "risk rejection feedback requires a completed proposal authority"
    | some record => do
      require (s.proposalAuthorityIsComplete record = true)
        "risk rejection feedback requires a completed proposal authority"
      return (proposal, record)

/-- `register_feedback` -/
def registerFeedback (now : UtcTimestamp) (a : RiskRejectionFeedback.Args R) : Operation R Unit := do
  let feedback ← lift (orRaise "risk rejection feedback integrity is invalid"
    (construct RiskRejectionFeedback.postInit a))
  let feedbackId := feedback.val.contractMeta.val.runId.text
  let rendered ← lift (canonicalWireJson (RiskRejectionFeedback.wire R) feedback)
  let s ← state
  let (proposal, record) ← lift (rejectable s feedback)
  check (∃ context ∈ s.contexts record.contextId,
      context.val.contractMeta.val.createdAt.micros < feedback.val.reviewedAt.micros ∧
      feedback.val.reviewedAt.micros ≤ now.micros ∧ feedback.val.reviewedAt.micros < context.val.deadline.micros ∧
      now.micros ≤ context.val.deadline.micros) "risk rejection feedback timeline is invalid"
  check (feedback.val.rejectedSymbols ⊆ proposal.val.requests.map (·.val.symbol))
    "risk rejection feedback targets a foreign symbol"
  match s.feedback feedbackId with
  | some existing => check (existing.2 = rendered) "risk feedback identity collision"
  | none => do
    let frozen ← lift ((RiskRejectionFeedback.wire R).read ((RiskRejectionFeedback.wire R).write feedback))
    write (fun s => { s with feedback := setdefault s.feedback feedbackId (frozen, rendered) })

/-! ### Stage results -/

/-- What a stored debate has to say of the context and bundle of its run.  The debate of a second
attempt is that of the first one, and names its context. -/
def DebateBinds (debate : RiskDebateState R) (context : ProposalContext R) (bundle : ResearchBundle R) : Prop :=
  debate.val.contextId = context.val.previousContextId.getD context.val.contextId ∧
    debate.val.bundleId = bundle.val.bundleId ∧ debate.val.bundleHash = bundle.val.bundleHash ∧
    debate.val.contractMeta.val.runId =
      R.deriveProposalRunId (context.val.previousContextId.getD context.val.contextId) ∧
    debate.val.contractMeta.val.createdAt = bundle.val.contractMeta.val.createdAt ∧
    debate.val.contractMeta.val.producerVersion = bundle.val.contractMeta.val.producerVersion ∧
    debate.val.complete = true

instance (debate : RiskDebateState R) (context : ProposalContext R) (bundle : ResearchBundle R) :
    Decidable (DebateBinds debate context bundle) := inferInstanceAs (Decidable (_ ∧ _))

/-- The context and the bundle of a run. -/
def authorityOf (s : Repository R) (runId : String) : Except Failure (ProposalContext R × ResearchBundle R) :=
  match s.identities runId with
  | none => refuse "proposal stage result binds an unknown run"
  | some identity =>
    match s.contexts identity.contextId, s.bundles identity.bundleId with
    | some context, some bundle => do
      require (bundle.val.bundleHash.text = identity.bundleHash)
        "proposal stage result binds unavailable authority"
      return (context, bundle)
    | _, _ => refuse "proposal stage result binds unavailable authority"

/-- The stage `RISK_DEBATE` of `_validate_stage_result`. -/
def validateDebate (context : ProposalContext R) (bundle : ResearchBundle R) (payload : String) :
    Except Failure (RiskDebateState R) := do
  let debate ← parseDebatePayload R payload
  require (DebateBinds debate context bundle) "persisted risk debate binds foreign authority"
  orRaise "persisted risk debate cites foreign evidence" (debate.validateCitations bundle.val.citationIds)
  return debate

/-- The stage `PROPOSAL` of `_validate_stage_result`. -/
def validateProposal (context : ProposalContext R) (payload : String) : Except Failure (PortfolioProposal R) := do
  let proposal ← parseProposalPayload R payload
  orRaise "persisted proposal binds foreign authority" (proposal.validateAgainst context)
  require ((proposal.val.status = .valid ∨ proposal.val.status = .abstain) ∧
    proposal.val.contractMeta.val.producerVersion = context.val.contractMeta.val.producerVersion)
    "persisted proposal status or producer is invalid"
  return proposal

/-- What `_validate_stage_result` asks of a result, given the authority of its run. -/
def validateStage (context : ProposalContext R) (bundle : ResearchBundle R) (result : StoredProposalResult) :
    Except Failure (Option (PortfolioProposal R)) :=
  match result.stage with
  | .riskDebate => do
    let _ ← validateDebate context bundle result.payload
    return none
  | .proposal => do
    let proposal ← validateProposal context result.payload
    return some proposal
  | stage => do
    require (result.payload = stage.lower) "terminal proposal stage payload is not canonical"
    return none

/-- `_validate_stage_result`, whose result is used for a proposal only. -/
def validateStageResult (s : Repository R) (result : StoredProposalResult) :
    Except Failure (Option (PortfolioProposal R)) := do
  require (result.resultHash.length = 64 ∧ result.resultHash.toList.all isHex = true)
    "proposal stage result hash is malformed"
  require ((R.sha256 result.payload).text = result.resultHash) "proposal stage result hash does not match its payload"
  let (context, bundle) ← authorityOf s result.runId
  validateStage context bundle result

/-- The checks of `_register_proposal`. -/
def checkProposal (s : Repository R) (p : PortfolioProposal R) : Except Failure Unit := do
  require (s.proposals p.val.proposalId.text = none) "portfolio proposal identity collision"
  require (∀ existing ∈ s.proposalByContext p.val.contextId.text, existing = p.val.proposalId.text)
    "proposal context already has a portfolio proposal"
  if p.val.attempt = 1 then
    require (p.val.supersededProposalId = none) "attempt 1 proposal must not supersede another proposal"
    require (s.attemptOneBundles p.val.bundleId.text = false) "bundle already has an attempt 1 proposal"
  else
    match p.val.supersededProposalId with
    | none => refuse "attempt 2 proposal requires a superseded proposal id"
    | some superseded =>
      match s.proposals superseded.text with
      | none => refuse "attempt 2 proposal supersedes an unknown proposal"
      | some lineage => do
        require (lineage.attempt = 1 ∧ lineage.bundleId = p.val.bundleId.text)
          "attempt 2 proposal supersedes a foreign bundle proposal"
        require (s.superseded superseded.text = false) "proposal lineage collision"
        require (∃ context ∈ s.contexts p.val.contextId.text,
            context.val.supersededProposalHash.map Hash.text = some lineage.proposalHash)
          "proposal lineage hash collision"

/-- The entry of a proposal in `_proposals`. -/
def recordOf (p : PortfolioProposal R) (proposalHash : String) : ProposalRecord :=
  ⟨p.val.attempt, p.val.supersededProposalId.map RunId.text, p.val.status, p.val.bundleId.text, p.val.contextId.text,
    proposalHash⟩

/-- `_register_proposal` -/
def registerProposal (p : PortfolioProposal R) (proposalHash : String) : Operation R Unit := do
  let s ← state
  lift (checkProposal s p)
  let proposalId := p.val.proposalId.text
  if p.val.attempt = 1 then
    write (fun s => { s with attemptOneBundles := Function.update s.attemptOneBundles p.val.bundleId.text true })
  else
    match p.val.supersededProposalId with
    | none => lift (refuse "attempt 2 proposal requires a superseded proposal id")
    | some superseded => write (fun s => { s with superseded := Function.update s.superseded superseded.text true })
  write (fun s => { s with proposals := insert s.proposals proposalId (recordOf p proposalHash) })
  write (fun s => { s with proposalContracts := insert s.proposalContracts proposalId p })
  write (fun s => { s with proposalByContext := insert s.proposalByContext p.val.contextId.text proposalId })

/-- The deadline check of `advance`, for a stage that is no failure. -/
def checkStageDeadline (now : UtcTimestamp) (s : Repository R) (result : StoredProposalResult) :
    Except Failure Unit :=
  if result.stage = .invalid ∨ result.stage = .expired then return ()
  else
    match (s.identities result.runId).bind (fun identity => s.contexts identity.contextId) with
    | none => refuse "proposal stage result binds unavailable authority"
    | some context => require (now.micros ≤ context.val.deadline.micros) "proposal authority deadline expired"

/-- `advance` -/
def advance (now : UtcTimestamp) (result : StoredProposalResult) (expectedCurrent : ProposalStage) :
    Operation R Bool := do
  check ((expectedCurrent, result.stage) ∈ legalTransitions) "proposal stage transition is not legal"
  let s ← state
  let contract ← lift (validateStageResult s result)
  lift (checkStageDeadline now s result)
  let key := (result.runId, result.stage)
  match s.results key with
  | some existing => do
    check (existing = result) "proposal stage retry changed immutable output"
    let attempt := (s.attempts key).getD 1 + 1
    check (attempt ≤ maxProposalStageAttempts) "proposal stage retry budget is exhausted"
    write (fun s => { s with attempts := insert s.attempts key attempt })
    return false
  | none => do
    check (s.runs result.runId = some expectedCurrent) "proposal stage transition is out of order"
    match contract with
    | some proposal => registerProposal proposal result.resultHash
    | none => pure ()
    write (fun s => { s with results := insert s.results key result })
    write (fun s => { s with runs := insert s.runs result.runId result.stage })
    write (fun s => { s with attempts := insert s.attempts key 1 })
    return true

/-- `current_stage` -/
def currentStage (runId : String) : Operation R ProposalStage := do
  let s ← state
  match s.runs runId with
  | some stage => return stage
  | none => lift (.error (.keyError runId))

/-- `load` -/
def load (runId : String) (stage : ProposalStage) : Operation R (Option StoredProposalResult) := do
  let s ← state
  return s.results (runId, stage)

/-- `attempt_two_exists` -/
def attemptTwoExists (bundleId contextId : String) : Operation R Bool := do
  let s ← state
  return decide (∃ known ∈ s.attemptTwoContextByBundle bundleId, known ≠ contextId)

end SevenLens.Analysis.Proposals
