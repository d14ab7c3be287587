import SevenLens.Analysis.Research

/-! # Research bundles, proposal contexts and portfolio proposals

The contracts that gather the plans of all symbols into a bundle, bind a decision context to the
bundle and to a snapshot, and carry the risk debate and the proposal of that context.  Identities
are derived from the digest of a domain and of the parts that determine them. -/

namespace SevenLens.Analysis

open Securities

/-! ### Identities -/

namespace Proposals

/-- The number of `UUID(bytes=…, version=4)`: the variant and the version are set. -/
def versionFour (n : Nat) : BitVec 128 :=
  ((((BitVec.ofNat 128 n &&& ~~~ (0xc000#128 <<< 48)) ||| (0x8000#128 <<< 48)) &&& ~~~ (0xf000#128 <<< 64)) |||
    (4#128 <<< 76))

theorem versionFour_ne_zero (n : Nat) : (versionFour n).toNat ≠ 0 := by
  intro h
  have hbit : (versionFour n).getLsbD 78 = true := by
    simp only [versionFour, BitVec.getLsbD_or]
    rw [show (4#128 <<< 76).getLsbD 78 = true by decide, Bool.or_true]
  rw [BitVec.getLsbD, h] at hbit
  exact absurd hbit (by decide)

end Proposals

namespace Rules

variable (R : Rules)

/-- `_derive_run_id` -/
def deriveRunId (domain : String) (parts : List String) : RunId :=
  let digest := R.sha256 (String.intercalate (String.singleton (Char.ofNat 0)) (domain :: parts))
  let number := Proposals.versionFour ((Nat.ofHexChars (digest.text.toList.take 32)).getD 0)
  ⟨⟨number.toNat, number.isLt⟩, Proposals.versionFour_ne_zero _⟩

def deriveChildRunId (parentInputId : RunId) (symbol : String) : Except Failure RunId := do
  R.symbol symbol
  return R.deriveRunId "seven-lens.p3d.child-run.v1" [parentInputId.text, symbol]

def deriveChildInputId (parentInputId : RunId) (symbol : String) : Except Failure RunId := do
  R.symbol symbol
  return R.deriveRunId "seven-lens.p3d.child-input.v1" [parentInputId.text, symbol]

def deriveBundleId (parentInputId : RunId) : RunId :=
  R.deriveRunId "seven-lens.p3d.bundle.v1" [parentInputId.text]

def deriveContextId (bundleId : RunId) (attempt : Int) (snapshotHash : Hash) (supersededProposalId : Option RunId)
    (supersededProposalHash : Option Hash) : Except Failure RunId := do
  require (1 ≤ attempt ∧ attempt ≤ 2) "attempt must be an exact bounded integer"
  require (supersededProposalId = none ↔ supersededProposalHash = none)
    "superseded proposal id and hash must appear together"
  require (attempt = 1 → supersededProposalId = none)
    "attempt 1 context must not carry superseded proposal lineage"
  require (attempt = 2 → supersededProposalId ≠ none) "attempt 2 context requires superseded proposal lineage"
  return R.deriveRunId "seven-lens.p3d.context.v1" [bundleId.text, toString attempt, snapshotHash.text,
    supersededProposalId.elim "" RunId.text, supersededProposalHash.elim "" Hash.text]

def deriveDebateId (contextId : RunId) : RunId := R.deriveRunId "seven-lens.p3d.debate.v1" [contextId.text]

def deriveProposalId (contextId : RunId) : RunId := R.deriveRunId "seven-lens.p3d.proposal.v1" [contextId.text]

def deriveProposalRunId (contextId : RunId) : RunId := R.deriveRunId "seven-lens.p3d.proposal-run.v1" [contextId.text]

end Rules

namespace Proposals

inductive RiskViewpoint where
  | aggressive | conservative | neutral
deriving DecidableEq, Repr

instance : StrEnum RiskViewpoint where
  value
    | .aggressive => "AGGRESSIVE"
    | .conservative => "CONSERVATIVE"
    | .neutral => "NEUTRAL"
  members := [.aggressive, .conservative, .neutral]
  mem_members e := by cases e <;> decide
  nodup_values := by decide

def debateOrder : List (RiskViewpoint × Int) :=
  [(.aggressive, 1), (.conservative, 1), (.neutral, 1), (.aggressive, 2), (.conservative, 2), (.neutral, 2)]

def deriveArgumentId (R : Rules) (contextId : RunId) (viewpoint : RiskViewpoint) (roundNumber : Int) :
    Except Failure RunId := do
  require (1 ≤ roundNumber ∧ roundNumber ≤ 2) "round_number must be an exact bounded integer"
  return R.deriveRunId "seven-lens.p3d.risk-argument.v1"
    [contextId.text, StrEnum.value viewpoint, toString roundNumber]

def maxFocusSymbols : Nat := 27

def maxAllowedSymbols : Nat := 27

def maxBundleCitations : Nat := 864

def maxItemEvidenceRefs : Nat := 32

/-- `hashlib.sha256(JsonObject.from_value(value).to_json().encode()).hexdigest()` -/
def jsonHash (R : Rules) (j : Json) : Except Failure Hash := do
  let text ← toJson j
  return R.sha256 text

/-! ### Bundles -/

namespace ResearchBundleItem

structure Args (R : Rules) where
  symbol : String
  analysisRunId : RunId
  analysisInputId : RunId
  packetHash : Hash
  snapshotHash : Hash
  traderPlanId : RunId
  traderPlanHash : Hash
  traderPlan : TraderPlan R
  evidenceRefs : List String
  producerVersion : String
  graphVersion : String
  promptVersion : String
  dataVersion : String
  status : AnalysisStatus
deriving DecidableEq

/-- The identity that an item repeats of its plan. -/
def MatchesPlan {R : Rules} (a : Args R) : Prop :=
  a.traderPlan.val.planId = a.traderPlanId ∧ a.traderPlan.val.inputId = a.analysisInputId ∧
    a.traderPlan.val.symbol = a.symbol ∧ a.traderPlan.val.contractMeta.val.runId = a.analysisRunId ∧
    a.traderPlan.val.contractMeta.val.producerVersion = a.producerVersion ∧ a.traderPlan.val.status = .valid

instance {R : Rules} (a : Args R) : Decidable (MatchesPlan a) := inferInstanceAs (Decidable (_ ∧ _))

def postInit {R : Rules} (a : Args R) : Except Failure Unit := do
  R.symbol a.symbol
  require (MatchesPlan a) "bundle item TraderPlan material does not match its frozen identity"
  let hash ← jsonHash R ((TraderPlan.wire R).write a.traderPlan)
  require (hash = a.traderPlanHash) "bundle item TraderPlan material does not match its frozen identity"
  R.refs "evidence_refs" maxItemEvidenceRefs false a.evidenceRefs
  R.version "producer_version" a.producerVersion
  R.version "graph_version" a.graphVersion
  R.version "prompt_version" a.promptVersion
  R.version "data_version" a.dataVersion
  require (a.status = .valid) "bundle item requires a VALID child TraderPlan status"

end ResearchBundleItem

abbrev ResearchBundleItem (R : Rules) : Type := Accepted (ResearchBundleItem.postInit (R := R))

def ResearchBundleItem.wire (R : Rules) : Wire (ResearchBundleItem R) :=
  .contract _
    (.field "symbol" Args.symbol (Wire.symbol R) <|
      .field "analysis_run_id" Args.analysisRunId (Wire.runId R) <|
      .field "analysis_input_id" Args.analysisInputId (Wire.runId R) <|
      .field "packet_hash" Args.packetHash (Wire.hash "packet_hash") <|
      .field "snapshot_hash" Args.snapshotHash (Wire.hash "snapshot_hash") <|
      .field "trader_plan_id" Args.traderPlanId (Wire.runId R) <|
      .field "trader_plan_hash" Args.traderPlanHash (Wire.hash "trader_plan_hash") <|
      .field "trader_plan" Args.traderPlan (TraderPlan.wire R) <|
      .field "evidence_refs" Args.evidenceRefs (Wire.refs R "evidence_refs" maxItemEvidenceRefs false) <|
      .field "producer_version" Args.producerVersion (Wire.version R "producer_version") <|
      .field "graph_version" Args.graphVersion (Wire.version R "graph_version") <|
      .field "prompt_version" Args.promptVersion (Wire.version R "prompt_version") <|
      .field "data_version" Args.dataVersion (Wire.version R "data_version") <|
      .field "status" Args.status (Wire.exactEnum "status") .nil)
    (fun ⟨symbol, analysisRunId, analysisInputId, packetHash, snapshotHash, traderPlanId, traderPlanHash, traderPlan,
        evidenceRefs, producerVersion, graphVersion, promptVersion, dataVersion, status, _⟩ =>
      ⟨symbol, analysisRunId, analysisInputId, packetHash, snapshotHash, traderPlanId, traderPlanHash, traderPlan,
        evidenceRefs, producerVersion, graphVersion, promptVersion, dataVersion, status⟩)
    (of_decide_eq_true rfl) (fun _ => rfl) (fun _ => rfl)

/-- `assert_child_identity` -/
def assertChildIdentity {R : Rules} (parentInputId : RunId) (item : ResearchBundleItem R) : Except Failure Unit := do
  let expectedRun ← R.deriveChildRunId parentInputId item.val.symbol
  let expectedInput ← R.deriveChildInputId parentInputId item.val.symbol
  require (item.val.analysisRunId = expectedRun ∧ item.val.analysisInputId = expectedInput)
    "bundle item child identity does not match deterministic derivation"

/-- `tuple(sorted({ref for item in items for ref in item.evidence_refs}))` -/
def citationUnion {R : Rules} (items : List (ResearchBundleItem R)) : List String :=
  ((items.flatMap (·.val.evidenceRefs)).dedup).sortOn id

namespace ResearchBundle

structure Args (R : Rules) where
  contractMeta : ContractMeta R
  bundleId : RunId
  parentInputId : RunId
  asOf : UtcTimestamp
  window : AnalysisWindow
  deadline : UtcTimestamp
  universeHash : Hash
  portfolioSnapshotHash : Hash
  dataSnapshotRefs : List String
  holdingSymbols : List String
  candidateSymbols : List String
  focusSymbols : List String
  items : List (ResearchBundleItem R)
  citationIds : List String
  bundleHash : Hash
deriving DecidableEq

variable {R : Rules}

/-- The fields that the hash covers, before further ones. -/
def contentFields {τ : Type} (rest : Json.Fields mapping (Args R) τ) :=
  Json.Fields.field "meta" Args.contractMeta (ContractMeta.wire R) <|
    .field "bundle_id" Args.bundleId (Wire.runId R) <|
    .field "parent_input_id" Args.parentInputId (Wire.runId R) <|
    .field "as_of" Args.asOf (Wire.timestamp R) <|
    .field "window" Args.window (Wire.exactEnum "window") <|
    .field "deadline" Args.deadline (Wire.timestamp R) <|
    .field "universe_hash" Args.universeHash (Wire.hash "universe_hash") <|
    .field "portfolio_snapshot_hash" Args.portfolioSnapshotHash (Wire.hash "portfolio_snapshot_hash") <|
    .field "data_snapshot_refs" Args.dataSnapshotRefs (Wire.refs R "data_snapshot_refs" maxSequenceItems false) <|
    .field "holding_symbols" Args.holdingSymbols (Wire.symbols R "holding_symbols" 15) <|
    .field "candidate_symbols" Args.candidateSymbols (Wire.symbols R "candidate_symbols" 12) <|
    .field "focus_symbols" Args.focusSymbols (Wire.symbols R "focus_symbols" maxFocusSymbols) <|
    .field "items" Args.items
      (Wire.sequence "items" (ResearchBundleItem.wire R) maxFocusSymbols false false) <|
    .field "citation_ids" Args.citationIds (Wire.refs R "citation_ids" maxBundleCitations false) rest

/-- `_content_wire` -/
def contentWire (a : Args R) : Json := Json.dict ((contentFields .nil).write a)

/-- One round of the loop over what the items share. -/
def agree {α : Type} [DecidableEq α] (field : String) (value : ResearchBundleItem.Args R → α) (a : Args R) :
    Except Failure Unit :=
  require (∀ first ∈ a.items.head?, ∀ item ∈ a.items, value item.val = value first.val)
    ("bundle items disagree on " ++ field)

/-- One round of the loop over the items. -/
def checkItem (a : Args R) (p : ResearchBundleItem R × String) : Except Failure Unit := do
  require (p.1.val.symbol = p.2) "bundle item order must exactly follow parent focus order"
  assertChildIdentity a.parentInputId p.1

def postInit (a : Args R) : Except Failure Unit := do
  require (a.bundleId = R.deriveBundleId a.parentInputId)
    "bundle_id must be deterministically derived from parent_input_id"
  R.refs "data_snapshot_refs" maxSequenceItems false a.dataSnapshotRefs
  R.symbols "holding_symbols" 15 a.holdingSymbols
  R.symbols "candidate_symbols" 12 a.candidateSymbols
  require (∀ s ∈ a.holdingSymbols, s ∉ a.candidateSymbols) "bundle holding and candidate symbols must not overlap"
  let expectedUniverseHash ← universeHash R a.holdingSymbols a.candidateSymbols
  require (a.universeHash = expectedUniverseHash) "bundle universe symbols do not match universe_hash"
  R.symbols "focus_symbols" maxFocusSymbols a.focusSymbols
  require (a.focusSymbols ≠ []) "bundle requires at least one focus symbol"
  require (a.focusSymbols ⊆ a.holdingSymbols ++ a.candidateSymbols)
    "bundle focus symbols must belong to the exact universe"
  require (a.items.length = a.focusSymbols.length) "bundle items must match focus symbols one to one"
  (a.items.zip a.focusSymbols).forM (checkItem a)
  agree "packet_hash" (·.packetHash) a
  agree "snapshot_hash" (·.snapshotHash) a
  agree "producer_version" (·.producerVersion) a
  agree "graph_version" (·.graphVersion) a
  agree "prompt_version" (·.promptVersion) a
  agree "data_version" (·.dataVersion) a
  require (a.contractMeta.val.runId = a.bundleId) "bundle meta run identity must equal bundle_id"
  require (∀ first ∈ a.items.head?, a.contractMeta.val.producerVersion = first.val.producerVersion)
    "bundle producer version must equal item producer version"
  require (∀ first ∈ a.items.head?, first.val.snapshotHash = a.portfolioSnapshotHash)
    "bundle snapshot hash must equal item snapshot hash"
  R.refs "citation_ids" maxBundleCitations false a.citationIds
  require (a.citationIds = citationUnion a.items) "bundle citation union must exactly match its ordered items"
  require (citationUnion a.items ≠ [] ∧ (citationUnion a.items).length ≤ maxBundleCitations)
    "bundle citation union is outside its bound"
  let hash ← jsonHash R (contentWire a)
  require (a.bundleHash = hash) "bundle_hash does not match frozen bundle content"
  require (a.asOf.micros < a.deadline.micros) "bundle deadline must be after as_of"

end ResearchBundle

abbrev ResearchBundle (R : Rules) : Type := Accepted (ResearchBundle.postInit (R := R))

def ResearchBundle.wire (R : Rules) : Wire (ResearchBundle R) :=
  .contract _ (contentFields (.field "bundle_hash" Args.bundleHash (Wire.hash "bundle_hash") .nil))
    (fun ⟨contractMeta, bundleId, parentInputId, asOf, window, deadline, universeHash, portfolioSnapshotHash,
        dataSnapshotRefs, holdingSymbols, candidateSymbols, focusSymbols, items, citationIds, bundleHash, _⟩ =>
      ⟨contractMeta, bundleId, parentInputId, asOf, window, deadline, universeHash, portfolioSnapshotHash,
        dataSnapshotRefs, holdingSymbols, candidateSymbols, focusSymbols, items, citationIds, bundleHash⟩)
    (of_decide_eq_true rfl) (fun _ => rfl) (fun _ => rfl)

/-! ### Contexts -/

namespace ProposalContext

structure Args (R : Rules) where
  contractMeta : ContractMeta R
  contextId : RunId
  attempt : Int
  bundleId : RunId
  bundleHash : Hash
  snapshot : PortfolioSnapshot R
  snapshotHash : Hash
  window : AnalysisWindow
  deadline : UtcTimestamp
  universeHash : Hash
  allowedSymbols : List String
  citationIds : List String
  versions : Versions
  previousContextId : Option RunId
  supersededProposalId : Option RunId
  supersededProposalHash : Option Hash
  feedback : Option (RiskRejectionFeedback R)
  contextHash : Hash
deriving DecidableEq

variable {R : Rules}

/-- The fields that the hash covers, before further ones. -/
def contentFields {τ : Type} (rest : Json.Fields mapping (Args R) τ) :=
  Json.Fields.field "meta" Args.contractMeta (ContractMeta.wire R) <|
    .field "context_id" Args.contextId (Wire.runId R) <|
    .field "attempt" Args.attempt (Wire.integer "attempt" 1 2) <|
    .field "bundle_id" Args.bundleId (Wire.runId R) <|
    .field "bundle_hash" Args.bundleHash (Wire.hash "bundle_hash") <|
    .field "snapshot" Args.snapshot (PortfolioSnapshot.wire R) <|
    .field "snapshot_hash" Args.snapshotHash (Wire.hash "snapshot_hash") <|
    .field "window" Args.window (Wire.exactEnum "window") <|
    .field "deadline" Args.deadline (Wire.timestamp R) <|
    .field "universe_hash" Args.universeHash (Wire.hash "universe_hash") <|
    .field "allowed_symbols" Args.allowedSymbols (Wire.symbols R "allowed_symbols" maxAllowedSymbols) <|
    .field "citation_ids" Args.citationIds (Wire.refs R "citation_ids" maxBundleCitations false) <|
    versionFields R Args.versions <|
    .field "previous_context_id" Args.previousContextId ((Wire.runId R).nullable (Wire.runId_ne_null R)) <|
    .field "superseded_proposal_id" Args.supersededProposalId ((Wire.runId R).nullable (Wire.runId_ne_null R)) <|
    .field "superseded_proposal_hash" Args.supersededProposalHash
      ((Wire.hash "superseded_proposal_hash").nullable (fun _ h => nomatch h)) <|
    .field "feedback" Args.feedback ((RiskRejectionFeedback.wire R).nullable (fun _ h => nomatch h)) rest

/-- `_content_wire` -/
def contentWire (a : Args R) : Json := Json.dict ((contentFields .nil).write a)

/-- The checks of the lineage of an attempt. -/
def checkLineage (a : Args R) : Except Failure Unit :=
  if a.attempt = 1 then
    require (a.previousContextId = none ∧ a.supersededProposalId = none ∧ a.supersededProposalHash = none ∧
      a.feedback = none) "attempt 1 context must not carry retry lineage"
  else
    match a.previousContextId, a.supersededProposalId, a.supersededProposalHash, a.feedback with
    | some _, some superseded, some _, some feedback => do
      require (feedback.val.rejectedProposalId = superseded) "context feedback must target the superseded proposal"
      require (feedback.val.reviewedAt.micros ≤ a.snapshot.val.asOf.micros)
        "risk review must not follow the refreshed snapshot"
      require (a.contractMeta.val.createdAt.micros < feedback.val.reviewedAt.micros)
        "risk review must follow the initial context creation"
    | _, _, _, _ => refuse "attempt 2 context requires previous context and feedback"

def postInit (a : Args R) : Except Failure Unit := do
  require (1 ≤ a.attempt ∧ a.attempt ≤ 2) "attempt must be an exact bounded integer"
  require (a.snapshotHash = a.snapshot.val.contentHash)
    "context snapshot hash must equal the sanitized snapshot hash"
  R.symbols "allowed_symbols" maxAllowedSymbols a.allowedSymbols
  require (a.allowedSymbols ≠ []) "context requires at least one allowed symbol"
  R.refs "citation_ids" maxBundleCitations false a.citationIds
  require (a.citationIds ≠ []) "context requires the frozen bundle citation set"
  R.versions a.versions
  checkLineage a
  require (a.contractMeta.val.runId = a.contextId) "context meta run identity must equal context_id"
  let contextId ← R.deriveContextId a.bundleId a.attempt a.snapshotHash a.supersededProposalId a.supersededProposalHash
  require (a.contextId = contextId) "context_id must be deterministically derived from frozen lineage"
  require (a.snapshot.val.asOf.micros < a.deadline.micros) "context deadline must be after the snapshot as_of"
  let hash ← jsonHash R (contentWire a)
  require (a.contextHash = hash) "context_hash does not match frozen context content"

end ProposalContext

abbrev ProposalContext (R : Rules) : Type := Accepted (ProposalContext.postInit (R := R))

def ProposalContext.wire (R : Rules) : Wire (ProposalContext R) :=
  .contract _ (contentFields (.field "context_hash" Args.contextHash (Wire.hash "context_hash") .nil))
    (fun ⟨contractMeta, contextId, attempt, bundleId, bundleHash, snapshot, snapshotHash, window, deadline,
        universeHash, allowedSymbols, citationIds, graphVersion, promptVersion, modelVersion, providerVersion,
        dataVersion, memoryVersion, previousContextId, supersededProposalId, supersededProposalHash, feedback,
        contextHash, _⟩ =>
      ⟨contractMeta, contextId, attempt, bundleId, bundleHash, snapshot, snapshotHash, window, deadline, universeHash,
        allowedSymbols, citationIds,
        ⟨graphVersion, promptVersion, modelVersion, providerVersion, dataVersion, memoryVersion⟩, previousContextId,
        supersededProposalId, supersededProposalHash, feedback, contextHash⟩)
    (of_decide_eq_true rfl) (fun _ => rfl) (fun _ => rfl)

/-! ### Risk debates -/

namespace RiskArgument

structure Args (R : Rules) where
  contractMeta : ContractMeta R
  argumentId : RunId
  contextId : RunId
  bundleId : RunId
  bundleHash : Hash
  viewpoint : RiskViewpoint
  roundNumber : Int
  argument : String
  evidenceRefs : List String
  producerVersion : String
deriving DecidableEq

def postInit {R : Rules} (a : Args R) : Except Failure Unit := do
  require (1 ≤ a.roundNumber ∧ a.roundNumber ≤ 2) "round_number must be an exact bounded integer"
  R.text "argument" maxTextBytes a.argument
  R.refs "evidence_refs" maxSequenceItems true a.evidenceRefs
  R.version "producer_version" a.producerVersion
  let argumentId ← deriveArgumentId R a.contextId a.viewpoint a.roundNumber
  require (a.argumentId = argumentId) "risk argument identity does not match deterministic derivation"

end RiskArgument

abbrev RiskArgument (R : Rules) : Type := Accepted (RiskArgument.postInit (R := R))

def RiskArgument.wire (R : Rules) : Wire (RiskArgument R) :=
  .contract _
    (.field "meta" Args.contractMeta (ContractMeta.wire R) <|
      .field "argument_id" Args.argumentId (Wire.runId R) <|
      .field "context_id" Args.contextId (Wire.runId R) <|
      .field "bundle_id" Args.bundleId (Wire.runId R) <|
      .field "bundle_hash" Args.bundleHash (Wire.hash "bundle_hash") <|
      .field "viewpoint" Args.viewpoint (Wire.exactEnum "viewpoint") <|
      .field "round_number" Args.roundNumber (Wire.integer "round_number" 1 2) <|
      .field "argument" Args.argument (Wire.text R "argument") <|
      .field "evidence_refs" Args.evidenceRefs (Wire.refs R "evidence_refs" maxSequenceItems true) <|
      .field "producer_version" Args.producerVersion (Wire.version R "producer_version") .nil)
    (fun ⟨contractMeta, argumentId, contextId, bundleId, bundleHash, viewpoint, roundNumber, argument, evidenceRefs,
        producerVersion, _⟩ =>
      ⟨contractMeta, argumentId, contextId, bundleId, bundleHash, viewpoint, roundNumber, argument, evidenceRefs,
        producerVersion⟩)
    (of_decide_eq_true rfl) (fun _ => rfl) (fun _ => rfl)

namespace RiskDebateState

structure Args (R : Rules) where
  contractMeta : ContractMeta R
  debateId : RunId
  contextId : RunId
  bundleId : RunId
  bundleHash : Hash
  arguments : List (RiskArgument R)
  complete : Bool
  debateHash : Hash
deriving DecidableEq

variable {R : Rules}

/-- The fields that the hash covers, before further ones. -/
def contentFields {τ : Type} (rest : Json.Fields mapping (Args R) τ) :=
  Json.Fields.field "complete" Args.complete (Wire.exactBool "complete") <|
    .field "meta" Args.contractMeta (ContractMeta.wire R) <|
    .field "debate_id" Args.debateId (Wire.runId R) <|
    .field "context_id" Args.contextId (Wire.runId R) <|
    .field "bundle_id" Args.bundleId (Wire.runId R) <|
    .field "bundle_hash" Args.bundleHash (Wire.hash "bundle_hash") <|
    .field "arguments" Args.arguments (Wire.sequence "arguments" (RiskArgument.wire R) 6 false false) rest

/-- `_content_wire` -/
def contentWire (a : Args R) : Json := Json.dict ((contentFields .nil).write a)

/-- One round of the loop over the arguments. -/
def checkArgument (a : Args R) (p : RiskArgument R × RiskViewpoint × Int) : Except Failure Unit := do
  require (p.1.val.viewpoint = p.2.1 ∧ p.1.val.roundNumber = p.2.2)
    "risk debate argument order is fixed by viewpoint and round"
  require (p.1.val.contextId = a.contextId ∧ p.1.val.bundleId = a.bundleId ∧ p.1.val.bundleHash = a.bundleHash ∧
    p.1.val.contractMeta = a.contractMeta ∧ p.1.val.producerVersion = a.contractMeta.val.producerVersion)
    "risk debate argument identity is invalid"

def postInit (a : Args R) : Except Failure Unit := do
  require (a.arguments.length = 0 ∨ a.arguments.length = 6)
    "risk debate requires zero or exactly six complete arguments"
  require (a.debateId = R.deriveDebateId a.contextId) "debate identity does not match deterministic derivation"
  require (a.complete = decide (a.arguments.length = 6)) "debate completion requires exactly six arguments"
  (a.arguments.zip debateOrder).forM (checkArgument a)
  require (a.arguments.length = 6 → (a.arguments.map (·.val.argumentId)).Nodup)
    "risk debate arguments must be distinct"
  let hash ← jsonHash R (contentWire a)
  require (a.debateHash = hash) "debate_hash does not match frozen debate content"

end RiskDebateState

abbrev RiskDebateState (R : Rules) : Type := Accepted (RiskDebateState.postInit (R := R))

def RiskDebateState.wire (R : Rules) : Wire (RiskDebateState R) :=
  .contract _ (contentFields (.field "debate_hash" Args.debateHash (Wire.hash "debate_hash") .nil))
    (fun ⟨complete, contractMeta, debateId, contextId, bundleId, bundleHash, arguments, debateHash, _⟩ =>
      ⟨contractMeta, debateId, contextId, bundleId, bundleHash, arguments, complete, debateHash⟩)
    (of_decide_eq_true rfl) (fun _ => rfl) (fun _ => rfl)

/-! ### Proposals -/

namespace PortfolioProposal

structure Args (R : Rules) where
  contractMeta : ContractMeta R
  proposalId : RunId
  attempt : Int
  contextId : RunId
  contextHash : Hash
  bundleId : RunId
  bundleHash : Hash
  supersededProposalId : Option RunId
  universeHash : Hash
  snapshotHash : Hash
  window : AnalysisWindow
  requests : List (PortfolioRequest R)
  versions : Versions
  expirationAt : UtcTimestamp
  status : AnalysisStatus
deriving DecidableEq

def postInit {R : Rules} (a : Args R) : Except Failure Unit := do
  require (1 ≤ a.attempt ∧ a.attempt ≤ 2) "attempt must be an exact bounded integer"
  checkAttempt a.attempt a.proposalId a.supersededProposalId
  require (a.proposalId = R.deriveProposalId a.contextId) "proposal identity does not match deterministic derivation"
  require (a.contractMeta.val.runId = a.proposalId) "proposal meta run identity must equal proposal_id"
  checkRequests a.requests
  R.versions a.versions
  checkProposalStatus a.status a.requests

end PortfolioProposal

abbrev PortfolioProposal (R : Rules) : Type := Accepted (PortfolioProposal.postInit (R := R))

def PortfolioProposal.wire (R : Rules) : Wire (PortfolioProposal R) :=
  .contract _
    (.field "superseded_proposal_id" Args.supersededProposalId
        ((Wire.runId R).nullable (Wire.runId_ne_null R)) <|
      .field "requests" Args.requests
        (Wire.sequence "requests" (PortfolioRequest.wire R) maxAllowedSymbols false false) <|
      .field "meta" Args.contractMeta (ContractMeta.wire R) <|
      .field "proposal_id" Args.proposalId (Wire.runId R) <|
      .field "attempt" Args.attempt (Wire.integer "attempt" 1 2) <|
      .field "context_id" Args.contextId (Wire.runId R) <|
      .field "context_hash" Args.contextHash (Wire.hash "context_hash") <|
      .field "bundle_id" Args.bundleId (Wire.runId R) <|
      .field "bundle_hash" Args.bundleHash (Wire.hash "bundle_hash") <|
      .field "universe_hash" Args.universeHash (Wire.hash "universe_hash") <|
      .field "snapshot_hash" Args.snapshotHash (Wire.hash "snapshot_hash") <|
      .field "window" Args.window (Wire.exactEnum "window") <|
      versionFields R Args.versions <|
      .field "expiration_at" Args.expirationAt (Wire.timestamp R) <|
      .field "status" Args.status (Wire.exactEnum "status") .nil)
    (fun ⟨supersededProposalId, requests, contractMeta, proposalId, attempt, contextId, contextHash, bundleId,
        bundleHash, universeHash, snapshotHash, window, graphVersion, promptVersion, modelVersion, providerVersion,
        dataVersion, memoryVersion, expirationAt, status, _⟩ =>
      ⟨contractMeta, proposalId, attempt, contextId, contextHash, bundleId, bundleHash, supersededProposalId,
        universeHash, snapshotHash, window, requests,
        ⟨graphVersion, promptVersion, modelVersion, providerVersion, dataVersion, memoryVersion⟩, expirationAt,
        status⟩)
    (of_decide_eq_true rfl) (fun _ => rfl) (fun _ => rfl)

end Proposals

end SevenLens.Analysis
