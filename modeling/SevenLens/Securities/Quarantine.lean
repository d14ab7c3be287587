import Mathlib.Data.List.Dedup
import SevenLens.Securities.CorporateActions

/-! # Split confirmation and entry quarantine

`evaluateConfirmation` weighs the sources read about a detected split, and `evaluateQuarantine`
answers the entry question for one security: from the identity records, and from the lineage
and the sources of every event given.  Both are pure.

The answer is put together from two parts that do not depend on each other: the findings about
the identity, and one verdict for each event (`judge`), which is never `eligible`. -/

namespace SevenLens.Securities

/-! ### Reasons and outcomes -/

inductive QuarantineReason where
  | unknownSecurity | ambiguousIdentity | symbolAsOfMismatch | identityIntervalConflict
  | sourceNotYetAvailable | staleSecurityMaster | splitDetected | formalConfirmationMissing
  | splitRatioConflict | splitDateConflict | splitIdentityConflict | sourceWithdrawnOrCorrected
  | unsupportedCorporateAction | effectiveOrLateEventReview | splitTypeConflict
deriving DecidableEq, Repr

/-- The reasons in their canonical order. -/
def QuarantineReason.all : List QuarantineReason :=
  [.unknownSecurity, .ambiguousIdentity, .symbolAsOfMismatch, .identityIntervalConflict,
    .sourceNotYetAvailable, .staleSecurityMaster, .splitDetected, .formalConfirmationMissing,
    .splitRatioConflict, .splitDateConflict, .splitIdentityConflict, .sourceWithdrawnOrCorrected,
    .unsupportedCorporateAction, .effectiveOrLateEventReview, .splitTypeConflict]

/-- `_sorted_reasons` of the set of the reasons given. -/
def sortedReasons (reasons : List QuarantineReason) : List QuarantineReason :=
  QuarantineReason.all.filter (fun reason => decide (reason ∈ reasons))

theorem sortedReasons_idem (reasons : List QuarantineReason) :
    sortedReasons (sortedReasons reasons) = sortedReasons reasons := by
  unfold sortedReasons
  refine List.filter_congr (fun reason hr => ?_)
  simp [List.mem_filter, hr]

inductive ConfirmationOutcome where
  | entryBlocked | confirmed | reviewRequired
deriving DecidableEq, Repr

inductive QuarantineOutcome where
  | eligible | entryBlocked | reviewRequired
deriving DecidableEq, Repr

/-- `_OUTCOME_RANK` -/
def QuarantineOutcome.rank : QuarantineOutcome → Nat
  | eligible => 0
  | entryBlocked => 1
  | reviewRequired => 2

/-- The caller seams: the marker is part of the query and of nothing else. -/
inductive QuarantinePurpose where
  | candidateCreation | riskApproval | submitRecheck
deriving DecidableEq, Repr

def QuarantinePurpose.value : QuarantinePurpose → String
  | candidateCreation => "CANDIDATE_CREATION"
  | riskApproval => "RISK_APPROVAL"
  | submitRecheck => "SUBMIT_RECHECK"

/-! ### Queries, observations and decisions -/

def maxMasterVersionLength : Nat := 128

/-- Non-empty text of at most 128 characters. -/
def MasterVersionOk (version : String) : Prop := version ≠ "" ∧ version.length ≤ maxMasterVersionLength

instance (version : String) : Decidable (MasterVersionOk version) := inferInstanceAs (Decidable (_ ∧ _))

structure QuarantineQuery where
  purpose : QuarantinePurpose
  securityId : SecurityId
  symbolAsOf : SecuritySymbol
  decisionAt : UtcTimestamp
  masterVersion : String
  version_ok : MasterVersionOk masterVersion
deriving DecidableEq

/-- One source record read about a split.  A fact that is not claimed is not contradicted. -/
structure SourceObservation where
  sourceRef : SourceRef
  availableAt : UtcTimestamp
  withdrawn : Bool
  auditable : Bool
  claimedType : Option CorporateActionType
  claimedRatio : Option SplitRatio
  claimedExDate : Option TradingDate
  claimedEffectiveDate : Option TradingDate
deriving DecidableEq

def maxObservations : Nat := 64

/-- The observations are few, of distinct records, and cover the sources of the root. -/
structure ObservationsOk (observations : List SourceObservation) (lineage : List CorporateActionRecord) : Prop where
  bounded : observations ≠ [] ∧ observations.length ≤ maxObservations
  distinct : (observations.map (fun o => o.sourceRef.recordId)).Nodup
  covering : ∀ root ∈ lineage.head?, ∀ ref ∈ root.sourceRefs,
    ∃ o ∈ observations, o.sourceRef.recordId = ref.recordId ∧ o.sourceRef.recordHash = ref.recordHash

/-- `_validate_observations` -/
def validateObservations (observations : List SourceObservation) (lineage : List CorporateActionRecord) :
    Except Failure Unit := do
  require (observations ≠ [] ∧ observations.length ≤ maxObservations)
    "observations must be a non-empty tuple of at most 64 values"
  require (observations.map (fun o => o.sourceRef.recordId)).Nodup
    "observations must carry unique record identifiers"
  require (∀ root ∈ lineage.head?, ∀ ref ∈ root.sourceRefs,
      ∃ o ∈ observations, o.sourceRef.recordId = ref.recordId ∧ o.sourceRef.recordHash = ref.recordHash)
    "observations must cover every event source ref"

theorem validateObservations_ok {observations : List SourceObservation} {lineage : List CorporateActionRecord}
    {u : Unit} : validateObservations observations lineage = .ok u ↔ ObservationsOk observations lineage := by
  simp only [validateObservations, bind_ok, require_ok, exists_const]
  constructor
  · rintro ⟨hcount, hordered, hdistinct⟩
    exact ⟨hcount, hordered, hdistinct⟩
  · rintro ⟨hcount, hordered, hdistinct⟩
    exact ⟨hcount, hordered, hdistinct⟩

/-- A legal lineage with every source observation read for it. -/
structure EventEvidence where
  lineage : List CorporateActionRecord
  observations : List SourceObservation
  lineage_ok : Lineage lineage
  observations_ok : ObservationsOk observations lineage

/-- The constructor of the evidence. -/
def eventEvidence (lineage : List CorporateActionRecord) (observations : List SourceObservation) :
    Except Failure EventEvidence :=
  match h1 : validateLineage lineage with
  | .error e => .error e
  | .ok _ =>
    match h2 : validateObservations observations lineage with
    | .error e => .error e
    | .ok _ => .ok ⟨lineage, observations, (validateLineage_ok.mp h1).1, validateObservations_ok.mp h2⟩

def maxDecisionSourceRefs : Nat := 256

/-- The entry decision.  Events and sources are in canonical order. -/
structure QuarantineDecision where
  securityId : SecurityId
  symbolAsOf : SecuritySymbol
  masterVersion : String
  decisionAt : UtcTimestamp
  outcome : QuarantineOutcome
  reasons : List QuarantineReason
  eventIds : List EventId
  sourceRefs : List SourceRef
  version_ok : MasterVersionOk masterVersion
  reasons_ok : sortedReasons reasons = reasons
  events_ok : eventIds.Pairwise (· < ·)
  refs_ok : sourceRefs.length ≤ maxDecisionSourceRefs ∧
    (sourceRefs.map SourceRef.recordId).Pairwise (· < ·)
deriving DecidableEq

/-- The hashes of the records of the security master. -/
structure Digests where
  identity : SecurityIdentityRecord → Hash
  event : CorporateActionRecord → Hash
  decision : QuarantineDecision → Hash

/-- `master_version_for` -/
def masterVersionFor (D : Digests) (r : SecurityIdentityRecord) : String :=
  "p4b.securities.v1:" ++ (D.identity r).text

theorem masterVersionFor_ok (D : Digests) (r : SecurityIdentityRecord) : MasterVersionOk (masterVersionFor D r) := by
  have hp : "p4b.securities.v1:".length = 18 := by decide
  have ht : (D.identity r).text.length = 64 := (D.identity r).ok.1
  have hlen : (masterVersionFor D r).length = 82 := by
    unfold masterVersionFor
    rw [String.length_append, ht, hp]
  constructor
  · intro he
    rw [he, String.length_empty] at hlen
    cases hlen
  · rw [hlen, maxMasterVersionLength]
    norm_num

/-! ### Confirmation -/

structure ConfirmationEvaluation where
  outcome : ConfirmationOutcome
  reasons : List QuarantineReason
deriving DecidableEq

/-- Several sources contradict each other, or one of them the event. -/
def contradicted {α : Type} [DecidableEq α] (claims : List α) (fact : α) : Bool :=
  decide (1 < claims.dedup.length) || claims.any (fun claim => decide (claim ≠ fact))

/-- The reason, if the condition holds. -/
def finding (reason : QuarantineReason) (p : Bool) : List QuarantineReason := if p then [reason] else []

/-- `_fact_conflicts` -/
def factConflicts (event : CorporateActionRecord) (observations : List SourceObservation) : List QuarantineReason :=
  finding .splitTypeConflict (contradicted (observations.filterMap (·.claimedType)) event.actionType) ++
  finding .splitRatioConflict (contradicted (observations.filterMap (·.claimedRatio)) event.ratio) ++
  finding .splitDateConflict (contradicted (observations.filterMap (·.claimedExDate)) event.exDate) ++
  finding .splitDateConflict (contradicted (observations.filterMap (·.claimedEffectiveDate)) event.effectiveDate)

/-- `_OFFICIAL_ANNOUNCEMENT_FAMILIES` -/
def isOfficial : P4SourceFamily → Bool
  | .secEdgar | .issuerIr | .exchangeOfficial => true
  | _ => false

/-- `_qualifying_official` -/
def qualifyingOfficial (o : SourceObservation) (decisionAt : UtcTimestamp) : Bool :=
  isOfficial o.sourceRef.family && !o.withdrawn && o.auditable && decide (o.availableAt ≤ decisionAt) &&
    o.claimedType.isSome && o.claimedRatio.isSome && o.claimedExDate.isSome && o.claimedEffectiveDate.isSome

section

variable (D : Digests)

/-- The findings that send a split to review. -/
def confirmationFindings (event : CorporateActionRecord) (identity : SecurityIdentityRecord)
    (observations : List SourceObservation) (decisionAt : UtcTimestamp) : List QuarantineReason :=
  finding .splitIdentityConflict
    (decide (identity.securityId ≠ event.securityId ∨ D.identity identity ≠ event.securityIdentityHash)) ++
  finding .effectiveOrLateEventReview (decide (event.exDate.days ≤ decisionAt.day)) ++
  finding .sourceNotYetAvailable (observations.any (fun o => decide (decisionAt < o.availableAt))) ++
  finding .sourceWithdrawnOrCorrected (observations.any (·.withdrawn)) ++
  factConflicts event observations

/-- `evaluate_confirmation` -/
def evaluateConfirmation (event : CorporateActionRecord) (identity : SecurityIdentityRecord)
    (observations : List SourceObservation) (decisionAt : UtcTimestamp) :
    Except Failure ConfirmationEvaluation := do
  require (event.state.isPreConfirmation = true)
    "confirmation evaluation requires a pre-confirmation event state"
  validateObservations observations [event]
  let findings := confirmationFindings D event identity observations decisionAt
  if findings ≠ [] then
    return ⟨.reviewRequired, sortedReasons (.splitDetected :: findings)⟩
  else if ¬ (observations.any (qualifyingOfficial · decisionAt) = true ∧ observations.all (·.auditable) = true) then
    return ⟨.entryBlocked, [.splitDetected, .formalConfirmationMissing]⟩
  else return ⟨.confirmed, []⟩

/-! ### One event -/

/-- `_event_quarantine`: the visible head against a fresh evaluation from the root. -/
def eventQuarantine (head root : CorporateActionRecord) (resolved : Option SecurityIdentityRecord)
    (observations : List SourceObservation) (decisionAt : UtcTimestamp) :
    Except Failure (QuarantineOutcome × List QuarantineReason) :=
  match resolved with
  | none => .ok (.reviewRequired, [.splitDetected])
  | some identity => do
    let evaluation ← evaluateConfirmation D root identity observations decisionAt
    match evaluation.outcome with
    | .reviewRequired => return (.reviewRequired, evaluation.reasons)
    | .entryBlocked =>
      -- a head past the block without the evidence for it never reads back as safe
      if head.state.isPreConfirmation then return (.entryBlocked, evaluation.reasons)
      else return (.reviewRequired, evaluation.reasons)
    | .confirmed =>
      match head.state with
      | .confirmed => return (.entryBlocked, [.splitDetected])
      | .effectivePendingReconciliation =>
        return (.reviewRequired, [.splitDetected, .effectiveOrLateEventReview])
      | _ => return (.reviewRequired, [.splitDetected])

/-- What an event adds to the decision. -/
structure Verdict where
  outcome : QuarantineOutcome
  reasons : List QuarantineReason
  eventId : EventId
  sourceRefs : List SourceRef

/-- One turn of the loop over the events: nothing, if no row is visible or if it is about
another security. -/
def judge (q : QuarantineQuery) (resolved : Option SecurityIdentityRecord) (evidence : EventEvidence) :
    Except Failure (Option Verdict) :=
  match evidence.lineage.filter (·.knownAt q.decisionAt) with
  | [] => .ok none
  | root :: rest =>
    let head := (root :: rest).getLast (List.cons_ne_nil root rest)
    if head.securityId ≠ q.securityId then .ok none
    else do
      let (outcome, reasons) ← eventQuarantine D head root resolved evidence.observations q.decisionAt
      return some ⟨outcome, reasons, head.eventId,
        head.sourceRefs ++ evidence.observations.map (·.sourceRef)⟩

/-! ### The decision -/

/-- The references without repetition in the order of their record ids, unless two of them
disagree about a record. -/
def mergedRefs (refs : List SourceRef) : Option (List SourceRef) :=
  if refs.Pairwise (fun a b => a.recordId = b.recordId → a = b) then
    some (refs.dedup.sortOn SourceRef.recordId)
  else none

/-- `_collect_source_refs` -/
def collectSourceRefs (resolved : Option SecurityIdentityRecord) (eventRefs : List SourceRef) :
    Except Failure (List SourceRef) :=
  match mergedRefs ((resolved.elim [] (·.sourceRefs)) ++ eventRefs) with
  | none => refuse "source lineage has conflicting hashes for one record identifier"
  | some refs => do
    require (refs.length ≤ maxDecisionSourceRefs) "decision source lineage exceeds 256 record refs"
    return refs

/-- `_symbol_claims_are_ambiguous`: several securities claim the symbol. -/
def symbolClaimsAreAmbiguous (records : List SecurityIdentityRecord) (q : QuarantineQuery) : Bool :=
  decide (1 < ((records.filter (fun r => decide (r.symbol = q.symbolAsOf) &&
    r.answersAsOf q.decisionAt q.decisionAt)).map SecurityIdentityRecord.securityId).dedup.length)

def IdentityResolution.record? : IdentityResolution → Option SecurityIdentityRecord
  | resolved r => some r
  | _ => none

/-- The findings of a resolution: `_STATUS_TO_REASON`, or what is wrong with the record. -/
def resolutionFindings (q : QuarantineQuery) : IdentityResolution → List QuarantineReason
  | .resolved r =>
    finding .symbolAsOfMismatch (decide (r.symbol ≠ q.symbolAsOf)) ++
    finding .staleSecurityMaster (decide (q.masterVersion ≠ masterVersionFor D r))
  | .unknown => [.unknownSecurity]
  | .ambiguous => [.ambiguousIdentity]
  | .conflict => [.identityIntervalConflict]
  | .stale => [.sourceNotYetAvailable]

/-- Every finding about the identity. -/
def identityFindings (q : QuarantineQuery) (records : List SecurityIdentityRecord) (x : IdentityResolution) :
    List QuarantineReason :=
  resolutionFindings D q x ++ finding .ambiguousIdentity (symbolClaimsAreAmbiguous records q)

/-- The outcome of the highest rank. -/
def worst (outcomes : List QuarantineOutcome) : QuarantineOutcome :=
  outcomes.foldl (fun best outcome => if best.rank < outcome.rank then outcome else best) .eligible

def maxEventLineages : Nat := 16

/-- The identity query of an entry query. -/
def QuarantineQuery.identityQuery (q : QuarantineQuery) : IdentityQuery :=
  ⟨q.decisionAt, q.decisionAt, some q.securityId, some q.symbolAsOf, .inl rfl⟩

/-- The event of a piece of evidence. -/
def EventEvidence.eventId? (evidence : EventEvidence) : Option EventId := evidence.lineage.head?.map (·.eventId)

/-- `_build_decision`: the constructor re-checks the bounds and orders. -/
def buildDecision (q : QuarantineQuery) (resolved : Option SecurityIdentityRecord) (outcome : QuarantineOutcome)
    (reasons : List QuarantineReason) (eventIds : List EventId) (sourceRefs : List SourceRef) :
    Except Failure QuarantineDecision :=
  let masterVersion := resolved.elim q.masterVersion (masterVersionFor D)
  if h1 : MasterVersionOk masterVersion then
    if h2 : sortedReasons reasons = reasons then
      if h3 : eventIds.Pairwise (· < ·) then
        if h4 : sourceRefs.length ≤ maxDecisionSourceRefs ∧
            (sourceRefs.map SourceRef.recordId).Pairwise (· < ·) then
          .ok ⟨q.securityId, q.symbolAsOf, masterVersion, q.decisionAt, outcome, reasons, eventIds, sourceRefs,
            h1, h2, h3, h4⟩
        else refuse "source_refs must use the canonical order"
      else refuse "event_ids must use the canonical order"
    else refuse "reasons must use the canonical order"
  else refuse "master_version must be non-empty bounded text"

/-- `evaluate_quarantine` -/
def evaluateQuarantine (q : QuarantineQuery) (records : List SecurityIdentityRecord)
    (events : List EventEvidence) : Except Failure QuarantineDecision := do
  require (events.length ≤ maxEventLineages) "event_lineages must be a tuple of at most 16 EventEvidence values"
  require (events.map EventEvidence.eventId?).Nodup "event_lineages must carry unique event identifiers"
  let resolution ← resolveIdentity D.identity records q.identityQuery
  let findings := identityFindings D q records resolution
  let verdicts := (← events.mapM (judge D q resolution.record?)).filterMap id
  let sourceRefs ← collectSourceRefs resolution.record? (verdicts.flatMap Verdict.sourceRefs)
  buildDecision D q resolution.record?
    (if findings ≠ [] then .reviewRequired else worst (verdicts.map Verdict.outcome))
    (sortedReasons (findings ++ verdicts.flatMap Verdict.reasons))
    ((verdicts.map Verdict.eventId).dedup.sortOn id) sourceRefs

end

end SevenLens.Securities
