import Mathlib.Logic.Relation
import SevenLens.Securities.Master

/-! # The service over the security master

The public calls: registering an identity, discovering and confirming a split, and the entry
quarantine.  Each call is one transaction of the repository: it ends in a new state or in a
failure, and a failure leaves the state as it was (`State.after`).  Telemetry is emitted after
the transaction and cannot change its outcome.

`computeDecision` is the part of `quarantine` before the decision is stored. -/

namespace SevenLens.Securities

variable {D : Digests}

/-! ### Helpers -/

/-- `_require_head` -/
def requireHead (lineage : List CorporateActionRecord) : Except Failure CorporateActionRecord :=
  match lineage.getLast? with
  | none => throwing .securityMasterService "corporate-action event lineage does not exist"
  | some head => .ok head

/-- `_later` -/
def later (first second : UtcTimestamp) : UtcTimestamp := if second ≤ first then first else second

/-- `_merge_refs` -/
def mergeRefs (refs : List SourceRef) : Except Failure (List SourceRef) :=
  match mergedRefs refs with
  | none => throwing .sourceLineage "one source identifier has conflicting hashes or families"
  | some merged => .ok merged

/-- `_dedupe_identities` -/
def dedupeIdentities (D : Digests) (records : List SecurityIdentityRecord) :
    Except Failure (List SecurityIdentityRecord) := do
  requireOr .identityClosure (records.Pairwise (fun a b => D.identity a = D.identity b → a = b))
    "identity hash collision carries different content"
  return records.dedup.sortOn D.identity

/-- `_identity_resolution_for_event` -/
def identityResolutionForEvent (m : Master D) (event : CorporateActionRecord) (knownAt : UtcTimestamp) :
    Except Failure IdentityResolution :=
  resolveIdentity D.identity (m.identitiesOf event.securityId)
    ⟨event.exDate.start, knownAt, some event.securityId, none, .inl rfl⟩

/-- `_require_pinned_identity` -/
def requirePinnedIdentity (m : Master D) (event : CorporateActionRecord) (knownAt : UtcTimestamp) :
    Except Failure Unit := do
  match ← identityResolutionForEvent m event knownAt with
  | .resolved record =>
    requireOr .identityClosure (D.identity record = event.securityIdentityHash)
      "event identity version does not match the resolved identity"
  | other => throwing .identityClosure ("event identity resolution failed closed: " ++ other.statusValue)

/-- `_revalidate_observation` -/
def revalidateObservation (log : RecordLog) (o : SourceObservation) : Except Failure SourceObservation := do
  let actual ← log.availableAt o.sourceRef
  requireOr .sourceLineage (actual = o.availableAt) "source observation availability is not source-record bound"
  if o.withdrawn then return o
  else
    let current ← log.isCurrent o.sourceRef
    return { o with withdrawn := !current }

/-- `_observation_from_stored_ref`: a confirmed event replays its facts as claims of the official
sources that are still current. -/
def observationFromStoredRef (log : RecordLog) (ref : SourceRef) (head : CorporateActionRecord)
    (knownAt : UtcTimestamp) : Except Failure SourceObservation := do
  let availableAt ← log.availableAt ref
  let current ← log.isCurrentAt ref knownAt
  let auditable := decide (head.state = .confirmed) && current
  let replay := auditable && isOfficial ref.family
  return {
    sourceRef := ref
    availableAt
    withdrawn := !current
    auditable
    claimedType := if replay then some head.actionType else none
    claimedRatio := if replay then some head.ratio else none
    claimedExDate := if replay then some head.exDate else none
    claimedEffectiveDate := if replay then some head.effectiveDate else none }

/-! ### Identities -/

/-- `register_identity` -/
def registerIdentity (log : RecordLog) (m : Master D) (record : SecurityIdentityRecord) :
    Except Failure (AppendOutcome × Master D) := do
  let _ ← log.validateRefs record.sourceRefs (some record.availableAt)
  let (outcome, m) ← m.appendIdentity record
  requireOr .securityMasterService (record ∈ m.identitiesOf record.securityId)
    "identity append readback did not match the request"
  return (outcome, m)

/-! ### Splits -/

/-- `discover_split`: the root and the durable block after it. -/
def discoverSplit (log : RecordLog) (m : Master D) (event : CorporateActionRecord) :
    Except Failure (CorporateActionRecord × Master D) := do
  require (event.state = .detected) "split discovery requires a DETECTED event"
  let _ ← log.validateRefs event.sourceRefs (some event.availableAt)
  requirePinnedIdentity m event event.availableAt
  let (_, m) ← m.appendEvent event none
  let blocked ← eventWithState event .entryBlocked event.availableAt event.sourceRefs
  let (_, m) ← m.appendEvent blocked (some (D.event event))
  let head ← requireHead (← m.eventLineage event.eventId)
  return (head, m)

/-- A new row after the head, in another state, with the sources of the observations. -/
def appendDecided (m : Master D) (head : CorporateActionRecord) (state : CorporateActionState)
    (observations : List SourceObservation) (decisionAt : UtcTimestamp) : Except Failure (Master D) := do
  let refs ← mergeRefs (head.sourceRefs ++ observations.map (·.sourceRef))
  let candidate ← eventWithState head state (later head.availableAt decisionAt) refs
  let (_, m) ← m.appendEvent candidate (some (D.event head))
  return m

/-- `_append_review_if_possible` -/
def appendReviewIfPossible (m : Master D) (head : CorporateActionRecord) (observations : List SourceObservation)
    (decisionAt : UtcTimestamp) : Except Failure (Master D) :=
  if head.state.isTerminal then .ok m
  else appendDecided m head .reviewRequired observations decisionAt

/-- `_apply_confirmation_evaluation` -/
def applyConfirmationEvaluation (m : Master D) (head : CorporateActionRecord) (evaluation : ConfirmationEvaluation)
    (observations : List SourceObservation) (decisionAt : UtcTimestamp) : Except Failure (Master D) :=
  match evaluation.outcome with
  | .entryBlocked => .ok m
  | .reviewRequired => appendReviewIfPossible m head observations decisionAt
  | .confirmed =>
    if head.state = .confirmed then .ok m
    else do
      requireOr .identityClosure (head.state = .entryBlocked) "confirmation cannot bypass the durable entry block"
      appendDecided m head .confirmed observations decisionAt

/-- The block that a head still at `detected` gets before it is confirmed. -/
def blockIfDetected (m : Master D) (eventId : EventId) (head : CorporateActionRecord) (decisionAt : UtcTimestamp) :
    Except Failure (CorporateActionRecord × Master D) :=
  if head.state = .detected then do
    let blocked ← eventWithState head .entryBlocked (later head.availableAt decisionAt) head.sourceRefs
    let (_, m) ← m.appendEvent blocked (some (D.event head))
    let head ← requireHead (← m.eventLineage eventId)
    return (head, m)
  else .ok (head, m)

/-- The transition that the identity and the observations ask for. -/
def decideSplit (m : Master D) (root head : CorporateActionRecord) (observations : List SourceObservation)
    (decisionAt : UtcTimestamp) : Except Failure (Master D) := do
  match ← identityResolutionForEvent m root decisionAt with
  | .resolved identity =>
    if D.identity identity ≠ root.securityIdentityHash then
      appendReviewIfPossible m head observations decisionAt
    else
      let evaluation ← evaluateConfirmation D root identity observations decisionAt
      applyConfirmationEvaluation m head evaluation observations decisionAt
  | _ => appendReviewIfPossible m head observations decisionAt

/-- `confirm_split` -/
def confirmSplit (log : RecordLog) (m : Master D) (eventId : EventId) (observations : List SourceObservation)
    (decisionAt : UtcTimestamp) : Except Failure (CorporateActionRecord × Master D) := do
  let _ ← log.validateRefs (observations.map (·.sourceRef)) none
  let observations ← observations.mapM (revalidateObservation log)
  let lineage ← m.eventLineage eventId
  let head ← requireHead lineage
  let root := lineage.headD head
  let (head, m) ← blockIfDetected m eventId head decisionAt
  let m ← decideSplit m root head observations decisionAt
  let result ← requireHead (← m.eventLineage eventId)
  return (result, m)

/-! ### Quarantine -/

/-- The evidence for one event at the decision time, if a row of it is known by then. -/
def evidenceFor (log : RecordLog) (m : Master D) (decisionAt : UtcTimestamp) (eventId : EventId) :
    Except Failure (Option EventEvidence) := do
  let lineage ← m.eventLineage eventId
  match (lineage.filter (·.knownAt decisionAt)).getLast? with
  | none => return none
  | some head =>
    let visible := lineage.filter (·.knownAt decisionAt)
    let refs ← mergeRefs (visible.flatMap (·.sourceRefs))
    let observations ← refs.mapM (fun ref => observationFromStoredRef log ref head decisionAt)
    let evidence ← eventEvidence visible observations
    return some evidence

/-- The records about the security and about the symbol of a query. -/
def identityRecordsFor (m : Master D) (q : QuarantineQuery) : Except Failure (List SecurityIdentityRecord) :=
  dedupeIdentities D (m.identitiesOf q.securityId ++ m.identitiesNamed q.symbolAsOf)

/-- The decision that `quarantine` evaluates from what is stored. -/
def computeDecision (log : RecordLog) (m : Master D) (q : QuarantineQuery) : Except Failure QuarantineDecision := do
  let records ← identityRecordsFor m q
  let _ ← records.mapM (fun r => log.validateRefs r.sourceRefs none)
  let evidence ← (m.securityEventIds q.securityId).mapM (evidenceFor log m q.decisionAt)
  evaluateQuarantine D q records (evidence.filterMap id)

/-- The decision is stored, and the latest decision of the security is read back. -/
def storeDecision (m : Master D) (d : QuarantineDecision) : Except Failure (QuarantineDecision × Master D) := do
  let (_, m) ← m.recordDecision d
  match m.latestDecision d.securityId with
  | none => throwing .securityMasterService "quarantine decision readback did not match the request"
  | some readback =>
    requireOr .securityMasterService (readback = d) "quarantine decision readback did not match the request"
    return (readback, m)

/-- `quarantine` -/
def quarantine (log : RecordLog) (m : Master D) (q : QuarantineQuery) :
    Except Failure (QuarantineDecision × Master D) := do
  let d ← computeDecision log m q
  storeDecision m d

/-- One of the caller seams: the marker of the query has to name it. -/
def checkFor (purpose : QuarantinePurpose) (log : RecordLog) (m : Master D) (q : QuarantineQuery) :
    Except Failure (QuarantineDecision × Master D) := do
  require (q.purpose = purpose) ("query purpose must be " ++ purpose.value)
  quarantine log m q

/-- `candidate_creation_check` -/
def candidateCreationCheck (log : RecordLog) (m : Master D) (q : QuarantineQuery) :
    Except Failure (QuarantineDecision × Master D) := checkFor .candidateCreation log m q

/-- `risk_approval_check` -/
def riskApprovalCheck (log : RecordLog) (m : Master D) (q : QuarantineQuery) :
    Except Failure (QuarantineDecision × Master D) := checkFor .riskApproval log m q

/-- `submit_recheck` -/
def submitRecheck (log : RecordLog) (m : Master D) (q : QuarantineQuery) :
    Except Failure (QuarantineDecision × Master D) := checkFor .submitRecheck log m q

/-! ### Calls -/

/-- The source log and the repository. -/
structure State (D : Digests) where
  log : RecordLog
  master : Master D

def State.initial : State D := ⟨Table.empty, Master.empty⟩

/-- A call by a client, or a record appended to the source log. -/
inductive Call where
  | appendSource (record : NormalizedSourceRecord)
  | registerIdentity (record : SecurityIdentityRecord)
  | discoverSplit (event : CorporateActionRecord)
  | confirmSplit (eventId : EventId) (observations : List SourceObservation) (decisionAt : UtcTimestamp)
  | quarantine (q : QuarantineQuery)
  | candidateCreationCheck (q : QuarantineQuery)
  | riskApprovalCheck (q : QuarantineQuery)
  | submitRecheck (q : QuarantineQuery)

/-- The repository after a transaction, which a failure rolls back. -/
def committed {α : Type} (s : State D) : Except Failure (α × Master D) → State D
  | .ok (_, m) => { s with master := m }
  | .error _ => s

/-- The state after a call. -/
def State.after (s : State D) : Call → State D
  | .appendSource record =>
    match s.log.append record with
    | .ok (_, log) => { s with log }
    | .error _ => s
  | .registerIdentity record => committed s (Securities.registerIdentity s.log s.master record)
  | .discoverSplit event => committed s (Securities.discoverSplit s.log s.master event)
  | .confirmSplit eventId observations decisionAt =>
    committed s (Securities.confirmSplit s.log s.master eventId observations decisionAt)
  | .quarantine q => committed s (Securities.quarantine s.log s.master q)
  | .candidateCreationCheck q => committed s (Securities.candidateCreationCheck s.log s.master q)
  | .riskApprovalCheck q => committed s (Securities.riskApprovalCheck s.log s.master q)
  | .submitRecheck q => committed s (Securities.submitRecheck s.log s.master q)

/-- The second state comes after some calls in the first. -/
def Runs : State D → State D → Prop := Relation.ReflTransGen (fun s s' => ∃ call, s' = s.after call)

/-- The state comes after some calls in the empty one. -/
def Reachable (s : State D) : Prop := Runs State.initial s

/-- What holds at the start and is kept by every call holds in every reachable state. -/
theorem Reachable.induct {P : State D → Prop} {s : State D} (hs : Reachable s) (h0 : P State.initial)
    (hstep : ∀ s call, Reachable s → P s → P (s.after call)) : P s := by
  induction hs with
  | refl => exact h0
  | tail hr hc ih =>
    obtain ⟨call, rfl⟩ := hc
    exact hstep _ call hr ih

theorem Reachable.after {s : State D} (hs : Reachable s) (call : Call) : Reachable (s.after call) :=
  Relation.ReflTransGen.tail hs ⟨call, rfl⟩

theorem Reachable.runs {s s' : State D} (hs : Reachable s) (h : Runs s s') : Reachable s' :=
  Relation.ReflTransGen.trans hs h

end SevenLens.Securities
