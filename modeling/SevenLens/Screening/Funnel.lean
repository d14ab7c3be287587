import SevenLens.Universe.Contracts

/-! # The candidate funnel

The complete feature vectors are ranked by their scores, which are computed again from the raw
values, and the best hundred are the quant candidates.  The first thirty of these that the evidence
gate lets through are the evidence candidates, and the first twelve and five of those the
candidates of the two focus windows. -/

namespace SevenLens.Screening

open Securities Universe

variable {auth : Authority}

/-! ### Quant candidates -/

/-- The raw values of a vector. -/
def FeatureVector.row (v : FeatureVector auth) : Row := fun name => (v.raw name).value

/-- The cross-section of the complete vectors. -/
def rawBySecurity (complete : List (FeatureVector auth)) : List (SecurityId × Row) :=
  complete.map (fun v => (v.securityId, v.row))

/-- `universe.eligible_entries` -/
def eligibleEntries (snapshot : UniverseBody) : List UniverseEntry := snapshot.entries.filter UniverseEntry.eligible

/-- `eligible.get(security_id)` -/
def memberOf (members : List UniverseEntry) (id : SecurityId) : Option UniverseEntry :=
  members.find? (fun member => member.securityId = id)

/-- The scores of a vector are the ones that were computed for it. -/
def checkScores (expected : List (SecurityId × Scores)) (v : FeatureVector auth) : Except Failure Unit :=
  match expected.lookup v.securityId with
  | none => .error (.keyError v.securityId.value)
  | some scores => require (v.scores.any (fun s => s.same scores) = true)
      "complete vector scores must be recomputed from the approved raw factors"

/-- The content of the candidate of a vector. -/
def quantBody (v : FeatureVector auth) (scores : Scores) (decision : Hash) : EntryBody :=
  { scores with
    securityId := v.securityId
    symbol := v.symbol
    stage := .quant
    featureHash := v.featureHash
    universeHash := v.universeHash
    quarantineDecisionHash := decision
    sectorAssignmentHash := none
    evidenceSourceRefs := []
    reasons := [] }

/-- The candidate of a complete vector. -/
def quantEntry (members : List UniverseEntry) (v : FeatureVector auth) : Except Failure (Option CandidateEntry) :=
  match memberOf members v.securityId with
  | none => refuse "complete vector is not an eligible universe member"
  | some member => do
    require (member.symbol = v.symbol) "complete vector is not an eligible universe member"
    match member.quarantineDecisionHash with
    | none => refuse "eligible universe members require a quarantine decision reference"
    | some decision =>
      match v.scores with
      | none => return none
      | some scores => do
        let entry ← finalizeCandidateEntry (quantBody v scores decision)
        return some entry

/-- The checks of the vectors against the manifest and the universe. -/
def checkVectors (vectors : List (FeatureVector auth)) (snapshot : UniverseSnapshot auth.sha256) :
    Except Failure Unit := do
  let ids : List SecurityId := vectors.map (fun v => v.securityId)
  let eligible : List SecurityId := (eligibleEntries snapshot.toUniverseBody).map (fun member => member.securityId)
  require ids.Nodup "vectors must not repeat a security"
  require (ids ⊆ eligible ∧ eligible ⊆ ids) "feature vectors must cover exactly the eligible universe"
  require (∀ v ∈ vectors, v.status = .complete → v.manifestHash = auth.factorManifestHash)
    "complete vector uses a factor manifest other than the approved manifest"
  require (∀ v ∈ vectors, v.status = .complete → v.universeHash = snapshot.universeHash)
    "complete vector uses a different universe"
  require (∀ v ∈ vectors, v.status = .complete → snapshot.knownAt ≤ v.knownAt)
    "complete vector predates the universe knowledge cutoff"

/-- `[v for v in vectors if v.status is FactorStatus.COMPLETE]` -/
def completeVectors (vectors : List (FeatureVector auth)) : List (FeatureVector auth) :=
  vectors.filter (fun v => v.status = .complete)

/-- `quant_candidates` under the approved manifest, before the list is cut. -/
def rankedCandidates (vectors : List (FeatureVector auth)) (snapshot : UniverseSnapshot auth.sha256) :
    Except Failure (List CandidateEntry) := do
  checkVectors vectors snapshot
  let complete := completeVectors vectors
  let expected ← categoryScores (rawBySecurity complete)
  complete.forM (checkScores expected)
  let entries ← complete.mapM (quantEntry (eligibleEntries snapshot.toUniverseBody))
  canonicalOrder entries.reduceOption

/-- `quant_candidates` -/
def quantCandidates (vectors : List (FeatureVector auth)) (snapshot : UniverseSnapshot auth.sha256) :
    Except Failure (List CandidateEntry) := do
  let ranked ← rankedCandidates vectors snapshot
  return ranked.take CandidateStage.quant.cap

/-! ### Sectors -/

inductive SicDivision where
  | A | B | C | D | E | F | G | H | I | J | sectorUnknown
deriving DecidableEq, Repr

def SicDivision.value : SicDivision → String
  | A => "A"
  | B => "B"
  | C => "C"
  | D => "D"
  | E => "E"
  | F => "F"
  | G => "G"
  | H => "H"
  | I => "I"
  | J => "J"
  | sectorUnknown => "SECTOR_UNKNOWN"

/-- `_SIC_RANGES`, by major groups. -/
def sicRanges : List (Nat × Nat × SicDivision) :=
  [(1, 9, .A), (10, 14, .B), (15, 17, .C), (20, 39, .D), (40, 49, .E), (50, 51, .F), (52, 59, .G), (60, 67, .H),
    (70, 89, .I), (91, 97, .J)]

/-- `classify_sic` of a text that is there. -/
def classifySic (sic : String) : SicDivision :=
  if (Pattern.between 3 4 isDigit).fullmatch sic then
    let digits := (if sic.length = 3 then '0' :: sic.toList else sic.toList).map (fun c => c.toNat - '0'.toNat)
    let group := digits.getD 0 0 * 10 + digits.getD 1 0
    ((sicRanges.find? (fun range => range.1 ≤ group && group ≤ range.2.1)).map (fun range => range.2.2)).getD
      .sectorUnknown
  else .sectorUnknown

/-- The content of a sector assignment.  The taxonomy version is a constant. -/
structure AssignmentBody where
  securityId : SecurityId
  cik : Cik
  sic : String
  division : SicDivision
  sourceRef : SourceRef
  accession : Option String
  availableAt : UtcTimestamp
  taxonomyHash : Hash

namespace AssignmentBody

/-- What the constructor of a sector assignment checks. -/
def postInit (auth : Authority) (a : AssignmentBody) : Except Failure Unit := do
  require ((Pattern.between 4 4 isDigit).fullmatch a.sic = true) "sic must be a 3- or 4-digit string"
  require (a.sourceRef.family = .secEdgar) "sector assignments require the SEC EDGAR authority"
  boundedOptional a.accession "accession"
  require (a.division = classifySic a.sic) "division does not match the approved SIC classification"
  require (a.taxonomyHash = auth.sectorManifestHash) "taxonomy_hash must identify the approved sector manifest"

def wire (a : AssignmentBody) : Json :=
  .obj [("security_id", .str a.securityId.value),
    ("cik", .str a.cik.value),
    ("sic", .str a.sic),
    ("division", .str a.division.value),
    ("source_ref", SourceRef.wire a.sourceRef),
    ("accession", optional a.accession),
    ("available_at", .str a.availableAt.text),
    ("taxonomy_version", .str "sec-sic-division-v1"),
    ("taxonomy_hash", .str a.taxonomyHash.text)]

def computeHash (auth : Authority) (a : AssignmentBody) : Except Failure Hash := do
  let canonical ← canonicalJson a.wire 65536 "sector assignment"
  return auth.sha256 ("seven-lens.p4c.sector-assignment.v1\x00" ++ canonical)

end AssignmentBody

/-- A sector assignment: its content passes the checks, and the hash is the one of the content. -/
structure SectorAssignment (auth : Authority) extends AssignmentBody where
  assignmentHash : Hash
  valid : toAssignmentBody.postInit auth = .ok ()
  bound : toAssignmentBody.computeHash auth = .ok assignmentHash

/-! ### Evidence candidates -/

/-- The content of an evidence view. -/
structure EvidenceBody where
  securityId : SecurityId
  authorityComplete : Bool
  evidenceFresh : Bool
  evidenceConflict : Bool
  promptInjectionUnresolved : Bool
  quarantineDecision : QuarantineDecision
  evidenceSourceRefs : List SourceRef

/-- What the constructor of an evidence view checks. -/
def EvidenceBody.postInit (e : EvidenceBody) : Except Failure Unit := do
  canonicalRefs e.evidenceSourceRefs "evidence_source_refs must use unique record identifiers"
    "evidence_source_refs must use canonical order"
  require (e.evidenceSourceRefs.all (fun r => r.family.isEvidence) = true)
    "evidence_source_refs must use an approved evidence authority"

/-- The typed inputs of the evidence gate for one security. -/
structure EvidenceView extends EvidenceBody where
  valid : toEvidenceBody.postInit = .ok ()

/-- `_validated_candidate_sequence` -/
def validatedCandidateSequence (entries : List CandidateEntry) (stage : CandidateStage) (label : String) :
    Except Failure (List CandidateEntry) := do
  require (entries.map (fun e => e.securityId)).Nodup (label ++ " must not repeat a security")
  require (entries.all (fun e => e.stage = stage) = true) (label ++ " contains an entry from the wrong stage")
  let expected ← canonicalOrder entries
  require (sameEntries entries expected = true) (label ++ " must use the canonical score order")
  return entries

/-- `identity_records`: a mapping by security id, or a sequence. -/
inductive IdentityRecords where
  | mapping (items : List (String × SecurityIdentityRecord))
  | sequence (values : List SecurityIdentityRecord)

/-- The identity records by security id. -/
def IdentityRecords.byId : IdentityRecords → Except Failure (List (String × SecurityIdentityRecord))
  | mapping items => do
    require (items.map Prod.fst).Nodup "identity_records must not repeat a security"
    require (∀ item ∈ items, item.2.securityId.value = item.1)
      "identity_records mapping must bind exact identity records"
    return items
  | sequence values => do
    require (values.map (fun r => r.securityId.value)).Nodup "identity_records must not repeat a security"
    return values.map (fun r => (r.securityId.value, r))

/-- The division of an assignment, when it was available in time. -/
def sectorOf (asOf knownAt : UtcTimestamp) (item : String × SectorAssignment auth) :
    Except Failure (String × SicDivision) := do
  require (item.2.securityId.value = item.1) "sector assignment security id does not match its mapping key"
  require (item.2.taxonomyHash = auth.sectorManifestHash) "sector assignment uses an unapproved taxonomy manifest"
  let late := asOf < item.2.availableAt ∨ knownAt < item.2.availableAt
  return (item.1, if late then .sectorUnknown else item.2.division)

/-- `_validate_universe_available_for_cutoff` -/
def validateUniverseAvailableForCutoff (snapshot : UniverseBody) (cutoff : UtcTimestamp) : Except Failure Unit := do
  require (OnOrAfter snapshot.asOf cutoff) "universe month does not match screening cutoff"
  require (snapshot.knownAt ≤ cutoff) "universe was not available by screening cutoff"

/-- What the evidence gate looks up. -/
structure Gate (auth : Authority) where
  views : List EvidenceView
  sectors : List (String × SicDivision)
  assignments : List (String × SectorAssignment auth)
  identities : List (String × SecurityIdentityRecord)
  members : List UniverseEntry
  asOf : UtcTimestamp
  knownAt : UtcTimestamp

/-- The universe, the quarantine decision, the identity and the sector assignment all speak of the
candidate. -/
structure Closed (D : Digests) (g : Gate auth) (entry : CandidateEntry) (view : EvidenceView) (member : UniverseEntry)
    (identity : SecurityIdentityRecord) (assignment : SectorAssignment auth) : Prop where
  memberSymbol : member.symbol = entry.symbol
  decision : member.quarantineDecisionHash = some (D.decision view.quarantineDecision)
  decisionId : view.quarantineDecision.securityId = entry.securityId
  decisionSymbol : view.quarantineDecision.symbolAsOf = entry.symbol
  outcome : view.quarantineDecision.outcome = .eligible
  identityId : identity.securityId = entry.securityId
  identitySymbol : identity.symbol = entry.symbol
  identityHash : member.identityHash = some (D.identity identity)
  status : identity.status = .active
  answers : identity.answersAsOf g.asOf g.knownAt = true
  cik : identity.cik = some assignment.cik

theorem closed_iff (D : Digests) (g : Gate auth) (entry : CandidateEntry) (view : EvidenceView) (member : UniverseEntry)
    (identity : SecurityIdentityRecord) (assignment : SectorAssignment auth) :
    Closed D g entry view member identity assignment ↔
      member.symbol = entry.symbol ∧ member.quarantineDecisionHash = some (D.decision view.quarantineDecision) ∧
        view.quarantineDecision.securityId = entry.securityId ∧ view.quarantineDecision.symbolAsOf = entry.symbol ∧
        view.quarantineDecision.outcome = .eligible ∧ identity.securityId = entry.securityId ∧
        identity.symbol = entry.symbol ∧ member.identityHash = some (D.identity identity) ∧
        identity.status = .active ∧ identity.answersAsOf g.asOf g.knownAt = true ∧
        identity.cik = some assignment.cik := by
  constructor
  · intro h
    exact ⟨h.1, h.2, h.3, h.4, h.5, h.6, h.7, h.8, h.9, h.10, h.11⟩
  · rintro ⟨h1, h2, h3, h4, h5, h6, h7, h8, h9, h10, h11⟩
    exact ⟨h1, h2, h3, h4, h5, h6, h7, h8, h9, h10, h11⟩

instance (D : Digests) (g : Gate auth) (entry : CandidateEntry) (view : EvidenceView) (member : UniverseEntry)
    (identity : SecurityIdentityRecord) (assignment : SectorAssignment auth) :
    Decidable (Closed D g entry view member identity assignment) :=
  decidable_of_iff' _ (closed_iff D g entry view member identity assignment)

/-- The view and the assignment of a candidate that the gate lets through. -/
def Gate.accept (D : Digests) (g : Gate auth) (entry : CandidateEntry) :
    Option (EvidenceView × SectorAssignment auth) := do
  let view ← g.views.find? (fun view => view.securityId = entry.securityId)
  let division ← g.sectors.lookup entry.securityId.value
  guard (division ≠ .sectorUnknown)
  guard (view.authorityComplete = true ∧ view.evidenceFresh = true)
  guard (view.evidenceConflict = false ∧ view.promptInjectionUnresolved = false)
  let assignment ← g.assignments.lookup entry.securityId.value
  let member ← memberOf g.members entry.securityId
  let identity ← g.identities.lookup entry.securityId.value
  guard (Closed D g entry view member identity assignment)
  return (view, assignment)

/-- The evidence candidate of a quant candidate that the gate lets through. -/
def promote (entry : CandidateEntry) (view : EvidenceView) (assignment : SectorAssignment auth) : EntryBody :=
  { entry.toEntryBody with
    stage := .evidence
    sectorAssignmentHash := some assignment.assignmentHash
    evidenceSourceRefs := view.evidenceSourceRefs
    reasons := [] }

/-- The loop over the quant candidates, which ends when as many are kept as the cap allows. -/
def keepFirst (D : Digests) (g : Gate auth) : Nat → List CandidateEntry → Except Failure (List CandidateEntry)
  | 0, _ => return []
  | _ + 1, [] => return []
  | n + 1, entry :: quant =>
    match g.accept D entry with
    | none => keepFirst D g (n + 1) quant
    | some p => do
      let kept ← finalizeCandidateEntry (promote entry p.1 p.2)
      let rest ← keepFirst D g n quant
      return kept :: rest

/-- `evidence_candidates` -/
def evidenceCandidates (D : Digests) (quant : List CandidateEntry) (views : List EvidenceView)
    (sectorDivision : List (String × SectorAssignment auth)) (identityRecords : IdentityRecords) (asOf : UtcTimestamp)
    (snapshot : UniverseSnapshot auth.sha256) : Except Failure (List CandidateEntry) := do
  let quant ← validatedCandidateSequence quant .quant "quant"
  require (views.map (fun view => view.securityId)).Nodup "evidence_views must not repeat a security"
  require (∀ view ∈ views, view.securityId ∈ quant.map (fun e => e.securityId))
    "evidence_views cannot introduce a security outside quant"
  validateUniverseAvailableForCutoff snapshot.toUniverseBody asOf
  let identities ← identityRecords.byId
  let sectors ← sectorDivision.mapM (sectorOf asOf snapshot.knownAt)
  keepFirst D ⟨views, sectors, sectorDivision, identities, eligibleEntries snapshot.toUniverseBody, asOf,
    snapshot.knownAt⟩ CandidateStage.evidence.cap quant

/-! ### Focus candidates -/

inductive FocusWindow where
  | openPlus60m | closeMinus90m
deriving DecidableEq, Repr

def FocusWindow.stage : FocusWindow → CandidateStage
  | openPlus60m => .focusOpen
  | closeMinus90m => .focusClose

/-- `focus_candidates` -/
def focusCandidates (evidence : List CandidateEntry) (window : FocusWindow) : Except Failure (List CandidateEntry) := do
  let evidence ← validatedCandidateSequence evidence .evidence "evidence"
  expectedFocusFromEvidence evidence window.stage

end SevenLens.Screening
