import Mathlib.Data.Prod.Lex
import SevenLens.Library.Json
import SevenLens.Screening.Scores

/-! # Feature vectors and candidate sets

The records the funnel exchanges.  A record is a body together with the proof that its
constructor accepts the body, so a value of the type is a value the code can hold.  Hashes of
new records are computed from the canonical wire text, whose length is bounded. -/

namespace SevenLens

/-! ### Wire texts of dates and instants -/

namespace UtcTimestamp

/-- The year of an instant. -/
def year (t : UtcTimestamp) : Nat :=
  let guess := t.day * 400 / 146097 + 1
  if t.day < daysBeforeYear guess then guess - 1
  else if daysBeforeYear (guess + 1) ≤ t.day then guess + 1
  else guess

/-- The month of an instant. -/
def month (t : UtcTimestamp) : Nat :=
  ((List.range 13).drop 1).countP (fun m => daysBeforeMonth t.year m ≤ t.day - daysBeforeYear t.year)

/-- `str(t)`: `YYYY-MM-DDTHH:MM:SS.ffffffZ`. -/
def text (t : UtcTimestamp) : String :=
  let dayOfMonth := t.day - daysBeforeYear t.year - daysBeforeMonth t.year t.month + 1
  let rest := t.micros % dayMicros
  zeroPad 4 t.year ++ "-" ++ zeroPad 2 t.month ++ "-" ++ zeroPad 2 dayOfMonth ++ "T" ++
    zeroPad 2 (rest / hourMicros) ++ ":" ++ zeroPad 2 (rest / 60000000 % 60) ++ ":" ++
    zeroPad 2 (rest / 1000000 % 60) ++ "." ++ zeroPad 6 (rest % 1000000) ++ "Z"

end UtcTimestamp

namespace Screening

open Securities

/-- The digest function and the digests of the approved manifests. -/
structure Authority where
  sha256 : String → Hash
  factorManifestHash : Hash
  sectorManifestHash : Hash
  clusterManifestHash : Hash

/-- `_bounded_text` -/
def boundedText (value label : String) : Except Failure Unit := do
  require (value ≠ "") (label ++ " requires bounded text")
  require (hasNul value = false ∧ value.utf8ByteSize ≤ 256) (label ++ " exceeds the 256-byte text bound")

/-- The bound on a text that may be absent. -/
def boundedOptional (value : Option String) (label : String) : Except Failure Unit :=
  match value with
  | none => .ok ()
  | some text => boundedText text label

/-- `_canonical_json_bytes`: the text, when it keeps the cap. -/
def canonicalJson (wire : Json) (limit : Nat) (label : String) : Except Failure String := do
  require (wire.bytes ≤ limit) (label ++ " exceeds the " ++ toString limit ++ "-byte serialized cap")
  return wire.dumps

def optional (s : Option String) : Json := s.elim .null .str

def SourceRef.wire (r : SourceRef) : Json :=
  .obj [("record_id", .str r.recordId), ("family", .str r.family.value),
    ("record_hash", .str r.recordHash.text)]

/-- References by distinct records, in canonical order. -/
def canonicalRefs (refs : List SourceRef) (repeated disordered : String) : Except Failure Unit := do
  require (refs.map SourceRef.recordId).Nodup repeated
  require (refs = SourceRef.sorted refs) disordered

/-! ### Feature vectors -/

inductive FactorStatus where
  | complete | factorInputMissing | factorManifestNotApproved | sectorTaxonomyNotAuthorized
deriving DecidableEq, Repr

def FactorStatus.value : FactorStatus → String
  | complete => "COMPLETE"
  | factorInputMissing => "FACTOR_INPUT_MISSING"
  | factorManifestNotApproved => "FACTOR_MANIFEST_NOT_APPROVED"
  | sectorTaxonomyNotAuthorized => "SECTOR_TAXONOMY_NOT_AUTHORIZED"

/-- One raw subfactor of a vector: its name, formula version and security are those of the
vector and its column. -/
structure RawFeature where
  value : Option Decimal
  sourceRefs : List SourceRef
  missingReason : Option String
deriving DecidableEq

def formulaVersion : String := "p4-factor-v1.0"

/-- What the constructor of a raw feature checks. -/
def RawFeature.check (r : RawFeature) : Except Failure Unit := do
  require (r.sourceRefs ≠ [] ∧ r.sourceRefs.length ≤ 64)
    "raw feature source_refs require 1 to 64 exact SourceRef values"
  canonicalRefs r.sourceRefs "raw feature source_refs must not repeat a record"
    "raw feature source_refs must use canonical order"
  boundedOptional r.missingReason "missing_reason"
  require (r.value.isSome ∨ r.missingReason.isSome) "missing raw features require a non-empty missing reason"
  require (r.value = none ∨ r.missingReason = none) "present raw features cannot carry a missing reason"

/-- The content of a feature vector.  The nine raw features are indexed by the subfactors, so
their names and order are the approved ones; the five scores are present together. -/
structure FeatureBody where
  securityId : SecurityId
  symbol : SecuritySymbol
  universeHash : Hash
  manifestHash : Hash
  asOf : UtcTimestamp
  knownAt : UtcTimestamp
  status : FactorStatus
  raw : RawSubfactor → RawFeature
  scores : Option Scores
  missingReason : Option String
  schemaVersion : SchemaVersion
  priceSessionDates : List TradingDate

namespace FeatureBody

def scoreText (b : FeatureBody) (field : Scores → Decimal) : Json := optional (b.scores.map (fun s => (field s).text))

def rawWire (b : FeatureBody) (name : RawSubfactor) : Json :=
  .obj [("name", .str name.value),
    ("value", optional ((b.raw name).value.map Decimal.text)),
    ("formula_version", .str formulaVersion),
    ("security_id", .str b.securityId.value),
    ("source_refs", .arr ((b.raw name).sourceRefs.map SourceRef.wire)),
    ("missing_reason", optional (b.raw name).missingReason)]

def wire (b : FeatureBody) : Json :=
  .obj [("security_id", .str b.securityId.value),
    ("symbol", .str b.symbol.value),
    ("universe_hash", .str b.universeHash.text),
    ("manifest_hash", .str b.manifestHash.text),
    ("as_of", .str b.asOf.text),
    ("known_at", .str b.knownAt.text),
    ("status", .str b.status.value),
    ("raw", .arr (RawSubfactor.all.map b.rawWire)),
    ("trend", b.scoreText Scores.trend),
    ("quality", b.scoreText Scores.quality),
    ("value", b.scoreText Scores.value),
    ("low_risk", b.scoreText Scores.lowRisk),
    ("composite", b.scoreText Scores.composite),
    ("missing_reason", optional b.missingReason),
    ("schema_version", .str b.schemaVersion.value),
    ("producer_version", .str "p4c.screening.v1"),
    ("price_session_dates", .arr (b.priceSessionDates.map (fun d => .str d.isoformat)))]

def computeHash (auth : Authority) (b : FeatureBody) : Except Failure Hash := do
  let canonical ← canonicalJson b.wire 1048576 "feature vector"
  return auth.sha256 ("seven-lens.p4c.feature-vector.v1\x00" ++ canonical)

/-- A complete vector has every value and score and no reason, any other one the reverse. -/
def checkStatus (b : FeatureBody) : Except Failure Unit :=
  if b.status = .complete then do
    require (RawSubfactor.all.all (fun name => (b.raw name).value.isSome) = true)
      "COMPLETE status requires every raw feature value"
    require (b.missingReason = none) "COMPLETE status cannot carry a missing reason"
    require (b.scores.isSome = true) "COMPLETE status requires every category score"
  else do
    require (b.missingReason.isSome = true) "non-COMPLETE status requires a missing reason"
    require (b.scores = none) "non-COMPLETE status cannot carry category scores"

/-- What the constructor of a feature vector checks. -/
def postInit (auth : Authority) (b : FeatureBody) : Except Failure Unit := do
  require (b.knownAt ≤ b.asOf) "known_at cannot be after as_of"
  require (b.status = .complete → b.manifestHash = auth.factorManifestHash)
    "COMPLETE vectors require the approved factor manifest"
  b.checkStatus
  boundedOptional b.missingReason "missing_reason"
  require ((b.priceSessionDates.map TradingDate.days).Pairwise (· < ·))
    "price_session_dates must be ordered and unique"
  require (b.status = .complete → b.priceSessionDates.length = 252)
    "COMPLETE vectors require the latest 252 price sessions"
  require (b.status ≠ .complete → b.priceSessionDates = [])
    "non-COMPLETE vectors cannot carry price session dates"

end FeatureBody

/-- A feature vector: its raw features and its content pass their checks, and the hash is the
one of the content. -/
structure FeatureVector (auth : Authority) extends FeatureBody where
  featureHash : Hash
  raw_ok : ∀ name, (raw name).check = .ok ()
  valid : toFeatureBody.postInit auth = .ok ()
  bound : toFeatureBody.computeHash auth = .ok featureHash

/-- `_finalize_feature_vector`, after the raw features have been built. -/
def finalizeFeatureVector (auth : Authority) (b : FeatureBody) : Except Failure (FeatureVector auth) :=
  match hraw : RawSubfactor.all.mapM (fun name => (b.raw name).check) with
  | .error e => .error e
  | .ok _ =>
    match hb : b.computeHash auth with
    | .error e => .error e
    | .ok hash =>
      match hv : b.postInit auth with
      | .error e => .error e
      | .ok _ =>
        .ok { b with
              featureHash := hash
              raw_ok := fun name => by
                obtain ⟨u, hu⟩ : ∃ u, (b.raw name).check = .ok u := by
                  have hf := Dict.forall₂_of_mapM hraw
                  obtain ⟨u, _, hu⟩ := Dict.lookup_zip_of_forall₂ hf (RawSubfactor.mem_all name)
                  exact ⟨u, hu⟩
                exact hu
              valid := hv
              bound := hb }

namespace FeatureVector

variable {auth : Authority} (v : FeatureVector auth)

theorem known_le : v.knownAt ≤ v.asOf := by
  obtain ⟨_, h, _⟩ := bind_ok.mp v.valid
  exact require_ok.mp h

theorem checkStatus_ok : v.checkStatus = .ok () := by
  obtain ⟨_, _, h⟩ := bind_ok.mp v.valid
  obtain ⟨_, _, h⟩ := bind_ok.mp h
  obtain ⟨_, h, _⟩ := bind_ok.mp h
  exact h

/-- A complete vector has its scores. -/
theorem scores_of_complete (h : v.status = .complete) : ∃ s, v.scores = some s := by
  have hc := v.checkStatus_ok
  rw [FeatureBody.checkStatus, if_pos h] at hc
  obtain ⟨_, _, hc⟩ := bind_ok.mp hc
  obtain ⟨_, _, hc⟩ := bind_ok.mp hc
  exact Option.isSome_iff_exists.mp (require_ok.mp hc)

/-- A complete vector has its nine raw values. -/
theorem value_of_complete (h : v.status = .complete) (name : RawSubfactor) :
    ∃ x, (v.raw name).value = some x := by
  have hc := v.checkStatus_ok
  rw [FeatureBody.checkStatus, if_pos h] at hc
  obtain ⟨_, hc, _⟩ := bind_ok.mp hc
  have hall := List.all_eq_true.mp (require_ok.mp hc) name (RawSubfactor.mem_all name)
  exact Option.isSome_iff_exists.mp hall

end FeatureVector

/-! ### Candidates -/

inductive CandidateStage where
  | quant | evidence | focusOpen | focusClose
deriving DecidableEq, Repr

namespace CandidateStage

def value : CandidateStage → String
  | quant => "QUANT"
  | evidence => "EVIDENCE"
  | focusOpen => "FOCUS_OPEN"
  | focusClose => "FOCUS_CLOSE"

/-- The name of the stage's field in a candidate set. -/
def field : CandidateStage → String
  | quant => "quant"
  | evidence => "evidence"
  | focusOpen => "focus_open"
  | focusClose => "focus_close"

/-- The most entries of the stage. -/
def cap : CandidateStage → Nat
  | quant => 100
  | evidence => 30
  | focusOpen => 12
  | focusClose => 5

end CandidateStage

/-- The closed reasons a record can carry, in their canonical order. -/
inductive ClosedReason where
  | unsupportedAssetClass | otcOrExcludedInstrument | notActiveOrTradable | priceBelowMinimum
  | advBelowMinimum | insufficientTradingHistory | identityNotClosed | corporateActionQuarantine
  | quoteMissingOrStale | spreadTooWide | marketDataConflict | factorInputMissing
  | factorManifestNotApproved | sectorTaxonomyNotAuthorized | clusterPolicyNotApproved
  | evidenceInsufficientOrConflicting | windowOrDeadlineInvalid
deriving DecidableEq, Repr

namespace ClosedReason

def value : ClosedReason → String
  | unsupportedAssetClass => "UNSUPPORTED_ASSET_CLASS"
  | otcOrExcludedInstrument => "OTC_OR_EXCLUDED_INSTRUMENT"
  | notActiveOrTradable => "NOT_ACTIVE_OR_TRADABLE"
  | priceBelowMinimum => "PRICE_BELOW_MINIMUM"
  | advBelowMinimum => "ADV_BELOW_MINIMUM"
  | insufficientTradingHistory => "INSUFFICIENT_TRADING_HISTORY"
  | identityNotClosed => "IDENTITY_NOT_CLOSED"
  | corporateActionQuarantine => "CORPORATE_ACTION_QUARANTINE"
  | quoteMissingOrStale => "QUOTE_MISSING_OR_STALE"
  | spreadTooWide => "SPREAD_TOO_WIDE"
  | marketDataConflict => "MARKET_DATA_CONFLICT"
  | factorInputMissing => "FACTOR_INPUT_MISSING"
  | factorManifestNotApproved => "FACTOR_MANIFEST_NOT_APPROVED"
  | sectorTaxonomyNotAuthorized => "SECTOR_TAXONOMY_NOT_AUTHORIZED"
  | clusterPolicyNotApproved => "CLUSTER_POLICY_NOT_APPROVED"
  | evidenceInsufficientOrConflicting => "EVIDENCE_INSUFFICIENT_OR_CONFLICTING"
  | windowOrDeadlineInvalid => "WINDOW_OR_DEADLINE_INVALID"

/-- The place of a reason in the canonical order. -/
def order : ClosedReason → Nat := ClosedReason.ctorIdx

end ClosedReason

/-- The content of one funnel candidate. -/
structure EntryBody extends Scores where
  securityId : SecurityId
  symbol : SecuritySymbol
  stage : CandidateStage
  featureHash : Hash
  universeHash : Hash
  quarantineDecisionHash : Hash
  sectorAssignmentHash : Option Hash
  evidenceSourceRefs : List SourceRef
  reasons : List ClosedReason
deriving DecidableEq

/-- What the constructor of a candidate entry checks. -/
def EntryBody.postInit (e : EntryBody) : Except Failure Unit := do
  require (e.stage = .quant → e.sectorAssignmentHash = none)
    "quant candidates cannot carry a sector-assignment reference"
  require (e.stage ≠ .quant → e.sectorAssignmentHash ≠ none)
    "non-quant candidates require a sector-assignment reference"
  require (e.evidenceSourceRefs.length ≤ 64) "evidence_source_refs require at most 64 SourceRef values"
  canonicalRefs e.evidenceSourceRefs "evidence_source_refs must use unique record identifiers"
    "evidence_source_refs must use canonical order"
  require (e.evidenceSourceRefs.all (fun r => r.family.isEvidence) = true)
    "evidence_source_refs must use an approved evidence authority"
  require (e.stage = .quant → e.evidenceSourceRefs = [])
    "quant candidates cannot carry evidence source references"
  require (e.stage ≠ .quant → e.evidenceSourceRefs ≠ [])
    "non-quant candidates require typed evidence source references"
  require e.reasons.Nodup "reasons must be unique"
  require (e.reasons = e.reasons.sortOn ClosedReason.order) "reasons must use the canonical order"

/-- One ordered funnel candidate. -/
structure CandidateEntry extends EntryBody where
  valid : toEntryBody.postInit = .ok ()
deriving DecidableEq

/-- `_finalize_candidate_entry` -/
def finalizeCandidateEntry (e : EntryBody) : Except Failure CandidateEntry :=
  match h : e.postInit with
  | .ok () => .ok ⟨e, h⟩
  | .error f => .error f

theorem finalizeCandidateEntry_ok {e : EntryBody} {c : CandidateEntry} :
    finalizeCandidateEntry e = .ok c ↔ c.toEntryBody = e := by
  constructor
  · intro h
    unfold finalizeCandidateEntry at h
    split at h <;> cases h
    rfl
  · rintro rfl
    unfold finalizeCandidateEntry
    split
    · rfl
    · rename_i h
      rw [c.valid] at h
      cases h

/-- Equal scores: each pair of numbers is numerically equal. -/
def Scores.same (s t : Scores) : Bool :=
  s.composite.equals t.composite && s.trend.equals t.trend && s.quality.equals t.quality &&
    s.value.equals t.value && s.lowRisk.equals t.lowRisk

/-- Equality of entries: the scores compare numerically, all other fields exactly. -/
def CandidateEntry.same (a b : CandidateEntry) : Bool :=
  a.toScores.same b.toScores &&
    { a.toEntryBody with toScores := b.toScores } == b.toEntryBody

/-- Equality of sequences of entries. -/
def sameEntries (l m : List CandidateEntry) : Bool :=
  l.length == m.length && (l.zip m).all (fun p => p.1.same p.2)

/-! ### The order of candidates -/

/-- Descending scores, then ascending security id. -/
abbrev ScoreKey := ℚ ×ₗ ℚ ×ₗ ℚ ×ₗ ℚ ×ₗ ℚ ×ₗ SecurityId

/-- `(-composite, -trend, -quality, -value, -low_risk, security_id)` -/
def scoreKey (e : CandidateEntry) : Except Failure ScoreKey := do
  let composite ← arith (context.minus e.composite)
  let trend ← arith (context.minus e.trend)
  let quality ← arith (context.minus e.quality)
  let value ← arith (context.minus e.value)
  let lowRisk ← arith (context.minus e.lowRisk)
  return toLex (composite.value, toLex (trend.value, toLex (quality.value, toLex (value.value,
    toLex (lowRisk.value, e.securityId)))))

/-- `sorted(entries, key=...)`, where computing a key can fail. -/
def canonicalOrder (entries : List CandidateEntry) : Except Failure (List CandidateEntry) := do
  let keys ← entries.mapM scoreKey
  return ((keys.zip entries).sortOn Prod.fst).map Prod.snd

/-- `_expected_focus_from_evidence`: the evidence prefix, relabelled. -/
def expectedFocusFromEvidence (evidence : List CandidateEntry) (stage : CandidateStage) :
    Except Failure (List CandidateEntry) := do
  require (evidence.all (fun e => e.stage = .evidence) = true) "focus evidence must contain EVIDENCE entries"
  require (stage = .focusOpen ∨ stage = .focusClose) "focus stage must be FOCUS_OPEN or FOCUS_CLOSE"
  (evidence.take stage.cap).mapM (fun e => finalizeCandidateEntry { e.toEntryBody with stage := stage })

/-! ### Candidate sets -/

/-- A check of every entry of a list, in order. -/
def each {α : Type} (f : α → Except Failure Unit) : List α → Except Failure Unit
  | [] => .ok ()
  | a :: l => do
    f a
    each f l

theorem each_ok {α : Type} {f : α → Except Failure Unit} {l : List α} :
    each f l = .ok () ↔ ∀ a ∈ l, f a = .ok () := by
  induction l with
  | nil => simp [each]
  | cons a l ih =>
    rw [each, bind_ok, List.forall_mem_cons, ← ih]
    constructor
    · rintro ⟨_, h1, h2⟩
      exact ⟨h1, h2⟩
    · rintro ⟨h1, h2⟩
      exact ⟨(), h1, h2⟩

/-- The content of a candidate set. -/
structure CandidateSetBody where
  asOf : UtcTimestamp
  knownAt : UtcTimestamp
  factorManifestHash : Hash
  clusterManifestHash : Hash
  universeHash : Hash
  quant : List CandidateEntry
  evidence : List CandidateEntry
  focusOpen : List CandidateEntry
  focusClose : List CandidateEntry
  policyHash : Hash
  producerVersion : String
  schemaVersion : SchemaVersion
deriving DecidableEq

def stages : List CandidateStage := [.quant, .evidence, .focusOpen, .focusClose]

def CandidateEntry.wire (e : CandidateEntry) : Json :=
  .obj [("security_id", .str e.securityId.value),
    ("symbol", .str e.symbol.value),
    ("composite", .str e.composite.text),
    ("trend", .str e.trend.text),
    ("quality", .str e.quality.text),
    ("value", .str e.value.text),
    ("low_risk", .str e.lowRisk.text),
    ("stage", .str e.stage.value),
    ("feature_hash", .str e.featureHash.text),
    ("universe_hash", .str e.universeHash.text),
    ("quarantine_decision_hash", .str e.quarantineDecisionHash.text),
    ("sector_assignment_hash", optional (e.sectorAssignmentHash.map Hash.text)),
    ("evidence_source_refs", .arr (e.evidenceSourceRefs.map SourceRef.wire)),
    ("reasons", .arr (e.reasons.map (fun r => .str r.value)))]

namespace CandidateSetBody

def entries (b : CandidateSetBody) : CandidateStage → List CandidateEntry
  | .quant => b.quant
  | .evidence => b.evidence
  | .focusOpen => b.focusOpen
  | .focusClose => b.focusClose

def wire (b : CandidateSetBody) : Json :=
  .obj [("as_of", .str b.asOf.text),
    ("known_at", .str b.knownAt.text),
    ("factor_manifest_hash", .str b.factorManifestHash.text),
    ("cluster_manifest_hash", .str b.clusterManifestHash.text),
    ("universe_hash", .str b.universeHash.text),
    ("quant", .arr (b.quant.map CandidateEntry.wire)),
    ("evidence", .arr (b.evidence.map CandidateEntry.wire)),
    ("focus_open", .arr (b.focusOpen.map CandidateEntry.wire)),
    ("focus_close", .arr (b.focusClose.map CandidateEntry.wire)),
    ("policy_hash", .str b.policyHash.text),
    ("producer_version", .str b.producerVersion),
    ("schema_version", .str b.schemaVersion.value)]

def computeHash (auth : Authority) (b : CandidateSetBody) : Except Failure Hash := do
  let canonical ← canonicalJson b.wire 4194304 "candidate set"
  return auth.sha256 ("seven-lens.p4c.candidate-set.v1\x00" ++ canonical)

/-- The entries of a stage carry its label, name distinct securities and stand in order. -/
def checkStage (b : CandidateSetBody) (stage : CandidateStage) : Except Failure Unit := do
  require ((b.entries stage).all (fun e => e.stage = stage) = true)
    (stage.field ++ " contains an entry from the wrong stage")
  require ((b.entries stage).map (fun e => e.securityId)).Nodup (stage.field ++ " must not repeat a security")
  let ordered ← canonicalOrder (b.entries stage)
  require (sameEntries (b.entries stage) ordered = true) (stage.field ++ " must use the canonical score order")

/-- An entry repeats the identity and the scores of its parent; a focus entry repeats its
evidence too. -/
def lineage (stage : CandidateStage) (entry parent : CandidateEntry) : Bool :=
  entry.symbol = parent.symbol && entry.toScores.same parent.toScores &&
    entry.featureHash = parent.featureHash && entry.universeHash = parent.universeHash &&
    entry.quarantineDecisionHash = parent.quarantineDecisionHash &&
    (stage = .evidence || (entry.evidenceSourceRefs = parent.evidenceSourceRefs &&
      entry.sectorAssignmentHash = parent.sectorAssignmentHash))

/-- The entries of a stage come from the parent stage, unchanged and in its order. -/
def checkParent (b : CandidateSetBody) (stage parent : CandidateStage) : Except Failure Unit := do
  let ids := (b.entries stage).map (fun e => e.securityId)
  let parentIds := (b.entries parent).map (fun e => e.securityId)
  require (ids.all (fun i => parentIds.contains i) = true)
    (stage.field ++ " must be a subset of its parent stage")
  require ((b.entries stage).all (fun e =>
      ((b.entries parent).find? (fun p => p.securityId = e.securityId)).any (lineage stage e)) = true)
    (stage.field ++ " must preserve parent identity and score lineage")
  require (ids = ids.sortOn (fun i => parentIds.findIdx (fun j => j = i)))
    (stage.field ++ " must preserve parent stage order")

/-- The focus stage is the prefix of the evidence stage. -/
def checkFocus (b : CandidateSetBody) (stage : CandidateStage) : Except Failure Unit := do
  let expected ← expectedFocusFromEvidence b.evidence stage
  require (sameEntries (b.entries stage) expected = true)
    (stage.field ++ " must equal the canonical evidence prefix")

/-- What the constructor of a candidate set checks. -/
def postInit (auth : Authority) (b : CandidateSetBody) : Except Failure Unit := do
  require (b.knownAt ≤ b.asOf) "known_at cannot be after as_of"
  require (b.factorManifestHash = auth.factorManifestHash) "candidate set requires the approved factor manifest"
  require (b.clusterManifestHash = auth.clusterManifestHash)
    "candidate set requires the approved cluster manifest"
  each (fun stage => require ((b.entries stage).length ≤ stage.cap) (stage.field ++
    " must be a tuple of at most " ++ toString stage.cap ++ " CandidateEntry values")) stages
  require ((stages.map (fun stage => (b.entries stage).length)).sum ≤ 147)
    "candidate set exceeds the maximum stage item count"
  each (fun stage => require ((b.entries stage).all (fun e => e.universeHash = b.universeHash) = true)
    "candidate entry is bound to a different universe") stages
  each b.checkStage stages
  b.checkParent .evidence .quant
  b.checkParent .focusOpen .evidence
  b.checkParent .focusClose .evidence
  each b.checkFocus [.focusOpen, .focusClose]
  boundedText b.producerVersion "producer_version"
  require (b.producerVersion = "p4c.screening.v1") "candidate set producer_version is not approved"

end CandidateSetBody

/-- The immutable funnel output. -/
structure CandidateSet (auth : Authority) extends CandidateSetBody where
  candidateHash : Hash
  valid : toCandidateSetBody.postInit auth = .ok ()
  bound : toCandidateSetBody.computeHash auth = .ok candidateHash

/-- The scores of an entry are those of its complete parent vector, which was known in time. -/
def copiedFrom {auth : Authority} (vectors : List (FeatureVector auth)) (asOf knownAt : UtcTimestamp)
    (e : CandidateEntry) : Bool :=
  (vectors.find? (fun v => v.securityId = e.securityId)).any (fun v =>
    v.status = .complete && v.symbol = e.symbol && v.featureHash = e.featureHash &&
      v.universeHash = e.universeHash && v.asOf = asOf && v.knownAt ≤ knownAt &&
      v.scores.any (fun s => s.same e.toScores))

/-- `build_candidate_set`: every entry copies its vector; the hash is derived, then the set is
checked. -/
def buildCandidateSet {auth : Authority} (vectors : List (FeatureVector auth)) (b : CandidateSetBody) :
    Except Failure (CandidateSet auth) := do
  require (vectors.map (fun v => v.securityId)).Nodup "feature_vectors must not repeat a security"
  each (fun stage => each (fun e => require (copiedFrom vectors b.asOf b.knownAt e = true)
    "candidate score is not copied from its complete feature vector") (b.entries stage)) stages
  match hb : b.computeHash auth with
  | .error e => .error e
  | .ok hash =>
    match hv : b.postInit auth with
    | .error e => .error e
    | .ok () => .ok { b with candidateHash := hash, valid := hv, bound := hb }

end Screening

end SevenLens
