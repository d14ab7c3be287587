import Mathlib
import SevenLens.Screening.Contracts
import SevenLens.Library.Rank
import SevenLens.Library.Dict

/-! # Reflection records and memory artifacts

A reflection record keeps the sources and observations of one day.  A memory entry is a lesson
with the facts and records it rests on, and an artifact is a bounded list of entries with the hash
of its canonical bytes.  Entries and artifacts hold the proofs of what their constructors check.

What the constructors ask of a text beyond its length goes through Unicode tables and search
patterns.  These are the `Rules`, of which nothing is assumed. -/

namespace SevenLens.Memory

open Securities

/-! ### Kinds -/

inductive FactKind where
  | text | number | date | symbol | riskReason
deriving DecidableEq, Repr

inductive ObservationKind where
  | forecast | outcome | riskRejection | openPosition | correction
deriving DecidableEq, Repr

inductive MemoryCategory where
  | riskRejection | forecastCalibration | positionManagement | sameDayLoss | borrowLiquidity | marketRegime
  | unresolvedRisk | general
deriving DecidableEq, Repr

def MemoryCategory.value : MemoryCategory → String
  | riskRejection => "RISK_REJECTION"
  | forecastCalibration => "FORECAST_CALIBRATION"
  | positionManagement => "POSITION_MANAGEMENT"
  | sameDayLoss => "SAME_DAY_LOSS"
  | borrowLiquidity => "BORROW_LIQUIDITY"
  | marketRegime => "MARKET_REGIME"
  | unresolvedRisk => "UNRESOLVED_RISK"
  | general => "GENERAL"

inductive ArtifactState where
  | candidate | validated | current | invalid
deriving DecidableEq, Repr

/-- The transitions of `with_state`. -/
def ArtifactState.allowed : ArtifactState → ArtifactState → Bool
  | candidate, validated | candidate, invalid | validated, current | validated, invalid => true
  | _, _ => false

/-! ### Texts -/

/-- The rules for texts, and the digest. -/
structure Rules where
  /-- What the patterns of `validate_sanitized_text` find, which may allow a bare host. -/
  prohibited : Bool → String → Option String
  /-- `unicodedata.normalize("NFKC", value).casefold()` -/
  canonicalText : String → String
  /-- `int(t.value.timestamp() * 1_000_000)`, which goes through a float. -/
  stamp : UtcTimestamp → Int
  sha256 : ByteArray → Hash

/-- `_REF` -/
def refPattern : Pattern := .cat [.cls isAlnum, .upTo 127 isRecordChar]

/-- `_VERSION` -/
def versionPattern : Pattern :=
  .cat [.cls isAlnum, .upTo 63 (fun c => isAlnum c || c == '.' || c == '_' || c == '+' || c == '-')]

def maxArtifactLines : Nat := 4000

def maxArtifactEntries : Nat := 512

def maxArtifactSources : Nat := 4096

def maxArtifactBytes : Nat := 512 * 1024

def maxFieldBytes : Nat := 2048

def maxEntryEvidence : Nat := 32

def maxTotalFactRefs : Nat := 8192

namespace Rules

variable (R : Rules)

/-- `_exact_text` -/
def exactText (field : String) (maximum : Nat) (allowBareHost : Bool) (s : String) : Except Failure Unit := do
  require (Char.ofNat 0 ∉ s.toList) (field ++ " must not contain NUL")
  require (1 ≤ s.utf8ByteSize ∧ s.utf8ByteSize ≤ maximum) (field ++ " is outside its bounded length")
  match R.prohibited allowBareHost s with
  | some found => refuse (field ++ " contains prohibited " ++ found)
  | none => require (Char.ofNat 10 ∉ s.toList ∧ Char.ofNat 13 ∉ s.toList) (field ++ " must be single-line text")

/-- `_ref` -/
def ref (field s : String) : Except Failure Unit := do
  R.exactText field 128 true s
  require (refPattern.fullmatch s = true) (field ++ " must use canonical reference text")

/-- `_version` -/
def version (field s : String) : Except Failure Unit := do
  R.exactText field 64 true s
  require (versionPattern.fullmatch s = true) (field ++ " must use canonical version text")

/-- `_refs` and `_texts`: a bounded list of distinct items that pass a check. -/
def items (check : String → String → Except Failure Unit) (field : String) (maximum : Nat) (nonempty : Bool)
    (l : List String) : Except Failure Unit := do
  require (l.length ≤ maximum ∧ ¬ (nonempty = true ∧ l = [])) (field ++ " is outside its item bound")
  l.forM (check (field ++ " item"))
  require l.Nodup (field ++ " must not contain duplicates")

/-- `_refs` -/
def refs (field : String) (maximum : Nat) (nonempty : Bool) (l : List String) : Except Failure Unit :=
  items R.ref field maximum nonempty l

/-- `_texts` -/
def texts (field : String) (l : List String) : Except Failure Unit :=
  items (fun item => R.exactText item maxFieldBytes false) field 16 false l

theorem items_ok {check : String → String → Except Failure Unit} {field : String} {maximum : Nat} {nonempty : Bool}
    {l : List String} {u : Unit} : items check field maximum nonempty l = .ok u ↔
      l.length ≤ maximum ∧ (nonempty = true → l ≠ []) ∧ (∀ s ∈ l, check (field ++ " item") s = .ok ()) ∧ l.Nodup := by
  simp only [items, bind_ok, require_ok, Dict.forM_ok, exists_const, not_and, and_assoc]

end Rules

/-! ### Reflection records -/

structure FactRef where
  factId : String
  kind : FactKind
  value : String
deriving DecidableEq

structure ReflectionSourceRef where
  sourceType : String
  facts : List FactRef
  promptInjectionFlags : List String
deriving DecidableEq

structure ReflectionObservation where
  kind : ObservationKind
  factIds : List String
  supersedesRecordId : Option String
deriving DecidableEq

/-- A record of one day.  It passed its checks when it was built, so that a second run of them, by
`verify_integrity`, passes too; its texts are not read again. -/
structure DailyReflectionRecord where
  recordId : String
  createdAt : UtcTimestamp
  availableAt : UtcTimestamp
  cutoffAt : UtcTimestamp
  sources : List ReflectionSourceRef
  observations : List ReflectionObservation
  times_ok : cutoffAt ≤ createdAt ∧ createdAt ≤ availableAt
  facts_ok : (sources.flatMap (fun s => s.facts.map FactRef.factId)).Nodup
  flags_ok : ∀ s ∈ sources, s.promptInjectionFlags = []
deriving DecidableEq

/-- The facts of a record. -/
def DailyReflectionRecord.facts (r : DailyReflectionRecord) : List FactRef := r.sources.flatMap ReflectionSourceRef.facts

/-- A record as an object: two objects may have the same content. -/
structure StoredRecord where
  object : Nat
  record : DailyReflectionRecord
deriving DecidableEq

/-- The records by the keys they are given under. -/
structure SourceMap where
  items : List (String × StoredRecord)
  nodup : (items.map Prod.fst).Nodup

namespace SourceMap

def get (m : SourceMap) (key : String) : Option StoredRecord := m.items.lookup key

def keys (m : SourceMap) : List String := m.items.map Prod.fst

def records (m : SourceMap) : List DailyReflectionRecord := m.items.map (fun item => item.2.record)

end SourceMap

/-! ### Entries -/

/-- A lesson with its lineage. -/
structure MemoryEntry (R : Rules) where
  category : MemoryCategory
  importance : Nat
  observation : String
  reusableLesson : String
  appliesWhen : List String
  invalidWhen : List String
  evidenceIds : List String
  sourceRecordIds : List String
  riskReasonCodes : List String
  importance_ok : importance ≤ 100
  observation_ok : R.exactText "observation" maxFieldBytes false observation = .ok ()
  lesson_ok : R.exactText "reusable_lesson" maxFieldBytes false reusableLesson = .ok ()
  applies_ok : R.texts "applies_when" appliesWhen = .ok ()
  invalid_ok : R.texts "invalid_when" invalidWhen = .ok ()
  evidence_ok : R.refs "evidence_ids" maxEntryEvidence true evidenceIds = .ok ()
  sources_ok : R.refs "source_record_ids" 16 true sourceRecordIds = .ok ()
  reasons_ok : R.refs "risk_reason_codes" 16 false riskReasonCodes = .ok ()
deriving DecidableEq

namespace MemoryEntry

variable {R : Rules}

def texts (l : List String) : Json := .arr (l.map .str)

/-- `to_wire` -/
def toWire (e : MemoryEntry R) : Json :=
  .obj [("category", .str e.category.value), ("importance", .int e.importance), ("observation", .str e.observation),
    ("reusable_lesson", .str e.reusableLesson), ("applies_when", texts e.appliesWhen),
    ("invalid_when", texts e.invalidWhen), ("evidence_ids", texts e.evidenceIds),
    ("source_record_ids", texts e.sourceRecordIds), ("risk_reason_codes", texts e.riskReasonCodes)]

/-- The texts as they are compared. -/
structure Wording where
  observation : String
  reusableLesson : String
  appliesWhen : List String
  invalidWhen : List String
deriving DecidableEq

/-- The texts in canonical form. -/
def wording (e : MemoryEntry R) : Wording where
  observation := R.canonicalText e.observation
  reusableLesson := R.canonicalText e.reusableLesson
  appliesWhen := e.appliesWhen.map R.canonicalText
  invalidWhen := e.invalidWhen.map R.canonicalText

/-- `dedup_key` of a category and a wording. -/
def keyOf (R : Rules) (category : MemoryCategory) (w : Wording) : Hash :=
  R.sha256 ("seven-lens.p3f.dedup.v1\x00" ++ (Json.arr [.str (R.canonicalText category.value), .str w.observation,
    .str w.reusableLesson, texts w.appliesWhen, texts w.invalidWhen]).dumps).toUTF8

/-- `dedup_key` -/
def dedupKey (e : MemoryEntry R) : Hash := keyOf R e.category e.wording

def withCategory (e : MemoryEntry R) (category : MemoryCategory) : MemoryEntry R := { e with category := category }

def withImportance (e : MemoryEntry R) (importance : Nat) (h : importance ≤ 100) : MemoryEntry R :=
  { e with importance := importance, importance_ok := h }

@[simp] theorem wording_withCategory (e : MemoryEntry R) (category : MemoryCategory) :
    (e.withCategory category).wording = e.wording := rfl

end MemoryEntry

/-! ### Artifacts -/

/-- The fields of an artifact that are given with its entries. -/
structure ArtifactFields where
  artifactId : String
  schemaVersion : String
  createdAt : UtcTimestamp
  cutoffAt : UtcTimestamp
  sourceRecordIds : List String
  previousArtifactId : Option String
  promptVersion : String
  modelVersion : String
  providerVersion : String
deriving DecidableEq

/-- An artifact before its checks. -/
structure ArtifactBody (R : Rules) extends ArtifactFields where
  entries : List (MemoryEntry R)
  lineCount : Nat
  contentHash : Hash
deriving DecidableEq

namespace ArtifactBody

variable {R : Rules}

def joined (l : List String) : String := " | ".intercalate l

/-- `render_lines` -/
def renderLines (b : ArtifactBody R) : List String :=
  ["artifact_id: " ++ b.artifactId, "schema_version: " ++ b.schemaVersion, "created_at: " ++ b.createdAt.text,
    "cutoff_at: " ++ b.cutoffAt.text, "previous_artifact_id: " ++ b.previousArtifactId.getD "-"] ++
    b.entries.flatMap (fun e =>
      ["category: " ++ e.category.value, "importance: " ++ toString e.importance, "observation: " ++ e.observation,
        "reusable_lesson: " ++ e.reusableLesson, "applies_when: " ++ joined e.appliesWhen,
        "invalid_when: " ++ joined e.invalidWhen, "evidence_ids: " ++ joined e.evidenceIds,
        "source_record_ids: " ++ joined e.sourceRecordIds, "risk_reason_codes: " ++ joined e.riskReasonCodes])

/-- `content_wire` -/
def contentWire (b : ArtifactBody R) : Json :=
  .obj [("artifact_id", .str b.artifactId), ("schema_version", .str b.schemaVersion),
    ("created_at", .str b.createdAt.text), ("cutoff_at", .str b.cutoffAt.text),
    ("source_record_ids", MemoryEntry.texts b.sourceRecordIds),
    ("previous_artifact_id", Screening.optional b.previousArtifactId),
    ("entries", .arr (b.entries.map MemoryEntry.toWire)), ("line_count", .int b.lineCount),
    ("prompt_version", .str b.promptVersion), ("model_version", .str b.modelVersion),
    ("provider_version", .str b.providerVersion)]

/-- `canonical_content_bytes` -/
def canonicalContentBytes (b : ArtifactBody R) : ByteArray := b.contentWire.dumps.toUTF8

/-- `__post_init__` -/
def postInit (b : ArtifactBody R) : Except Failure Unit := do
  R.ref "artifact_id" b.artifactId
  R.version "schema_version" b.schemaVersion
  require (b.cutoffAt ≤ b.createdAt) "artifact cannot be created before its cutoff"
  R.refs "source_record_ids" maxArtifactSources true b.sourceRecordIds
  b.previousArtifactId.toList.forM (R.ref "previous_artifact_id")
  require (b.previousArtifactId ≠ some b.artifactId) "artifact cannot be its own predecessor"
  require (b.entries.length ≤ maxArtifactEntries ∧ b.entries ≠ []) "entries is outside its item bound"
  require (∀ e ∈ b.entries, ∀ id ∈ e.sourceRecordIds, id ∈ b.sourceRecordIds)
    "memory entry has foreign source-record lineage"
  require ((b.entries.map (fun e => e.evidenceIds.length)).sum ≤ maxTotalFactRefs)
    "artifact exceeds total fact-reference bound"
  require (1 ≤ b.lineCount ∧ b.lineCount ≤ maxArtifactLines) "artifact line count is outside its bound"
  R.version "prompt_version" b.promptVersion
  R.version "model_version" b.modelVersion
  R.version "provider_version" b.providerVersion
  require (b.lineCount = b.renderLines.length) "artifact line count does not match deterministic rendering"
  require (∀ line ∈ b.renderLines, line.utf8ByteSize ≤ maxFieldBytes) "artifact rendered line exceeds byte bound"
  require (b.canonicalContentBytes.size ≤ maxArtifactBytes) "artifact exceeds canonical byte bound"
  require (R.sha256 b.canonicalContentBytes = b.contentHash) "artifact content hash does not match canonical bytes"

end ArtifactBody

/-- A body that passed its checks, with a state. -/
structure MemoryArtifact (R : Rules) extends ArtifactBody R where
  state : ArtifactState
  ok : toArtifactBody.postInit = .ok ()

namespace MemoryArtifact

variable {R : Rules}

/-- `with_state` -/
def withState (a : MemoryArtifact R) (state : ArtifactState) : Except Failure (MemoryArtifact R) := do
  require (a.state.allowed state = true) "artifact state transition is invalid"
  return { a with state := state }

/-- `verify_integrity` -/
def verifyIntegrity (a : MemoryArtifact R) : Except Failure Unit := a.toArtifactBody.postInit

theorem verifyIntegrity_ok (a : MemoryArtifact R) : a.verifyIntegrity = .ok () := a.ok

end MemoryArtifact

/-- `build_memory_artifact` -/
def buildMemoryArtifact {R : Rules} (fields : ArtifactFields) (entries : List (MemoryEntry R)) :
    Except Failure (MemoryArtifact R) := do
  require (entries ≠ []) "entries must be a non-empty exact tuple"
  let provisional : ArtifactBody R := ⟨fields, entries, 5 + 9 * entries.length, ⟨String.ofList (List.replicate 64 '0'), Hash.zeros_ok⟩⟩
  let body : ArtifactBody R := { provisional with contentHash := R.sha256 provisional.canonicalContentBytes }
  match h : body.postInit with
  | .error e => .error e
  | .ok () => return ⟨body, .candidate, h⟩

end SevenLens.Memory
