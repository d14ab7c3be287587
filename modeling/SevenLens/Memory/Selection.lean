import Mathlib.Data.List.Lex
import Mathlib.Data.Prod.Lex
import SevenLens.Memory.Contracts

/-! # Selection of memory entries

Candidates with one `dedup_key` are merged, their category and visibility are derived again from
the records they cite, and the best of them are taken within the quotas.  The ranking fields that a
provider sets are replaced on the way (`deriveCandidatePolicy`); what is derived reads nothing of an
entry but its evidence and its records (`deriveEntryPolicy_congr`). -/

namespace SevenLens.Memory

open Securities

variable {R : Rules}

/-! ### Candidates -/

theorem zero_rating_ok : 0 ≤ 100 := Nat.zero_le 100

theorem one_recurrence_ok : 1 ≤ 1 ∧ 1 ≤ 10000 := by decide

/-- An entry with the fields it is ranked by. -/
@[ext] structure MemoryCandidate (R : Rules) where
  entry : MemoryEntry R
  availableAt : UtcTimestamp
  recurrenceCount : Nat
  unresolved : Bool
  modelImportance : Nat
  recurrence_ok : 1 ≤ recurrenceCount ∧ recurrenceCount ≤ 10000
  model_ok : modelImportance ≤ 100

instance : DecidableEq (MemoryCandidate R) := fun _ _ => decidable_of_iff' _ MemoryCandidate.ext_iff

/-- A text of each field of a tuple, a list as it is and a text as a list of one: tuples of this
shape are compared field by field. -/
def MemoryCandidate.tieBreaker (c : MemoryCandidate R) : List (List String) :=
  let e := c.entry
  [[e.wording.observation], [e.wording.reusableLesson], e.wording.appliesWhen, e.wording.invalidWhen,
    e.evidenceIds, e.sourceRecordIds, e.riskReasonCodes, [c.availableAt.text],
    [e.observation], [e.reusableLesson], e.appliesWhen, e.invalidWhen]

/-! ### Merging -/

/-- `merge_refs`: each value once, where it occurs first. -/
def mergeRefs (field : MemoryEntry R → List String) (group : List (MemoryCandidate R)) : List String :=
  ((group.sortOn MemoryCandidate.tieBreaker).flatMap (fun c => field c.entry)).eraseDups

theorem mem_mergeRefs {field : MemoryEntry R → List String} {group : List (MemoryCandidate R)} {s : String} :
    s ∈ mergeRefs field group ↔ ∃ c ∈ group, s ∈ field c.entry := by
  rw [mergeRefs, List.mem_eraseDups, List.mem_flatMap]
  simp only [List.mem_sortOn]

/-- What is merged from lists of references is one, if it is not too long. -/
theorem refs_mergeRefs {field : MemoryEntry R → List String} {name : String} {maximum : Nat} {nonempty : Bool}
    (hfield : ∀ e, R.refs name maximum nonempty (field e) = .ok ()) {group : List (MemoryCandidate R)}
    (hgroup : group ≠ []) (hlength : (mergeRefs field group).length ≤ maximum) :
    R.refs name maximum nonempty (mergeRefs field group) = .ok () := by
  refine Rules.items_ok.mpr ⟨hlength, fun hnonempty hnil => ?_, fun s hs => ?_, ?_⟩
  · obtain ⟨c, hc⟩ := List.exists_mem_of_ne_nil _ hgroup
    obtain ⟨s, hs⟩ := List.exists_mem_of_ne_nil _ ((Rules.items_ok.mp (hfield c.entry)).2.1 hnonempty)
    have hmem := mem_mergeRefs.mpr ⟨c, hc, hs⟩
    rw [hnil] at hmem
    cases hmem
  · obtain ⟨c, -, hs⟩ := mem_mergeRefs.mp hs
    exact (Rules.items_ok.mp (hfield c.entry)).2.2.1 s hs
  · exact Dict.nodup_eraseDups _

/-- The merged lists are within the bounds of an entry. -/
def WithinBounds (group : List (MemoryCandidate R)) : Prop :=
  (mergeRefs MemoryEntry.evidenceIds group).length ≤ maxEntryEvidence ∧
    (mergeRefs MemoryEntry.sourceRecordIds group).length ≤ 16 ∧
      (mergeRefs MemoryEntry.riskReasonCodes group).length ≤ 16

instance (group : List (MemoryCandidate R)) : Decidable (WithinBounds group) := inferInstanceAs (Decidable (_ ∧ _ ∧ _))

/-- An entry with the lineage of a group. -/
def MemoryEntry.withLineage (e : MemoryEntry R) (group : List (MemoryCandidate R)) (hgroup : group ≠ [])
    (hbounds : WithinBounds group) : MemoryEntry R :=
  { e with
    evidenceIds := mergeRefs MemoryEntry.evidenceIds group
    sourceRecordIds := mergeRefs MemoryEntry.sourceRecordIds group
    riskReasonCodes := mergeRefs MemoryEntry.riskReasonCodes group
    evidence_ok := refs_mergeRefs (fun e => e.evidence_ok) hgroup hbounds.1
    sources_ok := refs_mergeRefs (fun e => e.sources_ok) hgroup hbounds.2.1
    reasons_ok := refs_mergeRefs (fun e => e.reasons_ok) hgroup hbounds.2.2 }

/-- One group: the first candidate by the tie breaker stands for it, with the lineage of all. -/
def mergeGroup (group : List (MemoryCandidate R)) : Except Failure (MemoryCandidate R) :=
  match h : group.sortOn MemoryCandidate.tieBreaker with
  | [] => refuse "min() iterable argument is empty"
  | representative :: _ =>
    if hbounds : WithinBounds group then
      .ok { representative with
        entry := representative.entry.withLineage group
          (fun hnil => absurd h (by rw [hnil]; exact (List.cons_ne_nil _ _).symm)) hbounds }
    else refuse "merged candidate lineage exceeds hard entry bounds"

/-- The candidates of each `dedup_key`, in the order of the keys. -/
def candidateGroups (candidates : List (MemoryCandidate R)) : List (List (MemoryCandidate R)) :=
  ((candidates.map (fun c => c.entry.dedupKey)).dedup.sortOn id).map
    (fun key => candidates.filter (fun c => decide (c.entry.dedupKey = key)))

/-- `_merge_candidates` -/
def mergeCandidates (candidates : List (MemoryCandidate R)) : Except Failure (List (MemoryCandidate R)) :=
  (candidateGroups candidates).mapM mergeGroup

/-! ### The derived policy -/

/-- `_CATEGORY_BASE` -/
def categoryBase : MemoryCategory → Nat
  | .riskRejection => 78
  | .forecastCalibration => 72
  | .positionManagement => 68
  | .sameDayLoss => 82
  | .borrowLiquidity => 82
  | .marketRegime => 66
  | .unresolvedRisk => 86
  | .general => 40

/-- `deterministic_importance` -/
def deterministicImportance (c : MemoryCandidate R) : Nat :=
  min 100 (categoryBase c.entry.category + min (c.recurrenceCount - 1) 8 * 2 +
    min c.entry.riskReasonCodes.length 3 * 2 + if c.unresolved then 6 else 0)

theorem deterministicImportance_le (c : MemoryCandidate R) : deterministicImportance c ≤ 100 := min_le_left _ _

/-- `_SOURCE_CATEGORY_MARKERS` -/
def sourceCategoryMarker (sourceType : String) : Option MemoryCategory :=
  [("same_day_loss", MemoryCategory.sameDayLoss), ("borrow_liquidity", .borrowLiquidity),
    ("market_regime", .marketRegime), ("unresolved_risk", .unresolvedRisk),
    ("open_position", .positionManagement)].lookup sourceType

/-- `_MARKER_PRIORITY` -/
def markerPriority : List MemoryCategory :=
  [.unresolvedRisk, .sameDayLoss, .borrowLiquidity, .marketRegime, .positionManagement]

/-- The records an entry cites. -/
def citedRecords (sourceRecordIds : List String) (m : SourceMap) : Except Failure (List StoredRecord) :=
  sourceRecordIds.mapM (fun id =>
    match m.get id with
    | none => refuse "candidate contains foreign source-record lineage"
    | some r => .ok r)

/-- One record of the loop over the cited ones, with the facts seen before it. -/
def scanRecord (m : SourceMap) (seen : List String) (r : StoredRecord) : Except Failure (List String) := do
  require ((m.get r.record.recordId).map StoredRecord.object = some r.object)
    "candidate source-record identity is invalid"
  r.record.facts.foldlM (fun seen fact => do
    require (fact.factId ∉ seen) "candidate source fact ids are not globally unique"
    return fact.factId :: seen) seen

/-- A fact of the one list is in the other. -/
def meets (evidenceIds factIds : List String) : Bool := factIds.any (· ∈ evidenceIds)

section

variable (evidenceIds : List String) (records : List DailyReflectionRecord)

/-- The observations about the evidence. -/
def matchingObservations : List ReflectionObservation :=
  records.flatMap (fun r => r.observations.filter (fun o => meets evidenceIds o.factIds))

def markerCategories : List MemoryCategory :=
  records.flatMap (fun r => r.sources.filterMap (fun source =>
    if meets evidenceIds (source.facts.map FactRef.factId) then sourceCategoryMarker source.sourceType else none))

def derivedCategory : MemoryCategory :=
  let kinds := (matchingObservations evidenceIds records).map ReflectionObservation.kind
  match markerPriority.find? (· ∈ markerCategories evidenceIds records) with
  | some category => category
  | none =>
    if .riskRejection ∈ kinds then .riskRejection
    else if .openPosition ∈ kinds then .positionManagement
    else if .forecast ∈ kinds ∨ .outcome ∈ kinds then .forecastCalibration
    else .general

def derivedUnresolved : Bool :=
  decide (.unresolvedRisk ∈ markerCategories evidenceIds records ∨
    .openPosition ∈ (matchingObservations evidenceIds records).map ReflectionObservation.kind)

end

/-- What is derived for an entry. -/
structure EntryPolicy where
  category : MemoryCategory
  availableAt : UtcTimestamp
  recurrenceCount : Nat
  unresolved : Bool
deriving DecidableEq

/-- `derive_entry_policy` of the evidence and the records of an entry. -/
def derivePolicy (evidenceIds sourceRecordIds : List String) (m : SourceMap) : Except Failure EntryPolicy := do
  let stored ← citedRecords sourceRecordIds m
  let _ ← stored.foldlM (scanRecord m) []
  let records := stored.map StoredRecord.record
  match records.map DailyReflectionRecord.availableAt with
  | [] => refuse "max() iterable argument is empty"
  | first :: rest =>
    return ⟨derivedCategory evidenceIds records, rest.foldl max first,
      max 1 (matchingObservations evidenceIds records).length, derivedUnresolved evidenceIds records⟩

/-- `derive_entry_policy` -/
def deriveEntryPolicy (e : MemoryEntry R) (m : SourceMap) : Except Failure EntryPolicy :=
  derivePolicy e.evidenceIds e.sourceRecordIds m

/-- The constructor of a candidate. -/
def memoryCandidate (e : MemoryEntry R) (policy : EntryPolicy) : Except Failure (MemoryCandidate R) :=
  if h : 1 ≤ policy.recurrenceCount ∧ policy.recurrenceCount ≤ 10000 then
    .ok ⟨e, policy.availableAt, policy.recurrenceCount, policy.unresolved, 0, h, zero_rating_ok⟩
  else refuse "recurrence_count is outside its bound"

/-- `_derive_candidate_policy` -/
def deriveCandidatePolicy (c : MemoryCandidate R) : Option SourceMap → Except Failure (MemoryCandidate R)
  | none => memoryCandidate (c.entry.withCategory .general) ⟨.general, c.availableAt, 1, false⟩
  | some m => do
    let policy ← deriveEntryPolicy c.entry m
    memoryCandidate (c.entry.withCategory policy.category) policy

/-! ### Selection -/

/-- What the scored candidates are sorted by. -/
def rankKey (c : MemoryCandidate R) : ℤ ×ₗ ℤ ×ₗ String ×ₗ Hash ×ₗ List String :=
  toLex (-(deterministicImportance c : ℤ), toLex (-R.stamp c.availableAt, toLex (c.entry.category.value,
    toLex (c.entry.dedupKey, c.entry.sourceRecordIds))))

/-- An entry with the importance of its candidate. -/
def normalized (c : MemoryCandidate R) : MemoryEntry R :=
  c.entry.withImportance (deterministicImportance c) (deterministicImportance_le c)

/-- The loop over the ranked candidates.  The keys and the categories seen are those chosen. -/
def choose (quotas : MemoryCategory → Nat) (maximum : Nat) :
    List (MemoryCandidate R) → List (MemoryEntry R) → List (MemoryEntry R)
  | [], chosen => chosen
  | c :: rest, chosen =>
    if c.entry.dedupKey ∈ chosen.map MemoryEntry.dedupKey ∨
        quotas c.entry.category ≤ chosen.countP (fun e => decide (e.category = c.entry.category)) then
      choose quotas maximum rest chosen
    else if maxArtifactLines < 5 + 9 * (chosen.length + 1) then chosen
    else if maximum ≤ chosen.length + 1 then chosen ++ [normalized c]
    else choose quotas maximum rest (chosen ++ [normalized c])

/-- `DEFAULT_CATEGORY_QUOTAS` -/
def defaultCategoryQuotas : MemoryCategory → Nat := fun _ => 64

/-- `select_entries` -/
def selectEntries (candidates : List (MemoryCandidate R)) (cutoffAt : UtcTimestamp) (quotas : MemoryCategory → Nat)
    (maximum : Nat) (sourceRecords : Option SourceMap) : Except Failure (List (MemoryEntry R)) := do
  require (1 ≤ maximum ∧ maximum ≤ maxArtifactEntries) "maximum_entries is outside its bound"
  require (∀ category ∈ markerPriority ++ [.riskRejection, .forecastCalibration, .general],
    quotas category ≤ maxArtifactEntries) "category quota is outside its bound"
  let merged ← mergeCandidates candidates
  let derived ← merged.mapM (deriveCandidatePolicy · sourceRecords)
  let safe := derived.filter (fun c => decide (c.availableAt ≤ cutoffAt))
  return choose quotas maximum (safe.sortOn rankKey) []

/-- The error that a shorter list of entries may not run into. -/
def byteBound : Failure := .raised ⟨.valueError, "artifact exceeds canonical byte bound"⟩

/-- The loop that drops the last entry until the rest fits. -/
def fitArtifact (fields : ArtifactFields) (selected : List (MemoryEntry R)) : Nat → Except Failure (MemoryArtifact R)
  | 0 => refuse "no complete entry fits the 524288-byte artifact bound"
  | n + 1 =>
    match buildMemoryArtifact fields (selected.take (n + 1)) with
    | .ok artifact => .ok artifact
    | .error e => if e = byteBound then fitArtifact fields selected n else .error e

/-- `build_selected_artifact` -/
def buildSelectedArtifact (candidates : List (MemoryCandidate R)) (sourceRecords : Option SourceMap)
    (fields : ArtifactFields) : Except Failure (MemoryArtifact R) := do
  let selected ← selectEntries candidates fields.cutoffAt defaultCategoryQuotas maxArtifactEntries sourceRecords
  fitArtifact fields selected selected.length

end SevenLens.Memory
