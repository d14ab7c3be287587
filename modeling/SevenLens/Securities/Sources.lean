import SevenLens.Library.Table
import SevenLens.Securities.Contracts

/-! # The source-record log and its reader

The log keeps every version of a source record; the last one appended for an identifier is
its current one.  The reader finds a version by its exact hash and says which version was the
current one at an instant: the one with the latest availability until then, if there is only
one.

Integrity re-verification recomputes a hash from the content it was made from and has no
branch here. -/

namespace SevenLens.Securities

inductive AppendOutcome where
  | appended | idempotentDuplicate
deriving DecidableEq, Repr

/-- One typed, hash-bound record of an adapter.  The fields that nothing here reads are
part of `payload`. -/
@[ext] structure NormalizedSourceRecord where
  recordId : String
  family : P4SourceFamily
  contentHash : Hash
  recordHash : Hash
  retrievedAt : UtcTimestamp
  availableAt : Option UtcTimestamp
  supersedesContentHash : Option Hash
  payload : String
  id_ok : recordIdPattern.fullmatch recordId = true
  available_ok : ∀ t ∈ availableAt, t ≤ retrievedAt
  supersedes_ok : supersedesContentHash ≠ some contentHash

instance : DecidableEq NormalizedSourceRecord := fun _ _ => decidable_of_iff' _ NormalizedSourceRecord.ext_iff

namespace NormalizedSourceRecord

/-- `available_at or retrieved_at` -/
def available (r : NormalizedSourceRecord) : UtcTimestamp := r.availableAt.getD r.retrievedAt

/-- What a version is stored under. -/
def versionKey (r : NormalizedSourceRecord) : String × Hash := (r.recordId, r.recordHash)

end NormalizedSourceRecord

/-- Every version in append order. -/
abbrev RecordLog : Type := Table NormalizedSourceRecord.versionKey

namespace RecordLog

def versions (log : RecordLog) (recordId : String) : List NormalizedSourceRecord :=
  log.rows.filter (fun r => decide (r.recordId = recordId))

def getVersion (log : RecordLog) (recordId : String) (recordHash : Hash) : Option NormalizedSourceRecord :=
  Table.get log (recordId, recordHash)

/-- `get`: the current record. -/
def current (log : RecordLog) (recordId : String) : Option NormalizedSourceRecord :=
  (log.versions recordId).getLast?

/-- `append` -/
def append (log : RecordLog) (record : NormalizedSourceRecord) : Except Failure (AppendOutcome × RecordLog) :=
  match log.getVersion record.recordId record.recordHash with
  | some exact =>
    if exact ≠ record then throwing .recordLineage "source record hash collision carries different content"
    else .ok (.idempotentDuplicate, log)
  | none =>
    match log.current record.recordId with
    | none => .ok (.appended, Table.add log record)
    | some existing => do
      requireOr .recordLineage (existing.available ≤ record.available)
        "source supersession availability cannot move backwards"
      requireOr .recordLineage (¬ (record.available = existing.available ∧ record.contentHash ≠ existing.contentHash))
        "source supersession at equal availability is unorderable"
      requireOr .recordLineage (record.supersedesContentHash = some existing.contentHash)
        "same provider identity with different content requires explicit supersession"
      return (.appended, Table.add log record)

/-! ### The reader -/

/-- `SourceRecordReader.read`: one exact version. -/
def read (log : RecordLog) (ref : SourceRef) : Except Failure NormalizedSourceRecord :=
  match log.getVersion ref.recordId ref.recordHash with
  | none =>
    throwing .sourceLineage ("source record '" ++ ref.recordId ++ "' at the requested hash is unknown")
  | some record => do
    requireOr .sourceLineage (record.recordId = ref.recordId ∧ record.family = ref.family)
      "source reference does not match the stored record identity"
    requireOr .sourceLineage (record.recordHash = ref.recordHash)
      "source reference hash does not match the stored record"
    return record

/-- `SourceRecordReader.available_at` -/
def availableAt (log : RecordLog) (ref : SourceRef) : Except Failure UtcTimestamp := do
  let record ← log.read ref
  return record.available

/-- `SourceRecordReader.is_current` -/
def isCurrent (log : RecordLog) (ref : SourceRef) : Except Failure Bool :=
  match log.current ref.recordId with
  | none => throwing .sourceLineage "source record disappeared from the append-only log"
  | some current => .ok (decide (current.recordHash = ref.recordHash ∧ current.family = ref.family))

/-- The versions with the latest availability among those given. -/
def contenders (visible : List NormalizedSourceRecord) : List NormalizedSourceRecord :=
  visible.filter (fun r => visible.all (fun s => decide (s.available ≤ r.available)))

/-- `SourceRecordReader.is_current_at`: versions with the same latest availability cannot be
ordered, and then none of them is current. -/
def isCurrentAt (log : RecordLog) (ref : SourceRef) (knownAt : UtcTimestamp) : Except Failure Bool := do
  let target ← log.read ref
  match contenders ((log.versions ref.recordId).filter (fun r => decide (r.available ≤ knownAt))) with
  | [current] => return decide (current.recordHash = target.recordHash ∧ current.family = target.family)
  | _ => return false

/-- The loop of `SourceRecordReader.validate_refs`, with the identifiers already seen. -/
def validateRefsFrom (log : RecordLog) (availableBy : Option UtcTimestamp) :
    List String → List SourceRef → Except Failure (List NormalizedSourceRecord)
  | _, [] => .ok []
  | seen, ref :: refs => do
    requireOr .sourceLineage (ref.recordId ∉ seen) "source refs must carry unique record identifiers"
    let record ← log.read ref
    let available ← log.availableAt ref
    requireOr .sourceLineage (∀ cutoff ∈ availableBy, available ≤ cutoff)
      "source record is not available by the authority cutoff"
    let records ← log.validateRefsFrom availableBy (ref.recordId :: seen) refs
    return record :: records

/-- `SourceRecordReader.validate_refs` -/
def validateRefs (log : RecordLog) (refs : List SourceRef) (availableBy : Option UtcTimestamp) :
    Except Failure (List NormalizedSourceRecord) :=
  log.validateRefsFrom availableBy [] refs

/-! ### Growth -/

/-- The log as it stands is the beginning of the other one. -/
def Grows (log log' : RecordLog) : Prop := log.rows <+: log'.rows

theorem append_ok {log log' : RecordLog} {record : NormalizedSourceRecord} {outcome : AppendOutcome}
    (h : log.append record = .ok (outcome, log')) : log' = log ∨ log'.rows = log.rows ++ [record] := by
  unfold append at h
  split at h
  · unfold throwing at h
    split_ifs at h
    cases h
    exact .inl rfl
  · rename_i hnone
    split at h
    · cases h
      exact .inr (Table.add_rows hnone)
    · obtain ⟨_, -, h⟩ := bind_ok.mp h
      obtain ⟨_, -, h⟩ := bind_ok.mp h
      obtain ⟨_, -, h⟩ := bind_ok.mp h
      cases h
      exact .inr (Table.add_rows hnone)

theorem append_grows {log log' : RecordLog} {record : NormalizedSourceRecord} {outcome : AppendOutcome}
    (h : log.append record = .ok (outcome, log')) : log.Grows log' := by
  rcases append_ok h with rfl | h
  · exact List.prefix_refl _
  · rw [Grows, h]
    exact List.prefix_append _ _

theorem read_ok {log : RecordLog} {ref : SourceRef} {record : NormalizedSourceRecord} :
    log.read ref = .ok record ↔
      record ∈ log.rows ∧ record.recordId = ref.recordId ∧ record.recordHash = ref.recordHash ∧
        record.family = ref.family := by
  constructor
  · intro h
    unfold read at h
    split at h
    · cases h
    · rename_i stored hs
      obtain ⟨_, h1, h⟩ := bind_ok.mp h
      obtain ⟨_, h2, h⟩ := bind_ok.mp h
      cases h
      obtain ⟨hid, hfam⟩ := requireOr_ok.mp h1
      exact ⟨Table.mem_of_get hs, hid, requireOr_ok.mp h2, hfam⟩
  · rintro ⟨hm, hid, hhash, hfam⟩
    have hget : log.getVersion ref.recordId ref.recordHash = some record := by
      rw [← hid, ← hhash]
      exact Table.get_of_mem hm
    unfold read
    rw [hget]
    simp only [requireOr, hid, hhash, hfam, and_self, if_true, bind, Except.bind, pure, Except.pure]

/-- A version that was read is read again. -/
theorem read_of_grows {log log' : RecordLog} (hg : log.Grows log') {ref : SourceRef} {record : NormalizedSourceRecord}
    (h : log.read ref = .ok record) : log'.read ref = .ok record := by
  obtain ⟨hm, h⟩ := read_ok.mp h
  exact read_ok.mpr ⟨hg.subset hm, h⟩

/-- Every reference names a version in the log. -/
def Readable (log : RecordLog) (refs : List SourceRef) : Prop := ∀ ref ∈ refs, ∃ record, log.read ref = .ok record

theorem Readable.of_grows {log log' : RecordLog} (hg : log.Grows log') {refs : List SourceRef}
    (h : log.Readable refs) : log'.Readable refs := by
  intro ref href
  obtain ⟨record, hr⟩ := h ref href
  exact ⟨record, read_of_grows hg hr⟩

theorem readable_of_validateRefsFrom {log : RecordLog} {availableBy : Option UtcTimestamp} {refs : List SourceRef}
    {seen : List String} {records : List NormalizedSourceRecord}
    (h : log.validateRefsFrom availableBy seen refs = .ok records) : log.Readable refs := by
  induction refs generalizing seen records with
  | nil => simp [Readable]
  | cons ref refs ih =>
    obtain ⟨_, -, h⟩ := bind_ok.mp h
    obtain ⟨record, hr, h⟩ := bind_ok.mp h
    obtain ⟨_, -, h⟩ := bind_ok.mp h
    obtain ⟨_, -, h⟩ := bind_ok.mp h
    obtain ⟨rest, hrest, -⟩ := bind_ok.mp h
    exact List.forall_mem_cons.mpr ⟨⟨record, hr⟩, ih hrest⟩

/-- References to distinct records in the log pass if none of them is available too late. -/
theorem validateRefsFrom_total {log : RecordLog} {availableBy : Option UtcTimestamp} {refs : List SourceRef}
    {seen : List String}
    (hr : ∀ ref ∈ refs, ∃ record, log.read ref = .ok record ∧ ∀ cutoff ∈ availableBy, record.available ≤ cutoff)
    (hn : (refs.map SourceRef.recordId).Nodup) (hs : ∀ ref ∈ refs, ref.recordId ∉ seen) :
    ∃ records, log.validateRefsFrom availableBy seen refs = .ok records := by
  induction refs generalizing seen with
  | nil => exact ⟨[], rfl⟩
  | cons ref refs ih =>
    obtain ⟨⟨record, hrec, hcut⟩, hr⟩ := List.forall_mem_cons.mp hr
    rw [List.map_cons, List.nodup_cons] at hn
    obtain ⟨records, hrest⟩ := @ih (ref.recordId :: seen) hr hn.2 (by
      intro ref' href' hmem
      rcases List.mem_cons.mp hmem with he | hmem
      · exact hn.1 (List.mem_map.mpr ⟨ref', href', he⟩)
      · exact hs ref' (List.mem_cons_of_mem _ href') hmem)
    refine ⟨record :: records, ?_⟩
    simp only [validateRefsFrom, requireOr, hs ref List.mem_cons_self, not_false_eq_true, if_true, hrec, availableAt,
      if_pos hcut, hrest, bind, Except.bind, pure, Except.pure]

end RecordLog

end SevenLens.Securities
