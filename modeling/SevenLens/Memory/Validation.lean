import SevenLens.Memory.Selection

/-! # Validation of memory artifacts

The validator runs its checks in a fixed order and reports the first one that fails; an artifact
without an issue is validated.  One of the last checks derives the category and the importance of
every entry once more from the records.  The selection derived them from the same records before it
wrote them into the entry, and what is derived does not read what is written: an artifact that was
selected never fails there (`selected_passes_policy`). -/

namespace SevenLens.Memory

open Securities

variable {R : Rules}

/-! ### Issues and results -/

structure ValidationIssue where
  stage : String
  code : String
deriving DecidableEq, Repr

structure ValidationResult (R : Rules) where
  artifact : MemoryArtifact R
  issues : List ValidationIssue

namespace ValidationResult

/-- `valid` -/
def valid (r : ValidationResult R) : Bool := r.issues.isEmpty && decide (r.artifact.state = .validated)

/-- `_INVALIDATION_REASONS` -/
def invalidationReason (stage : String) : Option String :=
  [("schema_resource", "SCHEMA"), ("source_lineage", "LINEAGE"), ("correction_lineage", "LINEAGE"),
    ("point_in_time", "FUTURE_LEAKAGE"), ("prompt_injection", "PROMPT_INJECTION"),
    ("fact_token_closure", "FACT_CLOSURE"), ("evidence_closure", "FACT_CLOSURE"), ("deterministic_policy", "BOUNDS"),
    ("canonical_integrity", "INTEGRITY")].lookup stage

/-- `invalidation_reason_code` -/
def invalidationReasonCode (r : ValidationResult R) : Except Failure String := do
  require (¬ (r.valid = true ∨ r.artifact.state ≠ .invalid ∨ r.issues = []))
    "only an invalid result has an invalidation reason"
  match r.issues.mapM (fun issue => invalidationReason issue.stage) with
  | none => refuse "validation issue has no invalidation reason"
  | some reasons =>
    match reasons.dedup with
    | [reason] => return reason
    | _ => return "INTEGRITY"

end ValidationResult

/-! ### The rules for facts in texts -/

/-- The instruction patterns and the closure of texts under facts. -/
structure ClosureRules where
  /-- `reject_instruction_like_text` raises. -/
  instructionLike : List String → Bool
  /-- What `validate_text_fact_closure` raises on texts, facts, cited facts and risk reasons. -/
  factClosure : List String → List (String × FactRef) → List String → List String → Option String

/-! ### Checks -/

/-- A check ends in an exception or in an issue that is reported. -/
abbrev Checked := Except (Failure ⊕ ValidationIssue)

/-- `return invalid(stage, code)` -/
def invalid {α : Type} (stage code : String) : Checked α := .error (.inr ⟨stage, code⟩)

/-- `if not p: return invalid(stage, code)` -/
def report (p : Prop) [Decidable p] (stage code : String) : Checked Unit := if p then .ok () else invalid stage code

/-- A call whose exception is not caught. -/
def uncaught {α : Type} : Except Failure α → Checked α
  | .ok a => .ok a
  | .error e => .error (.inl e)

/-- A call whose `ValueError` is reported. -/
def caught {α : Type} (stage code : String) : Except Failure α → Checked α
  | .ok a => .ok a
  | .error _ => invalid stage code

/-- One record of the loop over the given ones, with the facts seen before it. -/
def lineageStep (seen : List String) (item : String × StoredRecord) : Checked (List String) := do
  report (item.1 = item.2.record.recordId) "source_lineage" "source_key_mismatch"
  item.2.record.facts.foldlM (fun seen fact => do
    report (fact.factId ∉ seen) "source_lineage" "duplicate_fact_id"
    return fact.factId :: seen) seen

/-- What a record corrects; the code of a link that is wrong. -/
def correctionTarget (m : SourceMap) (id : String) (record : DailyReflectionRecord) :
    Except String (Option String) :=
  match ((record.observations.filter (fun o => decide (o.kind = .correction))).map
      ReflectionObservation.supersedesRecordId).dedup with
  | [] => .ok none
  | [some target] =>
    if target = id then .error "correction_self_link"
    else
      match m.get target with
      | none => .error "correction_target_unknown"
      | some r =>
        if record.cutoffAt < r.record.availableAt ∨ record.cutoffAt < r.record.cutoffAt ∨
            record.createdAt < r.record.createdAt then .error "correction_target_future"
        else .ok (some target)
  | _ => .error "correction_target_invalid"

/-- The walk along the links from a record.  After as many steps as there are links it has come
back to a record it has seen. -/
def walksInCircle (targets : List (String × String)) : Nat → List String → String → Bool
  | 0, _, _ => true
  | n + 1, visited, cursor =>
    if cursor ∈ visited then true
    else
      match targets.lookup cursor with
      | none => false
      | some next => walksInCircle targets n (cursor :: visited) next

/-- `_validate_correction_graph` -/
def validateCorrectionGraph (m : SourceMap) : Option String :=
  match m.items.mapM (fun item => (correctionTarget m item.1 item.2.record).map (fun target => (item.1, target))) with
  | .error code => some code
  | .ok links =>
    let targets := links.filterMap (fun link => link.2.map (fun target => (link.1, target)))
    if targets.any (fun link => walksInCircle targets (targets.length + 1) [] link.1) then some "correction_cycle"
    else none

/-- `_entry_text` -/
def entryText (e : MemoryEntry R) : String :=
  (String.singleton (Char.ofNat 10)).intercalate (e.observation :: e.reusableLesson :: e.appliesWhen ++ e.invalidWhen)

/-- The code of an exception of the fact closure. -/
def closureCode (message : String) : String :=
  if "number".toList <:+: message.toList ∨ "numeric".toList <:+: message.toList then "unreferenced_number"
  else if "date".toList <:+: message.toList then "unreferenced_date"
  else "unreferenced_symbol_or_risk_reason"

/-- `source_records[item]` for each record of the entry. -/
def entryRecords (m : SourceMap) (e : MemoryEntry R) : Except Failure (List StoredRecord) :=
  e.sourceRecordIds.mapM (fun id =>
    match m.get id with
    | none => .error (.keyError id)
    | some r => .ok r)

section

variable (K : ClosureRules) (m : SourceMap)

/-- The facts of all records by their identifiers. -/
def factsById : List (String × FactRef) :=
  m.records.flatMap (fun r => r.facts.map (fun fact => (fact.factId, fact)))

/-- The category and the importance of an entry against what is derived. -/
def policyCheck (e : MemoryEntry R) : Checked Unit := do
  let policy ← uncaught (deriveEntryPolicy e m)
  report (e.category = policy.category) "deterministic_policy" "provider_category_override"
  let expected ← uncaught (memoryCandidate e policy)
  report (e.importance = deterministicImportance expected) "deterministic_policy" "provider_importance_override"

/-- One entry of the loop over the entries. -/
def entryCheck (e : MemoryEntry R) : Checked Unit := do
  let records ← uncaught (entryRecords m e)
  report (∀ id ∈ e.evidenceIds, id ∈ records.flatMap (fun r => r.record.facts.map FactRef.factId))
    "evidence_closure" "foreign_fact_id"
  match K.factClosure [entryText e] (factsById m) e.evidenceIds e.riskReasonCodes with
  | some message => invalid "fact_token_closure" (closureCode message)
  | none => do
    report (∀ reason ∈ e.riskReasonCodes, ∃ id ∈ e.evidenceIds, ∃ fact ∈ (factsById m).lookup id,
      fact.kind = .riskReason ∧ fact.value = reason) "evidence_closure" "foreign_risk_reason"
    policyCheck m e

/-- The checks in their order. -/
def checks (a : MemoryArtifact R) (requestedCutoff : UtcTimestamp) : Checked Unit := do
  caught "schema_resource" "artifact_integrity" a.verifyIntegrity
  report ((∀ key ∈ m.keys, key ∈ a.sourceRecordIds) ∧ ∀ id ∈ a.sourceRecordIds, id ∈ m.keys)
    "source_lineage" "source_set_mismatch"
  let _ ← m.items.foldlM lineageStep []
  (match validateCorrectionGraph m with
    | some code => invalid "correction_lineage" code
    | none => .ok ())
  report (a.cutoffAt = requestedCutoff) "point_in_time" "requested_cutoff_mismatch"
  report (∀ r ∈ m.records, r.availableAt ≤ requestedCutoff ∧ r.cutoffAt ≤ a.cutoffAt) "point_in_time" "future_source"
  report (∀ r ∈ m.records, ∀ source ∈ r.sources, source.promptInjectionFlags = []) "prompt_injection" "flagged_source"
  report (∀ e ∈ a.entries, K.instructionLike [entryText e] = false) "prompt_injection" "instruction_like_content"
  a.entries.forM (entryCheck K m)
  caught "canonical_integrity" "artifact_changed" a.verifyIntegrity

/-- `validate` -/
def validate (a : MemoryArtifact R) (requestedCutoff : UtcTimestamp) : Except Failure (ValidationResult R) := do
  require (a.state = .candidate) "only a candidate artifact can be validated"
  match checks K m a requestedCutoff with
  | .error (.inl e) => .error e
  | .error (.inr issue) => do
    let rejected ← a.withState .invalid
    return ⟨rejected, [issue]⟩
  | .ok () => do
    let accepted ← a.withState .validated
    return ⟨accepted, []⟩

end

/-! ### What the selection writes -/

theorem memoryCandidate_ok {e : MemoryEntry R} {policy : EntryPolicy} {d : MemoryCandidate R}
    (h : memoryCandidate e policy = .ok d) :
    d.entry = e ∧ d.availableAt = policy.availableAt ∧ d.recurrenceCount = policy.recurrenceCount ∧
      d.unresolved = policy.unresolved := by
  unfold memoryCandidate refuse throwing at h
  split_ifs at h
  cases h
  exact ⟨rfl, rfl, rfl, rfl⟩

/-- Only the evidence and the records of an entry are read. -/
theorem deriveEntryPolicy_congr {e e' : MemoryEntry R} (hevidence : e.evidenceIds = e'.evidenceIds)
    (hsources : e.sourceRecordIds = e'.sourceRecordIds) (m : SourceMap) :
    deriveEntryPolicy e m = deriveEntryPolicy e' m := by
  rw [deriveEntryPolicy, deriveEntryPolicy, hevidence, hsources]

/-- Two candidates with these fields alike have one importance. -/
theorem deterministicImportance_congr {c d : MemoryCandidate R} (hcategory : c.entry.category = d.entry.category)
    (hreasons : c.entry.riskReasonCodes = d.entry.riskReasonCodes) (hrecurrence : c.recurrenceCount = d.recurrenceCount)
    (hunresolved : c.unresolved = d.unresolved) : deterministicImportance c = deterministicImportance d := by
  rw [deterministicImportance, deterministicImportance, hcategory, hreasons, hrecurrence, hunresolved]

/-- The policy check is passed by what the selection writes into an entry. -/
theorem policyCheck_normalized {c d : MemoryCandidate R} {m : SourceMap}
    (h : deriveCandidatePolicy c (some m) = .ok d) : policyCheck m (normalized d) = .ok () := by
  obtain ⟨policy, hpolicy, hd⟩ := bind_ok.mp h
  obtain ⟨hentry, -, hrecurrence, hunresolved⟩ := memoryCandidate_ok hd
  have hagain : deriveEntryPolicy (normalized d) m = .ok policy := by
    rw [← hpolicy]
    exact deriveEntryPolicy_congr (by rw [normalized, hentry]; rfl) (by rw [normalized, hentry]; rfl) m
  have hcategory : (normalized d).category = policy.category := by
    rw [normalized, hentry]
    rfl
  obtain ⟨expected, hexpected⟩ : ∃ expected, memoryCandidate (normalized d) policy = .ok expected := by
    unfold memoryCandidate refuse throwing at hd
    split_ifs at hd with hbound
    exact ⟨_, dif_pos hbound⟩
  obtain ⟨hentry', -, hrecurrence', hunresolved'⟩ := memoryCandidate_ok hexpected
  have himportance : (normalized d).importance = deterministicImportance expected := by
    refine (deterministicImportance_congr ?_ ?_ (hrecurrence.trans hrecurrence'.symm)
      (hunresolved.trans hunresolved'.symm) : deterministicImportance d = _)
    · rw [hentry']
      rfl
    · rw [hentry']
      rfl
  simp only [policyCheck, hagain, hexpected, uncaught, report, if_pos hcategory, if_pos himportance, bind, Except.bind]

theorem mem_choose {quotas : MemoryCategory → Nat} {maximum : Nat} {ranked : List (MemoryCandidate R)}
    {chosen : List (MemoryEntry R)} {e : MemoryEntry R} (h : e ∈ choose quotas maximum ranked chosen) :
    e ∈ chosen ∨ ∃ d ∈ ranked, e = normalized d := by
  induction ranked generalizing chosen with
  | nil => exact .inl h
  | cons c rest ih =>
    have hlast : ∀ e ∈ chosen ++ [normalized c], e ∈ chosen ∨ ∃ d ∈ c :: rest, e = normalized d := by
      intro e he
      rcases List.mem_append.mp he with he | he
      · exact .inl he
      · exact .inr ⟨c, List.mem_cons_self, List.mem_singleton.mp he⟩
    have hrest : ∀ chosen', e ∈ choose quotas maximum rest chosen' →
        (∀ e ∈ chosen', e ∈ chosen ∨ ∃ d ∈ c :: rest, e = normalized d) →
          e ∈ chosen ∨ ∃ d ∈ c :: rest, e = normalized d := by
      intro chosen' he hchosen'
      rcases ih he with he | ⟨d, hd, he⟩
      · exact hchosen' e he
      · exact .inr ⟨d, List.mem_cons_of_mem c hd, he⟩
    rw [choose] at h
    split_ifs at h
    · exact hrest _ h (fun e he => .inl he)
    · exact .inl h
    · exact hlast e h
    · exact hrest _ h hlast

/-- A selected entry carries what was derived for a merged candidate. -/
theorem mem_selectEntries {candidates : List (MemoryCandidate R)} {cutoffAt : UtcTimestamp}
    {quotas : MemoryCategory → Nat} {maximum : Nat} {sourceRecords : Option SourceMap}
    {selected : List (MemoryEntry R)} (h : selectEntries candidates cutoffAt quotas maximum sourceRecords = .ok selected)
    {e : MemoryEntry R} (he : e ∈ selected) :
    ∃ c d, deriveCandidatePolicy c sourceRecords = .ok d ∧ e = normalized d := by
  obtain ⟨_, -, h⟩ := bind_ok.mp h
  obtain ⟨_, -, h⟩ := bind_ok.mp h
  obtain ⟨merged, -, h⟩ := bind_ok.mp h
  obtain ⟨derived, hderived, h⟩ := bind_ok.mp h
  cases h
  obtain he | ⟨d, hd, rfl⟩ := mem_choose he
  · cases he
  · obtain ⟨c, -, hc⟩ := Dict.exists_of_forall₂ (Dict.forall₂_of_mapM hderived).flip
      (List.mem_of_mem_filter (List.mem_sortOn.mp hd))
    exact ⟨c, d, hc, rfl⟩

theorem buildMemoryArtifact_ok {fields : ArtifactFields} {entries : List (MemoryEntry R)} {a : MemoryArtifact R}
    (h : buildMemoryArtifact fields entries = .ok a) :
    a.entries = entries ∧ a.toArtifactFields = fields ∧ a.state = .candidate := by
  obtain ⟨_, -, h⟩ := bind_ok.mp h
  dsimp only at h
  split at h
  · cases h
  · cases h
    exact ⟨rfl, rfl, rfl⟩

theorem fitArtifact_ok {fields : ArtifactFields} {selected : List (MemoryEntry R)} {n : Nat} {a : MemoryArtifact R}
    (h : fitArtifact fields selected n = .ok a) :
    (∀ e ∈ a.entries, e ∈ selected) ∧ a.toArtifactFields = fields ∧ a.state = .candidate := by
  induction n with
  | zero => cases h
  | succ n ih =>
    rw [fitArtifact] at h
    split at h
    · cases h
      rename_i hbuild
      obtain ⟨hentries, hrest⟩ := buildMemoryArtifact_ok hbuild
      refine ⟨fun e he => ?_, hrest⟩
      rw [hentries] at he
      exact List.mem_of_mem_take he
    · split_ifs at h
      exact ih h

/-! ### Checks that do not report the policy -/

/-- A check that reports neither the policy nor the integrity of the artifact, and raises nothing. -/
def Benign {α : Type} (x : Checked α) : Prop :=
  ∀ e, x = .error e → ∃ issue, e = .inr issue ∧ issue.stage ≠ "deterministic_policy" ∧ issue.code ≠ "artifact_integrity"

section

variable {α β : Type}

theorem Benign.of_ok {x : Checked α} {a : α} (h : x = .ok a) : Benign x := by
  intro e he
  rw [h] at he
  cases he

theorem Benign.bind {x : Checked α} {f : α → Checked β} (hx : Benign x) (hf : ∀ a, x = .ok a → Benign (f a)) :
    Benign (x >>= f) := by
  intro e he
  cases hcase : x with
  | error e' =>
    rw [hcase] at he
    cases he
    exact hx e hcase
  | ok a =>
    rw [hcase] at he
    exact hf a hcase e he

theorem benign_invalid {stage code : String} (hstage : stage ≠ "deterministic_policy")
    (hcode : code ≠ "artifact_integrity") : Benign (invalid stage code : Checked α) := by
  intro e he
  cases he
  exact ⟨_, rfl, hstage, hcode⟩

theorem benign_report {p : Prop} [Decidable p] {stage code : String} (hstage : stage ≠ "deterministic_policy")
    (hcode : code ≠ "artifact_integrity") : Benign (report p stage code) := by
  unfold report
  split_ifs
  · exact .of_ok rfl
  · exact benign_invalid hstage hcode

theorem benign_foldlM {f : α → β → Checked α} (h : ∀ a b, Benign (f a b)) (l : List β) (a : α) :
    Benign (l.foldlM f a) := by
  induction l generalizing a with
  | nil => exact .of_ok rfl
  | cons b l ih =>
    rw [List.foldlM_cons]
    exact (h a b).bind (fun a' _ => ih a')

theorem benign_forM {f : α → Checked Unit} {l : List α} (h : ∀ a ∈ l, Benign (f a)) : Benign (l.forM f) := by
  induction l with
  | nil => exact .of_ok rfl
  | cons a l ih =>
    exact (h a List.mem_cons_self).bind (fun _ _ => ih (fun b hb => h b (List.mem_cons_of_mem a hb)))

end

theorem report_ok {p : Prop} [Decidable p] {stage code : String} {u : Unit} : report p stage code = .ok u ↔ p := by
  unfold report invalid
  split_ifs with h <;> simp [h]

theorem mem_keys {m : SourceMap} {id : String} : id ∈ m.keys ↔ ∃ r, m.get id = some r := by
  constructor
  · intro h
    obtain ⟨⟨_, r⟩, hr, rfl⟩ := List.mem_map.mp h
    exact ⟨r, Dict.lookup_of_mem m.nodup hr⟩
  · rintro ⟨r, hr⟩
    exact List.mem_map.mpr ⟨(id, r), Dict.mem_of_lookup hr, rfl⟩

theorem benign_entryCheck (K : ClosureRules) {m : SourceMap} {e : MemoryEntry R}
    (hsources : ∀ id ∈ e.sourceRecordIds, id ∈ m.keys) (hpolicy : policyCheck m e = .ok ()) :
    Benign (entryCheck K m e) := by
  have hrecords : ∃ records, entryRecords m e = .ok records := by
    refine Dict.exists_mapM (fun id hid => ?_)
    obtain ⟨r, hr⟩ := mem_keys.mp (hsources id hid)
    exact ⟨r, by rw [hr]⟩
  obtain ⟨records, hrecords⟩ := hrecords
  have hread : uncaught (entryRecords m e) = .ok records := by rw [hrecords]; rfl
  refine (Benign.of_ok hread).bind (fun _ _ => ?_)
  refine (benign_report (by decide) (by decide)).bind (fun _ _ => ?_)
  split
  · refine benign_invalid (by decide) ?_
    unfold closureCode
    split_ifs <;> decide
  · exact (benign_report (by decide) (by decide)).bind (fun _ _ => .of_ok hpolicy)

/-- The entries of an artifact cite its own records. -/
theorem MemoryArtifact.sources_of_entry (a : MemoryArtifact R) :
    ∀ e ∈ a.entries, ∀ id ∈ e.sourceRecordIds, id ∈ a.sourceRecordIds := by
  have hok := a.ok
  simp only [ArtifactBody.postInit, bind_ok, require_ok, exists_const] at hok
  obtain ⟨_, -, _, -, -, _, -, _, -, -, -, hsources, -⟩ := hok
  exact hsources

theorem correctionTarget_code {m : SourceMap} {id code : String} {record : DailyReflectionRecord}
    (h : correctionTarget m id record = .error code) : code ≠ "artifact_integrity" := by
  unfold correctionTarget at h
  split at h
  · cases h
  · split_ifs at h
    · cases h
      decide
    · split at h
      · cases h
        decide
      · split_ifs at h
        cases h
        decide
  · cases h
    decide

theorem validateCorrectionGraph_code {m : SourceMap} {code : String} (h : validateCorrectionGraph m = some code) :
    code ≠ "artifact_integrity" := by
  unfold validateCorrectionGraph at h
  split at h
  · rename_i code' hlinks
    cases h
    obtain ⟨item, -, hitem⟩ := Dict.exists_of_mapM_error hlinks
    cases htarget : correctionTarget m item.1 item.2.record with
    | ok target =>
      rw [htarget] at hitem
      cases hitem
    | error code' =>
      rw [htarget] at hitem
      cases hitem
      exact correctionTarget_code htarget
  · dsimp only at h
    split_ifs at h
    cases h
    decide

/-- Entries that pass the policy check lead to no issue about it, and nothing is raised. -/
theorem benign_checks (K : ClosureRules) {m : SourceMap} {a : MemoryArtifact R} (requestedCutoff : UtcTimestamp)
    (hpolicy : ∀ e ∈ a.entries, policyCheck m e = .ok ()) : Benign (checks K m a requestedCutoff) := by
  have hintegrity : ∀ stage code, caught stage code a.verifyIntegrity = .ok () := by
    intro stage code
    rw [a.verifyIntegrity_ok]
    rfl
  refine (Benign.of_ok (hintegrity _ _)).bind (fun _ _ => ?_)
  refine (benign_report (by decide) (by decide)).bind (fun _ hset => ?_)
  have hsources : ∀ e ∈ a.entries, ∀ id ∈ e.sourceRecordIds, id ∈ m.keys := by
    intro e he id hid
    exact (report_ok.mp hset).2 id (a.sources_of_entry e he id hid)
  refine Benign.bind (benign_foldlM (fun seen item => ?_) _ _) (fun _ _ => ?_)
  · refine (benign_report (by decide) (by decide)).bind (fun _ _ => benign_foldlM (fun seen fact => ?_) _ _)
    exact (benign_report (by decide) (by decide)).bind (fun _ _ => .of_ok rfl)
  refine Benign.bind ?_ (fun _ _ => ?_)
  · cases hgraph : validateCorrectionGraph m with
    | none => exact .of_ok rfl
    | some code => exact benign_invalid (by decide) (validateCorrectionGraph_code hgraph)
  refine (benign_report (by decide) (by decide)).bind (fun _ _ => ?_)
  refine (benign_report (by decide) (by decide)).bind (fun _ _ => ?_)
  refine (benign_report (by decide) (by decide)).bind (fun _ _ => ?_)
  refine (benign_report (by decide) (by decide)).bind (fun _ _ => ?_)
  refine (benign_forM (fun e he => benign_entryCheck K (hsources e he) (hpolicy e he))).bind (fun _ _ => ?_)
  exact .of_ok (hintegrity _ _)

theorem withState_of_allowed {a : MemoryArtifact R} {state : ArtifactState} (h : a.state.allowed state = true) :
    a.withState state = .ok { a with state := state } := by
  rw [MemoryArtifact.withState, show require _ _ = .ok () from require_ok.mpr h]
  rfl

/-- What the validator returns for a candidate. -/
theorem validate_cases {K : ClosureRules} {m : SourceMap} {a : MemoryArtifact R} {requestedCutoff : UtcTimestamp}
    {r : ValidationResult R} (h : validate K m a requestedCutoff = .ok r) :
    a.state = .candidate ∧
      (checks K m a requestedCutoff = .ok () ∧ r = ⟨{ a with state := .validated }, []⟩ ∨
        ∃ issue, checks K m a requestedCutoff = .error (.inr issue) ∧ r = ⟨{ a with state := .invalid }, [issue]⟩) := by
  obtain ⟨_, hstate, h⟩ := bind_ok.mp h
  have hstate := require_ok.mp hstate
  refine ⟨hstate, ?_⟩
  split at h
  · cases h
  · rename_i issue hchecks
    rw [withState_of_allowed (by rw [hstate]; rfl)] at h
    cases h
    exact .inr ⟨issue, hchecks, rfl⟩
  · rename_i hchecks
    rw [withState_of_allowed (by rw [hstate]; rfl)] at h
    cases h
    exact .inl ⟨hchecks, rfl⟩

theorem uncaught_ok {α : Type} {x : Except Failure α} {a : α} : uncaught x = .ok a ↔ x = .ok a := by
  cases x <;> simp [uncaught]

/-- An entry that passes the policy check has the category and the importance that the selection
derives for a candidate with this entry. -/
theorem derived_of_policyCheck {m : SourceMap} {e : MemoryEntry R} (h : policyCheck m e = .ok ())
    (c : MemoryCandidate R) (hc : c.entry = e) :
    ∃ d, deriveCandidatePolicy c (some m) = .ok d ∧ d.entry.category = e.category ∧
      deterministicImportance d = e.importance := by
  subst hc
  obtain ⟨policy, hpolicy, h⟩ := bind_ok.mp h
  obtain ⟨_, hcategory, h⟩ := bind_ok.mp h
  obtain ⟨expected, hexpected, h⟩ := bind_ok.mp h
  have hpolicy := uncaught_ok.mp hpolicy
  have hexpected := uncaught_ok.mp hexpected
  have hcategory := report_ok.mp hcategory
  obtain ⟨hentry, -, hrecurrence, hunresolved⟩ := memoryCandidate_ok hexpected
  obtain ⟨d, hd⟩ : ∃ d, memoryCandidate (c.entry.withCategory policy.category) policy = .ok d := by
    unfold memoryCandidate refuse throwing at hexpected
    split_ifs at hexpected with hbound
    exact ⟨_, dif_pos hbound⟩
  obtain ⟨hentry', -, hrecurrence', hunresolved'⟩ := memoryCandidate_ok hd
  have hderived : deriveCandidatePolicy c (some m) = .ok d := by
    rw [deriveCandidatePolicy, hpolicy]
    exact hd
  refine ⟨d, hderived, by rw [hentry', hcategory]; rfl, ?_⟩
  rw [report_ok.mp h]
  refine deterministicImportance_congr ?_ ?_ (hrecurrence'.trans hrecurrence.symm) (hunresolved'.trans hunresolved.symm)
  · rw [hentry', hentry, hcategory]
    rfl
  · rw [hentry', hentry]
    rfl

/-- The entries of an artifact that the checks pass do pass the policy check. -/
theorem policyCheck_of_checks {K : ClosureRules} {m : SourceMap} {a : MemoryArtifact R} {requestedCutoff : UtcTimestamp}
    (h : checks K m a requestedCutoff = .ok ()) : ∀ e ∈ a.entries, policyCheck m e = .ok () := by
  obtain ⟨_, -, h⟩ := bind_ok.mp h
  obtain ⟨_, -, h⟩ := bind_ok.mp h
  obtain ⟨_, -, h⟩ := bind_ok.mp h
  obtain ⟨_, -, h⟩ := bind_ok.mp h
  obtain ⟨_, -, h⟩ := bind_ok.mp h
  obtain ⟨_, -, h⟩ := bind_ok.mp h
  obtain ⟨_, -, h⟩ := bind_ok.mp h
  obtain ⟨_, -, h⟩ := bind_ok.mp h
  obtain ⟨_, hentries, -⟩ := bind_ok.mp h
  intro e he
  have hentry := Dict.forM_ok.mp hentries e he
  obtain ⟨_, -, hentry⟩ := bind_ok.mp hentry
  obtain ⟨_, -, hentry⟩ := bind_ok.mp hentry
  split at hentry
  · cases hentry
  · obtain ⟨_, -, hentry⟩ := bind_ok.mp hentry
    exact hentry

/-- The entries that the selection puts into an artifact pass the policy check. -/
theorem policyCheck_of_selected {candidates : List (MemoryCandidate R)} {m : SourceMap} {fields : ArtifactFields}
    {a : MemoryArtifact R} (h : buildSelectedArtifact candidates (some m) fields = .ok a) :
    a.state = .candidate ∧ ∀ e ∈ a.entries, policyCheck m e = .ok () := by
  obtain ⟨selected, hselected, h⟩ := bind_ok.mp h
  obtain ⟨hentries, -, hstate⟩ := fitArtifact_ok h
  refine ⟨hstate, fun e he => ?_⟩
  obtain ⟨c, d, hd, rfl⟩ := mem_selectEntries hselected (hentries e he)
  exact policyCheck_normalized hd

/-- The validator returns a result for an artifact that was selected from the same records, and
reports neither the policy nor the integrity; and the entries of an artifact it validates have the
category and the importance that the selection derives. -/
theorem selected_passes_policy (K : ClosureRules) (m : SourceMap) :
    (∀ (candidates : List (MemoryCandidate R)) (fields : ArtifactFields) (a : MemoryArtifact R),
      buildSelectedArtifact candidates (some m) fields = .ok a →
        ∃ r, validate K m a a.cutoffAt = .ok r ∧
          ∀ issue ∈ r.issues, issue.stage ≠ "deterministic_policy" ∧ issue.code ≠ "artifact_integrity") ∧
      ∀ (a : MemoryArtifact R) (requestedCutoff : UtcTimestamp) (r : ValidationResult R),
        validate K m a requestedCutoff = .ok r → r.artifact.state = .validated →
          ∀ e ∈ a.entries, ∀ c : MemoryCandidate R, c.entry = e →
            ∃ d, deriveCandidatePolicy c (some m) = .ok d ∧ d.entry.category = e.category ∧
              deterministicImportance d = e.importance := by
  constructor
  · intro candidates fields a h
    obtain ⟨hstate, hpolicy⟩ := policyCheck_of_selected h
    have hbenign := benign_checks K a.cutoffAt hpolicy
    have hstart : require (a.state = .candidate) "only a candidate artifact can be validated" = .ok () :=
      require_ok.mpr hstate
    cases hchecks : checks K m a a.cutoffAt with
    | ok _ =>
      refine ⟨⟨{ a with state := .validated }, []⟩, ?_, by simp⟩
      simp only [validate, hstart, hchecks, withState_of_allowed (show a.state.allowed .validated = true by rw [hstate]; rfl),
        bind, Except.bind, pure, Except.pure]
    | error e =>
      obtain ⟨issue, rfl, hissue⟩ := hbenign e hchecks
      refine ⟨⟨{ a with state := .invalid }, [issue]⟩, ?_, by simpa using hissue⟩
      simp only [validate, hstart, hchecks, withState_of_allowed (show a.state.allowed .invalid = true by rw [hstate]; rfl),
        bind, Except.bind, pure, Except.pure]
  · intro a requestedCutoff r h hvalidated e he c hc
    obtain ⟨-, ⟨hchecks, -⟩ | ⟨issue, -, rfl⟩⟩ := validate_cases h
    · exact derived_of_policyCheck (policyCheck_of_checks hchecks e he) c hc
    · cases hvalidated

/-! ### An artifact of one lesson -/

section Sample

theorem sevens_ok : (String.ofList (List.replicate 64 '7')).length = 64 ∧
    (String.ofList (List.replicate 64 '7')).toList.all isHex = true := by decide

theorem importance_66_ok : 66 ≤ 100 := by decide

/-- Rules for short plain texts in lower case, with one digest. -/
def sampleRules : Rules where
  prohibited _ _ := none
  canonicalText := id
  stamp t := t.micros
  sha256 _ := ⟨String.ofList (List.replicate 64 '7'), sevens_ok⟩

def sampleClosure : ClosureRules where
  instructionLike _ := false
  factClosure _ _ _ _ := none

instance neZeroThirty : NeZero 30 := ⟨by decide⟩

/-- The start of a day in November 2025. -/
def sampleDay (day : Fin 30) : UtcTimestamp :=
  TradingDate.start ⟨2025, 11, day + 1, TradingDate.year_2025, TradingDate.november, ⟨Nat.le_add_left 1 day, day.isLt⟩⟩

def sampleReflection : DailyReflectionRecord where
  recordId := "reflection-1"
  createdAt := sampleDay 2
  availableAt := sampleDay 2
  cutoffAt := sampleDay 1
  sources := [⟨"market_regime", [⟨"fact-1", .text, "calm"⟩], []⟩]
  observations := [⟨.forecast, ["fact-1"], none⟩]
  times_ok := by decide +kernel
  facts_ok := by decide
  flags_ok := by decide

def sampleMap : SourceMap := ⟨[("reflection-1", ⟨1, sampleReflection⟩)], by decide⟩

/-- The provider calls the lesson a general one of no importance. -/
def sampleEntry : MemoryEntry sampleRules where
  category := .general
  importance := 0
  observation := "spreads were narrow"
  reusableLesson := "wait for the open"
  appliesWhen := ["calm market"]
  invalidWhen := []
  evidenceIds := ["fact-1"]
  sourceRecordIds := ["reflection-1"]
  riskReasonCodes := []
  importance_ok := zero_rating_ok
  observation_ok := by decide +kernel
  lesson_ok := by decide +kernel
  applies_ok := by decide +kernel
  invalid_ok := by decide +kernel
  evidence_ok := by decide +kernel
  sources_ok := by decide +kernel
  reasons_ok := by decide +kernel

def sampleCandidate : MemoryCandidate sampleRules :=
  ⟨sampleEntry, sampleDay 0, 1, false, 0, one_recurrence_ok, zero_rating_ok⟩

def sampleFields : ArtifactFields where
  artifactId := "memory-1"
  schemaVersion := "1.0.0"
  createdAt := sampleDay 4
  cutoffAt := sampleDay 3
  sourceRecordIds := ["reflection-1"]
  previousArtifactId := none
  promptVersion := "1"
  modelVersion := "1"
  providerVersion := "1"

end Sample

/-- The lesson is selected under the category of its source, and the validator finds no fault with
that. -/
theorem sample_passes_policy :
    ∃ a, buildSelectedArtifact [sampleCandidate] (some sampleMap) sampleFields = .ok a ∧
      a.entries.map MemoryEntry.category = [.marketRegime] ∧
        ∃ r, validate sampleClosure sampleMap a a.cutoffAt = .ok r ∧
          ∀ issue ∈ r.issues, issue.stage ≠ "deterministic_policy" ∧ issue.code ≠ "artifact_integrity" := by
  have hbuilt : (buildSelectedArtifact [sampleCandidate] (some sampleMap) sampleFields).toOption.map
      (fun a => a.entries.map MemoryEntry.category) = some [.marketRegime] := by decide +kernel
  obtain ⟨a, ha, hcategories⟩ := Option.map_eq_some_iff.mp hbuilt
  have ha : buildSelectedArtifact [sampleCandidate] (some sampleMap) sampleFields = .ok a := by
    revert ha
    cases buildSelectedArtifact [sampleCandidate] (some sampleMap) sampleFields with
    | error e => exact fun h => nomatch h
    | ok b => exact fun h => congrArg Except.ok (Option.some.inj h)
  exact ⟨a, ha, hcategories, (selected_passes_policy sampleClosure sampleMap).1 _ _ a ha⟩

end SevenLens.Memory
