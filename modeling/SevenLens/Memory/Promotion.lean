import Mathlib.Logic.Relation
import SevenLens.Library.Linked
import SevenLens.Library.Stages
import SevenLens.Memory.Validation

/-! # Promotion of memory artifacts

The repository keeps the artifacts by their identifiers, the one that is current, and the history of
promotions.  A call of the promoter registers its artifact, validates it and promotes it; it may stop
after each of these stages and be made again, and calls interleave.  Whatever happens, the history is
one chain (`Chained`): every promoted artifact names the one promoted before it. -/

namespace SevenLens.Memory

open Securities

variable {R : Rules}

/-! ### The repository -/

structure PromotionEvent where
  artifactId : String
  promotedAt : UtcTimestamp
deriving DecidableEq

/-- What an artifact was validated against. -/
structure ValidationContext where
  sourceRecords : SourceMap
  requestedCutoff : UtcTimestamp

/-- The repository; its dictionaries are read by key only. -/
structure Repository (R : Rules) where
  artifacts : String → Option (MemoryArtifact R)
  currentId : Option String
  history : List PromotionEvent
  contexts : String → Option ValidationContext
  reasons : String → Option String

namespace Repository

def empty : Repository R := ⟨fun _ => none, none, [], fun _ => none, fun _ => none⟩

/-- `raise RuntimeError(message)` unless the condition holds. -/
def demand (p : Prop) [Decidable p] (message : String) : Except Failure Unit := requireOr .runtimeError p message

/-- The checks on the predecessor of an artifact that is new. -/
def checkPredecessor (a : MemoryArtifact R) (s : Repository R) : Except Failure Unit := do
  match s.currentId with
  | none => demand (a.previousArtifactId = none) "initial artifact has foreign predecessor lineage"
  | some current =>
    demand (a.previousArtifactId = some current) "candidate predecessor is not the exact current artifact"
  match a.previousArtifactId with
  | none => .ok ()
  | some id =>
    match s.artifacts id with
    | none => .error (.keyError id)
    | some previous =>
      demand (¬ (a.cutoffAt < previous.cutoffAt ∨ a.createdAt < previous.createdAt))
        "candidate predecessor chronology is invalid"

/-- `register_candidate` -/
def registerCandidate (a : MemoryArtifact R) (s : Repository R) : Except Failure (Repository R) := do
  require (a.state = .candidate) "only an exact candidate can be registered"
  a.verifyIntegrity
  match s.artifacts a.artifactId with
  | some existing => do
    demand (existing.contentHash = a.contentHash) "memory artifact identity collision"
    return s
  | none => do
    checkPredecessor a s
    return { s with artifacts := Function.update s.artifacts a.artifactId (some a) }

/-- The artifact a result is about, if it can be changed by it. -/
def available (r : ValidationResult R) (message : String) (s : Repository R) : Except Failure (MemoryArtifact R) :=
  match s.artifacts r.artifact.artifactId with
  | none => throwing .runtimeError message
  | some existing =>
    if existing.contentHash = r.artifact.contentHash then .ok existing else throwing .runtimeError message

/-- The artifact of an invalid result, with its reason and without a context. -/
def storeInvalid (r : ValidationResult R) (reason : String) (s : Repository R) : Repository R :=
  { s with
    artifacts := Function.update s.artifacts r.artifact.artifactId (some r.artifact)
    contexts := Function.update s.contexts r.artifact.artifactId none
    reasons := Function.update s.reasons r.artifact.artifactId (some reason) }

/-- The artifact of a valid result, with the context it is given. -/
def storeValidated (r : ValidationResult R) (context : Option ValidationContext) (s : Repository R) : Repository R :=
  { s with
    artifacts := Function.update s.artifacts r.artifact.artifactId (some r.artifact)
    contexts := Function.update s.contexts r.artifact.artifactId context }

/-- `save_validation` -/
def saveValidation (r : ValidationResult R) (context : Option ValidationContext) (s : Repository R) :
    Except Failure (Repository R) := do
  require (r.artifact.state = .validated ∨ r.artifact.state = .invalid) "validation result state is invalid"
  require (r.artifact.state = .validated → r.valid = true) "validated artifact requires a successful validation result"
  require (r.artifact.state = .invalid → r.valid = false) "invalid artifact requires an unsuccessful validation result"
  if r.artifact.state = .invalid then do
    let reason ← r.invalidationReasonCode
    let existing ← available r "candidate is unavailable for validation" s
    match existing.state with
    | .current => throwing .runtimeError "current artifact cannot be invalidated"
    | .invalid => do
      demand (s.reasons r.artifact.artifactId = some reason) "invalid artifact identity collision"
      return s
    | _ => return storeInvalid r reason s
  else do
    let existing ← available r "candidate is unavailable for validation" s
    match existing.state with
    | .current => return s
    | .invalid => throwing .runtimeError "invalid artifact cannot be revived"
    | _ => return storeValidated r context s

/-- `mark_validated` -/
def markValidated (r : ValidationResult R) (context : Option ValidationContext) (s : Repository R) :
    Except Failure (Repository R) := do
  require (r.valid = true) "only an exact successful validation result can be marked validated"
  saveValidation r context s

/-- `mark_invalid` -/
def markInvalid (r : ValidationResult R) (s : Repository R) : Except Failure (Repository R) := do
  require (r.valid = false) "only an exact unsuccessful validation result can be marked invalid"
  let reason ← r.invalidationReasonCode
  require (r.artifact.state = .invalid) "invalid result must carry an INVALID artifact"
  let existing ← available r "candidate is unavailable for invalidation" s
  match existing.state with
  | .current => throwing .runtimeError "current artifact cannot be invalidated"
  | .invalid => do
    demand (s.reasons r.artifact.artifactId = some reason) "invalid artifact identity collision"
    return s
  | _ => return storeInvalid r reason s

/-- `promote`, at the instant the clock shows. -/
def promote (id : String) (contentHash : Hash) (now : UtcTimestamp) (s : Repository R) :
    Except Failure (Repository R) := do
  match s.artifacts id with
  | none => throwing .runtimeError "validated artifact identity is unavailable"
  | some artifact => do
    demand (artifact.contentHash = contentHash) "validated artifact identity is unavailable"
    if artifact.state = .current then return s
    demand (artifact.state = .validated) "only a validated artifact can be promoted"
    demand (artifact.previousArtifactId = s.currentId) "candidate lost the atomic current-pointer race"
    demand (artifact.createdAt ≤ now) "promotion time predates artifact creation"
    demand (∀ last ∈ s.history.getLast?, last.promotedAt ≤ now) "promotion clock moved backwards"
    let current ← artifact.withState .current
    return { s with
      artifacts := Function.update s.artifacts id (some current)
      currentId := some id
      history := s.history ++ [⟨id, now⟩] }

end Repository

/-! ### A call of the promoter -/

/-- The arguments of `validate_and_promote`. -/
structure Call (R : Rules) where
  artifact : MemoryArtifact R
  sourceRecords : SourceMap
  requestedCutoff : UtcTimestamp

def Call.id (c : Call R) : String := c.artifact.artifactId

inductive Stage where
  | bytes | register | validate | promote
deriving DecidableEq, Repr

/-- The stages in their order. -/
def Stage.all : List Stage := [.bytes, .register, .validate, .promote]

/-- One stage of a call.  Staging the bytes writes to the content store only.  The result of the
validation is a function of the arguments. -/
def Call.stage (K : ClosureRules) (c : Call R) (now : UtcTimestamp) : Stage → Repository R → Except Failure (Repository R)
  | .bytes, s => do
    require (c.artifact.state = .candidate) "promotion requires a candidate artifact"
    return s
  | .register, s => s.registerCandidate c.artifact
  | .validate, s => do
    let r ← Memory.validate K c.sourceRecords c.artifact c.requestedCutoff
    if r.valid then s.markValidated r (some ⟨c.sourceRecords, c.requestedCutoff⟩) else s.markInvalid r
  | .promote, s => do
    let r ← Memory.validate K c.sourceRecords c.artifact c.requestedCutoff
    if r.valid then s.promote c.artifact.artifactId c.artifact.contentHash now else .ok s

/-- The repository after the stages of a call up to the one it stops at, or up to the one that
fails. -/
def Call.attempt (K : ClosureRules) (c : Call R) (now : UtcTimestamp) (stages : List Stage) (s : Repository R) :
    Repository R := (Stages.run (stages.map (c.stage K now)) s).1

/-! ### What a stage can do -/

/-- An artifact that is neither current nor invalid. -/
def ArtifactState.Live (state : ArtifactState) : Prop := state = .candidate ∨ state = .validated

/-- The changes that a stage on a body can make at an instant. -/
inductive Effect (b : ArtifactBody R) (now : UtcTimestamp) (s : Repository R) : Repository R → Prop where
  | same : Effect b now s s
  | registered (a : MemoryArtifact R) (hbody : a.toArtifactBody = b) (hstate : a.state = .candidate)
      (hnew : s.artifacts b.artifactId = none) (hprevious : b.previousArtifactId = s.currentId) :
      Effect b now s { s with artifacts := Function.update s.artifacts b.artifactId (some a) }
  | judged (existing a : MemoryArtifact R) (context : Option ValidationContext) (reason : Option String)
      (hbody : a.toArtifactBody = b) (hstate : a.state = .validated ∨ a.state = .invalid)
      (hexisting : s.artifacts b.artifactId = some existing) (hlive : existing.state.Live)
      (hhash : existing.contentHash = b.contentHash) :
      Effect b now s { s with
        artifacts := Function.update s.artifacts b.artifactId (some a)
        contexts := Function.update s.contexts b.artifactId context
        reasons := Function.update s.reasons b.artifactId reason }
  | promoted (a : MemoryArtifact R) (hget : s.artifacts b.artifactId = some a) (hstate : a.state = .validated)
      (hprevious : a.previousArtifactId = s.currentId) (htime : ∀ last ∈ s.history.getLast?, last.promotedAt ≤ now) :
      Effect b now s { s with
        artifacts := Function.update s.artifacts b.artifactId (some { a with state := .current })
        currentId := some b.artifactId
        history := s.history ++ [⟨b.artifactId, now⟩] }

namespace Repository

variable {s t : Repository R} {a : MemoryArtifact R} {r : ValidationResult R}

theorem demand_ok {p : Prop} [Decidable p] {message : String} {u : Unit} : demand p message = .ok u ↔ p := requireOr_ok

/-- A new artifact names the current one. -/
theorem checkPredecessor_ok {u : Unit} (h : checkPredecessor a s = .ok u) : a.previousArtifactId = s.currentId := by
  unfold checkPredecessor at h
  cases hcurrent : s.currentId with
  | none =>
    rw [hcurrent] at h
    obtain ⟨_, hprevious, -⟩ := bind_ok.mp h
    exact demand_ok.mp hprevious
  | some current =>
    rw [hcurrent] at h
    obtain ⟨_, hprevious, -⟩ := bind_ok.mp h
    exact demand_ok.mp hprevious

theorem registerCandidate_cases (h : registerCandidate a s = .ok t) :
    a.state = .candidate ∧
      ((∃ existing, s.artifacts a.artifactId = some existing ∧ existing.contentHash = a.contentHash ∧ t = s) ∨
        s.artifacts a.artifactId = none ∧ checkPredecessor a s = .ok () ∧
          t = { s with artifacts := Function.update s.artifacts a.artifactId (some a) }) := by
  obtain ⟨_, hstate, h⟩ := bind_ok.mp h
  obtain ⟨_, -, h⟩ := bind_ok.mp h
  refine ⟨require_ok.mp hstate, ?_⟩
  split at h
  · rename_i existing hexisting
    obtain ⟨_, hhash, h⟩ := bind_ok.mp h
    cases h
    exact .inl ⟨existing, hexisting, demand_ok.mp hhash, rfl⟩
  · rename_i hnew
    obtain ⟨_, hpredecessor, h⟩ := bind_ok.mp h
    cases h
    exact .inr ⟨hnew, hpredecessor, rfl⟩

/-- An artifact that is there with its hash is registered already. -/
theorem registerCandidate_again {existing : MemoryArtifact R} (hstate : a.state = .candidate)
    (hexisting : s.artifacts a.artifactId = some existing) (hhash : existing.contentHash = a.contentHash) :
    registerCandidate a s = .ok s := by
  unfold registerCandidate
  rw [show require _ _ = .ok () from require_ok.mpr hstate, a.verifyIntegrity_ok, hexisting]
  simp only [demand, requireOr, if_pos hhash, bind, Except.bind, pure, Except.pure]

theorem available_ok {message : String} {existing : MemoryArtifact R} :
    available r message s = .ok existing ↔
      s.artifacts r.artifact.artifactId = some existing ∧ existing.contentHash = r.artifact.contentHash := by
  unfold available throwing
  cases s.artifacts r.artifact.artifactId with
  | none => simp
  | some found =>
    by_cases hhash : found.contentHash = r.artifact.contentHash
    · simp only [if_pos hhash, Except.ok.injEq, Option.some.injEq]
      constructor
      · rintro rfl
        exact ⟨rfl, hhash⟩
      · exact fun h => h.1
    · simp only [if_neg hhash, reduceCtorEq, Option.some.injEq, false_iff, not_and]
      rintro rfl
      exact hhash

/-- What a result about a valid artifact leads to. -/
theorem saveValidation_valid_cases {context : Option ValidationContext} (hstate : r.artifact.state = .validated)
    (h : saveValidation r context s = .ok t) :
    ∃ existing, s.artifacts r.artifact.artifactId = some existing ∧ existing.contentHash = r.artifact.contentHash ∧
      (existing.state = .current ∧ t = s ∨ existing.state.Live ∧ t = storeValidated r context s) := by
  obtain ⟨_, -, h⟩ := bind_ok.mp h
  obtain ⟨_, -, h⟩ := bind_ok.mp h
  obtain ⟨_, -, h⟩ := bind_ok.mp h
  rw [if_neg (by rw [hstate]; decide)] at h
  obtain ⟨existing, havailable, h⟩ := bind_ok.mp h
  obtain ⟨hexisting, hhash⟩ := available_ok.mp havailable
  refine ⟨existing, hexisting, hhash, ?_⟩
  cases hexistingState : existing.state with
  | current =>
    rw [hexistingState] at h
    cases h
    exact .inl ⟨rfl, rfl⟩
  | invalid =>
    rw [hexistingState] at h
    cases h
  | candidate =>
    rw [hexistingState] at h
    cases h
    exact .inr ⟨.inl rfl, rfl⟩
  | validated =>
    rw [hexistingState] at h
    cases h
    exact .inr ⟨.inr rfl, rfl⟩

/-- The end of both ways to mark an artifact invalid. -/
theorem invalidated_cases {existing : MemoryArtifact R} {reason : String}
    (h : (match existing.state with
      | .current => throwing .runtimeError "current artifact cannot be invalidated"
      | .invalid => do
        demand (s.reasons r.artifact.artifactId = some reason) "invalid artifact identity collision"
        return s
      | _ => return storeInvalid r reason s) = .ok t) :
    existing.state = .invalid ∧ s.reasons r.artifact.artifactId = some reason ∧ t = s ∨
      existing.state.Live ∧ t = storeInvalid r reason s := by
  cases hstate : existing.state with
  | current =>
    rw [hstate] at h
    cases h
  | invalid =>
    rw [hstate] at h
    obtain ⟨_, hsame, h⟩ := bind_ok.mp h
    cases h
    exact .inl ⟨rfl, demand_ok.mp hsame, rfl⟩
  | candidate =>
    rw [hstate] at h
    cases h
    exact .inr ⟨.inl rfl, rfl⟩
  | validated =>
    rw [hstate] at h
    cases h
    exact .inr ⟨.inr rfl, rfl⟩

theorem markInvalid_cases (h : markInvalid r s = .ok t) :
    r.artifact.state = .invalid ∧ ∃ existing reason, r.invalidationReasonCode = .ok reason ∧
      s.artifacts r.artifact.artifactId = some existing ∧ existing.contentHash = r.artifact.contentHash ∧
        (existing.state = .invalid ∧ s.reasons r.artifact.artifactId = some reason ∧ t = s ∨
          existing.state.Live ∧ t = storeInvalid r reason s) := by
  obtain ⟨_, -, h⟩ := bind_ok.mp h
  obtain ⟨reason, hreason, h⟩ := bind_ok.mp h
  obtain ⟨_, hstate, h⟩ := bind_ok.mp h
  obtain ⟨existing, havailable, h⟩ := bind_ok.mp h
  obtain ⟨hexisting, hhash⟩ := available_ok.mp havailable
  exact ⟨require_ok.mp hstate, existing, reason, hreason, hexisting, hhash, invalidated_cases h⟩

theorem storeInvalid_effect {existing : MemoryArtifact R} {reason : String} {now : UtcTimestamp}
    (hexisting : s.artifacts r.artifact.artifactId = some existing)
    (hhash : existing.contentHash = r.artifact.contentHash) (hlive : existing.state.Live)
    (hstate : r.artifact.state = .invalid) : Effect r.artifact.toArtifactBody now s (storeInvalid r reason s) :=
  .judged existing r.artifact none (some reason) rfl (.inr hstate) hexisting hlive hhash

theorem storeValidated_effect {existing : MemoryArtifact R} {context : Option ValidationContext} {now : UtcTimestamp}
    (hexisting : s.artifacts r.artifact.artifactId = some existing)
    (hhash : existing.contentHash = r.artifact.contentHash) (hlive : existing.state.Live)
    (hstate : r.artifact.state = .validated) : Effect r.artifact.toArtifactBody now s (storeValidated r context s) := by
  have h : Effect r.artifact.toArtifactBody now s _ :=
    .judged existing r.artifact context (s.reasons r.artifact.artifactId) rfl (.inl hstate) hexisting hlive hhash
  rwa [Function.update_eq_self] at h

theorem saveValidation_effect {context : Option ValidationContext} {now : UtcTimestamp}
    (h : saveValidation r context s = .ok t) : Effect r.artifact.toArtifactBody now s t := by
  by_cases hstate : r.artifact.state = .invalid
  · obtain ⟨_, -, h⟩ := bind_ok.mp h
    obtain ⟨_, -, h⟩ := bind_ok.mp h
    obtain ⟨_, -, h⟩ := bind_ok.mp h
    rw [if_pos hstate] at h
    obtain ⟨reason, -, h⟩ := bind_ok.mp h
    obtain ⟨existing, havailable, h⟩ := bind_ok.mp h
    obtain ⟨hexisting, hhash⟩ := available_ok.mp havailable
    obtain ⟨-, -, rfl⟩ | ⟨hlive, rfl⟩ := invalidated_cases h
    · exact .same
    · exact storeInvalid_effect hexisting hhash hlive hstate
  · obtain ⟨_, hstates, -⟩ := bind_ok.mp h
    have hvalidated := (require_ok.mp hstates).resolve_right hstate
    obtain ⟨existing, hexisting, hhash, ⟨-, rfl⟩ | ⟨hlive, rfl⟩⟩ := saveValidation_valid_cases hvalidated h
    · exact .same
    · exact storeValidated_effect hexisting hhash hlive hvalidated

theorem markValidated_effect {context : Option ValidationContext} {now : UtcTimestamp}
    (h : markValidated r context s = .ok t) : Effect r.artifact.toArtifactBody now s t := by
  obtain ⟨_, -, h⟩ := bind_ok.mp h
  exact saveValidation_effect h

theorem markInvalid_effect {now : UtcTimestamp} (h : markInvalid r s = .ok t) :
    Effect r.artifact.toArtifactBody now s t := by
  obtain ⟨hstate, existing, reason, -, hexisting, hhash, ⟨-, -, rfl⟩ | ⟨hlive, rfl⟩⟩ := markInvalid_cases h
  · exact .same
  · exact storeInvalid_effect hexisting hhash hlive hstate

theorem registerCandidate_effect {now : UtcTimestamp} (h : registerCandidate a s = .ok t) :
    Effect a.toArtifactBody now s t := by
  obtain ⟨hstate, ⟨_, -, -, rfl⟩ | ⟨hnew, hpredecessor, rfl⟩⟩ := registerCandidate_cases h
  · exact .same
  · exact .registered a rfl hstate hnew (checkPredecessor_ok hpredecessor)

theorem promote_cases {id : String} {contentHash : Hash} {now : UtcTimestamp} (h : promote id contentHash now s = .ok t) :
    ∃ a, s.artifacts id = some a ∧ a.contentHash = contentHash ∧
      (a.state = .current ∧ t = s ∨
        a.state = .validated ∧ a.previousArtifactId = s.currentId ∧ a.createdAt ≤ now ∧
          (∀ last ∈ s.history.getLast?, last.promotedAt ≤ now) ∧
          t = { s with
            artifacts := Function.update s.artifacts id (some { a with state := .current })
            currentId := some id
            history := s.history ++ [⟨id, now⟩] }) := by
  unfold promote at h
  split at h
  · cases h
  · rename_i a hget
    obtain ⟨_, hhash, h⟩ := bind_ok.mp h
    refine ⟨a, hget, demand_ok.mp hhash, ?_⟩
    by_cases hcurrent : a.state = .current
    · rw [if_pos hcurrent] at h
      cases h
      exact .inl ⟨hcurrent, rfl⟩
    · rw [if_neg hcurrent] at h
      obtain ⟨_, hstate, h⟩ := bind_ok.mp h
      obtain ⟨_, hprevious, h⟩ := bind_ok.mp h
      obtain ⟨_, hcreated, h⟩ := bind_ok.mp h
      obtain ⟨_, htime, h⟩ := bind_ok.mp h
      have hstate := demand_ok.mp hstate
      rw [withState_of_allowed (by rw [hstate]; rfl)] at h
      cases h
      exact .inr ⟨hstate, demand_ok.mp hprevious, demand_ok.mp hcreated, demand_ok.mp htime, rfl⟩

theorem promote_effect {b : ArtifactBody R} {contentHash : Hash} {now : UtcTimestamp}
    (h : promote b.artifactId contentHash now s = .ok t) : Effect b now s t := by
  obtain ⟨a, hget, -, ⟨-, rfl⟩ | ⟨hstate, hprevious, -, htime, rfl⟩⟩ := promote_cases h
  · exact .same
  · exact .promoted a hget hstate hprevious htime

end Repository

/-- A result is about the artifact of the call. -/
theorem Call.result_artifact {K : ClosureRules} {c : Call R} {r : ValidationResult R}
    (h : Memory.validate K c.sourceRecords c.artifact c.requestedCutoff = .ok r) :
    c.artifact.state = .candidate ∧ r.artifact.toArtifactBody = c.artifact.toArtifactBody ∧
      (r.valid = true ∧ r.artifact.state = .validated ∨ r.valid = false ∧ r.artifact.state = .invalid) := by
  obtain ⟨hstate, ⟨-, rfl⟩ | ⟨issue, -, rfl⟩⟩ := validate_cases h
  · exact ⟨hstate, rfl, .inl ⟨rfl, rfl⟩⟩
  · exact ⟨hstate, rfl, .inr ⟨rfl, rfl⟩⟩

/-- Every stage has one of the effects. -/
theorem Call.stage_effect {K : ClosureRules} {c : Call R} {now : UtcTimestamp} {stage : Stage} {s t : Repository R}
    (h : c.stage K now stage s = .ok t) : Effect c.artifact.toArtifactBody now s t := by
  cases stage with
  | bytes =>
    obtain ⟨_, -, h⟩ := bind_ok.mp h
    cases h
    exact .same
  | register => exact Repository.registerCandidate_effect h
  | validate =>
    obtain ⟨r, hr, h⟩ := bind_ok.mp h
    obtain ⟨-, hbody, -⟩ := Call.result_artifact hr
    rw [← hbody]
    split_ifs at h
    · exact Repository.markValidated_effect h
    · exact Repository.markInvalid_effect h
  | promote =>
    obtain ⟨r, -, h⟩ := bind_ok.mp h
    split_ifs at h
    · exact Repository.promote_effect h
    · cases h
      exact .same

end SevenLens.Memory
