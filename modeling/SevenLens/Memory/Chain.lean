import SevenLens.Memory.Promotion

/-! # Runs of the promoter

Calls of the promoter interleave, and each may stop after any stage and be made again.  Whatever
happens, the history of promotions is one chain (`Chained`), and an artifact that was promoted or
found invalid stays as it is (`Effect.final`).  A call reads and writes its own artifact and the end
of the history only (`Call.stage_alike`, `Effect.elsewhere`), and each of its stages is settled once
it went through (`Call.resumable`), so that a call made again ends as if it had not been stopped. -/

namespace SevenLens.Memory

open Securities

variable {R : Rules} {K : ClosureRules} {b : ArtifactBody R} {now : UtcTimestamp} {s t : Repository R}

/-! ### The chain -/

namespace Repository

/-- The identifiers of the artifacts that were promoted. -/
def promotedIds (s : Repository R) : List String := s.history.map PromotionEvent.artifactId

/-- The predecessor that a promoted artifact names. -/
def predecessor (s : Repository R) (e : PromotionEvent) : Option String :=
  (s.artifacts e.artifactId).bind (fun a => a.previousArtifactId)

/-- The history is a chain of distinct artifacts up to the current one. -/
structure Chained (s : Repository R) : Prop where
  promoted : ∀ e ∈ s.history, ∃ a, s.artifacts e.artifactId = some a ∧ a.state = .current
  distinct : s.promotedIds.Nodup
  linked : Linked.From PromotionEvent.artifactId s.predecessor none s.history
  times : s.history.Pairwise (fun e f => e.promotedAt ≤ f.promotedAt)
  current : s.currentId = s.promotedIds.getLast?

theorem chained_empty : (empty : Repository R).Chained := ⟨nofun, .nil, trivial, .nil, rfl⟩

theorem Chained.exists_of_mem {id : String} (h : s.Chained) (hid : id ∈ s.promotedIds) :
    ∃ a, s.artifacts id = some a ∧ a.state = .current := by
  obtain ⟨e, he, rfl⟩ := List.mem_map.mp hid
  exact h.promoted e he

theorem Chained.current_mem {id : String} (h : s.Chained) (hid : s.currentId = some id) : id ∈ s.promotedIds := by
  rw [h.current] at hid
  exact List.mem_of_getLast? hid

end Repository

theorem ArtifactState.not_live_current : ¬ ArtifactState.current.Live := by simp [ArtifactState.Live]

theorem ArtifactState.not_live_invalid : ¬ ArtifactState.invalid.Live := by simp [ArtifactState.Live]

/-- An artifact that is current or invalid stays as it is, and so does its context. -/
theorem Effect.final {id : String} {a : MemoryArtifact R} (h : Effect b now s t) (hget : s.artifacts id = some a)
    (hstate : ¬ a.state.Live) : t.artifacts id = some a ∧ t.contexts id = s.contexts id := by
  cases h with
  | same => exact ⟨hget, rfl⟩
  | registered a' hbody hcandidate hnew hprevious =>
    have hne : id ≠ b.artifactId := by
      rintro rfl
      rw [hget] at hnew
      cases hnew
    exact ⟨(Function.update_of_ne hne _ _).trans hget, rfl⟩
  | judged existing a' context reason hbody hjudged hexisting hlive hhash =>
    have hne : id ≠ b.artifactId := by
      rintro rfl
      rw [hget] at hexisting
      cases hexisting
      exact hstate hlive
    exact ⟨(Function.update_of_ne hne _ _).trans hget, Function.update_of_ne hne _ _⟩
  | promoted a' hget' hvalidated hprevious htime =>
    have hne : id ≠ b.artifactId := by
      rintro rfl
      rw [hget] at hget'
      cases hget'
      exact hstate (.inr hvalidated)
    exact ⟨(Function.update_of_ne hne _ _).trans hget, rfl⟩

/-- The history stays, or one event comes after it. -/
theorem Effect.history (h : Effect b now s t) :
    t.currentId = s.currentId ∧ t.history = s.history ∨
      t.currentId = some b.artifactId ∧ t.history = s.history ++ [⟨b.artifactId, now⟩] := by
  cases h with
  | same => exact .inl ⟨rfl, rfl⟩
  | registered => exact .inl ⟨rfl, rfl⟩
  | judged => exact .inl ⟨rfl, rfl⟩
  | promoted => exact .inr ⟨rfl, rfl⟩

theorem Effect.promotedIds_subset (h : Effect b now s t) : s.promotedIds ⊆ t.promotedIds := by
  obtain ⟨-, heq⟩ | ⟨-, heq⟩ := h.history
  · rw [Repository.promotedIds, Repository.promotedIds, heq]
    exact List.Subset.refl _
  · rw [Repository.promotedIds, Repository.promotedIds, heq, List.map_append]
    exact List.subset_append_left _ _

/-- An event that is not before the last one is not before any. -/
theorem promotedAt_le {history : List PromotionEvent}
    (htimes : history.Pairwise (fun e f => e.promotedAt ≤ f.promotedAt))
    (hlast : ∀ last ∈ history.getLast?, last.promotedAt ≤ now) : ∀ e ∈ history, e.promotedAt ≤ now := by
  intro e he
  obtain rfl | ⟨before, last, rfl⟩ := List.eq_nil_or_concat history
  · cases he
  · rw [List.concat_eq_append] at he htimes hlast
    have hnow : last.promotedAt ≤ now := hlast last (by simp)
    rcases List.mem_append.mp he with hbefore | hmem
    · exact le_trans ((List.pairwise_append.mp htimes).2.2 e hbefore last (by simp)) hnow
    · rw [List.mem_singleton.mp hmem]
      exact hnow

/-- The predecessors of promoted artifacts stay. -/
theorem Effect.predecessor_eq (h : Effect b now s t) (hs : s.Chained) : ∀ e ∈ s.history, t.predecessor e = s.predecessor e := by
  intro e he
  obtain ⟨a, hget, hstate⟩ := hs.promoted e he
  have hfinal := (h.final hget (by rw [hstate]; exact ArtifactState.not_live_current)).1
  rw [Repository.predecessor, Repository.predecessor, hget, hfinal]

/-- Every effect keeps the chain. -/
theorem Effect.chained (h : Effect b now s t) (hs : s.Chained) : t.Chained := by
  have hpromoted : ∀ e ∈ s.history, ∃ a, t.artifacts e.artifactId = some a ∧ a.state = .current := by
    intro e he
    obtain ⟨a, hget, hstate⟩ := hs.promoted e he
    exact ⟨a, (h.final hget (by rw [hstate]; exact ArtifactState.not_live_current)).1, hstate⟩
  have hlinked := hs.linked.congr (h.predecessor_eq hs)
  cases h with
  | same => exact hs
  | registered => exact ⟨hpromoted, hs.distinct, hlinked, hs.times, hs.current⟩
  | judged => exact ⟨hpromoted, hs.distinct, hlinked, hs.times, hs.current⟩
  | promoted a hget hstate hprevious htime =>
    have hnew : b.artifactId ∉ s.promotedIds := by
      intro hid
      obtain ⟨a', hget', hcurrent⟩ := hs.exists_of_mem hid
      rw [hget] at hget'
      cases hget'
      rw [hstate] at hcurrent
      cases hcurrent
    refine ⟨?_, ?_, ?_, ?_, ?_⟩
    · intro e he
      rcases List.mem_append.mp he with he | he
      · exact hpromoted e he
      · rw [List.mem_singleton.mp he]
        exact ⟨{ a with state := .current }, Function.update_self _ _ _, rfl⟩
    · rw [Repository.promotedIds, List.map_append]
      exact List.nodup_append.mpr ⟨hs.distinct, List.nodup_singleton _, by
        intro id hid id' hid' heq
        have hnewId : id = b.artifactId := heq.trans (List.mem_singleton.mp hid')
        exact hnew (hnewId ▸ hid)⟩
    · refine hlinked.append_singleton ?_
      rw [Repository.predecessor, Option.or_none, ← List.getLast?_map]
      simpa only [Function.update_self, Option.bind_some, Repository.promotedIds] using hprevious.trans hs.current
    · refine List.pairwise_append.mpr ⟨hs.times, List.pairwise_singleton _ _, ?_⟩
      intro e he f hf
      rw [List.mem_singleton.mp hf]
      exact promotedAt_le hs.times htime e he
    · simp [Repository.promotedIds]

/-! ### What a call reads and writes -/

/-- Two repositories with the same artifact under an identifier and the same end of the chain. -/
structure Repository.Agree (id : String) (s t : Repository R) : Prop where
  artifact : t.artifacts id = s.artifacts id
  context : t.contexts id = s.contexts id
  reason : t.reasons id = s.reasons id
  current : t.currentId = s.currentId
  history : t.history = s.history
  previous : ∀ k, s.currentId = some k → t.artifacts k = s.artifacts k

/-- Two repositories that differ under one identifier at most, and in what was promoted. -/
structure Repository.Elsewhere (id : String) (s t : Repository R) : Prop where
  artifact : ∀ k, k ≠ id → t.artifacts k = s.artifacts k
  context : ∀ k, k ≠ id → t.contexts k = s.contexts k
  reason : ∀ k, k ≠ id → t.reasons k = s.reasons k

namespace Repository

variable {id : String} {a : MemoryArtifact R} {r : ValidationResult R} {u : Repository R}

theorem Agree.refl (id : String) (s : Repository R) : Agree id s s := ⟨rfl, rfl, rfl, rfl, rfl, fun _ _ => rfl⟩

theorem Agree.trans (h : Agree id s t) (h' : Agree id t u) : Agree id s u where
  artifact := h'.artifact.trans h.artifact
  context := h'.context.trans h.context
  reason := h'.reason.trans h.reason
  current := h'.current.trans h.current
  history := h'.history.trans h.history
  previous k hk := (h'.previous k (h.current.trans hk)).trans (h.previous k hk)

theorem Elsewhere.refl (id : String) (s : Repository R) : Elsewhere id s s :=
  ⟨fun _ _ => rfl, fun _ _ => rfl, fun _ _ => rfl⟩

theorem Elsewhere.trans (h : Elsewhere id s t) (h' : Elsewhere id t u) : Elsewhere id s u where
  artifact k hk := (h'.artifact k hk).trans (h.artifact k hk)
  context k hk := (h'.context k hk).trans (h.context k hk)
  reason k hk := (h'.reason k hk).trans (h.reason k hk)

theorem Elsewhere.symm (h : Elsewhere id s t) : Elsewhere id t s :=
  ⟨fun k hk => (h.artifact k hk).symm, fun k hk => (h.context k hk).symm, fun k hk => (h.reason k hk).symm⟩

/-- Repositories that agree on an identifier and elsewhere are the same. -/
theorem Agree.eq (h : Agree id s t) (h' : Elsewhere id s t) : t = s := by
  obtain ⟨artifacts, currentId, history, contexts, reasons⟩ := s
  obtain ⟨artifacts', currentId', history', contexts', reasons'⟩ := t
  have hartifacts : artifacts' = artifacts := by
    funext k
    by_cases hk : k = id
    · exact hk ▸ h.artifact
    · exact h'.artifact k hk
  have hcontexts : contexts' = contexts := by
    funext k
    by_cases hk : k = id
    · exact hk ▸ h.context
    · exact h'.context k hk
  have hreasons : reasons' = reasons := by
    funext k
    by_cases hk : k = id
    · exact hk ▸ h.reason
    · exact h'.reason k hk
  have hcurrent : currentId' = currentId := h.current
  have hhistory : history' = history := h.history
  rw [hartifacts, hcontexts, hreasons, hcurrent, hhistory]

theorem checkPredecessor_congr (h : Agree a.artifactId s t) : checkPredecessor a t = checkPredecessor a s := by
  unfold checkPredecessor
  rw [h.current]
  cases hcurrent : s.currentId with
  | none =>
    refine Stages.bind_congr fun _ hprevious => ?_
    rw [demand_ok.mp hprevious]
  | some k =>
    refine Stages.bind_congr fun _ hprevious => ?_
    rw [demand_ok.mp hprevious]
    simp only [h.previous k hcurrent]

theorem available_congr {message : String} (h : Agree r.artifact.artifactId s t) :
    available r message t = available r message s := by rw [available, available, h.artifact]

theorem Agree.updateArtifact (h : Agree id s t) (a : Option (MemoryArtifact R)) :
    Agree id { s with artifacts := Function.update s.artifacts id a }
      { t with artifacts := Function.update t.artifacts id a } where
  artifact := by simp only [Function.update_self]
  context := h.context
  reason := h.reason
  current := h.current
  history := h.history
  previous k hk := by
    by_cases heq : k = id
    · simp only [heq, Function.update_self]
    · simpa only [Function.update_of_ne heq] using h.previous k hk

theorem Agree.updateContext (h : Agree id s t) (context : Option ValidationContext) :
    Agree id { s with contexts := Function.update s.contexts id context }
      { t with contexts := Function.update t.contexts id context } where
  artifact := h.artifact
  context := by simp only [Function.update_self]
  reason := h.reason
  current := h.current
  history := h.history
  previous := h.previous

theorem Agree.updateReason (h : Agree id s t) (reason : Option String) :
    Agree id { s with reasons := Function.update s.reasons id reason }
      { t with reasons := Function.update t.reasons id reason } where
  artifact := h.artifact
  context := h.context
  reason := by simp only [Function.update_self]
  current := h.current
  history := h.history
  previous := h.previous

theorem registerCandidate_alike (h : Agree a.artifactId s t) :
    Stages.Alike (Agree a.artifactId) (registerCandidate a s) (registerCandidate a t) := by
  refine .bind _ fun _ _ => .bind _ fun _ _ => ?_
  rw [h.artifact, checkPredecessor_congr h]
  cases s.artifacts a.artifactId with
  | some existing => exact .bind _ fun _ _ => .ok h
  | none => exact .bind _ fun _ _ => .ok (h.updateArtifact (some a))

theorem storeInvalid_alike {reason : String} (h : Agree r.artifact.artifactId s t) :
    Agree r.artifact.artifactId (storeInvalid r reason s) (storeInvalid r reason t) :=
  ((h.updateArtifact _).updateContext _).updateReason _

theorem storeValidated_alike {context : Option ValidationContext} (h : Agree r.artifact.artifactId s t) :
    Agree r.artifact.artifactId (storeValidated r context s) (storeValidated r context t) :=
  (h.updateArtifact _).updateContext _

theorem markInvalid_alike (h : Agree r.artifact.artifactId s t) :
    Stages.Alike (Agree r.artifact.artifactId) (markInvalid r s) (markInvalid r t) := by
  refine .bind _ fun _ _ => .bind _ fun reason _ => .bind _ fun _ _ => ?_
  rw [available_congr h]
  refine .bind _ fun existing _ => ?_
  rw [h.reason]
  cases existing.state with
  | current => exact .error _
  | invalid => exact .bind _ fun _ _ => .ok h
  | candidate => exact .ok (storeInvalid_alike h)
  | validated => exact .ok (storeInvalid_alike h)

theorem saveValidation_alike {context : Option ValidationContext} (h : Agree r.artifact.artifactId s t) :
    Stages.Alike (Agree r.artifact.artifactId) (saveValidation r context s) (saveValidation r context t) := by
  refine .bind _ fun _ _ => .bind _ fun _ _ => .bind _ fun _ _ => ?_
  rw [available_congr h, h.reason]
  split_ifs
  · refine .bind _ fun reason _ => .bind _ fun existing _ => ?_
    cases existing.state with
    | current => exact .error _
    | invalid => exact .bind _ fun _ _ => .ok h
    | candidate => exact .ok (storeInvalid_alike h)
    | validated => exact .ok (storeInvalid_alike h)
  · refine .bind _ fun existing _ => ?_
    cases existing.state with
    | current => exact .ok h
    | invalid => exact .error _
    | candidate => exact .ok (storeValidated_alike h)
    | validated => exact .ok (storeValidated_alike h)

theorem promote_alike {contentHash : Hash} (h : Agree id s t) :
    Stages.Alike (Agree id) (promote id contentHash now s) (promote id contentHash now t) := by
  unfold promote
  rw [h.artifact, h.current, h.history]
  cases s.artifacts id with
  | none => exact .error _
  | some a =>
    refine .bind _ fun _ _ => ?_
    split_ifs
    · exact .ok h
    · refine .bind _ fun _ _ => .bind _ fun _ _ => .bind _ fun _ _ => .bind _ fun _ _ => .bind _ fun current _ => .ok ?_
      have hartifact := h.updateArtifact (some current)
      exact ⟨hartifact.artifact, h.context, h.reason, rfl, rfl, fun k hk => by
        cases hk
        exact hartifact.artifact⟩

end Repository

/-- A stage does the same on repositories that agree on its artifact. -/
theorem Call.stage_alike {c : Call R} (stage : Stage) (h : Repository.Agree c.id s t) :
    Stages.Alike (Repository.Agree c.id) (c.stage K now stage s) (c.stage K now stage t) := by
  cases stage with
  | bytes => exact .bind _ fun _ _ => .ok h
  | register => exact Repository.registerCandidate_alike h
  | validate =>
    refine .bind _ fun r hr => ?_
    have hid : r.artifact.artifactId = c.id := congrArg (fun b => b.artifactId) (Call.result_artifact hr).2.1
    rw [← hid] at h ⊢
    split_ifs
    · exact .bind _ fun _ _ => Repository.saveValidation_alike h
    · exact Repository.markInvalid_alike h
  | promote =>
    refine .bind _ fun r _ => ?_
    split_ifs
    · exact Repository.promote_alike h
    · exact .ok h

/-- An effect on one artifact leaves the others alone. -/
theorem Effect.elsewhere (h : Effect b now s t) : Repository.Elsewhere b.artifactId s t := by
  cases h with
  | same => exact .refl _ _
  | registered => exact ⟨fun k hk => Function.update_of_ne hk _ _, fun _ _ => rfl, fun _ _ => rfl⟩
  | judged =>
    exact ⟨fun k hk => Function.update_of_ne hk _ _, fun k hk => Function.update_of_ne hk _ _,
      fun k hk => Function.update_of_ne hk _ _⟩
  | promoted => exact ⟨fun k hk => Function.update_of_ne hk _ _, fun _ _ => rfl, fun _ _ => rfl⟩

/-- An effect on another artifact that promotes nothing is not seen. -/
theorem Effect.agree {id : String} (h : Effect b now s t) (hs : s.Chained) (hne : id ≠ b.artifactId)
    (hhistory : t.history = s.history) : Repository.Agree id s t := by
  have helsewhere := h.elsewhere
  have hcurrent : t.currentId = s.currentId := by
    rw [hs.current, (h.chained hs).current, Repository.promotedIds, Repository.promotedIds, hhistory]
  refine ⟨helsewhere.artifact id hne, helsewhere.context id hne, helsewhere.reason id hne, hcurrent, hhistory, ?_⟩
  intro k hk
  obtain ⟨a, hget, hstate⟩ := hs.exists_of_mem (hs.current_mem hk)
  rw [hget]
  exact (h.final hget (by rw [hstate]; exact ArtifactState.not_live_current)).1

/-! ### Calls that are made again -/

/-- The artifact of a body is there under its identifier. -/
def Repository.Stored (b : ArtifactBody R) (s : Repository R) : Prop :=
  ∃ a, s.artifacts b.artifactId = some a ∧ a.contentHash = b.contentHash

theorem Effect.stored (h : Effect b now s t) (hs : s.Stored b) : t.Stored b := by
  cases h with
  | same => exact hs
  | registered a hbody => exact ⟨a, Function.update_self _ _ _, by rw [hbody]⟩
  | judged existing a context reason hbody => exact ⟨a, Function.update_self _ _ _, by rw [hbody]⟩
  | promoted a hget =>
    obtain ⟨a', hget', hhash⟩ := hs
    rw [hget] at hget'
    cases hget'
    exact ⟨{ a with state := .current }, Function.update_self _ _ _, hhash⟩

namespace Repository

variable {r : ValidationResult R} {existing : MemoryArtifact R} {context : Option ValidationContext}

theorem saveValidation_of_stored (hvalid : r.valid = true) (hstate : r.artifact.state = .validated)
    (hexisting : s.artifacts r.artifact.artifactId = some existing)
    (hhash : existing.contentHash = r.artifact.contentHash) :
    (existing.state = .current → markValidated r context s = .ok s) ∧
      (existing.state.Live → markValidated r context s = .ok (storeValidated r context s)) := by
  have havailable : available r "candidate is unavailable for validation" s = .ok existing :=
    available_ok.mpr ⟨hexisting, hhash⟩
  have hchecked : markValidated r context s = saveValidation r context s := by
    simp only [markValidated, hvalid, require, requireOr, if_true, bind, Except.bind]
  rw [hchecked]
  unfold saveValidation
  rw [havailable]
  constructor
  · intro hcurrent
    simp only [hvalid, hstate, hcurrent, require, requireOr, reduceCtorEq, or_false, if_true, if_false, imp_self, bind,
      Except.bind, pure, Except.pure]
  · rintro (hlive | hlive) <;>
      simp only [hvalid, hstate, hlive, require, requireOr, reduceCtorEq, or_false, if_true, if_false, imp_self, bind,
        Except.bind, pure, Except.pure]

theorem markInvalid_again {reason : String} (hvalid : r.valid = false) (hreason : r.invalidationReasonCode = .ok reason)
    (hstate : r.artifact.state = .invalid) (hexisting : s.artifacts r.artifact.artifactId = some existing)
    (hhash : existing.contentHash = r.artifact.contentHash) (hinvalid : existing.state = .invalid)
    (hsame : s.reasons r.artifact.artifactId = some reason) : markInvalid r s = .ok s := by
  have havailable : available r "candidate is unavailable for invalidation" s = .ok existing :=
    available_ok.mpr ⟨hexisting, hhash⟩
  simp only [markInvalid, havailable, hvalid, hreason, hstate, hinvalid, hsame, demand, require, requireOr, if_true, bind,
    Except.bind, pure, Except.pure]

theorem storeValidated_again : storeValidated r context (storeValidated r context s) = storeValidated r context s := by
  simp only [storeValidated, Function.update_idem]

end Repository

namespace Call

variable {c : Call R} {stage : Stage}

/-- What the validation of a call leads to. -/
theorem validate_spec (h : c.stage K now .validate s = .ok t) :
    ∃ r existing, Memory.validate K c.sourceRecords c.artifact c.requestedCutoff = .ok r ∧
      s.artifacts r.artifact.artifactId = some existing ∧ existing.contentHash = r.artifact.contentHash ∧
        (r.valid = true ∧ r.artifact.state = .validated ∧
            (existing.state = .current ∧ t = s ∨
              existing.state.Live ∧ t = Repository.storeValidated r (some ⟨c.sourceRecords, c.requestedCutoff⟩) s) ∨
          r.valid = false ∧ r.artifact.state = .invalid ∧ ∃ reason, r.invalidationReasonCode = .ok reason ∧
            (existing.state = .invalid ∧ s.reasons r.artifact.artifactId = some reason ∧ t = s ∨
              existing.state.Live ∧ t = Repository.storeInvalid r reason s)) := by
  obtain ⟨r, hr, h⟩ := bind_ok.mp h
  obtain ⟨-, -, ⟨hvalid, hstate⟩ | ⟨hvalid, hstate⟩⟩ := Call.result_artifact hr
  · rw [hvalid, if_pos rfl] at h
    obtain ⟨_, -, h⟩ := bind_ok.mp h
    obtain ⟨existing, hexisting, hhash, hcases⟩ := Repository.saveValidation_valid_cases hstate h
    exact ⟨r, existing, hr, hexisting, hhash, .inl ⟨hvalid, hstate, hcases⟩⟩
  · rw [hvalid, if_neg (by decide)] at h
    obtain ⟨-, existing, reason, hreason, hexisting, hhash, hcases⟩ := Repository.markInvalid_cases h
    exact ⟨r, existing, hr, hexisting, hhash, .inr ⟨hvalid, hstate, reason, hreason, hcases⟩⟩

/-- A validation of a current artifact changes nothing. -/
theorem validate_current {r : ValidationResult R} {a : MemoryArtifact R}
    (hr : Memory.validate K c.sourceRecords c.artifact c.requestedCutoff = .ok r) (hvalid : r.valid = true)
    (hget : s.artifacts c.id = some a) (hhash : a.contentHash = c.artifact.contentHash) (hstate : a.state = .current) :
    c.stage K now .validate s = .ok s := by
  obtain ⟨-, hbody, ⟨-, hvalidated⟩ | ⟨hinvalid, -⟩⟩ := Call.result_artifact hr
  · have hmark := (@Repository.saveValidation_of_stored _ s r a (some ⟨c.sourceRecords, c.requestedCutoff⟩) hvalid
      hvalidated (by rw [hbody]; exact hget) (by rw [hbody]; exact hhash)).1 hstate
    simpa only [stage, hr, hvalid, if_true, bind, Except.bind] using hmark
  · rw [hvalid] at hinvalid
    cases hinvalid

/-- A validation that went through does so again, without a change. -/
theorem validate_again (h : c.stage K now .validate s = .ok t) : c.stage K now .validate t = .ok t := by
  obtain ⟨r, existing, hr, hexisting, hhash, ⟨hvalid, hstate, hcases⟩ | ⟨hvalid, hstate, reason, hreason, hcases⟩⟩ :=
    validate_spec h
  · obtain ⟨-, rfl⟩ | ⟨-, rfl⟩ := hcases
    · exact h
    · have hstored : (Repository.storeValidated r (some ⟨c.sourceRecords, c.requestedCutoff⟩) s).artifacts
          r.artifact.artifactId = some r.artifact := Function.update_self _ _ _
      have hmark := (@Repository.saveValidation_of_stored _ _ r _ (some ⟨c.sourceRecords, c.requestedCutoff⟩) hvalid
        hstate hstored rfl).2 (.inr hstate)
      rw [Repository.storeValidated_again] at hmark
      simpa only [Call.stage, hr, hvalid, if_true, bind, Except.bind] using hmark
  · obtain ⟨-, -, rfl⟩ | ⟨-, rfl⟩ := hcases
    · exact h
    · have hstored : (Repository.storeInvalid r reason s).artifacts r.artifact.artifactId = some r.artifact :=
        Function.update_self _ _ _
      have hmark := Repository.markInvalid_again hvalid hreason hstate hstored rfl hstate (Function.update_self _ _ _)
      simpa only [Call.stage, hr, hvalid, Bool.false_eq_true, if_false, bind, Except.bind] using hmark

/-- The artifact of a call is there once it was registered. -/
theorem stored_of_register (h : c.stage K now .register s = .ok t) : t.Stored c.artifact.toArtifactBody := by
  obtain ⟨-, ⟨existing, hexisting, hhash, rfl⟩ | ⟨-, -, rfl⟩⟩ := Repository.registerCandidate_cases h
  · exact ⟨existing, hexisting, hhash⟩
  · exact ⟨c.artifact, Function.update_self _ _ _, rfl⟩

/-- An artifact that is there is registered again without a change. -/
theorem register_again (hstate : c.artifact.state = .candidate) (hs : s.Stored c.artifact.toArtifactBody) :
    c.stage K now .register s = .ok s := by
  obtain ⟨existing, hexisting, hhash⟩ := hs
  exact Repository.registerCandidate_again hstate hexisting hhash

theorem promote_current {a : MemoryArtifact R} {r : ValidationResult R}
    (hr : Memory.validate K c.sourceRecords c.artifact c.requestedCutoff = .ok r) (hvalid : r.valid = true)
    (hget : s.artifacts c.id = some a) (hhash : a.contentHash = c.artifact.contentHash) (hstate : a.state = .current) :
    c.stage K now .promote s = .ok s := by
  have hget : s.artifacts c.artifact.artifactId = some a := hget
  simp only [stage, hr, hvalid, Repository.promote, hget, hhash, hstate, Repository.demand, requireOr, if_true, bind,
    Except.bind, pure, Except.pure]

/-- What the promotion of a call leads to. -/
theorem promote_spec (h : c.stage K now .promote s = .ok t) :
    t = s ∨ ∃ r a, Memory.validate K c.sourceRecords c.artifact c.requestedCutoff = .ok r ∧ r.valid = true ∧
      t.artifacts c.id = some a ∧ a.contentHash = c.artifact.contentHash ∧ a.state = .current := by
  obtain ⟨r, hr, h⟩ := bind_ok.mp h
  split_ifs at h with hvalid
  · obtain ⟨a, hget, hhash, ⟨-, rfl⟩ | ⟨-, -, -, -, rfl⟩⟩ := Repository.promote_cases h
    · exact .inl rfl
    · exact .inr ⟨r, { a with state := .current }, hr, hvalid, Function.update_self _ _ _, hhash, rfl⟩
  · cases h
    exact .inl rfl

theorem stage_again (stage : Stage) (h : c.stage K now stage s = .ok t) : c.stage K now stage t = .ok t := by
  cases stage with
  | bytes =>
    obtain ⟨_, hstate, h'⟩ := bind_ok.mp h
    cases h'
    exact h
  | register => exact register_again (Repository.registerCandidate_cases h).1 (stored_of_register h)
  | validate => exact validate_again h
  | promote =>
    obtain rfl | ⟨r, a, hr, hvalid, hget, hhash, hstate⟩ := promote_spec h
    · exact h
    · exact promote_current hr hvalid hget hhash hstate

/-- Once a stage of a call went through, it is settled for the later stages. -/
theorem resumable (c : Call R) (K : ClosureRules) (now : UtcTimestamp) :
    Stages.Resumable (Stage.all.map (c.stage K now)) := by
  refine Stages.resumable_of_pairwise ?_ ?_
  · intro f hf s t h
    obtain ⟨stage, -, rfl⟩ := List.mem_map.mp hf
    exact stage_again stage h
  · have hbytes : ∀ s t u : Repository R, c.stage K now .bytes s = .ok u → c.stage K now .bytes t = .ok t := by
      intro s t u h
      obtain ⟨_, hstate, -⟩ := bind_ok.mp h
      simp only [Call.stage, hstate, bind, Except.bind, pure, Except.pure]
    have hregister : ∀ stage s t, c.stage K now .register s = .ok s → c.stage K now stage s = .ok t →
        c.stage K now .register t = .ok t := by
      intro stage s t hs ht
      exact register_again (Repository.registerCandidate_cases hs).1
        ((Call.stage_effect ht).stored (stored_of_register hs))
    have hvalidate : ∀ s t, c.stage K now .validate s = .ok s → c.stage K now .promote s = .ok t →
        c.stage K now .validate t = .ok t := by
      intro s t hs ht
      obtain rfl | ⟨r, a, hr, hvalid, hget, hhash, hstate⟩ := promote_spec ht
      · exact hs
      · exact validate_current hr hvalid hget hhash hstate
    simp only [Stage.all, List.map_cons, List.map_nil, List.pairwise_cons, List.mem_cons, List.not_mem_nil, or_false,
      forall_eq_or_imp, forall_eq, false_implies, implies_true, and_true, List.Pairwise.nil]
    exact ⟨⟨fun s t hs _ => hbytes s t s hs, fun s t hs _ => hbytes s t s hs, fun s t hs _ => hbytes s t s hs⟩,
      ⟨hregister .validate, hregister .promote⟩, hvalidate⟩

/-- A call on an artifact that is current changes nothing. -/
theorem settled_of_current {r : ValidationResult R} {a : MemoryArtifact R}
    (hr : Memory.validate K c.sourceRecords c.artifact c.requestedCutoff = .ok r) (hvalid : r.valid = true)
    (hget : s.artifacts c.id = some a) (hhash : a.contentHash = c.artifact.contentHash) (hstate : a.state = .current) :
    Stages.Settled (Stage.all.map (c.stage K now)) s := by
  have hcandidate := (Call.result_artifact hr).1
  intro f hf
  obtain ⟨stage, -, rfl⟩ := List.mem_map.mp hf
  cases stage with
  | bytes =>
    have hstart : require (c.artifact.state = .candidate) "promotion requires a candidate artifact" = .ok () :=
      require_ok.mpr hcandidate
    simp only [Call.stage, hstart, bind, Except.bind, pure, Except.pure]
  | register => exact register_again hcandidate ⟨a, hget, hhash⟩
  | validate => exact validate_current hr hvalid hget hhash hstate
  | promote => exact promote_current hr hvalid hget hhash hstate

/-- The clock is read by the promotion only. -/
theorem stage_now {before : UtcTimestamp} (hstage : stage ≠ .promote) : c.stage K before stage = c.stage K now stage := by
  cases stage with
  | promote => exact absurd rfl hstage
  | _ => rfl

/-- A call that did not come to the promotion can be made again. -/
theorem attempt_again_of_notMem {before : UtcTimestamp} {stages : List Stage} (hstages : stages <+: Stage.all)
    (hpromote : Stage.promote ∉ stages) (s : Repository R) :
    c.attempt K now Stage.all (c.attempt K before stages s) = c.attempt K now Stage.all s := by
  obtain ⟨rest, hrest⟩ := hstages
  have hmap : stages.map (c.stage K before) = stages.map (c.stage K now) :=
    List.map_congr_left fun stage hstage => stage_now fun heq => hpromote (heq ▸ hstage)
  have hall : Stage.all.map (c.stage K now) = stages.map (c.stage K now) ++ rest.map (c.stage K now) := by
    rw [← hrest, List.map_append]
  have hresumable := c.resumable K now
  rw [hall] at hresumable
  rw [attempt, attempt, attempt, hmap, hall, Stages.run_again hresumable]

/-- A call made again ends as it would now, or as it would have at its first time. -/
theorem attempt_again {before : UtcTimestamp} {stages : List Stage} (hstages : stages <+: Stage.all) (s : Repository R) :
    c.attempt K now Stage.all (c.attempt K before stages s) = c.attempt K now Stage.all s ∨
      c.attempt K now Stage.all (c.attempt K before stages s) = c.attempt K before Stage.all s := by
  by_cases hpromote : Stage.promote ∉ stages
  · exact .inl (attempt_again_of_notMem hstages hpromote s)
  · obtain rfl : stages = Stage.all := by
      simp only [Stage.all, List.prefix_cons_iff, List.prefix_nil] at hstages
      rcases hstages with rfl | ⟨_, rfl, rfl | ⟨_, rfl, rfl | ⟨_, rfl, rfl | ⟨_, rfl, rfl⟩⟩⟩⟩
      · exact absurd (by decide) hpromote
      · exact absurd (by decide) hpromote
      · exact absurd (by decide) hpromote
      · exact absurd (by decide) hpromote
      · rfl
    have hshort := @attempt_again_of_notMem _ K now c before [.bytes, .register, .validate] (by decide) (by decide) s
    have hsplit : c.attempt K before Stage.all s =
        (Stages.run ([.bytes, .register, .validate].map (c.stage K before) ++ [c.stage K before .promote]) s).1 := rfl
    rw [Stages.run_append] at hsplit
    cases hrun : Stages.run ([.bytes, .register, .validate].map (c.stage K before)) s with
    | mk t failed =>
      have hthree : c.attempt K before [.bytes, .register, .validate] s = t := congrArg Prod.fst hrun
      rw [hthree] at hshort
      rw [hrun] at hsplit
      cases failed with
      | some e => exact .inl (by rw [hsplit]; exact hshort)
      | none =>
        cases hlast : c.stage K before .promote t with
        | error e =>
          simp only [Stages.run, hlast] at hsplit
          exact .inl (by rw [hsplit]; exact hshort)
        | ok u =>
          simp only [Stages.run, hlast] at hsplit
          obtain rfl | ⟨r, a, hr, hvalid, hget, hhash, hstate⟩ := promote_spec hlast
          · exact .inl (by rw [hsplit]; exact hshort)
          · have hsettled := @settled_of_current _ K now _ c r a hr hvalid hget hhash hstate
            have hrest := Stages.run_append_of_settled hsettled []
            rw [List.append_nil] at hrest
            right
            rw [hsplit, attempt, hrest]
            rfl

theorem attempt_chained (stages : List Stage) (hs : s.Chained) : (c.attempt K now stages s).Chained := by
  refine @Stages.run_keeps _ _ (fun s t => s.Chained → t.Chained) (fun _ hs => hs) (fun _ _ _ h h' hs => h' (h hs)) _ ?_
    s hs
  intro f hf s t h
  obtain ⟨stage, -, rfl⟩ := List.mem_map.mp hf
  exact (Call.stage_effect h).chained

theorem attempt_elsewhere (stages : List Stage) (s : Repository R) :
    Repository.Elsewhere c.id s (c.attempt K now stages s) := by
  refine Stages.run_keeps (Repository.Elsewhere.refl c.id) (fun _ _ _ h h' => h.trans h') ?_ s
  intro f hf s t h
  obtain ⟨stage, -, rfl⟩ := List.mem_map.mp hf
  exact (Call.stage_effect h).elsewhere

theorem attempt_agree (stages : List Stage) (h : Repository.Agree c.id s t) :
    Repository.Agree c.id (c.attempt K now stages s) (c.attempt K now stages t) := by
  refine Stages.run_alike ?_ h
  intro f hf s t h
  obtain ⟨stage, -, rfl⟩ := List.mem_map.mp hf
  exact Call.stage_alike stage h

end Call

/-- What may happen before a call is made again: attempts at it that stop after some stage, at the
listed times, and stages on the other artifacts listed, none of which promotes. -/
inductive Between (K : ClosureRules) (c : Call R) (s : Repository R) :
    List UtcTimestamp → List String → Repository R → Prop where
  | start : Between K c s [] [] s
  | attempt {times : List UtcTimestamp} {others : List String} {t : Repository R} (now : UtcTimestamp)
      (stages : List Stage) (hstages : stages <+: Stage.all) (h : Between K c s times others t) :
      Between K c s (now :: times) others (c.attempt K now stages t)
  | other {times : List UtcTimestamp} {others : List String} {t u : Repository R} (d : Call R) (now : UtcTimestamp)
      (stage : Stage) (hid : c.id ≠ d.id) (hstage : d.stage K now stage t = .ok u) (hhistory : u.history = t.history)
      (h : Between K c s times others t) : Between K c s times (d.id :: others) u

namespace Between

variable {c : Call R} {times : List UtcTimestamp} {others : List String}

theorem chained (h : Between K c s times others t) (hs : s.Chained) : t.Chained := by
  induction h with
  | start => exact hs
  | attempt now stages hstages h ih => exact c.attempt_chained stages ih
  | other d now stage hid hstage hhistory h ih => exact (Call.stage_effect hstage).chained ih

/-- Without the others, only the artifact of the call changes. -/
theorem elsewhere (h : Between K c s times [] t) : Repository.Elsewhere c.id s t := by
  generalize hothers : ([] : List String) = others at h
  induction h with
  | start => exact .refl _ _
  | attempt now stages hstages h ih => exact (ih hothers).trans (c.attempt_elsewhere stages _)
  | other => cases hothers

/-- The call made again agrees with the call made once from the start, at one of the times. -/
theorem exists_agree (h : Between K c s times others t) (hs : s.Chained) (now : UtcTimestamp) :
    ∃ time ∈ now :: times, Repository.Agree c.id (c.attempt K time Stage.all s) (c.attempt K now Stage.all t) := by
  induction h generalizing now with
  | start => exact ⟨now, by simp, .refl _ _⟩
  | @attempt times others t before stages hstages h ih =>
    rcases @Call.attempt_again _ K now c before stages hstages t with heq | heq
    · obtain ⟨time, htime, hagree⟩ := ih now
      rcases List.mem_cons.mp htime with rfl | htime
      · exact ⟨time, by simp, heq ▸ hagree⟩
      · exact ⟨time, by simp [htime], heq ▸ hagree⟩
    · obtain ⟨time, htime, hagree⟩ := ih before
      exact ⟨time, List.mem_cons_of_mem _ htime, heq ▸ hagree⟩
  | other d time stage hid hstage hhistory h ih =>
    obtain ⟨first, hfirst, hagree⟩ := ih now
    have hseen := (Call.stage_effect hstage).agree (h.chained hs) hid hhistory
    exact ⟨first, hfirst, hagree.trans (c.attempt_agree Stage.all hseen)⟩

end Between

/-! ### Runs -/

/-- The repository, the calls that are under way with the stages they have left, and the clock. -/
structure System (R : Rules) where
  repository : Repository R
  running : List (Call R × List Stage)
  clock : UtcTimestamp

namespace System

def start (clock : UtcTimestamp) : System R := ⟨.empty, [], clock⟩

/-- One step.  A call that fails in a stage stops there, as one that is interrupted does. -/
inductive Step (K : ClosureRules) (calls : Call R → Prop) (y : System R) : System R → Prop where
  | call (c : Call R) (hc : calls c) : Step K calls y { y with running := (c, Stage.all) :: y.running }
  | stage {before after : List (Call R × List Stage)} {c : Call R} {stage : Stage} {rest : List Stage}
      {t : Repository R} (hrunning : y.running = before ++ (c, stage :: rest) :: after)
      (hstage : c.stage K y.clock stage y.repository = .ok t) :
      Step K calls y { y with repository := t, running := before ++ (c, rest) :: after }
  | stop {before after : List (Call R × List Stage)} {c : Call R} {rest : List Stage}
      (hrunning : y.running = before ++ (c, rest) :: after) : Step K calls y { y with running := before ++ after }
  | tick (now : UtcTimestamp) (hnow : y.clock ≤ now) : Step K calls y { y with clock := now }

/-- The runs from one system to another. -/
def Reaches (K : ClosureRules) (calls : Call R → Prop) : System R → System R → Prop :=
  Relation.ReflTransGen (Step K calls)

variable {calls : Call R → Prop} {x y z : System R}

/-- A step keeps the calls under way, and changes the repository by a stage of one of them. -/
theorem Step.effect (h : Step K calls y z) (hcalls : ∀ p ∈ y.running, calls p.1) :
    (∀ p ∈ z.running, calls p.1) ∧
      (z.repository = y.repository ∨
        ∃ c, calls c ∧ Effect c.artifact.toArtifactBody y.clock y.repository z.repository) := by
  cases h with
  | call c hc => exact ⟨List.forall_mem_cons.mpr ⟨hc, hcalls⟩, .inl rfl⟩
  | @stage before after c stage rest t hrunning hstage =>
    rw [hrunning] at hcalls
    refine ⟨fun p hp => ?_, .inr ⟨c, hcalls (c, stage :: rest) (by simp), Call.stage_effect hstage⟩⟩
    rcases List.mem_append.mp hp with hp | hp
    · exact hcalls p (List.mem_append_left _ hp)
    · rcases List.mem_cons.mp hp with rfl | hp
      · exact hcalls (c, stage :: rest) (by simp)
      · exact hcalls p (List.mem_append_right _ (List.mem_cons_of_mem _ hp))
  | @stop before after c rest hrunning =>
    rw [hrunning] at hcalls
    refine ⟨fun p hp => hcalls p ?_, .inl rfl⟩
    rcases List.mem_append.mp hp with hp | hp
    · exact List.mem_append_left _ hp
    · exact List.mem_append_right _ (List.mem_cons_of_mem _ hp)
  | tick => exact ⟨hcalls, .inl rfl⟩

/-- The rule for runs: what the effects of the calls keep, a run keeps. -/
theorem Reaches.keeps {keep : Repository R → Prop} (h : Reaches K calls y z) (hcalls : ∀ p ∈ y.running, calls p.1)
    (hkeep : ∀ c now s t, calls c → Effect c.artifact.toArtifactBody now s t → keep s → keep t)
    (hy : keep y.repository) : (∀ p ∈ z.running, calls p.1) ∧ keep z.repository := by
  induction h with
  | refl => exact ⟨hcalls, hy⟩
  | tail _ hstep ih =>
    obtain ⟨hrunning, heq | ⟨c, hc, heffect⟩⟩ := hstep.effect ih.1
    · exact ⟨hrunning, heq ▸ ih.2⟩
    · exact ⟨hrunning, hkeep c _ _ _ hc heffect ih.2⟩

theorem chained_of_start {clock : UtcTimestamp} (h : Reaches K calls (start clock) y) :
    (∀ p ∈ y.running, calls p.1) ∧ y.repository.Chained :=
  h.keeps nofun (fun _ _ _ _ _ heffect hs => heffect.chained hs) Repository.chained_empty

/-- What is current or invalid stays so. -/
theorem Reaches.final {id : String} {a : MemoryArtifact R} (h : Reaches K calls y z)
    (hcalls : ∀ p ∈ y.running, calls p.1) (hget : y.repository.artifacts id = some a) (hstate : ¬ a.state.Live) :
    z.repository.artifacts id = some a :=
  (@Reaches.keeps _ _ _ _ _ (fun s => s.artifacts id = some a) h hcalls
    (fun _ _ _ _ _ heffect hs => (heffect.final hs hstate).1) hget).2

theorem Reaches.history_prefix (h : Reaches K calls y z) (hcalls : ∀ p ∈ y.running, calls p.1) :
    y.repository.history <+: z.repository.history := by
  refine (@Reaches.keeps _ _ _ _ _ (fun s => y.repository.history <+: s.history) h hcalls ?_ (List.prefix_refl _)).2
  intro c now s t _ heffect hs
  obtain ⟨-, heq⟩ | ⟨-, heq⟩ := heffect.history
  · rw [heq]
    exact hs
  · rw [heq]
    exact hs.trans (List.prefix_append _ _)

/-- An attempt at a call, made without a break, is a run. -/
theorem reaches_attempt {calls : Call R → Prop} {c : Call R} (hc : calls c) {stages : List Stage}
    (hstages : stages <+: Stage.all) (y : System R) :
    Reaches K calls y { y with repository := c.attempt K y.clock stages y.repository } := by
  obtain ⟨rest, hrest⟩ := hstages
  have hstages : ∀ (stages : List Stage) (z : System R), z.running = (c, stages ++ rest) :: y.running →
      Reaches K calls z ⟨c.attempt K z.clock stages z.repository, y.running, z.clock⟩ := by
    intro stages
    induction stages with
    | nil => exact fun z hz => .single (@Step.stop _ K calls z [] _ c _ hz)
    | cons stage stages ih =>
      intro z hz
      rw [Call.attempt, List.map_cons, Stages.run]
      cases hstage : c.stage K z.clock stage z.repository with
      | error e => exact .single (@Step.stop _ K calls z [] _ c _ hz)
      | ok t =>
        exact .head (@Step.stage _ K calls z [] _ c stage _ t hz hstage)
          (ih ⟨t, (c, stages ++ rest) :: y.running, z.clock⟩ rfl)
  exact .head (.call c hc) (hstages stages ⟨y.repository, (c, Stage.all) :: y.running, y.clock⟩ (by rw [hrest]))

end System

/-! ### After a promotion -/

/-- No two of the calls have different artifacts with one hash. -/
def NoCollision (calls : Call R → Prop) : Prop :=
  ∀ c d, calls c → calls d → c.artifact.contentHash = d.artifact.contentHash →
    c.artifact.toArtifactBody = d.artifact.toArtifactBody

/-- The artifacts are those of the calls, and each names an artifact that was promoted. -/
structure Repository.Lineage (calls : Call R → Prop) (s : Repository R) : Prop where
  chained : s.Chained
  called : ∀ id a, s.artifacts id = some a → ∃ c, calls c ∧ a.toArtifactBody = c.artifact.toArtifactBody
  past : ∀ id a, s.artifacts id = some a → ∀ k, a.previousArtifactId = some k → k ∈ s.promotedIds

theorem Repository.Lineage.update {calls : Call R → Prop} {c : Call R} {id : String} {a : MemoryArtifact R}
    (hs : s.Lineage calls) (hc : calls c) (hbody : a.toArtifactBody = c.artifact.toArtifactBody)
    (hpast : ∀ k, a.previousArtifactId = some k → k ∈ s.promotedIds) (ht : t.Chained)
    (hget : t.artifacts = Function.update s.artifacts id (some a)) (hids : s.promotedIds ⊆ t.promotedIds) :
    t.Lineage calls := by
  refine ⟨ht, fun k a' hk => ?_, fun k a' hk j hj => ?_⟩
  · rw [hget] at hk
    by_cases heq : k = id
    · rw [heq, Function.update_self] at hk
      cases hk
      exact ⟨c, hc, hbody⟩
    · rw [Function.update_of_ne heq] at hk
      exact hs.called k a' hk
  · rw [hget] at hk
    by_cases heq : k = id
    · rw [heq, Function.update_self] at hk
      cases hk
      exact hids (hpast j hj)
    · rw [Function.update_of_ne heq] at hk
      exact hids (hs.past k a' hk j hj)

/-- The artifact under the identifier of a call is that of the call, if it has its hash. -/
theorem Repository.Lineage.body_eq {calls : Call R → Prop} {c : Call R} {a : MemoryArtifact R} {id : String}
    (hs : s.Lineage calls) (hcollision : NoCollision calls) (hc : calls c) (hget : s.artifacts id = some a)
    (hhash : a.contentHash = c.artifact.contentHash) : a.toArtifactBody = c.artifact.toArtifactBody := by
  obtain ⟨d, hd, hbody⟩ := hs.called id a hget
  rw [hbody]
  refine hcollision d c hd hc ?_
  rw [← hbody]
  exact hhash

theorem Effect.lineage {calls : Call R → Prop} {c : Call R} (hcollision : NoCollision calls) (hc : calls c)
    (h : Effect c.artifact.toArtifactBody now s t) (hs : s.Lineage calls) : t.Lineage calls := by
  have ht := h.chained hs.chained
  have hids := h.promotedIds_subset
  cases h with
  | same => exact hs
  | registered a hbody hstate hnew hprevious =>
    refine hs.update hc hbody (fun k hk => ?_) ht rfl hids
    rw [hbody] at hk
    exact hs.chained.current_mem (hprevious.symm.trans hk)
  | judged existing a context reason hbody hstate hexisting hlive hhash =>
    refine hs.update hc hbody (fun k hk => hs.past _ existing hexisting k ?_) ht rfl hids
    rw [hs.body_eq hcollision hc hexisting hhash, ← hbody]
    exact hk
  | promoted a hget hstate hprevious htime =>
    obtain ⟨d, hd, hbody⟩ := hs.called _ a hget
    exact @Repository.Lineage.update _ _ _ _ _ _ { a with state := .current } hs hd hbody (hs.past _ a hget) ht rfl hids

/-- An artifact that is there keeps its body. -/
theorem Effect.exists_body {calls : Call R → Prop} {c : Call R} {id : String} {a : MemoryArtifact R}
    (hcollision : NoCollision calls) (hc : calls c) (h : Effect c.artifact.toArtifactBody now s t) (hs : s.Lineage calls)
    (hget : s.artifacts id = some a) : ∃ a', t.artifacts id = some a' ∧ a'.toArtifactBody = a.toArtifactBody := by
  by_cases hid : id = c.id
  · subst hid
    cases h with
    | same => exact ⟨a, hget, rfl⟩
    | registered a' hbody hstate hnew =>
      rw [show s.artifacts c.id = none from hnew] at hget
      cases hget
    | judged existing a' context reason hbody hstate hexisting hlive hhash =>
      have heq : some a = some existing := hget.symm.trans hexisting
      cases heq
      exact ⟨a', Function.update_self _ _ _, hbody.trans (hs.body_eq hcollision hc hget hhash).symm⟩
    | promoted a' hget' =>
      have heq : some a = some a' := hget.symm.trans hget'
      cases heq
      exact ⟨{ a with state := .current }, Function.update_self _ _ _, rfl⟩
  · exact ⟨a, (h.elsewhere.artifact id hid).trans hget, rfl⟩

/-- A call whose artifact is there but does not name the current one. -/
def Repository.Outrun (c : Call R) (s : Repository R) : Prop :=
  (∃ a, s.artifacts c.id = some a ∧ a.toArtifactBody = c.artifact.toArtifactBody) ∧
    c.artifact.previousArtifactId ≠ s.currentId

/-- Such a call promotes nothing. -/
theorem Effect.outrun {c : Call R} (h : Effect c.artifact.toArtifactBody now s t) (hs : s.Outrun c) :
    t.Outrun c ∧ t.currentId = s.currentId ∧ t.history = s.history := by
  obtain ⟨⟨a, hget, hbody⟩, hprevious⟩ := hs
  cases h with
  | same => exact ⟨⟨⟨a, hget, hbody⟩, hprevious⟩, rfl, rfl⟩
  | registered a' hbody' => exact ⟨⟨⟨a', Function.update_self _ _ _, hbody'⟩, hprevious⟩, rfl, rfl⟩
  | judged existing a' context reason hbody' =>
    exact ⟨⟨⟨a', Function.update_self _ _ _, hbody'⟩, hprevious⟩, rfl, rfl⟩
  | promoted a' hget' hstate hcurrent =>
    have heq : some a' = some a := hget'.symm.trans hget
    cases heq
    rw [hbody] at hcurrent
    exact absurd hcurrent hprevious

theorem Call.attempt_outrun {c : Call R} (stages : List Stage) (hs : s.Outrun c) :
    (c.attempt K now stages s).currentId = s.currentId ∧ (c.attempt K now stages s).history = s.history := by
  refine (@Stages.run_keeps _ _ (fun s t => s.Outrun c → t.Outrun c ∧ t.currentId = s.currentId ∧ t.history = s.history)
    (fun _ h => ⟨h, rfl, rfl⟩) ?_ _ ?_ s hs).2
  · intro s t u hst htu hs
    obtain ⟨ht, hcurrent, hhistory⟩ := hst hs
    obtain ⟨hu, hcurrent', hhistory'⟩ := htu ht
    exact ⟨hu, hcurrent'.trans hcurrent, hhistory'.trans hhistory⟩
  · intro f hf s t h
    obtain ⟨stage, -, rfl⟩ := List.mem_map.mp hf
    exact (Call.stage_effect h).outrun

/-- A call whose artifact was there before something was promoted. -/
theorem System.Reaches.outrun {calls : Call R → Prop} {y z : System R} {c : Call R} (hcollision : NoCollision calls)
    (hy : y.repository.Lineage calls) (hrunning : ∀ p ∈ y.running, calls p.1) (hc : calls c)
    (hstored : y.repository.Stored c.artifact.toArtifactBody) (h : Reaches K calls y z)
    (hhistory : z.repository.history ≠ y.repository.history) : z.repository.Outrun c := by
  obtain ⟨a, hget, hhash⟩ := hstored
  have hbody := hy.body_eq hcollision hc hget hhash
  obtain ⟨-, hz, a', hget', hbody'⟩ := @Reaches.keeps _ _ _ _ _
    (fun s => s.Lineage calls ∧ ∃ a', s.artifacts c.id = some a' ∧ a'.toArtifactBody = a.toArtifactBody) h hrunning
    (by
      rintro d now s t hd heffect ⟨hs, a₁, hget₁, hbody₁⟩
      obtain ⟨a₂, hget₂, hbody₂⟩ := heffect.exists_body hcollision hd hs hget₁
      exact ⟨heffect.lineage hcollision hd hs, a₂, hget₂, hbody₂.trans hbody₁⟩)
    ⟨hy, a, hget, rfl⟩
  refine ⟨⟨a', hget', hbody'.trans hbody⟩, fun hprevious => ?_⟩
  obtain ⟨rest, hrest⟩ := h.history_prefix hrunning
  have hids : z.repository.promotedIds = y.repository.promotedIds ++ rest.map PromotionEvent.artifactId := by
    rw [Repository.promotedIds, ← hrest, List.map_append]
    rfl
  have hne : rest.map PromotionEvent.artifactId ≠ [] := by
    intro hnil
    rw [List.map_eq_nil_iff.mp hnil, List.append_nil] at hrest
    exact hhistory hrest.symm
  rw [hz.chained.current, hids, List.getLast?_append_of_ne_nil _ hne] at hprevious
  -- the artifact names one that was promoted before, and the current one was promoted since
  cases hlast : (rest.map PromotionEvent.artifactId).getLast? with
  | none => exact hne (List.getLast?_eq_none_iff.mp hlast)
  | some k =>
    rw [hlast, ← hbody] at hprevious
    have hdistinct := hz.chained.distinct
    rw [hids] at hdistinct
    exact (List.nodup_append.mp hdistinct).2.2 k (hy.past c.id a hget k hprevious) k (List.mem_of_getLast? hlast) rfl

/-- In every run the history is a chain up to the current artifact, and what is invalid or promoted
stays so.  A call that is made again ends like the call made once at one of its times: the artifact,
the pointer and the history are the same, the other artifacts are left alone, and if nothing else
happened the repository is the same.  A call whose artifact was there before something was promoted
changes neither the pointer nor the history. -/
theorem promotions_form_chain (K : ClosureRules) (calls : Call R → Prop) (clock : UtcTimestamp) (y : System R)
    (h : System.Reaches K calls (System.start clock) y) :
    y.repository.Chained ∧
      (∀ z, System.Reaches K calls y z → ∀ id a, y.repository.artifacts id = some a →
        (a.state = .invalid → z.repository.artifacts id = some a ∧ id ∉ z.repository.promotedIds) ∧
          (id ∈ y.repository.promotedIds →
            id ∈ z.repository.promotedIds ∧ ∃ a', z.repository.artifacts id = some a' ∧ a'.state = .current)) ∧
      (∀ (c : Call R) (times : List UtcTimestamp) (others : List String) (t : Repository R) (now : UtcTimestamp),
        Between K c y.repository times others t →
          ∃ time ∈ now :: times,
            Repository.Agree c.id (c.attempt K time Stage.all y.repository) (c.attempt K now Stage.all t) ∧
              Repository.Elsewhere c.id t (c.attempt K now Stage.all t) ∧
                (others = [] → c.attempt K now Stage.all t = c.attempt K time Stage.all y.repository)) ∧
      (NoCollision calls → ∀ (c : Call R) (z : System R), calls c → y.repository.Stored c.artifact.toArtifactBody →
        System.Reaches K calls y z → z.repository.history ≠ y.repository.history →
          ∀ now stages, (c.attempt K now stages z.repository).currentId = z.repository.currentId ∧
            (c.attempt K now stages z.repository).history = z.repository.history) := by
  obtain ⟨hrunning, hchained⟩ := System.chained_of_start h
  refine ⟨hchained, ?_, ?_, ?_⟩
  · intro z hz id a hget
    have hzchained := (System.chained_of_start (h.trans hz)).2
    constructor
    · intro hinvalid
      have hfinal := hz.final hrunning hget (by rw [hinvalid]; exact ArtifactState.not_live_invalid)
      refine ⟨hfinal, fun hid => ?_⟩
      obtain ⟨a', hget', hcurrent⟩ := hzchained.exists_of_mem hid
      rw [hfinal] at hget'
      cases hget'
      rw [hinvalid] at hcurrent
      cases hcurrent
    · intro hid
      have hsubset := (hz.history_prefix hrunning).subset
      have hid' : id ∈ z.repository.promotedIds := by
        obtain ⟨e, he, rfl⟩ := List.mem_map.mp hid
        exact List.mem_map_of_mem (hsubset he)
      exact ⟨hid', hzchained.exists_of_mem hid'⟩
  · intro c times others t now hbetween
    obtain ⟨time, htime, hagree⟩ := hbetween.exists_agree hchained now
    refine ⟨time, htime, hagree, c.attempt_elsewhere Stage.all t, ?_⟩
    rintro rfl
    have hfirst := @Call.attempt_elsewhere _ K time c Stage.all y.repository
    exact hagree.eq (hfirst.symm.trans (hbetween.elsewhere.trans (c.attempt_elsewhere Stage.all t)))
  · intro hcollision c z hc hstored hz hhistory now stages
    have hlineage := (@System.Reaches.keeps _ _ _ _ _ (fun s => s.Lineage calls) h nofun
      (fun d _ _ _ hd heffect hs => heffect.lineage hcollision hd hs) ⟨Repository.chained_empty, nofun, nofun⟩).2
    exact Call.attempt_outrun stages (hz.outrun hcollision hlineage hrunning hc hstored hhistory)

/-! ### Two artifacts -/

section Sample

/-- A digest of short contents. -/
def sizeDigest (bytes : ByteArray) : Hash :=
  if bytes.size < 550 then ⟨String.ofList (List.replicate 64 '7'), sevens_ok⟩
  else ⟨String.ofList (List.replicate 64 '8'), by decide⟩

def sizedRules : Rules := { sampleRules with sha256 := sizeDigest }

/-- The lesson under the category and the importance that its source gives it. -/
def sizedEntry : MemoryEntry sizedRules where
  category := .marketRegime
  importance := 66
  observation := "spreads were narrow"
  reusableLesson := "wait for the open"
  appliesWhen := ["calm market"]
  invalidWhen := []
  evidenceIds := ["fact-1"]
  sourceRecordIds := ["reflection-1"]
  riskReasonCodes := []
  importance_ok := importance_66_ok
  observation_ok := by decide +kernel
  lesson_ok := by decide +kernel
  applies_ok := by decide +kernel
  invalid_ok := by decide +kernel
  evidence_ok := by decide +kernel
  sources_ok := by decide +kernel
  reasons_ok := by decide +kernel

def firstBody : ArtifactBody sizedRules := ⟨sampleFields, [sizedEntry], 14, ⟨String.ofList (List.replicate 64 '7'), sevens_ok⟩⟩

def secondBody : ArtifactBody sizedRules where
  toArtifactFields := { sampleFields with artifactId := "memory-2", previousArtifactId := some "memory-1" }
  entries := [sizedEntry]
  lineCount := 14
  contentHash := ⟨String.ofList (List.replicate 64 '8'), by decide⟩

def firstCall : Call sizedRules := ⟨⟨firstBody, .candidate, by decide +kernel⟩, sampleMap, sampleDay 3⟩

/-- The second artifact names the first one as its predecessor. -/
def secondCall : Call sizedRules := ⟨⟨secondBody, .candidate, by decide +kernel⟩, sampleMap, sampleDay 3⟩

/-- The first artifact is to be judged at a cutoff that is not its own. -/
def strayCall : Call sizedRules := { firstCall with requestedCutoff := sampleDay 2 }

end Sample

/-- A call that had not registered its artifact promotes it although another one was promoted in
between, and a call that was stopped does not promote what a call without its cutoff made invalid in
between, with nothing promoted. -/
theorem retry_differs :
    (∃ s t : Repository sizedRules, s = secondCall.attempt sampleClosure (sampleDay 6) [.bytes] .empty ∧
      t = firstCall.attempt sampleClosure (sampleDay 6) Stage.all s ∧
        s.currentId = none ∧ t.currentId = some "memory-1" ∧
          (secondCall.attempt sampleClosure (sampleDay 7) Stage.all t).currentId = some "memory-2" ∧
          (secondCall.attempt sampleClosure (sampleDay 7) Stage.all t).promotedIds = ["memory-1", "memory-2"]) ∧
      ∃ s t : Repository sizedRules, s = firstCall.attempt sampleClosure (sampleDay 6) [.bytes, .register] .empty ∧
        t = strayCall.attempt sampleClosure (sampleDay 6) Stage.all s ∧ t.history = [] ∧
          (firstCall.attempt sampleClosure (sampleDay 7) Stage.all .empty).currentId = some "memory-1" ∧
          (firstCall.attempt sampleClosure (sampleDay 7) Stage.all t).currentId = none := by
  refine ⟨⟨_, _, rfl, rfl, ?_⟩, ⟨_, _, rfl, rfl, ?_⟩⟩
  · decide +kernel
  · decide +kernel

/-- The first artifact is promoted in a run in which the second call stops. -/
theorem first_is_chain :
    ∃ y : System sizedRules,
      System.Reaches sampleClosure (fun c => c = firstCall ∨ c = secondCall) (System.start (sampleDay 6)) y ∧
        y.repository.promotedIds = ["memory-1"] ∧ y.repository.Chained ∧
          NoCollision (fun c => c = firstCall ∨ c = secondCall) := by
  have hrun := (@System.reaches_attempt _ sampleClosure (fun c => c = firstCall ∨ c = secondCall) secondCall (.inr rfl)
    [.bytes] (by decide) (System.start (sampleDay 6))).trans
      (System.reaches_attempt (.inl rfl) (List.prefix_refl Stage.all) _)
  refine ⟨_, hrun, by decide +kernel, (promotions_form_chain sampleClosure _ _ _ hrun).1, ?_⟩
  rintro c d (rfl | rfl) (rfl | rfl) hhash
  · rfl
  · exact absurd hhash (by decide)
  · exact absurd hhash (by decide)
  · rfl

end SevenLens.Memory
