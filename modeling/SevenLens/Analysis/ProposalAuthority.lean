import SevenLens.Analysis.ProposalEntries
import Mathlib.Logic.Relation

/-! # The authority of proposals

A call adds to the repository and takes nothing back (`Effect.later`).  `Sound` says what holds of
the entries of a repository; every part of it speaks of entries that stay, so that a call keeps it
when its new entries have it (`Effect.sound`). -/

namespace SevenLens.Analysis.Proposals

open Securities

variable {R : Rules}

/-! ### Nothing is taken back -/

/-- What the first repository holds, the second one holds, and runs have moved along legal
transitions only. -/
structure Later (s t : Repository R) : Prop where
  bundles : Kept s.bundles t.bundles
  bundleByParent : Kept s.bundleByParent t.bundleByParent
  bundleByChildRun : Kept s.bundleByChildRun t.bundleByChildRun
  bundleByChildInput : Kept s.bundleByChildInput t.bundleByChildInput
  contexts : Kept s.contexts t.contexts
  attemptOneContexts : ∀ k, s.attemptOneContexts k = true → t.attemptOneContexts k = true
  attemptTwoContextByBundle : Kept s.attemptTwoContextByBundle t.attemptTwoContextByBundle
  identities : Kept s.identities t.identities
  runByContext : Kept s.runByContext t.runByContext
  results : Kept s.results t.results
  proposals : Kept s.proposals t.proposals
  proposalContracts : Kept s.proposalContracts t.proposalContracts
  feedback : Kept s.feedback t.feedback
  runs : ∀ run stage, s.runs run = some stage →
    ∃ next, t.runs run = some next ∧ Relation.ReflTransGen Legal stage next

theorem Later.refl (s : Repository R) : Later s s where
  bundles := .refl _
  bundleByParent := .refl _
  bundleByChildRun := .refl _
  bundleByChildInput := .refl _
  contexts := .refl _
  attemptOneContexts _ h := h
  attemptTwoContextByBundle := .refl _
  identities := .refl _
  runByContext := .refl _
  results := .refl _
  proposals := .refl _
  proposalContracts := .refl _
  feedback := .refl _
  runs _ stage h := ⟨stage, h, .refl⟩

theorem Later.trans {s t u : Repository R} (h : Later s t) (h' : Later t u) : Later s u where
  bundles := h.bundles.trans h'.bundles
  bundleByParent := h.bundleByParent.trans h'.bundleByParent
  bundleByChildRun := h.bundleByChildRun.trans h'.bundleByChildRun
  bundleByChildInput := h.bundleByChildInput.trans h'.bundleByChildInput
  contexts := h.contexts.trans h'.contexts
  attemptOneContexts k hk := h'.attemptOneContexts k (h.attemptOneContexts k hk)
  attemptTwoContextByBundle := h.attemptTwoContextByBundle.trans h'.attemptTwoContextByBundle
  identities := h.identities.trans h'.identities
  runByContext := h.runByContext.trans h'.runByContext
  results := h.results.trans h'.results
  proposals := h.proposals.trans h'.proposals
  proposalContracts := h.proposalContracts.trans h'.proposalContracts
  feedback := h.feedback.trans h'.feedback
  runs run stage hstage := by
    obtain ⟨next, hnext, hpath⟩ := h.runs run stage hstage
    obtain ⟨last, hlast, hpath'⟩ := h'.runs run next hnext
    exact ⟨last, hlast, hpath.trans hpath'⟩

theorem Later.of_terminal {s t : Repository R} (h : Later s t) {run : String} {stage : ProposalStage}
    (hrun : s.runs run = some stage) (hterminal : stage.IsTerminal) : t.runs run = some stage := by
  obtain ⟨next, hnext, hpath⟩ := h.runs run stage hrun
  obtain rfl | ⟨middle, hlegal, -⟩ := hpath.cases_head
  · exact hnext
  · exact absurd hterminal hlegal.not_terminal

theorem RunChange.moved {s t : Repository R} {run : String} (h : RunChange s t run) {stage : ProposalStage}
    (hstage : s.runs run = some stage) :
    ∃ next, t.runs run = some next ∧ Relation.ReflTransGen Legal stage next := by
  cases h with
  | same hrun hresults => exact ⟨stage, hrun.trans hstage, .refl⟩
  | created hnew hrun hresults =>
    rw [hstage] at hnew
    cases hnew
  | advanced hlegal hcurrent hrun hnew hstored hresults =>
    rw [hstage] at hcurrent
    cases hcurrent
    exact ⟨_, hrun, .single hlegal⟩

theorem checkRetryContext_slot {s : Repository R} {c : ProposalContext R} (h : checkRetryContext s c = .ok ()) :
    ∀ prior ∈ s.attemptTwoContextByBundle c.val.bundleId.text, prior = c.val.contextId.text := by
  simp only [checkRetryContext, bind_ok, require_ok, exists_const] at h
  obtain ⟨-, record, -, -, h⟩ := h
  split at h
  · cases h
  · simp only [bind_ok, require_ok, exists_const] at h
    exact h.2.2.2

theorem checkProposal_new {s : Repository R} {p : PortfolioProposal R} (h : checkProposal s p = .ok ()) :
    s.proposals p.val.proposalId.text = none := by
  simp only [checkProposal, check_ok, require_ok] at h
  exact h.1

theorem Effect.later {s t : Repository R} (hcontracts : ∀ k, s.proposals k = none → s.proposalContracts k = none)
    (h : Effect s t) : Later s t := by
  have hruns : ∀ run stage, s.runs run = some stage →
      ∃ next, t.runs run = some next ∧ Relation.ReflTransGen Legal stage next :=
    fun run stage hstage => (h.run_change run).moved hstage
  -- The new dictionaries are generalized, so that the fields that stay are seen to stay at once.
  cases h with
  | same => exact .refl s
  | retried attempts => exact { Later.refl s with runs := hruns }
  | bundle h =>
    obtain ⟨runs, inputs, ht, hchildRuns, hchildInputs, -⟩ := withBundle_frame h
    rw [ht] at hruns ⊢
    exact
      { Later.refl s with
        bundles := kept_setdefault s.bundles _ _
        bundleByParent := kept_setdefault s.bundleByParent _ _
        bundleByChildRun := hchildRuns
        bundleByChildInput := hchildInputs }
  | @firstContext c b h hone hfree =>
    have hcontexts := kept_insert_of_none h.new c
    have hflags : ∀ k, s.attemptOneContexts k = true →
        Function.update s.attemptOneContexts c.val.bundleId.text true k = true := fun k hk => by
      simp only [Function.update_apply, hk, ite_self]
    generalize insert s.contexts _ c = contexts at hcontexts hruns ⊢
    generalize Function.update s.attemptOneContexts _ true = flags at hflags hruns ⊢
    exact { Later.refl s with contexts := hcontexts, attemptOneContexts := hflags }
  | @retryContext c b h htwo hretry =>
    have hcontexts := kept_insert_of_none h.new c
    have hslots := kept_insert (checkRetryContext_slot hretry)
    generalize insert s.contexts _ c = contexts at hcontexts hruns ⊢
    generalize insert s.attemptTwoContextByBundle _ _ = slots at hslots hruns ⊢
    exact { Later.refl s with contexts := hcontexts, attemptTwoContextByBundle := hslots }
  | run h =>
    exact
      { Later.refl s with
        identities := kept_setdefault s.identities _ _
        runByContext := kept_setdefault s.runByContext _ _
        runs := hruns }
  | @feedback f rendered p hp hnew =>
    have hfeedback := kept_insert_of_none hnew (f, rendered)
    generalize insert s.feedback _ (f, rendered) = feedback at hfeedback hruns ⊢
    exact { Later.refl s with feedback := hfeedback }
  | @stage result current h =>
    have hresults := kept_insert_of_none h.new result
    unfold withResult at hruns ⊢
    generalize insert s.results _ result = results at hresults hruns ⊢
    generalize insert s.runs _ _ = runs at hruns ⊢
    generalize insert s.attempts _ _ = attempts at hruns ⊢
    exact { Later.refl s with results := hresults, runs := hruns }
  | @proposal result current p h hp =>
    have hresults := kept_insert_of_none h.new result
    have hproposals := kept_insert_of_none (checkProposal_new hp) (recordOf p result.resultHash)
    have hproposalContracts := kept_insert_of_none (hcontracts _ (checkProposal_new hp)) p
    unfold withResult withProposal at hruns ⊢
    dsimp only at hruns ⊢
    generalize insert s.results _ result = results at hresults hruns ⊢
    generalize insert s.proposals _ _ = proposals at hproposals hruns ⊢
    generalize insert s.proposalContracts _ _ = proposalContracts at hproposalContracts hruns ⊢
    generalize insert s.runs _ _ = runs at hruns ⊢
    generalize insert s.attempts _ _ = attempts at hruns ⊢
    generalize insert s.proposalByContext _ _ = byContext at hruns ⊢
    exact
      { Later.refl s with
        results := hresults
        proposals := hproposals
        proposalContracts := hproposalContracts
        runs := hruns }

/-! ### What the checks say -/

theorem PortfolioProposal.validateAgainst_ok {p : PortfolioProposal R} {c : ProposalContext R} :
    p.validateAgainst c = .ok () ↔ p.MatchesContext c ∧
      (∀ request ∈ p.val.requests, request.val.symbol ∈ c.val.allowedSymbols) ∧
      (∀ request ∈ p.val.requests, request.val.evidenceRefs ⊆ c.val.citationIds) ∧
      (c.val.window = .emergency →
        ∀ request ∈ p.val.requests, request.val.action ≠ .open ∧ request.val.action ≠ .increase) ∧
      p.val.expirationAt.micros ≤ c.val.deadline.micros ∧ p.val.versions = c.val.versions := by
  simp only [PortfolioProposal.validateAgainst, check_ok, require_ok]

theorem validateProposal_ok {c : ProposalContext R} {payload : String} {p : PortfolioProposal R} :
    validateProposal c payload = .ok p ↔ parseProposalPayload R payload = .ok p ∧ p.validateAgainst c = .ok () ∧
      (p.val.status = .valid ∨ p.val.status = .abstain) ∧
      p.val.contractMeta.val.producerVersion = c.val.contractMeta.val.producerVersion := by
  simp only [validateProposal, bind_ok, orRaise_ok, require_ok, pure_ok, exists_unit]
  constructor
  · rintro ⟨p', hparse, hvalid, hstatus, rfl⟩
    exact ⟨hparse, hvalid, hstatus⟩
  · rintro ⟨hparse, hvalid, hstatus⟩
    exact ⟨p, hparse, hvalid, hstatus, rfl⟩

theorem validateDebate_ok {c : ProposalContext R} {b : ResearchBundle R} {payload : String} {debate : RiskDebateState R} :
    validateDebate c b payload = .ok debate ↔ parseDebatePayload R payload = .ok debate ∧ DebateBinds debate c b ∧
      ∀ argument ∈ debate.val.arguments, argument.val.evidenceRefs ⊆ b.val.citationIds := by
  simp only [validateDebate, bind_ok, orRaise_ok, require_ok, pure_ok, exists_unit, RiskDebateState.validateCitations]
  constructor
  · rintro ⟨debate', hparse, hbinds, hcitations, rfl⟩
    exact ⟨hparse, hbinds, hcitations⟩
  · rintro ⟨hparse, hbinds, hcitations⟩
    exact ⟨debate, hparse, hbinds, hcitations, rfl⟩

/-- A contract comes from the stage PROPOSAL only. -/
theorem validateStage_some {c : ProposalContext R} {b : ResearchBundle R} {result : StoredProposalResult}
    {p : PortfolioProposal R} (h : validateStage c b result = .ok (some p)) :
    result.stage = .proposal ∧ validateProposal c result.payload = .ok p := by
  unfold validateStage at h
  split at h
  · simp only [bind_ok, pure_ok, reduceCtorEq, and_false, exists_false] at h
  · rename_i hstage
    simp only [bind_ok, pure_ok, Option.some.injEq] at h
    obtain ⟨p', hp, rfl⟩ := h
    exact ⟨hstage, hp⟩
  · simp only [bind_ok, pure_ok, reduceCtorEq, and_false, exists_const] at h

theorem authorityOf_ok {s : Repository R} {run : String} {c : ProposalContext R} {b : ResearchBundle R}
    (h : authorityOf s run = .ok (c, b)) :
    ∃ i, s.identities run = some i ∧ s.contexts i.contextId = some c ∧ s.bundles i.bundleId = some b := by
  unfold authorityOf at h
  split at h
  · cases h
  · rename_i i hi
    split at h
    · rename_i c' b' hc hb
      simp only [check_ok, pure_ok, Prod.mk.injEq] at h
      obtain ⟨-, rfl, rfl⟩ := h
      exact ⟨i, hi, hc, hb⟩
    · cases h

theorem validateStageResult_ok {s : Repository R} {result : StoredProposalResult}
    {contract : Option (PortfolioProposal R)} (h : validateStageResult s result = .ok contract) :
    (R.sha256 result.payload).text = result.resultHash ∧
      ∃ c b, authorityOf s result.runId = .ok (c, b) ∧ validateStage c b result = .ok contract := by
  simp only [validateStageResult, check_ok, require_ok] at h
  obtain ⟨-, hhash, h⟩ := h
  obtain ⟨p, hauthority, hvalid⟩ := bind_ok.mp h
  exact ⟨hhash, p.1, p.2, hauthority, hvalid⟩

theorem rejectable_ok {s : Repository R} {f : RiskRejectionFeedback R} {q : PortfolioProposal R × ProposalRecord}
    (h : rejectable s f = .ok q) :
    s.proposalContracts f.val.rejectedProposalId.text = some q.1 ∧ q.1.val.attempt = 1 ∧ q.1.val.status = .valid := by
  unfold rejectable at h
  split at h
  · cases h
  · rename_i p hp
    obtain ⟨hvalid, h⟩ := check_ok.mp h
    split at h
    · cases h
    · simp only [check_ok, pure_ok] at h
      obtain ⟨-, rfl⟩ := h
      exact ⟨hp, require_ok.mp hvalid⟩

theorem proposalAuthorityIsComplete_run {s : Repository R} {record : ProposalRecord} {run : String}
    (hrun : s.runByContext record.contextId = some run) (h : s.proposalAuthorityIsComplete record = true) :
    s.runs run = some .complete := by
  simp only [Repository.proposalAuthorityIsComplete, hrun] at h
  by_contra hcomplete
  rw [if_neg hcomplete] at h
  cases h

theorem supersedable_ok {s : Repository R} {c : ProposalContext R} {record : ProposalRecord}
    (h : supersedable s c = .ok record) :
    s.proposals (c.val.supersededProposalId.elim "" RunId.text) = some record ∧ record.attempt = 1 ∧
      record.bundleId = c.val.bundleId.text ∧
      c.val.supersededProposalHash.map Hash.text = some record.proposalHash := by
  unfold supersedable at h
  split at h
  · cases h
  · rename_i record' hrecord
    simp only [check_ok, require_ok, pure_ok] at h
    obtain ⟨hchecks, rfl⟩ := h
    exact ⟨hrecord, hchecks⟩

/-- What a context of the second attempt is checked against. -/
structure RetryChecks (s : Repository R) (c : ProposalContext R) (previous : ProposalContext R)
    (record : ProposalRecord) (f : RiskRejectionFeedback R) (rendered : String) : Prop where
  context : s.contexts (c.val.previousContextId.elim "" RunId.text) = some previous
  bundle : previous.val.bundleId = c.val.bundleId
  first : previous.val.attempt = 1
  superseded : supersedable s c = .ok record
  complete : s.proposalAuthorityIsComplete record = true
  feedback : c.val.feedback = some f
  registered : s.feedback f.val.contractMeta.val.runId.text = some (f, rendered)
  rejected : f.val.rejectedProposalId.text = c.val.supersededProposalId.elim "" RunId.text

theorem checkRetryContext_ok {s : Repository R} {c : ProposalContext R} (h : checkRetryContext s c = .ok ()) :
    ∃ previous record f rendered, RetryChecks s c previous record f rendered := by
  simp only [checkRetryContext, bind_ok, require_ok, exists_const] at h
  obtain ⟨⟨previous, hprevious, hbundle, hone⟩, record, hrecord, hcomplete, h⟩ := h
  split at h
  · cases h
  · rename_i f rendered hregistered
    simp only [bind_ok, require_ok, exists_const] at h
    obtain ⟨hrejected, hfeedback, -⟩ := h
    rw [hfeedback] at hregistered
    exact ⟨previous, record, f, rendered,
      ⟨hprevious, hbundle, hone, hrecord, hcomplete, hfeedback, hregistered, hrejected⟩⟩

/-- A context of the second attempt names what it follows. -/
theorem ProposalContext.lineage (c : ProposalContext R) (h : c.val.attempt ≠ 1) :
    ∃ previous superseded, c.val.previousContextId = some previous ∧ c.val.supersededProposalId = some superseded := by
  have hpost := c.property
  simp only [ProposalContext.postInit, bind_ok] at hpost
  obtain ⟨-, -, -, -, -, -, -, -, -, -, -, -, -, -, _, hlineage, -⟩ := hpost
  simp only [ProposalContext.checkLineage, if_neg h] at hlineage
  split at hlineage
  · rename_i previous superseded hash f hprevious hsuperseded hhash hf
    exact ⟨previous, superseded, hprevious, hsuperseded⟩
  · cases hlineage

/-! ### The invariant -/

/-- The bundle has its parent input and the runs and inputs of its children to itself. -/
structure BundleEntry (s : Repository R) (k : String) (b : ResearchBundle R) : Prop where
  key : k = b.val.bundleId.text
  parent : s.bundleByParent b.val.parentInputId.text = some k
  childRun : ∀ item ∈ b.val.items, s.bundleByChildRun item.val.analysisRunId.text = some k
  childInput : ∀ item ∈ b.val.items, s.bundleByChildInput item.val.analysisInputId.text = some k

/-- The authority under which a run was created. -/
structure RunAuthority (s : Repository R) (run : String) (c : ProposalContext R) (b : ResearchBundle R) : Prop where
  identity : s.identities run = some ⟨c.val.contextId.text, c.val.bundleId.text, c.val.bundleHash.text⟩
  context : s.contexts c.val.contextId.text = some c
  bundle : s.bundles c.val.bundleId.text = some b
  bundleHash : b.val.bundleHash = c.val.bundleHash
  runId : run = (R.deriveProposalRunId c.val.contextId).text

/-- The run is COMPLETE, and its stage PROPOSAL stored the proposal. -/
structure CompletedProposal (s : Repository R) (p : PortfolioProposal R) (result : StoredProposalResult) : Prop where
  authority : ∃ c b, RunAuthority s result.runId c b ∧ p.MatchesContext c
  run : s.runs result.runId = some .complete
  stored : s.results (result.runId, .proposal) = some result
  payload : parseProposalPayload R result.payload = .ok p
  contract : s.proposalContracts p.val.proposalId.text = some p

/-- What a context of the second attempt supersedes: the VALID proposal of the first attempt for the
same bundle, whose run is COMPLETE, which the feedback rejects. -/
structure Supersedes (s : Repository R) (c : ProposalContext R) (p : PortfolioProposal R)
    (result : StoredProposalResult) (f : RiskRejectionFeedback R) : Prop where
  completed : CompletedProposal s p result
  attempt : p.val.attempt = 1
  valid : p.val.status = .valid
  previous : c.val.previousContextId = some p.val.contextId
  bundle : p.val.bundleId.text = c.val.bundleId.text
  id : c.val.supersededProposalId.map RunId.text = some p.val.proposalId.text
  hash : c.val.supersededProposalHash.map Hash.text = some result.resultHash
  feedback : c.val.feedback = some f
  registered : ∃ rendered, s.feedback f.val.contractMeta.val.runId.text = some (f, rendered)
  rejected : f.val.rejectedProposalId.text = p.val.proposalId.text

/-- The context repeats its bundle, and is the only one of its attempt. -/
structure ContextEntry (s : Repository R) (k : String) (c : ProposalContext R) : Prop where
  key : k = c.val.contextId.text
  bundle : ∃ b, s.bundles c.val.bundleId.text = some b ∧ b.val.bundleHash = c.val.bundleHash ∧ MatchesBundle c b
  first : c.val.attempt = 1 → s.attemptOneContexts c.val.bundleId.text = true
  second : c.val.attempt ≠ 1 →
    s.attemptTwoContextByBundle c.val.bundleId.text = some k ∧ ∃ p result f, Supersedes s c p result f

/-- The feedback rejects a VALID proposal of the first attempt. -/
def FeedbackEntry (s : Repository R) (k : String) (f : RiskRejectionFeedback R) : Prop :=
  k = f.val.contractMeta.val.runId.text ∧
    ∃ p, s.proposalContracts f.val.rejectedProposalId.text = some p ∧ p.val.attempt = 1 ∧ p.val.status = .valid

/-- The result is valid under the authority of its run. -/
structure ResultEntry (s : Repository R) (key : String × ProposalStage) (result : StoredProposalResult) : Prop where
  key : key = (result.runId, result.stage)
  hash : (R.sha256 result.payload).text = result.resultHash
  valid : ∃ c b contract, RunAuthority s result.runId c b ∧ validateStage c b result = .ok contract ∧
    ∀ p, contract = some p → s.proposalContracts p.val.proposalId.text = some p

/-- The proposal was stored by the stage PROPOSAL of a run. -/
structure ProposalEntry (s : Repository R) (k : String) (p : PortfolioProposal R) (record : ProposalRecord) :
    Prop where
  key : k = p.val.proposalId.text
  stored : ∃ result c b, s.results (result.runId, .proposal) = some result ∧ record = recordOf p result.resultHash ∧
    parseProposalPayload R result.payload = .ok p ∧ RunAuthority s result.runId c b ∧ p.MatchesContext c

/-- The results of a run are those of the stages it passed. -/
def Passed (s : Repository R) (run : String) : Prop :=
  match s.runs run with
  | none => ∀ stage, s.results (run, stage) = none
  | some current => ∃ passed, Path current passed ∧ ∀ stage, s.results (run, stage) ≠ none ↔ stage ∈ passed

/-- What holds of the entries of a repository. -/
structure Sound (s : Repository R) : Prop where
  bundles : ∀ k b, s.bundles k = some b → BundleEntry s k b
  contexts : ∀ k c, s.contexts k = some c → ContextEntry s k c
  firstContext : ∀ k k' c c', s.contexts k = some c → s.contexts k' = some c' → c.val.attempt = 1 →
    c'.val.attempt = 1 → c.val.bundleId.text = c'.val.bundleId.text → k = k'
  identities : ∀ run i, s.identities run = some i →
    (∃ c b, RunAuthority s run c b ∧ i.contextId = c.val.contextId.text) ∧ s.runByContext i.contextId = some run
  feedback : ∀ k f, s.feedback k = some f → FeedbackEntry s k f.1
  results : ∀ key result, s.results key = some result → ResultEntry s key result
  proposals : ∀ k, (s.proposals k = none ∧ s.proposalContracts k = none) ∨
    ∃ p record, s.proposals k = some record ∧ s.proposalContracts k = some p ∧ ProposalEntry s k p record
  runs : ∀ run, Passed s run

/-! ### Entries stay valid -/

section later

variable {s t : Repository R}

theorem BundleEntry.later (h : Later s t) {k : String} {b : ResearchBundle R} (hb : BundleEntry s k b) :
    BundleEntry t k b where
  key := hb.key
  parent := h.bundleByParent _ _ hb.parent
  childRun item hitem := h.bundleByChildRun _ _ (hb.childRun item hitem)
  childInput item hitem := h.bundleByChildInput _ _ (hb.childInput item hitem)

theorem RunAuthority.later (h : Later s t) {run : String} {c : ProposalContext R} {b : ResearchBundle R}
    (ha : RunAuthority s run c b) : RunAuthority t run c b where
  identity := h.identities _ _ ha.identity
  context := h.contexts _ _ ha.context
  bundle := h.bundles _ _ ha.bundle
  bundleHash := ha.bundleHash
  runId := ha.runId

theorem CompletedProposal.later (h : Later s t) {p : PortfolioProposal R} {result : StoredProposalResult}
    (hp : CompletedProposal s p result) : CompletedProposal t p result where
  authority := by
    obtain ⟨c, b, ha, hmatches⟩ := hp.authority
    exact ⟨c, b, ha.later h, hmatches⟩
  run := h.of_terminal hp.run trivial
  stored := h.results _ _ hp.stored
  payload := hp.payload
  contract := h.proposalContracts _ _ hp.contract

theorem Supersedes.later (h : Later s t) {c : ProposalContext R} {p : PortfolioProposal R}
    {result : StoredProposalResult} {f : RiskRejectionFeedback R} (hs : Supersedes s c p result f) :
    Supersedes t c p result f where
  completed := hs.completed.later h
  attempt := hs.attempt
  valid := hs.valid
  previous := hs.previous
  bundle := hs.bundle
  id := hs.id
  hash := hs.hash
  feedback := hs.feedback
  registered := by
    obtain ⟨rendered, hf⟩ := hs.registered
    exact ⟨rendered, h.feedback _ _ hf⟩
  rejected := hs.rejected

theorem ContextEntry.later (h : Later s t) {k : String} {c : ProposalContext R} (hc : ContextEntry s k c) :
    ContextEntry t k c where
  key := hc.key
  bundle := by
    obtain ⟨b, hb, hrest⟩ := hc.bundle
    exact ⟨b, h.bundles _ _ hb, hrest⟩
  first hone := h.attemptOneContexts _ (hc.first hone)
  second htwo := by
    obtain ⟨hslot, p, result, f, hs⟩ := hc.second htwo
    exact ⟨h.attemptTwoContextByBundle _ _ hslot, p, result, f, hs.later h⟩

theorem FeedbackEntry.later (h : Later s t) {k : String} {f : RiskRejectionFeedback R} (hf : FeedbackEntry s k f) :
    FeedbackEntry t k f := by
  obtain ⟨hkey, p, hp, hrest⟩ := hf
  exact ⟨hkey, p, h.proposalContracts _ _ hp, hrest⟩

theorem ResultEntry.later (h : Later s t) {key : String × ProposalStage} {result : StoredProposalResult}
    (hr : ResultEntry s key result) : ResultEntry t key result where
  key := hr.key
  hash := hr.hash
  valid := by
    obtain ⟨c, b, contract, ha, hvalid, hcontract⟩ := hr.valid
    exact ⟨c, b, contract, ha.later h, hvalid, fun p hp => h.proposalContracts _ _ (hcontract p hp)⟩

theorem ProposalEntry.later (h : Later s t) {k : String} {p : PortfolioProposal R} {record : ProposalRecord}
    (hp : ProposalEntry s k p record) : ProposalEntry t k p record where
  key := hp.key
  stored := by
    obtain ⟨result, c, b, hresult, hrecord, hpayload, ha, hmatches⟩ := hp.stored
    exact ⟨result, c, b, h.results _ _ hresult, hrecord, hpayload, ha.later h, hmatches⟩

end later

/-! ### New entries are valid -/

section sound

variable {s t : Repository R}

theorem Sound.noContract (hs : Sound s) (k : String) (h : s.proposals k = none) : s.proposalContracts k = none := by
  obtain ⟨-, hnone⟩ | ⟨p, record, hrecord, -⟩ := hs.proposals k
  · exact hnone
  · rw [h] at hrecord
    cases hrecord

/-- The authority that a stage result is checked under is that of its run. -/
theorem Sound.runAuthority (hs : Sound s) {run : String} {c : ProposalContext R} {b : ResearchBundle R}
    (h : authorityOf s run = .ok (c, b)) : RunAuthority s run c b := by
  obtain ⟨i, hi, hc, hb⟩ := authorityOf_ok h
  obtain ⟨⟨c', b', ha, hid⟩, -⟩ := hs.identities run i hi
  obtain rfl := Option.some.inj (hi.symm.trans ha.identity)
  obtain rfl := Option.some.inj (hc.symm.trans ha.context)
  obtain rfl := Option.some.inj (hb.symm.trans ha.bundle)
  exact ha

/-- A record of a completed proposal belongs to a completed proposal. -/
theorem Sound.completed (hs : Sound s) {k : String} {record : ProposalRecord} (hrecord : s.proposals k = some record)
    (hcomplete : s.proposalAuthorityIsComplete record = true) :
    ∃ p result, k = p.val.proposalId.text ∧ record = recordOf p result.resultHash ∧ CompletedProposal s p result := by
  obtain ⟨hnone, -⟩ | ⟨p, record', hrecord', hcontract, hentry⟩ := hs.proposals k
  · rw [hnone] at hrecord
    cases hrecord
  · obtain rfl := Option.some.inj (hrecord.symm.trans hrecord')
    obtain ⟨result, c, b, hresult, rfl, hpayload, ha, hmatches⟩ := hentry.stored
    have hcontext : p.val.contextId = c.val.contextId := hmatches.2.1
    obtain ⟨-, hrun⟩ := hs.identities _ _ ha.identity
    refine ⟨p, result, hentry.key, rfl, ⟨c, b, ha, hmatches⟩, ?_, hresult, hpayload, ?_⟩
    · refine proposalAuthorityIsComplete_run ?_ hcomplete
      rw [← hrun, recordOf, hcontext]
    · rw [← hentry.key]
      exact hcontract

/-- The context of a proposal, and its attempt. -/
theorem CompletedProposal.context {p : PortfolioProposal R} {result : StoredProposalResult}
    (h : CompletedProposal s p result) :
    ∃ c, s.contexts p.val.contextId.text = some c ∧ c.val.attempt = p.val.attempt ∧ c.val.bundleId = p.val.bundleId := by
  obtain ⟨c, b, ha, hattempt, hcontext, -, hbundle, -⟩ := h.authority
  refine ⟨c, ?_, hattempt.symm, hbundle.symm⟩
  rw [hcontext]
  exact ha.context

theorem Sound.supersedes (hs : Sound s) {c : ProposalContext R} (htwo : c.val.attempt ≠ 1)
    (h : checkRetryContext s c = .ok ()) : ∃ p result f, Supersedes s c p result f := by
  obtain ⟨previous, record, f, rendered, hc⟩ := checkRetryContext_ok h
  obtain ⟨previousId, superseded, hprevious, hsuperseded⟩ := c.lineage htwo
  have hcontext := hc.context
  have hrejected := hc.rejected
  obtain ⟨hrecord, hone, hbundle, hhash⟩ := supersedable_ok hc.superseded
  rw [hprevious] at hcontext
  rw [hsuperseded] at hrecord hrejected
  obtain ⟨p, result, hkey, rfl, hcompleted⟩ := hs.completed hrecord hc.complete
  change superseded.text = p.val.proposalId.text at hkey
  -- The feedback rejects the proposal that is superseded.
  obtain ⟨-, p', hp', -, hvalid⟩ := hs.feedback _ _ hc.registered
  rw [hrejected] at hp'
  have hcontract := hcompleted.contract
  rw [← hkey] at hcontract
  obtain rfl := Option.some.inj (hcontract.symm.trans hp')
  -- The context of the proposal is the one of the first attempt, which is the previous one.
  obtain ⟨c', hc', hattempt, hbundle'⟩ := hcompleted.context
  have hids : previousId.text = p.val.contextId.text := by
    refine hs.firstContext _ _ previous c' hcontext hc' hc.first (hattempt.trans hone) ?_
    rw [hc.bundle, hbundle']
    exact hbundle.symm
  refine ⟨p, result, f, hcompleted, hone, hvalid, ?_, hbundle, ?_, hhash, hc.feedback, ⟨rendered, hc.registered⟩, ?_⟩
  · rw [hprevious, RunId.text_injective hids]
  · rw [hsuperseded, ← hkey]
    rfl
  · rw [hrejected, ← hkey]
    rfl

theorem NewContext.entry (hs : Sound s) (h : Later s t) {k : String} {c : ProposalContext R}
    (hc : NewContext s t k c) : ContextEntry t k c where
  key := hc.key
  bundle := by
    obtain ⟨b, hchecks⟩ := hc.checks
    exact ⟨b, h.bundles _ _ hchecks.bundle, hchecks.bundleHash, hchecks.matches_⟩
  first hone := (hc.first hone).2
  second htwo := by
    obtain ⟨hretry, hslot⟩ := hc.retry htwo
    obtain ⟨p, result, f, hsupersedes⟩ := hs.supersedes htwo hretry
    exact ⟨hslot, p, result, f, hsupersedes.later h⟩

/-- The first context of a bundle is new only when there is none. -/
theorem NewContext.first_unique (hs : Sound s) {k k' : String} {c c' : ProposalContext R} (hc : NewContext s t k c)
    (hc' : s.contexts k' = some c') (hone : c.val.attempt = 1) (hone' : c'.val.attempt = 1) :
    c.val.bundleId.text ≠ c'.val.bundleId.text := by
  intro hbundle
  have hflag := (hs.contexts _ _ hc').first hone'
  rw [← hbundle, (hc.first hone).1] at hflag
  cases hflag

theorem RunChecks.authority (hs : Sound s) (h : Later s t) {run : String} {i : RunIdentity} {c : ProposalContext R}
    {b : ResearchBundle R} (hchecks : RunChecks s run i c b) (hi : t.identities run = some i) :
    RunAuthority t run c b ∧ i.contextId = c.val.contextId.text := by
  have hkey : i.contextId = c.val.contextId.text := (hs.contexts _ _ hchecks.context).key
  obtain ⟨id, hid, hrun⟩ := hchecks.runId_eq
  rw [hkey, RunId.fromString_text] at hid
  obtain rfl := Except.ok.inj hid
  refine ⟨⟨?_, ?_, ?_, ?_, hrun⟩, hkey⟩
  · rw [hi, hchecks.contextBundle, hchecks.contextHash, ← hkey]
  · rw [← hkey]
    exact h.contexts _ _ hchecks.context
  · rw [hchecks.contextBundle]
    exact h.bundles _ _ hchecks.bundle
  · exact Hash.text_injective (hchecks.bundleHash.trans hchecks.contextHash.symm)

theorem StageChecks.entry (hs : Sound s) (h : Later s t) {result : StoredProposalResult} {current : ProposalStage}
    {contract : Option (PortfolioProposal R)} (hchecks : StageChecks s result current contract)
    (hcontract : ∀ p, contract = some p → t.proposalContracts p.val.proposalId.text = some p) :
    ResultEntry t (result.runId, result.stage) result := by
  obtain ⟨hhash, c, b, hauthority, hvalid⟩ := validateStageResult_ok hchecks.valid
  exact ⟨rfl, hhash, c, b, contract, (hs.runAuthority hauthority).later h, hvalid, hcontract⟩

theorem NewProposal.entry (hs : Sound s) (h : Later s t) {k : String} {p : PortfolioProposal R} {record : ProposalRecord}
    (hp : NewProposal s t k p record) : ProposalEntry t k p record := by
  obtain ⟨result, current, hchecks, hrecord, hresult⟩ := hp.result
  obtain ⟨-, c, b, hauthority, hvalid⟩ := validateStageResult_ok hchecks.valid
  obtain ⟨hstage, hproposal⟩ := validateStage_some hvalid
  obtain ⟨hparse, hagainst, -⟩ := validateProposal_ok.mp hproposal
  rw [hstage] at hresult
  exact ⟨hp.key, result, c, b, hresult, hrecord, hparse, (hs.runAuthority hauthority).later h,
    (PortfolioProposal.validateAgainst_ok.mp hagainst).1⟩

theorem Passed.change {run : String} (hs : Passed s run) (h : RunChange s t run) : Passed t run := by
  unfold Passed at hs ⊢
  cases h with
  | same hrun hresults =>
    simp only [hrun, hresults]
    exact hs
  | created hnew hrun hresults =>
    simp only [hnew] at hs
    simp only [hrun, hresults, hs]
    exact ⟨[], .planned, by simp⟩
  | @advanced current next hlegal hcurrent hrun hnew hstored hresults =>
    simp only [hcurrent] at hs
    simp only [hrun]
    obtain ⟨passed, hpath, hpassed⟩ := hs
    refine ⟨passed ++ [next], .step hpath hlegal, fun stage => ?_⟩
    rw [List.mem_append, List.mem_singleton]
    by_cases hstage : stage = next
    · subst hstage
      simp [hstored]
    · rw [hresults stage hstage, hpassed]
      simp [hstage]

/-- A call keeps the entries of the repository valid. -/
theorem Effect.sound (hs : Sound s) (h : Effect s t) : Sound t := by
  have hl := h.later hs.noContract
  constructor
  case bundles =>
    intro k b hb
    obtain hb | ⟨hkey, hparent, hitems⟩ := h.bundle_new hb
    · exact (hs.bundles k b hb).later hl
    · exact ⟨hkey, hparent, fun item hitem => (hitems item hitem).1, fun item hitem => (hitems item hitem).2⟩
  case contexts =>
    intro k c hc
    obtain hc | hc := h.context_new hc
    · exact (hs.contexts k c hc).later hl
    · exact hc.entry hs hl
  case firstContext =>
    intro k k' c c' hc hc' hone hone' hbundle
    obtain hold | hnew := h.context_new hc
    · obtain hold' | hnew' := h.context_new hc'
      · exact hs.firstContext k k' c c' hold hold' hone hone' hbundle
      · exact absurd hbundle.symm (hnew'.first_unique hs hold hone' hone)
    · obtain rfl | hold' := hnew.only k' c' hc'
      · rfl
      · exact absurd hbundle (hnew.first_unique hs hold' hone hone')
  case identities =>
    intro run i hi
    obtain hold | ⟨⟨c, b, hchecks⟩, hby, -⟩ := h.identity_new hi
    · obtain ⟨⟨c, b, ha, hkey⟩, hby⟩ := hs.identities run i hold
      exact ⟨⟨c, b, ha.later hl, hkey⟩, hl.runByContext _ _ hby⟩
    · obtain ⟨ha, hkey⟩ := hchecks.authority hs hl hi
      exact ⟨⟨c, b, ha, hkey⟩, hby⟩
  case feedback =>
    intro k f hf
    obtain hf | ⟨hkey, q, hq⟩ := h.feedback_new hf
    · exact (hs.feedback k f hf).later hl
    · obtain ⟨hcontract, hrest⟩ := rejectable_ok hq
      exact ⟨hkey, q.1, hl.proposalContracts _ _ hcontract, hrest⟩
  case results =>
    intro key result hr
    obtain hr | ⟨rfl, current, contract, hchecks, hcontract⟩ := h.result_new hr
    · exact (hs.results key result hr).later hl
    · exact hchecks.entry hs hl fun p hp => (hcontract p hp).2.2
  case proposals =>
    intro k
    obtain ⟨hproposals, hcontracts⟩ | ⟨p, record, hproposal, hcontract, hnew⟩ := @Effect.proposal_new R s t h k
    · rw [hproposals, hcontracts]
      refine (hs.proposals k).imp_right ?_
      rintro ⟨p, record, hproposal, hcontract, hentry⟩
      exact ⟨p, record, hproposal, hcontract, hentry.later hl⟩
    · exact .inr ⟨p, record, hproposal, hcontract, hnew.entry hs hl⟩
  case runs => exact fun run => (hs.runs run).change (h.run_change run)

end sound

end SevenLens.Analysis.Proposals
