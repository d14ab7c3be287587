import SevenLens.Analysis.ProposalAuthority

/-! # Runs of the proposal repository

What holds after any calls with any arguments, some of which raise: stage results are written once
and follow the legal transitions (`stage_results_written_once`), they say what their context and
bundle allow (`stage_results_bound`), a second attempt follows one completed and rejected first
attempt (`second_attempts_follow`), and no analysis is part of two bundles (`bundles_disjoint`). -/

namespace SevenLens.Analysis.Proposals

open Securities

variable {R : Rules}

/-- The repository after some calls, whether they return or raise. -/
def Repository.after (s : Repository R) (calls : List (Request R)) : Repository R :=
  calls.foldl (fun s q => q.after s) s

theorem sound_empty (R : Rules) : Sound (Repository.empty R) where
  bundles _ _ h := by cases h
  contexts _ _ h := by cases h
  firstContext _ _ _ _ h := by cases h
  identities _ _ h := by cases h
  feedback _ _ h := by cases h
  results _ _ h := by cases h
  proposals _ := .inl ⟨rfl, rfl⟩
  runs _ := fun _ => rfl

theorem Sound.after {s : Repository R} (hs : Sound s) (calls : List (Request R)) :
    Sound (s.after calls) ∧ Later s (s.after calls) := by
  induction calls generalizing s with
  | nil => exact ⟨hs, .refl s⟩
  | cons q calls ih =>
    have hq := q.effect s
    obtain ⟨hsound, hlater⟩ := ih (hq.sound hs)
    exact ⟨hsound, (hq.later hs.noContract).trans hlater⟩

/-- A repository that calls make from an empty one. -/
def Made (s : Repository R) : Prop := ∃ calls, s = (Repository.empty R).after calls

theorem Made.sound {s : Repository R} (h : Made s) : Sound s := by
  obtain ⟨calls, rfl⟩ := h
  exact ((sound_empty R).after calls).1

/-! ### Stage results -/

/-- After any calls the results of each run are those of the stages it passed on its way along the
legal transitions.  Further calls change no result, context, bundle, identity, proposal or feedback
that is there, move runs along legal transitions only, and leave runs that are COMPLETE, INVALID or
EXPIRED where they are; a call that raises changes nothing. -/
theorem stage_results_written_once (calls further : List (Request R)) :
    (∀ run, Passed ((Repository.empty R).after calls) run) ∧
      Later ((Repository.empty R).after calls) (((Repository.empty R).after calls).after further) ∧
      (∀ run stage, ((Repository.empty R).after calls).runs run = some stage → stage.IsTerminal →
        (((Repository.empty R).after calls).after further).runs run = some stage) ∧
      ∀ q : Request R, (∃ e, (q.run ((Repository.empty R).after calls)).1 = .error e) →
        q.after ((Repository.empty R).after calls) = (Repository.empty R).after calls := by
  have hs := ((sound_empty R).after calls).1
  have hlater := (hs.after further).2
  refine ⟨hs.runs, hlater, fun run stage hrun hterminal => hlater.of_terminal hrun hterminal, fun q he => ?_⟩
  obtain ⟨e, he⟩ := he
  exact q.atomic _ e _ (Prod.ext he rfl)

/-- What the payload of a stage says, under the context and the bundle of its run. -/
def Payload (c : ProposalContext R) (b : ResearchBundle R) (result : StoredProposalResult) : Prop :=
  match result.stage with
  | .riskDebate => ∃ debate, canonicalWireJson (RiskDebateState.wire R) debate = .ok result.payload ∧
      DebateBinds debate c b ∧ ∀ argument ∈ debate.val.arguments, argument.val.evidenceRefs ⊆ b.val.citationIds
  | .proposal => ∃ p, canonicalWireJson (PortfolioProposal.wire R) p = .ok result.payload ∧ p.MatchesContext c ∧
      (p.val.status = .valid ∨ p.val.status = .abstain) ∧
      (∀ request ∈ p.val.requests, request.val.symbol ∈ b.val.holdingSymbols ++ b.val.candidateSymbols ∧
        request.val.evidenceRefs ⊆ b.val.citationIds ∧
        (b.val.window = .emergency → request.val.action ≠ .open ∧ request.val.action ≠ .increase)) ∧
      p.val.expirationAt.micros ≤ b.val.deadline.micros
  | stage => result.payload = stage.lower

theorem parsePayload_ok {α : Type} {w : Wire α} {malformed noncanonical payload : String} {v : α}
    (h : parsePayload R w malformed noncanonical payload = .ok v) : canonicalWireJson w v = .ok payload := by
  simp only [parsePayload, bind_ok, require_ok, pure_ok] at h
  obtain ⟨v', -, text, htext, -, rfl, rfl⟩ := h
  exact htext

theorem payload_of_valid {c : ProposalContext R} {b : ResearchBundle R} {result : StoredProposalResult}
    {contract : Option (PortfolioProposal R)} (hmatches : MatchesBundle c b)
    (h : validateStage c b result = .ok contract) : Payload c b result := by
  cases hstage : result.stage <;> simp only [validateStage, hstage] at h <;> simp only [Payload, hstage]
  case riskDebate =>
    obtain ⟨debate, hdebate, -⟩ := bind_ok.mp h
    obtain ⟨hparse, hrest⟩ := validateDebate_ok.mp hdebate
    exact ⟨debate, parsePayload_ok hparse, hrest⟩
  case proposal =>
    obtain ⟨p, hp, -⟩ := bind_ok.mp h
    obtain ⟨hparse, hagainst, hstatus, -⟩ := validateProposal_ok.mp hp
    obtain ⟨hcontext, hsymbols, hrefs, hemergency, hexpiration, -⟩ := PortfolioProposal.validateAgainst_ok.mp hagainst
    obtain ⟨hwindow, hdeadline, -, hallowed, hcitations, -⟩ := hmatches
    rw [hallowed] at hsymbols
    rw [hcitations] at hrefs
    rw [hwindow] at hemergency
    rw [hdeadline] at hexpiration
    exact ⟨p, parsePayload_ok hparse, hcontext, hstatus,
      fun request hr => ⟨hsymbols request hr, hrefs request hr, fun hw => hemergency hw request hr⟩, hexpiration⟩
  all_goals exact require_ok.mp (check_ok.mp h).1

/-- Each stored result has the hash of its payload, belongs to a run that was created for a
registered context of a registered bundle, and says what they allow. -/
def ResultsBound (s : Repository R) : Prop :=
  ∀ key result, s.results key = some result →
    key = (result.runId, result.stage) ∧ (R.sha256 result.payload).text = result.resultHash ∧
      ∃ c b, RunAuthority s result.runId c b ∧ MatchesBundle c b ∧ Payload c b result

/-- After any calls what is stored for a stage is canonical and bound to the context and the bundle of
its run: a debate is theirs and cites the evidence of the bundle, and a proposal asks for symbols
of the universe of the bundle, cites its evidence, opens and increases nothing in an emergency and
expires by the deadline. -/
theorem stage_results_bound (s : {s : Repository R // Made s}) : ResultsBound s.val := by
  intro key result hresult
  have hs := s.property.sound
  have hentry := hs.results key result hresult
  obtain ⟨c, b, contract, ha, hvalid, -⟩ := hentry.valid
  obtain ⟨b', hb', -, hmatches⟩ := (hs.contexts _ _ ha.context).bundle
  obtain rfl := Option.some.inj (hb'.symm.trans ha.bundle)
  exact ⟨hentry.key, hentry.hash, c, b', ha, hmatches, payload_of_valid hmatches hvalid⟩

/-! ### Attempts -/

theorem Sound.context_unique {s : Repository R} (hs : Sound s) {k k' : String} {c c' : ProposalContext R}
    (hc : s.contexts k = some c) (hc' : s.contexts k' = some c') (hattempt : c.val.attempt = c'.val.attempt)
    (hbundle : c.val.bundleId = c'.val.bundleId) : k = k' := by
  by_cases hone : c.val.attempt = 1
  · exact hs.firstContext k k' c c' hc hc' hone (hattempt.symm.trans hone) (congrArg RunId.text hbundle)
  · have hslot := ((hs.contexts _ _ hc).second hone).1
    have hslot' := ((hs.contexts _ _ hc').second fun h => hone (hattempt.trans h)).1
    rw [hbundle, hslot'] at hslot
    exact (Option.some.inj hslot).symm

theorem PortfolioProposal.proposalId_eq (p : PortfolioProposal R) :
    p.val.proposalId = R.deriveProposalId p.val.contextId := by
  have hpost := p.property
  simp only [PortfolioProposal.postInit, check_ok, require_ok] at hpost
  exact hpost.2.2.1

/-- A proposal that is there, with the context it was made for. -/
theorem Sound.proposal {s : Repository R} (hs : Sound s) {k : String} {p : PortfolioProposal R}
    (hp : s.proposalContracts k = some p) :
    k = p.val.proposalId.text ∧
      ∃ c, s.contexts p.val.contextId.text = some c ∧ p.MatchesContext c ∧
        ∃ run result, s.results (run, .proposal) = some result ∧ parseProposalPayload R result.payload = .ok p := by
  obtain ⟨-, hnone⟩ | ⟨p', record, -, hp', hentry⟩ := hs.proposals k
  · rw [hnone] at hp
    cases hp
  · obtain rfl := Option.some.inj (hp'.symm.trans hp)
    obtain ⟨result, c, b, hresult, -, hparse, ha, hmatches⟩ := hentry.stored
    have hcontext := ha.context
    rw [← hmatches.2.1] at hcontext
    exact ⟨hentry.key, c, hcontext, hmatches, result.runId, result, hresult, hparse⟩

theorem Sound.proposal_unique {s : Repository R} (hs : Sound s) {k k' : String} {p p' : PortfolioProposal R}
    (hp : s.proposalContracts k = some p) (hp' : s.proposalContracts k' = some p')
    (hattempt : p.val.attempt = p'.val.attempt) (hbundle : p.val.bundleId = p'.val.bundleId) : k = k' := by
  obtain ⟨rfl, c, hc, ⟨hca, -, -, hcb, -⟩, -⟩ := hs.proposal hp
  obtain ⟨rfl, c', hc', ⟨hca', -, -, hcb', -⟩, -⟩ := hs.proposal hp'
  have hcontext := hs.context_unique hc hc' (by rw [← hca, ← hca', hattempt]) (by rw [← hcb, ← hcb', hbundle])
  rw [p.proposalId_eq, p'.proposalId_eq, RunId.text_injective hcontext]

/-- After any calls a bundle has at most one context and at most one proposal of each attempt.  A
context of the second attempt, and so a proposal of it, supersedes the proposal of the first
attempt for the same bundle, by its id and by the hash of its stored payload; that proposal is
VALID, its run is COMPLETE, and the feedback that the context carries is registered and rejects
it. -/
theorem second_attempts_follow (s : {s : Repository R // Made s}) :
    (∀ k k' c c', s.val.contexts k = some c → s.val.contexts k' = some c' → c.val.attempt = c'.val.attempt →
        c.val.bundleId = c'.val.bundleId → k = k') ∧
      (∀ k k' p p', s.val.proposalContracts k = some p → s.val.proposalContracts k' = some p' →
        p.val.attempt = p'.val.attempt → p.val.bundleId = p'.val.bundleId → k = k') ∧
      (∀ k c, s.val.contexts k = some c → c.val.attempt ≠ 1 → ∃ p result f, Supersedes s.val c p result f) ∧
      ∀ k p, s.val.proposalContracts k = some p → p.val.attempt ≠ 1 →
        ∃ c first result f, s.val.contexts p.val.contextId.text = some c ∧ p.MatchesContext c ∧
          Supersedes s.val c first result f := by
  have hs := s.property.sound
  refine ⟨fun k k' c c' hc hc' => hs.context_unique hc hc', fun k k' p p' hp hp' => hs.proposal_unique hp hp',
    fun k c hc htwo => ((hs.contexts k c hc).second htwo).2, fun k p hp htwo => ?_⟩
  obtain ⟨-, c, hc, hmatches, -⟩ := hs.proposal hp
  obtain ⟨first, result, f, hsupersedes⟩ := ((hs.contexts _ c hc).second fun h => htwo (hmatches.1.trans h)).2
  exact ⟨c, first, result, f, hc, hmatches, hsupersedes⟩

/-! ### Bundles -/

/-- No two bundles have the same parent input, and no analysis run and no analysis input is part of
two bundles. -/
def BundlesDisjoint (s : Repository R) : Prop :=
  ∀ k k' b b', s.bundles k = some b → s.bundles k' = some b' → k ≠ k' →
    b.val.parentInputId ≠ b'.val.parentInputId ∧
      ∀ item ∈ b.val.items, ∀ item' ∈ b'.val.items, item.val.analysisRunId ≠ item'.val.analysisRunId ∧
        item.val.analysisInputId ≠ item'.val.analysisInputId

theorem bundles_disjoint (s : {s : Repository R // Made s}) : BundlesDisjoint s.val := by
  intro k k' b b' hb hb' hne
  have he := s.property.sound.bundles k b hb
  have he' := s.property.sound.bundles k' b' hb'
  refine ⟨fun h => hne ?_, fun item hitem item' hitem' => ⟨fun h => hne ?_, fun h => hne ?_⟩⟩
  · have hparent := he.parent
    rw [h, he'.parent] at hparent
    exact (Option.some.inj hparent).symm
  · have hrun := he.childRun item hitem
    rw [h, he'.childRun item' hitem'] at hrun
    exact (Option.some.inj hrun).symm
  · have hinput := he.childInput item hitem
    rw [h, he'.childInput item' hitem'] at hinput
    exact (Option.some.inj hinput).symm

end SevenLens.Analysis.Proposals
