import SevenLens.Analysis.ProposalRepository

/-! # What a call of the proposal repository can do

A call either leaves the repository as it is or does one of six things, under the checks that come
before it (`Effect`).  A call that raises leaves the repository as it is (`Request.atomic`): every
check comes before the first write. -/

namespace SevenLens.Analysis.Proposals

open Securities Method

variable {R : Rules}

/-- A call of the repository with its arguments, the clock, and what the verifier says. -/
inductive Request (R : Rules) where
  | registerBundle (now : UtcTimestamp) (verifier : Option (ResearchBundle R → Except Failure Unit))
      (a : ResearchBundle.Args R)
  | registerContext (now : UtcTimestamp) (a : ProposalContext.Args R)
  | createRun (now : UtcTimestamp) (runId contextId bundleId bundleHash : String)
  | registerFeedback (now : UtcTimestamp) (a : RiskRejectionFeedback.Args R)
  | advance (now : UtcTimestamp) (result : StoredProposalResult) (expectedCurrent : ProposalStage)

/-- The call; of `advance` the result is dropped. -/
def Request.run : Request R → Operation R Unit
  | registerBundle now verifier a => Proposals.registerBundle now verifier a
  | registerContext now a => Proposals.registerContext now a
  | createRun now runId contextId bundleId bundleHash => Proposals.createRun now runId contextId bundleId bundleHash
  | registerFeedback now a => Proposals.registerFeedback now a
  | advance now result expectedCurrent => do
    let _ ← Proposals.advance now result expectedCurrent
    return ()

/-- The repository after a call. -/
def Request.after (q : Request R) (s : Repository R) : Repository R := (q.run s).2

/-! ### Atomicity -/

theorem readOnly_check (p : Prop) [Decidable p] (message : String) : ReadOnly (check p message : Operation R Unit) :=
  readOnly_lift _

/-- Reading and checking before an atomic rest. -/
theorem atomic_lift {α β : Type} {x : Except Failure α} {f : α → Operation R β} (hf : ∀ a, (f a).Atomic) :
    (lift x >>= f).Atomic := Atomic.bind (readOnly_lift x) hf

theorem atomic_check {p : Prop} [Decidable p] {message : String} {β : Type} {f : Unit → Operation R β}
    (hf : ∀ u, (f u).Atomic) : (check p message >>= f).Atomic := Atomic.bind (readOnly_check p message) hf

theorem atomic_state {β : Type} {f : Repository R → Operation R β} (hf : ∀ s, (f s).Atomic) :
    (Method.state >>= f).Atomic := Atomic.bind readOnly_state hf

theorem returns_write_bind {g : Repository R → Repository R} {β : Type} {f : Unit → Operation R β}
    (hf : ∀ u, (f u).Returns) : (write g >>= f).Returns := (returns_write g).bind hf

theorem registerBundle_atomic (now : UtcTimestamp) (verifier : Option (ResearchBundle R → Except Failure Unit))
    (a : ResearchBundle.Args R) : (registerBundle now verifier a).Atomic := by
  refine atomic_lift fun bundle => atomic_check fun _ => atomic_lift fun _ => atomic_lift fun frozen =>
    atomic_state fun s => atomic_check fun _ => atomic_check fun _ => atomic_lift fun _ => ?_
  exact .of_returns (returns_write_bind fun _ => returns_write_bind fun _ => returns_write _)

theorem registerContext_atomic (now : UtcTimestamp) (a : ProposalContext.Args R) : (registerContext now a).Atomic := by
  refine atomic_lift fun context => atomic_check fun _ => atomic_state fun s => atomic_lift fun bundle =>
    atomic_check fun _ => atomic_check fun _ => atomic_lift fun frozen => ?_
  dsimp only
  split
  · exact (readOnly_check _ _).atomic
  · refine atomic_lift fun _ => .of_returns (returns_write_bind fun _ => ?_)
    split_ifs
    · exact returns_write _
    · exact returns_write _

theorem createRun_atomic (now : UtcTimestamp) (runId contextId bundleId bundleHash : String) :
    (createRun now runId contextId bundleId bundleHash : Operation R Unit).Atomic := by
  refine atomic_state fun s => atomic_lift fun context => atomic_check fun _ => atomic_lift fun id =>
    atomic_check fun _ => atomic_check fun _ => atomic_check fun _ => ?_
  exact .of_returns (returns_write_bind fun _ => returns_write_bind fun _ => returns_write _)

theorem registerFeedback_atomic (now : UtcTimestamp) (a : RiskRejectionFeedback.Args R) :
    (registerFeedback now a).Atomic := by
  refine atomic_lift fun feedback => atomic_lift fun rendered => atomic_state fun s => atomic_lift fun p => ?_
  obtain ⟨proposal, record⟩ := p
  refine atomic_check fun _ => atomic_check fun _ => ?_
  split
  · exact (readOnly_check _ _).atomic
  · exact atomic_lift fun frozen => .of_returns (returns_write _)

theorem registerProposal_atomic (p : PortfolioProposal R) (proposalHash : String) :
    (registerProposal p proposalHash).Atomic := by
  refine atomic_state fun s => atomic_lift fun _ => ?_
  dsimp only
  split_ifs
  · exact .of_returns (returns_write_bind fun _ => returns_write_bind fun _ => returns_write_bind fun _ => returns_write _)
  · split
    · refine atomic_lift fun _ => .of_returns ?_
      exact returns_write_bind fun _ => returns_write_bind fun _ => returns_write _
    · refine .of_returns (returns_write_bind fun _ => ?_)
      exact returns_write_bind fun _ => returns_write_bind fun _ => returns_write _

theorem advance_atomic (now : UtcTimestamp) (result : StoredProposalResult) (expectedCurrent : ProposalStage) :
    (advance now result expectedCurrent : Operation R Bool).Atomic := by
  refine atomic_check fun _ => atomic_state fun s => atomic_lift fun contract => atomic_lift fun _ => ?_
  dsimp only
  split
  · refine atomic_check fun _ => atomic_check fun _ => .of_returns ?_
    exact returns_write_bind fun _ => returns_pure _
  · refine atomic_check fun _ => ?_
    split
    · refine (registerProposal_atomic _ _).andThen_returns fun _ => ?_
      exact returns_write_bind fun _ => returns_write_bind fun _ => returns_write_bind fun _ => returns_pure _
    · refine .of_returns ?_
      exact returns_write_bind fun _ => returns_write_bind fun _ => returns_write_bind fun _ => returns_pure _

/-- A call that raises leaves the repository as it is. -/
theorem Request.atomic (q : Request R) : q.run.Atomic := by
  cases q with
  | registerBundle now verifier a => exact registerBundle_atomic now verifier a
  | registerContext now a => exact registerContext_atomic now a
  | createRun now runId contextId bundleId bundleHash => exact createRun_atomic now runId contextId bundleId bundleHash
  | registerFeedback now a => exact registerFeedback_atomic now a
  | advance now result expectedCurrent =>
    exact (advance_atomic now result expectedCurrent).andThen_returns fun _ => returns_pure ()

/-! ### Effects -/

/-- The repository with a stage result of a run. -/
def withResult (s : Repository R) (result : StoredProposalResult) : Repository R :=
  { s with
    results := insert s.results (result.runId, result.stage) result
    runs := insert s.runs result.runId result.stage
    attempts := insert s.attempts (result.runId, result.stage) 1 }

/-- The repository with a proposal. -/
def withProposal (s : Repository R) (p : PortfolioProposal R) (proposalHash : String) : Repository R :=
  { s with
    attemptOneBundles :=
      if p.val.attempt = 1 then Function.update s.attemptOneBundles p.val.bundleId.text true else s.attemptOneBundles
    superseded :=
      if p.val.attempt = 1 then s.superseded
      else p.val.supersededProposalId.elim s.superseded (fun id => Function.update s.superseded id.text true)
    proposals := insert s.proposals p.val.proposalId.text (recordOf p proposalHash)
    proposalContracts := insert s.proposalContracts p.val.proposalId.text p
    proposalByContext := insert s.proposalByContext p.val.contextId.text p.val.proposalId.text }

/-- The repository with a bundle. -/
def withBundle (s : Repository R) (b : ResearchBundle R) : Repository R :=
  b.val.items.foldl (bindChild b.val.bundleId.text)
    { s with
      bundles := setdefault s.bundles b.val.bundleId.text b
      bundleByParent := setdefault s.bundleByParent b.val.parentInputId.text b.val.bundleId.text }

/-- What is checked before a bundle is registered. -/
structure BundleChecks (s : Repository R) (b : ResearchBundle R) : Prop where
  known : ∀ existing ∈ s.bundles b.val.bundleId.text, existing = b
  parent : (s.bundleByParent b.val.parentInputId.text).getD b.val.bundleId.text = b.val.bundleId.text
  children : ∀ item ∈ b.val.items, checkChild s b.val.bundleId.text item = .ok ()

/-- What is checked before a context is registered. -/
structure ContextChecks (s : Repository R) (c : ProposalContext R) (b : ResearchBundle R) : Prop where
  bundle : s.bundles c.val.bundleId.text = some b
  bundleHash : b.val.bundleHash = c.val.bundleHash
  matches_ : MatchesBundle c b
  new : s.contexts c.val.contextId.text = none

/-- What is checked before a run is created. -/
structure RunChecks (s : Repository R) (runId : String) (i : RunIdentity) (c : ProposalContext R) (b : ResearchBundle R) :
    Prop where
  context : s.contexts i.contextId = some c
  bundle : s.bundles i.bundleId = some b
  contextBundle : c.val.bundleId.text = i.bundleId
  contextHash : c.val.bundleHash.text = i.bundleHash
  bundleHash : b.val.bundleHash.text = i.bundleHash
  runId_eq : ∃ id, RunId.fromString i.contextId = .ok id ∧ runId = (R.deriveProposalRunId id).text
  identity : ∀ existing ∈ s.identities runId, existing = i
  run : ∀ existing ∈ s.runByContext i.contextId, existing = runId

/-- What is checked before a stage result is stored for the first time. -/
structure StageChecks (s : Repository R) (result : StoredProposalResult) (current : ProposalStage)
    (contract : Option (PortfolioProposal R)) : Prop where
  legal : (current, result.stage) ∈ legalTransitions
  valid : validateStageResult s result = .ok contract
  new : s.results (result.runId, result.stage) = none
  current : s.runs result.runId = some current

/-- What a call that returns can do. -/
inductive Effect (s : Repository R) : Repository R → Prop
  | same : Effect s s
  | retried (attempts : String × ProposalStage → Option Nat) : Effect s { s with attempts := attempts }
  | bundle {b : ResearchBundle R} (h : BundleChecks s b) : Effect s (withBundle s b)
  | firstContext {c : ProposalContext R} {b : ResearchBundle R} (h : ContextChecks s c b) (hone : c.val.attempt = 1)
      (hfree : s.attemptOneContexts c.val.bundleId.text = false) :
      Effect s { s with
        contexts := insert s.contexts c.val.contextId.text c
        attemptOneContexts := Function.update s.attemptOneContexts c.val.bundleId.text true }
  | retryContext {c : ProposalContext R} {b : ResearchBundle R} (h : ContextChecks s c b) (htwo : c.val.attempt ≠ 1)
      (hretry : checkRetryContext s c = .ok ()) :
      Effect s { s with
        contexts := insert s.contexts c.val.contextId.text c
        attemptTwoContextByBundle :=
          insert s.attemptTwoContextByBundle c.val.bundleId.text c.val.contextId.text }
  | run {runId : String} {i : RunIdentity} {c : ProposalContext R} {b : ResearchBundle R} (h : RunChecks s runId i c b) :
      Effect s { s with
        identities := setdefault s.identities runId i
        runByContext := setdefault s.runByContext i.contextId runId
        runs := setdefault s.runs runId .planned }
  | feedback {f : RiskRejectionFeedback R} {rendered : String} {p : PortfolioProposal R × ProposalRecord}
      (hp : rejectable s f = .ok p) (hnew : s.feedback f.val.contractMeta.val.runId.text = none) :
      Effect s { s with feedback := insert s.feedback f.val.contractMeta.val.runId.text (f, rendered) }
  | stage {result : StoredProposalResult} {current : ProposalStage} (h : StageChecks s result current none) :
      Effect s (withResult s result)
  | proposal {result : StoredProposalResult} {current : ProposalStage} {p : PortfolioProposal R}
      (h : StageChecks s result current (some p)) (hp : checkProposal s p = .ok ()) :
      Effect s (withResult (withProposal s p result.resultHash) result)

theorem check_bind_ok {p : Prop} [Decidable p] {message : String} {β : Type} {f : Unit → Operation R β}
    {s t : Repository R} {b : β} : (check p message >>= f) s = (.ok b, t) ↔ p ∧ f () s = (.ok b, t) := by
  rw [check, lift_bind_ok]
  simp only [require_ok, exists_unit]

theorem check_apply_ok {p : Prop} [Decidable p] {message : String} {s t : Repository R} {u : Unit} :
    check p message s = (.ok u, t) ↔ p ∧ t = s := by
  rw [check, lift_apply_ok, require_ok]

theorem setdefault_of_none {κ ν : Type} [DecidableEq κ] {d : κ → Option ν} {k : κ} (h : d k = none) (v : ν) :
    setdefault d k v = insert d k v := by
  rw [setdefault, h]

theorem registerBundle_effect {now : UtcTimestamp} {verifier : Option (ResearchBundle R → Except Failure Unit)}
    {a : ResearchBundle.Args R} {s t : Repository R} {u : Unit} (h : registerBundle now verifier a s = (.ok u, t)) :
    Effect s t := by
  simp only [registerBundle, lift_bind_ok, checkAuthorityDeadline, check_bind_ok, state_bind, write_bind,
    write_apply, Prod.mk.injEq] at h
  obtain ⟨bundle, -, -, -, -, frozen, hfrozen, hbundle, hparent, _, hchildren, -, rfl⟩ := h
  obtain rfl := (ResearchBundle.wire R).eq_of_read_write (ResearchBundle.exact bundle) hfrozen
  exact .bundle ⟨hbundle, hparent, Dict.forM_ok.mp hchildren⟩

theorem boundBundle_ok {s : Repository R} {c : ProposalContext R} {b : ResearchBundle R} :
    boundBundle s c = .ok b ↔ s.bundles c.val.bundleId.text = some b ∧ b.val.bundleHash = c.val.bundleHash := by
  unfold boundBundle
  split
  · simp [*, refuse, throwing]
  · rename_i bundle hbundle
    simp only [check_ok, require_ok, pure_ok, hbundle, Option.some.injEq]
    constructor
    · rintro ⟨h, rfl⟩
      exact ⟨rfl, h⟩
    · rintro ⟨rfl, h⟩
      exact ⟨h, rfl⟩

theorem registerContext_effect {now : UtcTimestamp} {a : ProposalContext.Args R} {s t : Repository R} {u : Unit}
    (h : registerContext now a s = (.ok u, t)) : Effect s t := by
  simp only [registerContext, lift_bind_ok, checkAuthorityDeadline, check_bind_ok, state_bind, boundBundle_ok] at h
  obtain ⟨context, -, -, bundle, ⟨hbundle, hhash⟩, hmatches, -, frozen, hfrozen, h⟩ := h
  obtain rfl := (ProposalContext.wire R).eq_of_read_write (ProposalContext.exact context) hfrozen
  cases hnew : s.contexts frozen.val.contextId.text with
  | some existing =>
    simp only [hnew, check_apply_ok] at h
    obtain ⟨-, rfl⟩ := h
    exact .same
  | none =>
    simp only [hnew, lift_bind_ok, write_bind] at h
    obtain ⟨_, hchecks, h⟩ := h
    have hc : ContextChecks s frozen bundle := ⟨hbundle, hhash, hmatches, hnew⟩
    split_ifs at hchecks h with hone
    · simp only [write_apply, Prod.mk.injEq] at h
      obtain ⟨-, rfl⟩ := h
      exact .firstContext hc hone (require_ok.mp hchecks)
    · simp only [write_apply, Prod.mk.injEq] at h
      obtain ⟨-, rfl⟩ := h
      exact .retryContext hc hone hchecks

theorem registeredContext_ok {s : Repository R} {contextId bundleId bundleHash : String} {c : ProposalContext R} :
    registeredContext s contextId bundleId bundleHash = .ok c ↔ s.contexts contextId = some c ∧
      ∃ b, s.bundles bundleId = some b ∧ c.val.bundleId.text = bundleId ∧ c.val.bundleHash.text = bundleHash ∧
        b.val.bundleHash.text = bundleHash := by
  unfold registeredContext
  split
  · rename_i context bundle hcontext hbundle
    simp only [check_ok, require_ok, pure_ok, hcontext, hbundle, Option.some.injEq]
    constructor
    · rintro ⟨h, rfl⟩
      exact ⟨rfl, bundle, rfl, h⟩
    · rintro ⟨rfl, b, rfl, h⟩
      exact ⟨h, rfl⟩
  · rename_i hnone
    simp only [refuse, throwing, reduceCtorEq, false_iff, not_and, not_exists]
    rintro hc b hb
    exact absurd hb (hnone _ _ hc)

theorem createRun_effect {now : UtcTimestamp} {runId contextId bundleId bundleHash : String} {s t : Repository R}
    {u : Unit} (h : createRun now runId contextId bundleId bundleHash s = (.ok u, t)) : Effect s t := by
  simp only [createRun, lift_bind_ok, checkAuthorityDeadline, check_bind_ok, state_bind, write_bind, write_apply,
    Prod.mk.injEq, registeredContext_ok, orRaise_ok] at h
  obtain ⟨c, ⟨hc, b, hb, hcb, hch, hbh⟩, -, id, hid, hrun, hidentity, hexisting, -, rfl⟩ := h
  exact @Effect.run R s runId ⟨contextId, bundleId, bundleHash⟩ c b
    ⟨hc, hb, hcb, hch, hbh, ⟨id, hid, hrun⟩, hidentity, hexisting⟩

theorem registerFeedback_effect {now : UtcTimestamp} {a : RiskRejectionFeedback.Args R} {s t : Repository R} {u : Unit}
    (h : registerFeedback now a s = (.ok u, t)) : Effect s t := by
  simp only [registerFeedback, lift_bind_ok, check_bind_ok, state_bind] at h
  obtain ⟨feedback, -, rendered, -, ⟨proposal, record⟩, hp, h⟩ := h
  dsimp only at h
  obtain ⟨-, -, h⟩ := h
  cases hnew : s.feedback feedback.val.contractMeta.val.runId.text with
  | some existing =>
    simp only [hnew, check_apply_ok] at h
    obtain ⟨-, rfl⟩ := h
    exact .same
  | none =>
    simp only [hnew, lift_bind_ok, write_apply, Prod.mk.injEq] at h
    obtain ⟨frozen, hfrozen, -, rfl⟩ := h
    obtain rfl := (RiskRejectionFeedback.wire R).eq_of_read_write
      ((RiskRejectionFeedback.wire R).exact_of_good (RiskRejectionFeedback.good feedback)) hfrozen
    rw [setdefault_of_none hnew]
    exact .feedback hp hnew

theorem registerProposal_ok {p : PortfolioProposal R} {proposalHash : String} {s t : Repository R} {u : Unit}
    (h : registerProposal p proposalHash s = (.ok u, t)) :
    checkProposal s p = .ok () ∧ t = withProposal s p proposalHash := by
  simp only [registerProposal, state_bind, lift_bind_ok] at h
  obtain ⟨_, hcheck, h⟩ := h
  refine ⟨hcheck, ?_⟩
  split_ifs at h with hone
  · simp only [write_bind, write_apply, Prod.mk.injEq] at h
    obtain ⟨-, rfl⟩ := h
    simp only [withProposal, if_pos hone]
  · cases hsuperseded : p.val.supersededProposalId with
    | none =>
      simp only [hsuperseded, lift_bind_ok, refuse, throwing, reduceCtorEq, false_and, exists_const] at h
    | some superseded =>
      simp only [hsuperseded, write_bind, write_apply, Prod.mk.injEq] at h
      obtain ⟨-, rfl⟩ := h
      simp only [withProposal, if_neg hone, hsuperseded, Option.elim]

theorem advance_effect {now : UtcTimestamp} {result : StoredProposalResult} {expectedCurrent : ProposalStage}
    {s t : Repository R} {b : Bool} (h : advance now result expectedCurrent s = (.ok b, t)) : Effect s t := by
  simp only [advance, check_bind_ok, state_bind, lift_bind_ok] at h
  obtain ⟨hlegal, contract, hvalid, _, -, h⟩ := h
  cases hnew : s.results (result.runId, result.stage) with
  | some existing =>
    simp only [hnew, check_bind_ok, write_bind, pure_apply, Prod.mk.injEq] at h
    obtain ⟨-, -, -, rfl⟩ := h
    exact .retried _
  | none =>
    simp only [hnew, check_bind_ok] at h
    obtain ⟨hcurrent, h⟩ := h
    have hchecks : StageChecks s result expectedCurrent contract := ⟨hlegal, hvalid, hnew, hcurrent⟩
    cases contract with
    | some p =>
      obtain ⟨_, t', hp, h⟩ := Method.bind_ok.mp h
      simp only [write_bind, pure_apply, Prod.mk.injEq] at h
      obtain ⟨hcheck, rfl⟩ := registerProposal_ok hp
      rw [← h.2]
      exact .proposal hchecks hcheck
    | none =>
      simp only [write_bind, pure_apply, Prod.mk.injEq] at h
      rw [← h.2]
      exact .stage hchecks

/-- What a call does to the repository. -/
theorem Request.effect (q : Request R) (s : Repository R) : Effect s (q.after s) := by
  unfold Request.after
  rcases hrun : q.run s with ⟨r, t⟩
  cases r with
  | error e =>
    obtain rfl := q.atomic s e t hrun
    exact .same
  | ok u =>
    cases q with
    | registerBundle now verifier a => exact registerBundle_effect hrun
    | registerContext now a => exact registerContext_effect hrun
    | createRun now runId contextId bundleId bundleHash => exact createRun_effect hrun
    | registerFeedback now a => exact registerFeedback_effect hrun
    | advance now result expectedCurrent =>
      obtain ⟨b, t', hadvance, hret⟩ := Method.bind_ok.mp hrun
      cases hret
      exact advance_effect hadvance

end SevenLens.Analysis.Proposals
