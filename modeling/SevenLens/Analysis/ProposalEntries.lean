import SevenLens.Analysis.ProposalEffects

/-! # What a call adds to the proposal repository

For each dictionary of the repository: an entry that is there after a call was there before, or it
is new and was checked (`Effect.bundle_new`, `Effect.context_new` and so on).  `Effect.run_change`
says what a call does to one run. -/

namespace SevenLens.Analysis.Proposals

open Securities

variable {R : Rules}

/-! ### Dictionaries that only grow -/

/-- What the first dictionary has under a key, the second one has. -/
def Kept {κ ν : Type} (d d' : κ → Option ν) : Prop := ∀ k v, d k = some v → d' k = some v

namespace Kept

variable {κ ν : Type} {d d' d'' : κ → Option ν}

theorem refl (d : κ → Option ν) : Kept d d := fun _ _ h => h

theorem trans (h : Kept d d') (h' : Kept d' d'') : Kept d d'' := fun k v hv => h' k v (h k v hv)

end Kept

section dictionaries

variable {κ ν : Type} [DecidableEq κ] {d : κ → Option ν} {k k' : κ} {v v' : ν}

theorem insert_some : insert d k v k' = some v' ↔ (k' = k ∧ v' = v) ∨ (k' ≠ k ∧ d k' = some v') := by
  unfold insert
  by_cases h : k' = k
  · subst h
    simp [eq_comm]
  · simp [h]

theorem insert_self (d : κ → Option ν) (k : κ) (v : ν) : insert d k v k = some v := insert_some.mpr (.inl ⟨rfl, rfl⟩)

theorem setdefault_some : setdefault d k v k' = some v' ↔ (k' = k ∧ d k = none ∧ v' = v) ∨ d k' = some v' := by
  unfold setdefault
  cases hd : d k with
  | some w =>
    simp
  | none =>
    simp only [insert_some]
    by_cases h : k' = k
    · subst h
      simp [hd]
    · simp [h]

theorem kept_insert (h : ∀ w, d k = some w → w = v) : Kept d (insert d k v) := by
  intro k' w hw
  rw [insert_some]
  by_cases hk : k' = k
  · subst hk
    exact .inl ⟨rfl, h w hw⟩
  · exact .inr ⟨hk, hw⟩

theorem kept_insert_of_none (h : d k = none) (v : ν) : Kept d (insert d k v) :=
  kept_insert fun w hw => by rw [h] at hw; cases hw

theorem kept_setdefault (d : κ → Option ν) (k : κ) (v : ν) : Kept d (setdefault d k v) := fun _ _ hw =>
  setdefault_some.mpr (.inr hw)

/-- A key that has the value or none has the value once it is set. -/
theorem setdefault_self (h : (d k).getD v = v) : setdefault d k v k = some v := by
  rw [setdefault_some]
  cases hd : d k with
  | none => exact .inl ⟨rfl, rfl, rfl⟩
  | some w =>
    rw [hd] at h
    exact .inr (congrArg some h)

theorem setdefault_ne_none : setdefault d k v k ≠ none := by
  cases hd : d k with
  | none => simp [Option.ne_none_iff_exists', setdefault_some, hd]
  | some w => simp [Option.ne_none_iff_exists', setdefault_some, hd]

omit [DecidableEq κ] in
theorem getD_of_forall (h : ∀ w ∈ d k, w = v) : (d k).getD v = v := by
  cases hd : d k with
  | none => rfl
  | some w => exact h w hd

end dictionaries

/-! ### Children of a bundle -/

section children

variable {bundleId : String}

/-- The writes of the loop leave all dictionaries but those of the children as they are. -/
theorem bindChildren_frame (items : List (ResearchBundleItem R)) (s : Repository R) :
    ∃ runs inputs, items.foldl (bindChild bundleId) s =
        { s with bundleByChildRun := runs, bundleByChildInput := inputs } ∧
      Kept s.bundleByChildRun runs ∧ Kept s.bundleByChildInput inputs := by
  induction items generalizing s with
  | nil => exact ⟨s.bundleByChildRun, s.bundleByChildInput, rfl, .refl _, .refl _⟩
  | cons item items ih =>
    obtain ⟨runs, inputs, h, hruns, hinputs⟩ := ih (bindChild bundleId s item)
    exact ⟨runs, inputs, h, (kept_setdefault _ _ _).trans hruns, (kept_setdefault _ _ _).trans hinputs⟩

theorem getD_setdefault {d : String → Option String} {k k' v : String} (h : (d k').getD v = v) :
    (setdefault d k v k').getD v = v := by
  cases hd : setdefault d k v k' with
  | none => rfl
  | some w =>
    obtain ⟨-, -, rfl⟩ | hw := setdefault_some.mp hd
    · rfl
    · rwa [hw] at h

/-- After the loop each child run and each child input is bound to the bundle. -/
theorem bindChildren_bound {items : List (ResearchBundleItem R)} {s : Repository R}
    (h : ∀ item ∈ items, (s.bundleByChildRun item.val.analysisRunId.text).getD bundleId = bundleId ∧
      (s.bundleByChildInput item.val.analysisInputId.text).getD bundleId = bundleId) :
    ∀ item ∈ items,
      (items.foldl (bindChild bundleId) s).bundleByChildRun item.val.analysisRunId.text = some bundleId ∧
      (items.foldl (bindChild bundleId) s).bundleByChildInput item.val.analysisInputId.text = some bundleId := by
  induction items generalizing s with
  | nil => exact fun _ h => absurd h (List.not_mem_nil)
  | cons first items ih =>
    obtain ⟨hfirst, hrest⟩ := List.forall_mem_cons.mp h
    refine List.forall_mem_cons.mpr ⟨?_, ih fun item hitem => ?_⟩
    · obtain ⟨runs, inputs, hfold, hruns, hinputs⟩ := bindChildren_frame items (bindChild bundleId s first)
      rw [List.foldl_cons, hfold]
      exact ⟨hruns _ _ (setdefault_self hfirst.1), hinputs _ _ (setdefault_self hfirst.2)⟩
    · exact ⟨getD_setdefault (hrest item hitem).1, getD_setdefault (hrest item hitem).2⟩

end children

theorem checkChild_ok {s : Repository R} {bundleId : String} {item : ResearchBundleItem R} :
    checkChild s bundleId item = .ok () ↔
      (s.bundleByChildRun item.val.analysisRunId.text).getD bundleId = bundleId ∧
      (s.bundleByChildInput item.val.analysisInputId.text).getD bundleId = bundleId := by
  simp only [checkChild, check_ok, require_ok]

/-- Registering a bundle, with the children bound to it. -/
theorem withBundle_frame {s : Repository R} {b : ResearchBundle R} (h : BundleChecks s b) :
    ∃ runs inputs, withBundle s b =
        { s with
          bundles := setdefault s.bundles b.val.bundleId.text b
          bundleByParent := setdefault s.bundleByParent b.val.parentInputId.text b.val.bundleId.text
          bundleByChildRun := runs
          bundleByChildInput := inputs } ∧
      Kept s.bundleByChildRun runs ∧ Kept s.bundleByChildInput inputs ∧
      ∀ item ∈ b.val.items, runs item.val.analysisRunId.text = some b.val.bundleId.text ∧
        inputs item.val.analysisInputId.text = some b.val.bundleId.text := by
  obtain ⟨runs, inputs, hfold, hruns, hinputs⟩ := @bindChildren_frame R b.val.bundleId.text b.val.items
    { s with
      bundles := setdefault s.bundles b.val.bundleId.text b
      bundleByParent := setdefault s.bundleByParent b.val.parentInputId.text b.val.bundleId.text }
  have hbound := @bindChildren_bound R b.val.bundleId.text b.val.items
    { s with
      bundles := setdefault s.bundles b.val.bundleId.text b
      bundleByParent := setdefault s.bundleByParent b.val.parentInputId.text b.val.bundleId.text }
    (fun item hitem => checkChild_ok.mp (h.children item hitem))
  rw [hfold] at hbound
  exact ⟨runs, inputs, hfold, hruns, hinputs, hbound⟩

/-! ### New entries -/

variable {s t : Repository R}

theorem Effect.bundle_new (h : Effect s t) {k : String} {b : ResearchBundle R} (hb : t.bundles k = some b) :
    s.bundles k = some b ∨
      k = b.val.bundleId.text ∧ t.bundleByParent b.val.parentInputId.text = some k ∧
        ∀ item ∈ b.val.items, t.bundleByChildRun item.val.analysisRunId.text = some k ∧
          t.bundleByChildInput item.val.analysisInputId.text = some k := by
  cases h with
  | bundle h =>
    obtain ⟨runs, inputs, ht, -, -, hbound⟩ := withBundle_frame h
    rw [ht] at hb ⊢
    simp only [setdefault_some] at hb
    obtain ⟨rfl, -, rfl⟩ | hb := hb
    · exact .inr ⟨rfl, setdefault_self h.parent, hbound⟩
    · exact .inl hb
  | _ => exact .inl hb

/-- What is checked before a context is registered, and how it is marked as that of its attempt. -/
structure NewContext (s t : Repository R) (k : String) (c : ProposalContext R) : Prop where
  key : k = c.val.contextId.text
  checks : ∃ b, ContextChecks s c b
  only : ∀ k' c', t.contexts k' = some c' → k' = k ∨ s.contexts k' = some c'
  first : c.val.attempt = 1 →
    s.attemptOneContexts c.val.bundleId.text = false ∧ t.attemptOneContexts c.val.bundleId.text = true
  retry : c.val.attempt ≠ 1 →
    checkRetryContext s c = .ok () ∧ t.attemptTwoContextByBundle c.val.bundleId.text = some k

theorem Effect.context_new (h : Effect s t) {k : String} {c : ProposalContext R} (hc : t.contexts k = some c) :
    s.contexts k = some c ∨ NewContext s t k c := by
  cases h with
  | bundle h =>
    obtain ⟨runs, inputs, ht, -⟩ := withBundle_frame h
    rw [ht] at hc
    exact .inl hc
  | firstContext h hone hfree =>
    simp only [insert_some] at hc
    obtain ⟨rfl, rfl⟩ | ⟨-, hc⟩ := hc
    · exact .inr
        { key := rfl
          checks := ⟨_, h⟩
          only := fun k' c' hc' => by
            simp only [insert_some] at hc'
            exact hc'.imp And.left And.right
          first := fun _ => ⟨hfree, by simp only [Function.update_self]⟩
          retry := fun htwo => absurd hone htwo }
    · exact .inl hc
  | retryContext h htwo hretry =>
    simp only [insert_some] at hc
    obtain ⟨rfl, rfl⟩ | ⟨-, hc⟩ := hc
    · exact .inr
        { key := rfl
          checks := ⟨_, h⟩
          only := fun k' c' hc' => by
            simp only [insert_some] at hc'
            exact hc'.imp And.left And.right
          first := fun hone => absurd hone htwo
          retry := fun _ => ⟨hretry, by simp only [insert_self]⟩ }
    · exact .inl hc
  | _ => exact .inl hc

theorem Effect.identity_new (h : Effect s t) {run : String} {i : RunIdentity} (hi : t.identities run = some i) :
    s.identities run = some i ∨
      (∃ c b, RunChecks s run i c b) ∧ t.runByContext i.contextId = some run ∧ t.runs run ≠ none := by
  cases h with
  | bundle h =>
    obtain ⟨runs, inputs, ht, -⟩ := withBundle_frame h
    rw [ht] at hi
    exact .inl hi
  | @run run' i' c b h =>
    simp only [setdefault_some] at hi
    obtain ⟨rfl, -, rfl⟩ | hi := hi
    · refine .inr ⟨⟨c, b, h⟩, ?_, ?_⟩
      · exact setdefault_self (getD_of_forall h.run)
      · exact setdefault_ne_none
    · exact .inl hi
  | _ => exact .inl hi

theorem Effect.feedback_new (h : Effect s t) {k : String} {f : RiskRejectionFeedback R × String}
    (hf : t.feedback k = some f) :
    s.feedback k = some f ∨ k = f.1.val.contractMeta.val.runId.text ∧ ∃ p, rejectable s f.1 = .ok p := by
  cases h with
  | bundle h =>
    obtain ⟨runs, inputs, ht, -⟩ := withBundle_frame h
    rw [ht] at hf
    exact .inl hf
  | feedback hp hnew =>
    simp only [insert_some] at hf
    obtain ⟨rfl, rfl⟩ | ⟨-, hf⟩ := hf
    · exact .inr ⟨rfl, _, hp⟩
    · exact .inl hf
  | _ => exact .inl hf

theorem results_stored (s : Repository R) (result : StoredProposalResult) :
    (withResult s result).results (result.runId, result.stage) = some result := by
  simp only [withResult, insert_self]

theorem proposals_stored (s : Repository R) (p : PortfolioProposal R) (result : StoredProposalResult) :
    (withResult (withProposal s p result.resultHash) result).proposals p.val.proposalId.text =
      some (recordOf p result.resultHash) := by
  simp only [withResult, withProposal, insert_self]

theorem contracts_stored (s : Repository R) (p : PortfolioProposal R) (result : StoredProposalResult) :
    (withResult (withProposal s p result.resultHash) result).proposalContracts p.val.proposalId.text = some p := by
  simp only [withResult, withProposal, insert_self]

theorem Effect.result_new (h : Effect s t) {key : String × ProposalStage} {result : StoredProposalResult}
    (hr : t.results key = some result) :
    s.results key = some result ∨
      key = (result.runId, result.stage) ∧ ∃ current contract, StageChecks s result current contract ∧
        ∀ p, contract = some p → checkProposal s p = .ok () ∧
          t.proposals p.val.proposalId.text = some (recordOf p result.resultHash) ∧
          t.proposalContracts p.val.proposalId.text = some p := by
  cases h with
  | bundle h =>
    obtain ⟨runs, inputs, ht, -⟩ := withBundle_frame h
    rw [ht] at hr
    exact .inl hr
  | stage h =>
    simp only [withResult, insert_some] at hr
    obtain ⟨rfl, rfl⟩ | ⟨-, hr⟩ := hr
    · exact .inr ⟨rfl, _, _, h, fun _ hp => by cases hp⟩
    · exact .inl hr
  | proposal h hp =>
    simp only [withResult, withProposal, insert_some] at hr
    obtain ⟨rfl, rfl⟩ | ⟨-, hr⟩ := hr
    · refine .inr ⟨rfl, _, _, h, fun _ hp' => ?_⟩
      obtain rfl := Option.some.inj hp'
      exact ⟨hp, proposals_stored s _ _, contracts_stored s _ _⟩
    · exact .inl hr
  | _ => exact .inl hr

/-- A proposal is entered with its contract when the result of its stage is stored. -/
structure NewProposal (s t : Repository R) (k : String) (p : PortfolioProposal R) (record : ProposalRecord) : Prop where
  key : k = p.val.proposalId.text
  result : ∃ result current, StageChecks s result current (some p) ∧ record = recordOf p result.resultHash ∧
    t.results (result.runId, result.stage) = some result
  checks : checkProposal s p = .ok ()

theorem Effect.proposal_new (h : Effect s t) {k : String} :
    (t.proposals k = s.proposals k ∧ t.proposalContracts k = s.proposalContracts k) ∨
      ∃ p record, t.proposals k = some record ∧ t.proposalContracts k = some p ∧ NewProposal s t k p record := by
  cases h with
  | bundle h =>
    obtain ⟨runs, inputs, ht, -⟩ := withBundle_frame h
    rw [ht]
    exact .inl ⟨rfl, rfl⟩
  | @proposal result current p h hp =>
    by_cases hk : k = p.val.proposalId.text
    · subst hk
      refine .inr ⟨p, _, proposals_stored s p result, contracts_stored s p result, rfl, ?_, hp⟩
      exact ⟨result, current, h, rfl, results_stored _ _⟩
    · refine .inl ⟨?_, ?_⟩
      · simp only [withResult, withProposal, insert, Function.update_of_ne hk]
      · simp only [withResult, withProposal, insert, Function.update_of_ne hk]
  | _ => exact .inl ⟨rfl, rfl⟩

/-! ### The stages of a run -/

/-- The transitions of `LEGAL_PROPOSAL_TRANSITIONS`. -/
def Legal (current next : ProposalStage) : Prop := (current, next) ∈ legalTransitions

theorem Legal.not_terminal {current next : ProposalStage} (h : Legal current next) : ¬ current.IsTerminal := by
  cases current <;> simp_all [Legal, legalTransitions, ProposalStage.IsTerminal]

/-- The stages after PLANNED that lead to a stage, in their order. -/
inductive Path : ProposalStage → List ProposalStage → Prop
  | planned : Path .planned []
  | step {current next : ProposalStage} {passed : List ProposalStage} (h : Path current passed)
      (hlegal : Legal current next) : Path next (passed ++ [next])

/-- What a call can do to one run. -/
inductive RunChange (s t : Repository R) (run : String) : Prop
  | same (hrun : t.runs run = s.runs run) (hresults : ∀ stage, t.results (run, stage) = s.results (run, stage))
  | created (hnew : s.runs run = none) (hrun : t.runs run = some .planned)
      (hresults : ∀ stage, t.results (run, stage) = s.results (run, stage))
  | advanced {current next : ProposalStage} (hlegal : Legal current next) (hcurrent : s.runs run = some current)
      (hrun : t.runs run = some next) (hnew : s.results (run, next) = none) (hstored : t.results (run, next) ≠ none)
      (hresults : ∀ stage, stage ≠ next → t.results (run, stage) = s.results (run, stage))

/-- Storing a stage result advances its run and no other one. -/
theorem runChange_withResult {result : StoredProposalResult} {current : ProposalStage}
    {contract : Option (PortfolioProposal R)} (h : StageChecks s result current contract) (u : Repository R)
    (hruns : u.runs = s.runs) (hresults : u.results = s.results) (run : String) :
    RunChange s (withResult u result) run := by
  by_cases hrun : run = result.runId
  · subst hrun
    refine .advanced h.legal h.current ?_ h.new ?_ fun stage hstage => ?_
    · simp only [withResult, insert_self]
    · rw [results_stored]
      exact Option.some_ne_none _
    · have hkey : (result.runId, stage) ≠ (result.runId, result.stage) := fun heq => hstage (Prod.mk.inj heq).2
      simp only [withResult, insert, Function.update_of_ne hkey, hresults]
  · refine .same ?_ fun stage => ?_
    · simp only [withResult, insert, Function.update_of_ne hrun, hruns]
    · have hkey : (run, stage) ≠ (result.runId, result.stage) := fun heq => hrun (Prod.mk.inj heq).1
      simp only [withResult, insert, Function.update_of_ne hkey, hresults]

theorem Effect.run_change (h : Effect s t) (run : String) : RunChange s t run := by
  cases h with
  | bundle h =>
    obtain ⟨runs, inputs, ht, -⟩ := withBundle_frame h
    rw [ht]
    exact .same rfl fun _ => rfl
  | @run created i c b h =>
    cases hrun : s.runs run with
    | some stage => exact .same ((kept_setdefault s.runs created .planned run stage hrun).trans hrun.symm) fun _ => rfl
    | none =>
      by_cases heq : run = created
      · subst heq
        refine .created hrun ?_ fun _ => rfl
        simp only [setdefault_some, hrun, and_self, true_or]
      · refine .same ?_ fun _ => rfl
        have hother : ∀ stage, setdefault s.runs created .planned run ≠ some stage := by
          intro stage hstage
          obtain ⟨hkey, -⟩ | hstage := setdefault_some.mp hstage
          · exact heq hkey
          · rw [hrun] at hstage
            cases hstage
        rw [hrun]
        exact Option.eq_none_iff_forall_ne_some.mpr hother
  | stage h => exact runChange_withResult h s rfl rfl run
  | @proposal result current p h hp =>
    exact runChange_withResult h (withProposal s p result.resultHash) (by simp only [withProposal])
      (by simp only [withProposal]) run
  | _ => exact .same rfl fun _ => rfl

end SevenLens.Analysis.Proposals
