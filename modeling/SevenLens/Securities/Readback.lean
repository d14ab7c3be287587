import SevenLens.Securities.EventChains

/-! # Decisions that are read back

After a decision is stored, `quarantine` reads back the latest decision of the security, which
is the maximum over everything recorded so far.  So it returns the decision it evaluated only
where that one is the maximum (`Latest`). -/

namespace SevenLens.Securities

variable {D : Digests} {log : RecordLog} {m m' : Master D} {q : QuarantineQuery} {d : QuarantineDecision}

/-- No stored decision of the security comes after `d` in the order of decision time and hash,
and none with other content has the hash of `d`. -/
def Latest (m : Master D) (d : QuarantineDecision) : Prop :=
  ∀ d' ∈ m.decisions.rows,
    (d'.securityId = d.securityId → Master.decisionKey D d' ≤ Master.decisionKey D d) ∧
      (D.decision d' = D.decision d → d' = d)

/-- Storing a decision puts it among the rows and leaves the other rows. -/
theorem mem_decisions_of_recordDecision {outcome : AppendOutcome} (h : m.recordDecision d = .ok (outcome, m')) :
    ∀ d', d' ∈ m'.decisions.rows ↔ d' ∈ m.decisions.rows ∨ d' = d := by
  intro d'
  rcases Master.recordDecision_ok h with ⟨rfl, hsome⟩ | ⟨hnone, rfl⟩
  · refine ⟨.inl, ?_⟩
    rintro (h | rfl)
    · exact h
    · exact Table.mem_of_get hsome
  · exact Table.mem_add_iff hnone

theorem recordDecision_of_latest (h : Latest m d) : ∃ outcome m', m.recordDecision d = .ok (outcome, m') := by
  unfold Master.recordDecision
  cases hg : m.decisions.get (D.decision d) with
  | none => exact ⟨_, _, rfl⟩
  | some existing =>
    have he : existing = d := (h existing (Table.mem_of_get hg)).2 (Table.key_of_get hg)
    exact ⟨.idempotentDuplicate, m, if_neg (not_not.mpr he)⟩

/-- The latest decision is `d` where `d` is stored and no decision of its security comes
after it. -/
theorem latestDecision_eq_iff :
    m.latestDecision d.securityId = some d ↔
      d ∈ m.decisions.rows ∧ ∀ d' ∈ m.decisions.rows, d'.securityId = d.securityId →
        Master.decisionKey D d' ≤ Master.decisionKey D d := by
  have hmem : ∀ d' : QuarantineDecision, d' ∈ m.decisions.rows.filter (fun d' => decide (d'.securityId = d.securityId)) ↔
      d' ∈ m.decisions.rows ∧ d'.securityId = d.securityId := by
    intro d'
    rw [List.mem_filter, decide_eq_true_eq]
  constructor
  · intro h
    refine ⟨((hmem d).mp (List.argmax_mem h)).1, fun d' hd' hs => ?_⟩
    exact List.le_of_mem_argmax ((hmem d').mpr ⟨hd', hs⟩) h
  · rintro ⟨hd, hle⟩
    unfold Master.latestDecision
    cases hmax : (m.decisions.rows.filter (fun d' => decide (d'.securityId = d.securityId))).argmax
        (Master.decisionKey D) with
    | none =>
      have hd' := (hmem d).mpr ⟨hd, rfl⟩
      rw [List.argmax_eq_none.mp hmax] at hd'
      cases hd'
    | some d' =>
      obtain ⟨hd', hs⟩ := (hmem d').mp (List.argmax_mem hmax)
      have hge := List.le_of_mem_argmax ((hmem d).mpr ⟨hd, rfl⟩) hmax
      have hkey : Master.decisionKey D d' = Master.decisionKey D d := le_antisymm (hle d' hd' hs) hge
      have hhash : D.decision d' = D.decision d := congrArg (fun k => (ofLex k).2) hkey
      rw [Table.eq_of_mem_of_key hd' hd hhash]

/-- A decision is returned as it was evaluated exactly where it is the latest one. -/
theorem storeDecision_iff : (∃ m', storeDecision m d = .ok (d, m')) ↔ Latest m d := by
  constructor
  · rintro ⟨m', h⟩
    obtain ⟨⟨o, m₁⟩, hrec, h⟩ := bind_ok.mp h
    have hmem := mem_decisions_of_recordDecision hrec
    have hlatest : m₁.latestDecision d.securityId = some d := by
      dsimp only at h
      split at h
      · cases h
      · rename_i readback hread
        obtain ⟨_, hr, h⟩ := bind_ok.mp h
        rw [hread, requireOr_ok.mp hr]
    obtain ⟨hd, hle⟩ := latestDecision_eq_iff.mp hlatest
    intro d' hd'
    have hd₁ := (hmem d').mpr (.inl hd')
    exact ⟨hle d' hd₁, fun hhash => Table.eq_of_mem_of_key hd₁ hd hhash⟩
  · intro h
    obtain ⟨o, m₁, hrec⟩ := recordDecision_of_latest h
    have hmem := mem_decisions_of_recordDecision hrec
    have hlatest : m₁.latestDecision d.securityId = some d := by
      refine latestDecision_eq_iff.mpr ⟨(hmem d).mpr (.inr rfl), ?_⟩
      intro d' hd' hs
      rcases (hmem d').mp hd' with hd' | rfl
      · exact (h d' hd').1 hs
      · exact le_rfl
    refine ⟨m₁, ?_⟩
    simp only [storeDecision, hrec, bind, Except.bind, hlatest, requireOr, if_true, pure, Except.pure]

/-- The answer of `quarantine` is the decision evaluated from what is stored exactly where no
decision recorded before is later than it. -/
theorem quarantine_eq_computed_iff (log : RecordLog) (m : Master D) (q : QuarantineQuery) :
    (quarantine log m q).map Prod.fst = computeDecision log m q ↔
      ∀ d, computeDecision log m q = .ok d → Latest m d := by
  unfold quarantine
  cases hc : computeDecision log m q with
  | error e =>
    constructor
    · rintro - d ⟨⟩
    · intro _
      rfl
  | ok d =>
    have hone : (storeDecision m d).map Prod.fst = .ok d ↔ ∃ m', storeDecision m d = .ok (d, m') := by
      cases storeDecision m d with
      | error e => simp [Except.map]
      | ok r =>
        obtain ⟨r, m₁⟩ := r
        simp [Except.map]
    calc (storeDecision m d).map Prod.fst = .ok d ↔ Latest m d := hone.trans storeDecision_iff
      _ ↔ ∀ d', (.ok d : Except Failure QuarantineDecision) = .ok d' → Latest m d' := by
        constructor
        · rintro h d' ⟨⟩
          exact h
        · intro h
          exact h d rfl

/-! ### A historical replay -/

/-- Digests that tell decisions at 15:00 from the others. -/
def datedDigests : Digests :=
  { sampleDigests with
    decision := fun d => if d.decisionAt = sampleTime 1 then repeated '8' (Eq.refl true) else repeated '9' (Eq.refl true) }

/-- The query about the sample security at 14:00 and so many hours later. -/
def datedQuery (hours : Fin 1000) : QuarantineQuery where
  purpose := .submitRecheck
  securityId := sampleIdentity.securityId
  symbolAsOf := sampleIdentity.symbol
  decisionAt := sampleTime hours
  masterVersion := masterVersionFor datedDigests sampleIdentity
  version_ok := masterVersionFor_ok datedDigests sampleIdentity

/-- The sample identity is registered, and it was found eligible at 16:00. -/
def answeredState : State datedDigests :=
  ((State.initial.after (.appendSource (sampleRecord sampleRef))).after
    (.registerIdentity sampleIdentity)).after (.quarantine (datedQuery 2))

/-- After the answer for 16:00 the query for 15:00 is evaluated, and then it is refused. -/
theorem replay_is_refused :
    Reachable answeredState ∧
      ((computeDecision answeredState.log answeredState.master (datedQuery 1)).map (·.outcome) = .ok .eligible ∧
        (quarantine answeredState.log answeredState.master (datedQuery 1)).map Prod.fst =
          throwing .securityMasterService "quarantine decision readback did not match the request") :=
  ⟨Reachable.after (Reachable.after (Reachable.after .refl _) _) _, by decide +kernel, by decide +kernel⟩

end SevenLens.Securities
