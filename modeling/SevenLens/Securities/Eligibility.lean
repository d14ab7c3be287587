import SevenLens.Securities.Quarantine

/-! # When the quarantine lets an entry through

The outcome is `eligible` exactly when the identity is closed and nothing is known about a
split of the security: no verdict on an event is `eligible`, so one visible row is enough to
block.  More evidence can only raise the outcome. -/

namespace SevenLens.Securities

/-! ### Verdicts -/

/-- Some row about the queried security is known at the decision time. -/
def Touches (q : QuarantineQuery) (evidence : EventEvidence) : Prop :=
  ∃ row ∈ evidence.lineage, row.securityId = q.securityId ∧ row.knownAt q.decisionAt = true

instance (q : QuarantineQuery) (evidence : EventEvidence) : Decidable (Touches q evidence) :=
  inferInstanceAs (Decidable (∃ row ∈ evidence.lineage, _))

section

variable (D : Digests) (q : QuarantineQuery) (resolved : Option SecurityIdentityRecord)

theorem evaluateConfirmation_total {root : CorporateActionRecord} (identity : SecurityIdentityRecord)
    {observations : List SourceObservation} (hroot : root.state = .detected)
    (hobs : ObservationsOk observations [root]) (t : UtcTimestamp) :
    ∃ e, evaluateConfirmation D root identity observations t = .ok e := by
  have h1 : require (root.state.isPreConfirmation = true)
      "confirmation evaluation requires a pre-confirmation event state" = .ok () := by
    rw [require_ok, hroot]
    rfl
  have h2 : validateObservations observations [root] = .ok () := validateObservations_ok.mpr hobs
  simp only [evaluateConfirmation, h1, h2, bind, Except.bind]
  split_ifs <;> exact ⟨_, rfl⟩

/-- An event that is judged is judged, and never `eligible`. -/
theorem eventQuarantine_total (head : CorporateActionRecord) {root : CorporateActionRecord} {observations : List SourceObservation}
    (hroot : root.state = .detected) (hobs : ObservationsOk observations [root]) (t : UtcTimestamp) :
    ∃ outcome reasons, eventQuarantine D head root resolved observations t = .ok (outcome, reasons) ∧
      outcome ≠ .eligible := by
  cases resolved with
  | none => exact ⟨.reviewRequired, [.splitDetected], rfl, by decide⟩
  | some identity =>
    obtain ⟨e, he⟩ := evaluateConfirmation_total D identity hroot hobs t
    simp only [eventQuarantine, he, bind, Except.bind]
    cases e.outcome with
    | reviewRequired => exact ⟨_, _, rfl, by decide⟩
    | entryBlocked => cases head.state.isPreConfirmation <;> exact ⟨_, _, rfl, by decide⟩
    | confirmed => cases head.state <;> exact ⟨_, _, rfl, by decide⟩

/-- The rows of a lineage are about one security. -/
theorem EventEvidence.securityId_eq (evidence : EventEvidence) {a b : CorporateActionRecord}
    (ha : a ∈ evidence.lineage) (hb : b ∈ evidence.lineage) : a.securityId = b.securityId := by
  have hc := evidence.lineage_ok.chain
  cases hl : evidence.lineage with
  | nil => simp [hl] at ha
  | cons root rest =>
    rw [hl] at ha hb hc
    exact (sameEvent_of_isChain hc a ha).1.securityId.symm.trans (sameEvent_of_isChain hc b hb).1.securityId

/-- An event adds a verdict that is not `eligible` if it touches the query, else nothing. -/
theorem judge_spec (evidence : EventEvidence) :
    if Touches q evidence then ∃ v, judge D q resolved evidence = .ok (some v) ∧ v.outcome ≠ .eligible
    else judge D q resolved evidence = .ok none := by
  unfold judge
  cases hv : evidence.lineage.filter (·.knownAt q.decisionAt) with
  | nil =>
    have hno : ¬ Touches q evidence := by
      rintro ⟨row, hrow, -, hk⟩
      have : row ∈ evidence.lineage.filter (·.knownAt q.decisionAt) := List.mem_filter.mpr ⟨hrow, hk⟩
      simp [hv] at this
    rw [if_neg hno]
  | cons root rest =>
    have hmem : ∀ row ∈ root :: rest, row ∈ evidence.lineage ∧ row.knownAt q.decisionAt = true := by
      intro row hrow
      rw [← hv] at hrow
      exact List.mem_filter.mp hrow
    have hhead := hmem _ (List.getLast_mem (List.cons_ne_nil root rest))
    by_cases hs : ((root :: rest).getLast (List.cons_ne_nil root rest)).securityId = q.securityId
    · have hyes : Touches q evidence := ⟨_, hhead.1, hs, hhead.2⟩
      have hlin : Lineage (root :: rest) := by
        rw [← hv]
        apply evidence.lineage_ok.filter_knownAt
        rw [hv]
        exact List.cons_ne_nil root rest
      have hroot : root.state = .detected := by
        obtain ⟨r, hr, hd⟩ := hlin.detected
        cases hr
        exact hd
      have hfirst : evidence.lineage.head? = some root := by
        have hw := filter_knownAt_eq_takeWhile evidence.lineage_ok.chain q.decisionAt
        rw [hv] at hw
        cases hl : evidence.lineage with
        | nil => simp [hl] at hw
        | cons a l =>
          rw [hl, List.takeWhile_cons] at hw
          split at hw
          · rw [(List.cons.inj hw).1]
            rfl
          · cases hw
      have hobs : ObservationsOk evidence.observations [root] := by
        refine ⟨evidence.observations_ok.bounded, evidence.observations_ok.distinct, ?_⟩
        have hcov := evidence.observations_ok.covering
        rw [hfirst] at hcov
        exact hcov
      obtain ⟨outcome, reasons, he, hne⟩ := eventQuarantine_total D resolved
        ((root :: rest).getLast (List.cons_ne_nil root rest)) hroot hobs q.decisionAt
      rw [if_pos hyes]
      dsimp only
      rw [if_neg (not_not.mpr hs), he]
      exact ⟨_, rfl, hne⟩
    · have hno : ¬ Touches q evidence := by
        rintro ⟨row, hrow, hsid, -⟩
        exact hs ((evidence.securityId_eq hhead.1 hrow).trans hsid)
      rw [if_neg hno]
      dsimp only
      rw [if_pos hs]

/-- The loop over the events ends. -/
theorem exists_mapM_judge (events : List EventEvidence) : ∃ vs, events.mapM (judge D q resolved) = .ok vs := by
  apply Dict.exists_mapM
  intro evidence _
  have h := judge_spec D q resolved evidence
  split_ifs at h
  · exact ⟨_, h.choose_spec.1⟩
  · exact ⟨_, h⟩

end

/-! ### The worst outcome -/

theorem foldl_worst (outcomes : List QuarantineOutcome) (start : QuarantineOutcome) :
    start.rank ≤ (outcomes.foldl (fun best o => if best.rank < o.rank then o else best) start).rank ∧
      (∀ o ∈ outcomes, o.rank ≤ (outcomes.foldl (fun best o => if best.rank < o.rank then o else best) start).rank) ∧
      (outcomes.foldl (fun best o => if best.rank < o.rank then o else best) start = start ∨
        outcomes.foldl (fun best o => if best.rank < o.rank then o else best) start ∈ outcomes) := by
  induction outcomes generalizing start with
  | nil => exact ⟨le_rfl, by simp, .inl rfl⟩
  | cons o outcomes ih =>
    obtain ⟨h1, h2, h3⟩ := ih (if start.rank < o.rank then o else start)
    rw [List.foldl_cons]
    have hstep : start.rank ≤ (if start.rank < o.rank then o else start).rank ∧
        o.rank ≤ (if start.rank < o.rank then o else start).rank := by
      split_ifs with h <;> omega
    refine ⟨hstep.1.trans h1, ?_, ?_⟩
    · intro p hp
      rcases List.mem_cons.mp hp with rfl | hp
      · exact hstep.2.trans h1
      · exact h2 p hp
    · rcases h3 with h3 | h3
      · rw [h3]
        split_ifs
        · exact .inr List.mem_cons_self
        · exact .inl rfl
      · exact .inr (List.mem_cons_of_mem o h3)

theorem rank_le_worst {outcomes : List QuarantineOutcome} {o : QuarantineOutcome} (h : o ∈ outcomes) :
    o.rank ≤ (worst outcomes).rank := (foldl_worst outcomes .eligible).2.1 o h

theorem worst_mem (outcomes : List QuarantineOutcome) : worst outcomes = .eligible ∨ worst outcomes ∈ outcomes :=
  (foldl_worst outcomes .eligible).2.2

theorem worst_mono {outcomes more : List QuarantineOutcome} (h : outcomes ⊆ more) :
    (worst outcomes).rank ≤ (worst more).rank := by
  rcases worst_mem outcomes with he | hm
  · rw [he]
    exact Nat.zero_le _
  · exact rank_le_worst (h hm)

/-! ### The decision -/

section

variable {D : Digests} {q : QuarantineQuery} {records : List SecurityIdentityRecord}

theorem buildDecision_ok {x : Option SecurityIdentityRecord} {outcome : QuarantineOutcome}
    {reasons : List QuarantineReason} {eventIds : List EventId} {refs : List SourceRef} {d : QuarantineDecision}
    (h : buildDecision D q x outcome reasons eventIds refs = .ok d) :
    d.outcome = outcome ∧ d.eventIds = eventIds ∧ d.sourceRefs = refs ∧ d.reasons = reasons ∧
      d.masterVersion = x.elim q.masterVersion (masterVersionFor D) := by
  unfold buildDecision refuse throwing at h
  dsimp only at h
  split_ifs at h
  cases h
  exact ⟨rfl, rfl, rfl, rfl, rfl⟩

/-- The constructor accepts what is in canonical order. -/
theorem buildDecision_total (x : Option SecurityIdentityRecord) (outcome : QuarantineOutcome)
    {reasons : List QuarantineReason} {eventIds : List EventId} {refs : List SourceRef}
    (hr : sortedReasons reasons = reasons) (he : eventIds.Pairwise (· < ·))
    (hs : refs.length ≤ maxDecisionSourceRefs ∧ (refs.map SourceRef.recordId).Pairwise (· < ·)) :
    ∃ d, buildDecision D q x outcome reasons eventIds refs = .ok d := by
  have hv : MasterVersionOk (x.elim q.masterVersion (masterVersionFor D)) := by
    cases x with
    | none => exact q.version_ok
    | some r => exact masterVersionFor_ok D r
  unfold buildDecision
  dsimp only
  rw [dif_pos hv, dif_pos hr, dif_pos he, dif_pos hs]
  exact ⟨_, rfl⟩

/-- What a returned decision was made of. -/
theorem evaluateQuarantine_ok {events : List EventEvidence} {d : QuarantineDecision}
    (h : evaluateQuarantine D q records events = .ok d) :
    events.length ≤ maxEventLineages ∧ (events.map EventEvidence.eventId?).Nodup ∧
      ∃ x vs, resolveIdentity D.identity records q.identityQuery = .ok x ∧
        events.mapM (judge D q x.record?) = .ok vs ∧
        collectSourceRefs x.record? ((vs.filterMap id).flatMap Verdict.sourceRefs) = .ok d.sourceRefs ∧
        d.eventIds = (((vs.filterMap id).map Verdict.eventId).dedup.sortOn id) ∧
        d.reasons = sortedReasons (identityFindings D q records x ++ (vs.filterMap id).flatMap Verdict.reasons) ∧
        d.masterVersion = x.record?.elim q.masterVersion (masterVersionFor D) ∧
        d.outcome = (if identityFindings D q records x ≠ [] then .reviewRequired
          else worst ((vs.filterMap id).map Verdict.outcome)) := by
  obtain ⟨_, h1, h⟩ := bind_ok.mp h
  obtain ⟨_, h2, h⟩ := bind_ok.mp h
  obtain ⟨x, hx, h⟩ := bind_ok.mp h
  obtain ⟨vs, hvs, h⟩ := bind_ok.mp h
  obtain ⟨refs, hrefs, h⟩ := bind_ok.mp h
  obtain ⟨ho, he, hr, hreasons, hversion⟩ := buildDecision_ok h
  exact ⟨require_ok.mp h1, require_ok.mp h2, x, vs, hx, hvs, hr ▸ hrefs, he, hreasons, hversion, ho⟩

/-- The verdicts come from the events that touch the query. -/
theorem mem_verdicts {x : Option SecurityIdentityRecord} {events : List EventEvidence} {vs : List (Option Verdict)}
    (h : events.mapM (judge D q x) = .ok vs) (v : Verdict) :
    v ∈ vs.filterMap id ↔ ∃ evidence ∈ events, judge D q x evidence = .ok (some v) := by
  have hf := Dict.forall₂_of_mapM h
  rw [List.mem_filterMap]
  constructor
  · rintro ⟨o, ho, rfl⟩
    obtain ⟨evidence, he, hj⟩ := Dict.exists_of_forall₂ hf.flip ho
    exact ⟨evidence, he, hj⟩
  · rintro ⟨evidence, he, hj⟩
    obtain ⟨o, ho, hj'⟩ := Dict.exists_of_forall₂ hf he
    rw [hj] at hj'
    cases hj'
    exact ⟨some v, ho, rfl⟩

theorem length_le_one_iff {α : Type} {l : List α} (h : l.Nodup) : l.length ≤ 1 ↔ ∀ a ∈ l, ∀ b ∈ l, a = b := by
  match l with
  | [] => simp
  | [a] => simp
  | a :: b :: l =>
    have hab : a ≠ b := fun e => (List.nodup_cons.mp h).1 (e ▸ List.mem_cons_self)
    refine iff_of_false (by simp) (fun hall => hab ?_)
    exact hall a List.mem_cons_self b (List.mem_cons_of_mem a List.mem_cons_self)

/-- A single claimant, when the security itself claims the symbol. -/
theorem symbolClaims_iff {r : SecurityIdentityRecord} (hr : r ∈ records) (hs : r.symbol = q.symbolAsOf)
    (hsid : r.securityId = q.securityId) (ha : r.answersAsOf q.decisionAt q.decisionAt = true) :
    symbolClaimsAreAmbiguous records q = false ↔
      ∀ r' ∈ records, r'.symbol = q.symbolAsOf → r'.answersAsOf q.decisionAt q.decisionAt = true →
        r'.securityId = q.securityId := by
  have hmem : ∀ sid, sid ∈ ((records.filter (fun r => decide (r.symbol = q.symbolAsOf) &&
      r.answersAsOf q.decisionAt q.decisionAt)).map SecurityIdentityRecord.securityId).dedup ↔
      ∃ r' ∈ records, r'.symbol = q.symbolAsOf ∧ r'.answersAsOf q.decisionAt q.decisionAt = true ∧
        r'.securityId = sid := by
    intro sid
    simp [List.mem_dedup, List.mem_map, List.mem_filter, and_assoc]
  have hnd := List.nodup_dedup ((records.filter (fun r => decide (r.symbol = q.symbolAsOf) &&
      r.answersAsOf q.decisionAt q.decisionAt)).map SecurityIdentityRecord.securityId)
  have hq := (hmem q.securityId).mpr ⟨r, hr, hs, ha, hsid⟩
  unfold symbolClaimsAreAmbiguous
  rw [decide_eq_false_iff_not, not_lt, length_le_one_iff hnd]
  constructor
  · intro hone r' hr' hs' ha'
    exact hone _ ((hmem r'.securityId).mpr ⟨r', hr', hs', ha', rfl⟩) _ hq
  · intro hall a ha b hb
    rw [hmem] at ha hb
    obtain ⟨ra, hra, hsa, haa, rfl⟩ := ha
    obtain ⟨rb, hrb, hsb, hab, rfl⟩ := hb
    rw [hall ra hra hsa haa, hall rb hrb hsb hab]

/-- Merged references are those given, in the order of their distinct record ids. -/
theorem mergedRefs_some {refs merged : List SourceRef} (h : mergedRefs refs = some merged) :
    (merged.map SourceRef.recordId).Pairwise (· < ·) ∧ merged.length ≤ refs.length ∧
      ∀ ref, ref ∈ merged ↔ ref ∈ refs := by
  unfold mergedRefs at h
  split_ifs at h with hp
  cases h
  have hsym : ∀ a ∈ refs, ∀ b ∈ refs, a.recordId = b.recordId → a = b := by
    have : Std.Symm (fun a b : SourceRef => a.recordId = b.recordId → a = b) :=
      ⟨fun a b hab e => (hab e.symm).symm⟩
    intro a ha b hb
    exact hp.forall_of_forall (fun _ _ _ => rfl) ha hb
  have hn : (refs.dedup.map SourceRef.recordId).Nodup := by
    refine (List.nodup_dedup refs).map_on ?_
    intro a ha b hb
    exact hsym a (List.mem_dedup.mp ha) b (List.mem_dedup.mp hb)
  refine ⟨?_, ?_, ?_⟩
  · rw [List.pairwise_map]
    exact List.pairwise_lt_sortOn hn
  · rw [List.length_sortOn]
    exact (List.dedup_sublist refs).length_le
  · intro ref
    rw [List.mem_sortOn, List.mem_dedup]

/-- The sources of a resolved identity alone are within the bounds. -/
theorem collectSourceRefs_identity (r : SecurityIdentityRecord) :
    ∃ refs, collectSourceRefs (some r) [] = .ok refs ∧ refs.length ≤ maxDecisionSourceRefs ∧
      (refs.map SourceRef.recordId).Pairwise (· < ·) := by
  obtain ⟨-, hlen, hnodup⟩ := r.refs_ok
  have hp : r.sourceRefs.Pairwise (fun a b => a.recordId = b.recordId → a = b) := by
    rw [List.Nodup, List.pairwise_map] at hnodup
    exact hnodup.imp (fun h e => absurd e h)
  have hm : mergedRefs r.sourceRefs = some (r.sourceRefs.dedup.sortOn SourceRef.recordId) := by
    rw [mergedRefs, if_pos hp]
  obtain ⟨hsorted, hle, -⟩ := mergedRefs_some hm
  have hbound : (r.sourceRefs.dedup.sortOn SourceRef.recordId).length ≤ maxDecisionSourceRefs := by
    have : maxSourceRefs ≤ maxDecisionSourceRefs := by decide
    omega
  refine ⟨_, ?_, hbound, hsorted⟩
  simp only [collectSourceRefs, Option.elim_some, List.append_nil, hm]
  rw [show require _ _ = .ok () from require_ok.mpr hbound]
  rfl

/-- The call accepts the events: at most sixteen of them, with distinct identifiers. -/
def EventsAccepted (events : List EventEvidence) : Prop :=
  events.length ≤ maxEventLineages ∧ (events.map EventEvidence.eventId?).Nodup

/-- The identity resolves to the queried symbol and version, no other security claims the symbol,
and no split of the security is known. -/
structure ClearOf (D : Digests) (q : QuarantineQuery) (records : List SecurityIdentityRecord)
    (events : List EventEvidence) : Prop where
  identity : ∃ r, resolveIdentity D.identity records q.identityQuery = .ok (.resolved r) ∧
    r.symbol = q.symbolAsOf ∧ masterVersionFor D r = q.masterVersion
  claims : ∀ r ∈ records, r.symbol = q.symbolAsOf → r.answersAsOf q.decisionAt q.decisionAt = true →
    r.securityId = q.securityId
  splits : ∀ evidence ∈ events, ¬ Touches q evidence

/-- There is no finding about an identity that resolves as queried without contention. -/
theorem identityFindings_eq_nil {x : IdentityResolution}
    (hx : resolveIdentity D.identity records q.identityQuery = .ok x) :
    identityFindings D q records x = [] ↔
      (∃ r, x = .resolved r ∧ r.symbol = q.symbolAsOf ∧ masterVersionFor D r = q.masterVersion) ∧
        ∀ r ∈ records, r.symbol = q.symbolAsOf → r.answersAsOf q.decisionAt q.decisionAt = true →
          r.securityId = q.securityId := by
  have hfinding : ∀ reason p, finding reason p = [] ↔ p = false := by
    intro reason p
    cases p <;> simp [finding]
  rw [identityFindings, List.append_eq_nil_iff, hfinding]
  cases x with
  | resolved r =>
    obtain ⟨hr, hkey, ha⟩ := resolveIdentity_resolved hx
    have hsid : r.securityId = q.securityId := by simpa [matchesKey, QuarantineQuery.identityQuery] using hkey
    rw [resolutionFindings, List.append_eq_nil_iff, hfinding, hfinding]
    simp only [decide_eq_false_iff_not, not_not, IdentityResolution.resolved.injEq]
    constructor
    · rintro ⟨⟨hs, hv⟩, hc⟩
      exact ⟨⟨r, rfl, hs, hv.symm⟩, (symbolClaims_iff hr hs hsid ha).mp hc⟩
    · rintro ⟨⟨r', rfl, hs, hv⟩, hc⟩
      exact ⟨⟨hs, hv.symm⟩, (symbolClaims_iff hr hs hsid ha).mpr hc⟩
  | unknown => simp [resolutionFindings]
  | ambiguous => simp [resolutionFindings]
  | conflict => simp [resolutionFindings]
  | stale => simp [resolutionFindings]

/-- A clear query with accepted events is answered `eligible`. -/
theorem eligible_of_clear {events : List EventEvidence} (ha : EventsAccepted events)
    (hc : ClearOf D q records events) :
    ∃ d, evaluateQuarantine D q records events = .ok d ∧ d.outcome = .eligible := by
  obtain ⟨r, hx, hs, hv⟩ := hc.identity
  have hfind : identityFindings D q records (.resolved r) = [] :=
    (identityFindings_eq_nil hx).mpr ⟨⟨r, rfl, hs, hv⟩, hc.claims⟩
  obtain ⟨vs, hvs⟩ := exists_mapM_judge D q (some r) events
  have hnil : vs.filterMap id = [] := by
    rw [List.eq_nil_iff_forall_not_mem]
    intro v hv
    obtain ⟨evidence, he, hj⟩ := (mem_verdicts hvs v).mp hv
    have h := judge_spec D q (some r) evidence
    rw [if_neg (hc.splits evidence he), hj] at h
    cases h
  obtain ⟨refs, hrefs, hlen, hsorted⟩ := collectSourceRefs_identity r
  simp only [evaluateQuarantine]
  rw [show require _ _ = .ok () from require_ok.mpr ha.1, show require _ _ = .ok () from require_ok.mpr ha.2]
  simp only [bind, Except.bind, hx, IdentityResolution.record?, hvs, hnil, List.flatMap_nil, hrefs, hfind,
    List.map_nil, List.append_nil, ne_eq, not_true_eq_false, if_false, List.dedup_nil]
  obtain ⟨d, hd⟩ := buildDecision_total (D := D) (q := q) (some r) (worst []) (sortedReasons_idem [])
    (List.Pairwise.nil : (([] : List EventId).sortOn id).Pairwise (· < ·)) ⟨hlen, hsorted⟩
  exact ⟨d, hd, (buildDecision_ok hd).1⟩

/-- A query that is answered `eligible` is clear. -/
theorem clear_of_eligible {events : List EventEvidence} {d : QuarantineDecision}
    (h : evaluateQuarantine D q records events = .ok d) (hd : d.outcome = .eligible) :
    EventsAccepted events ∧ ClearOf D q records events := by
  obtain ⟨h1, h2, x, vs, hx, hvs, -, -, -, -, ho⟩ := evaluateQuarantine_ok h
  rw [hd] at ho
  split_ifs at ho with hfind
  obtain ⟨⟨r, rfl, hs, hv⟩, hclaims⟩ := (identityFindings_eq_nil hx).mp (not_not.mp hfind)
  refine ⟨⟨h1, h2⟩, ⟨r, hx, hs, hv⟩, hclaims, ?_⟩
  intro evidence he ht
  have hj := judge_spec D q (some r) evidence
  rw [if_pos ht] at hj
  obtain ⟨v, hjv, hne⟩ := hj
  have hmem : v.outcome ∈ (vs.filterMap id).map Verdict.outcome :=
    List.mem_map.mpr ⟨v, (mem_verdicts hvs v).mpr ⟨evidence, he, hjv⟩, rfl⟩
  have hle := rank_le_worst hmem
  rw [← ho] at hle
  cases hov : v.outcome with
  | eligible => exact hne hov
  | entryBlocked => simp [hov, QuarantineOutcome.rank] at hle
  | reviewRequired => simp [hov, QuarantineOutcome.rank] at hle

/-- More events do not lower the outcome. -/
theorem outcome_mono {events more : List EventEvidence} (hsub : events ⊆ more) {d d' : QuarantineDecision}
    (h : evaluateQuarantine D q records events = .ok d) (h' : evaluateQuarantine D q records more = .ok d') :
    d.outcome.rank ≤ d'.outcome.rank := by
  obtain ⟨-, -, x, vs, hx, hvs, -, -, -, -, ho⟩ := evaluateQuarantine_ok h
  obtain ⟨-, -, x', vs', hx', hvs', -, -, -, -, ho'⟩ := evaluateQuarantine_ok h'
  obtain rfl : x = x' := Except.ok.inj (hx.symm.trans hx')
  rw [ho, ho']
  split_ifs with hfind
  · exact le_rfl
  · apply worst_mono
    intro o homem
    obtain ⟨v, hv, rfl⟩ := List.mem_map.mp homem
    obtain ⟨evidence, he, hj⟩ := (mem_verdicts hvs v).mp hv
    exact List.mem_map.mpr ⟨v, (mem_verdicts hvs' v).mpr ⟨evidence, hsub he, hj⟩, rfl⟩

end

/-- Among the calls that accept their events, `eligible` is answered exactly where the query is
clear, and whatever lineages are added to a call, its outcome does not go down. -/
theorem eligible_iff_clear (D : Digests) (q : QuarantineQuery) (records : List SecurityIdentityRecord)
    (events : List EventEvidence) :
    ((∃ d, evaluateQuarantine D q records events = .ok d ∧ d.outcome = .eligible) ↔
        EventsAccepted events ∧ ClearOf D q records events) ∧
      ∀ more, events ⊆ more → ∀ d d', evaluateQuarantine D q records events = .ok d →
        evaluateQuarantine D q records more = .ok d' → d.outcome.rank ≤ d'.outcome.rank := by
  refine ⟨⟨?_, ?_⟩, ?_⟩
  · rintro ⟨d, hd, ho⟩
    exact clear_of_eligible hd ho
  · rintro ⟨ha, hc⟩
    exact eligible_of_clear ha hc
  · intro more hsub d d' hd hd'
    exact outcome_mono hsub hd hd'

/-! ### Two lineages of one event -/

/-- A digest of one repeated character. -/
def repeated (c : Char) (h : isHex c = true) : Hash :=
  ⟨String.ofList (List.replicate 64 c), by simp [h]⟩

/-- 2026-06-01 at 14:00, and so many hours later. -/
def sampleTime (hours : Fin 1000) : UtcTimestamp :=
  ⟨63915919200000000 + hours * hourMicros, by
    have := hours.isLt
    simp only [hourMicros, maxMicros]
    omega⟩

def sampleRef : SourceRef := ⟨"asset-1", .alpacaAssets, repeated '1' (Eq.refl true), by decide⟩

def sampleNotice : SourceRef := ⟨"notice-1", .alpacaCorporateActions, repeated '2' (Eq.refl true), by decide⟩

/-- An identity of security 00000001 as AAA from 14:00 on. -/
def sampleIdentity : SecurityIdentityRecord where
  securityId := ⟨"00000001", by decide⟩
  symbol := ⟨"AAA", by decide⟩
  exchange := .nyse
  interval := ⟨sampleTime 0, none, by simp⟩
  availableAt := sampleTime 0
  status := .active
  sourceRefs := [sampleRef]
  schemaVersion := ⟨"1.0.0"⟩
  cik := none
  cusip := none
  isin := none
  refs_ok := by decide

/-- A split of another security, detected at 14:00. -/
def sampleSplit : CorporateActionRecord where
  eventId := ⟨"split-1", by decide⟩
  securityId := ⟨"00000002", by decide⟩
  securityIdentityHash := repeated 'b' (Eq.refl true)
  actionType := .forwardSplit
  ratio := ⟨2, 1, by decide, by decide⟩
  declaredAt := sampleTime 0
  exDate := ⟨2026, 6, 10, by decide, by decide, by decide⟩
  effectiveDate := ⟨2026, 6, 10, by decide, by decide, by decide⟩
  availableAt := sampleTime 0
  state := .detected
  sourceRefs := [sampleNotice]
  schemaVersion := ⟨"1.0.0"⟩
  dates_ok := by decide +kernel
  known_ok := le_rfl
  refs_ok := by decide

def sampleEvidence : EventEvidence where
  lineage := [sampleSplit]
  observations := [⟨sampleNotice, sampleTime 0, false, true, none, none, none, none⟩]
  lineage_ok := ⟨by decide, ⟨sampleSplit, rfl, rfl⟩, List.isChain_singleton _⟩
  observations_ok := ⟨by decide, by decide, by
    intro root hroot ref href
    cases hroot
    exact ⟨_, List.mem_cons_self, by rw [List.mem_singleton.mp href], by rw [List.mem_singleton.mp href]⟩⟩

def sampleDigests : Digests where
  identity := fun _ => repeated 'a' (Eq.refl true)
  event := fun r => if r.state = .detected then repeated 'd' (Eq.refl true) else repeated 'e' (Eq.refl true)
  decision := fun d => if d.outcome = .eligible then repeated '0' (Eq.refl true) else repeated '9' (Eq.refl true)

def sampleQuery : QuarantineQuery where
  purpose := .candidateCreation
  securityId := ⟨"00000001", by decide⟩
  symbolAsOf := ⟨"AAA", by decide⟩
  decisionAt := sampleTime 1
  masterVersion := masterVersionFor sampleDigests sampleIdentity
  version_ok := masterVersionFor_ok sampleDigests sampleIdentity

theorem sampleQuery_clear (events : List EventEvidence) (h : ∀ evidence ∈ events, ¬ Touches sampleQuery evidence) :
    ClearOf sampleDigests sampleQuery [sampleIdentity] events where
  identity := ⟨sampleIdentity, by decide +kernel, rfl, rfl⟩
  claims := by
    intro r hr _ _
    rw [List.mem_singleton.mp hr]
    rfl
  splits := h

theorem not_touches_sampleEvidence : ¬ Touches sampleQuery sampleEvidence := by decide +kernel

/-- Given twice, the lineage of a split of another security is refused, and no answer is given
although the query is clear. -/
theorem not_eligible_of_repeated_lineage :
    ClearOf sampleDigests sampleQuery [sampleIdentity] [sampleEvidence, sampleEvidence] ∧
      evaluateQuarantine sampleDigests sampleQuery [sampleIdentity] [sampleEvidence, sampleEvidence] =
        refuse "event_lineages must carry unique event identifiers" := by
  refine ⟨sampleQuery_clear _ ?_, by rfl⟩
  intro evidence he
  simp only [List.mem_cons, List.not_mem_nil, or_false, or_self] at he
  rw [he]
  exact not_touches_sampleEvidence

/-- Given once, it is passed over, and the outcome is the one without it. -/
theorem eligible_of_foreign_lineage :
    ∃ d d', evaluateQuarantine sampleDigests sampleQuery [sampleIdentity] [] = .ok d ∧
      evaluateQuarantine sampleDigests sampleQuery [sampleIdentity] [sampleEvidence] = .ok d' ∧
      d'.outcome = .eligible ∧ d.outcome.rank ≤ d'.outcome.rank := by
  obtain ⟨hclear, hmono⟩ := eligible_iff_clear sampleDigests sampleQuery [sampleIdentity] []
  obtain ⟨d, hd, -⟩ := hclear.mpr ⟨⟨by decide, by simp⟩, sampleQuery_clear _ (by simp)⟩
  obtain ⟨d', hd', ho⟩ := (eligible_iff_clear sampleDigests sampleQuery [sampleIdentity] [sampleEvidence]).1.mpr
    ⟨⟨by decide, by simp⟩, sampleQuery_clear _ (by simpa using not_touches_sampleEvidence)⟩
  exact ⟨d, d', hd, hd', ho, hmono [sampleEvidence] (List.nil_subset _) d d' hd hd'⟩

end SevenLens.Securities
