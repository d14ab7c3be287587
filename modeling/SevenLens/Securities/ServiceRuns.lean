import SevenLens.Securities.Service

/-! # What the calls change

Whatever a call does is a sequence of few kinds of appends: an identity with readable sources,
the root of an event together with its block, a later row of an event, or a decision.  `Change`
lists them with what the call has checked before, and `after_changes` reads a call as changes.
An invariant of the service is then a fact that every change keeps
(`Reachable.of_changes`). -/

namespace SevenLens.Securities

variable {D : Digests}

/-- The references are references of stored rows, or they can be read. -/
def RefsKnown (log : RecordLog) (m : Master D) (refs : List SourceRef) : Prop :=
  ∀ ref ∈ refs, (∃ row ∈ m.events.rows, ref ∈ row.record.sourceRefs) ∨ ∃ record, log.read ref = .ok record

/-- The appends of a call to the repository. -/
inductive Change (log : RecordLog) : Master D → Master D → Prop
  | identity {m m' : Master D} {record : SecurityIdentityRecord} {outcome : AppendOutcome}
      (readable : log.Readable record.sourceRefs) (append : m.appendIdentity record = .ok (outcome, m')) :
      Change log m m'
  | root {m m₁ m' : Master D} {event blocked : CorporateActionRecord} {o₁ o₂ : AppendOutcome}
      (detected : event.state = .detected) (readable : log.Readable event.sourceRefs)
      (append : m.appendEvent event none = .ok (o₁, m₁))
      (block : eventWithState event .entryBlocked event.availableAt event.sourceRefs = .ok blocked)
      (append' : m₁.appendEvent blocked (some (D.event event)) = .ok (o₂, m')) : Change log m m'
  | transition {m m' : Master D} {record : CorporateActionRecord} {previous : Option Hash} {outcome : AppendOutcome}
      (later : record.state ≠ .detected) (known : RefsKnown log m record.sourceRefs)
      (append : m.appendEvent record previous = .ok (outcome, m')) : Change log m m'
  | decision {m m' : Master D} {d : QuarantineDecision} {outcome : AppendOutcome}
      (record : m.recordDecision d = .ok (outcome, m')) : Change log m m'

/-- Some changes, one after another. -/
abbrev Changes (log : RecordLog) : Master D → Master D → Prop := Relation.ReflTransGen (Change log)

section

variable {log : RecordLog} {m m' : Master D}

theorem mem_of_mergeRefs {refs merged : List SourceRef} (h : mergeRefs refs = .ok merged) : merged ⊆ refs := by
  unfold mergeRefs mergedRefs at h
  split at h
  · cases h
  · rename_i merged' hm
    cases h
    split_ifs at hm
    cases hm
    intro ref href
    exact List.mem_dedup.mp (List.mem_sortOn.mp href)

theorem revalidateObservation_ref {o o' : SourceObservation} (h : revalidateObservation log o = .ok o') :
    o'.sourceRef = o.sourceRef := by
  obtain ⟨_, -, h⟩ := bind_ok.mp h
  obtain ⟨_, -, h⟩ := bind_ok.mp h
  split_ifs at h
  · cases h
    rfl
  · obtain ⟨_, -, h⟩ := bind_ok.mp h
    cases h
    rfl

/-- Revalidated observations are about the records that were there before. -/
theorem readable_of_revalidated {observations validated : List SourceObservation} {records : List NormalizedSourceRecord}
    (hr : log.validateRefs (observations.map (·.sourceRef)) none = .ok records)
    (h : observations.mapM (revalidateObservation log) = .ok validated) :
    log.Readable (validated.map (·.sourceRef)) := by
  have hread := RecordLog.readable_of_validateRefsFrom hr
  intro ref href
  obtain ⟨o', ho', rfl⟩ := List.mem_map.mp href
  obtain ⟨o, ho, heq⟩ := Dict.exists_of_forall₂ (Dict.forall₂_of_mapM h).flip ho'
  rw [revalidateObservation_ref heq]
  exact hread o.sourceRef (List.mem_map_of_mem ho)

theorem change_of_appendDecided {head : CorporateActionRecord} {state : CorporateActionState}
    {observations : List SourceObservation} {decisionAt : UtcTimestamp} (hs : state ≠ .detected)
    (hhead : RefsKnown log m head.sourceRefs) (hobs : log.Readable (observations.map (·.sourceRef)))
    (h : appendDecided m head state observations decisionAt = .ok m') : Change log m m' := by
  obtain ⟨refs, hrefs, h⟩ := bind_ok.mp h
  obtain ⟨candidate, hcand, h⟩ := bind_ok.mp h
  obtain ⟨⟨o, m₁⟩, happ, h⟩ := bind_ok.mp h
  cases h
  obtain ⟨-, hstate, -, hsrc⟩ := eventWithState_ok hcand
  refine .transition (hstate ▸ hs) ?_ happ
  intro ref href
  rw [hsrc] at href
  rcases List.mem_append.mp (mem_of_mergeRefs hrefs href) with hr | hr
  · exact hhead ref hr
  · exact .inr (hobs ref hr)

theorem changes_of_appendReview {head : CorporateActionRecord} {observations : List SourceObservation}
    {decisionAt : UtcTimestamp} (hhead : RefsKnown log m head.sourceRefs)
    (hobs : log.Readable (observations.map (·.sourceRef)))
    (h : appendReviewIfPossible m head observations decisionAt = .ok m') : Changes log m m' := by
  unfold appendReviewIfPossible at h
  split_ifs at h
  · cases h
    exact .refl
  · exact .single (change_of_appendDecided (by decide) hhead hobs h)

theorem changes_of_applyConfirmation {head : CorporateActionRecord} {evaluation : ConfirmationEvaluation}
    {observations : List SourceObservation} {decisionAt : UtcTimestamp} (hhead : RefsKnown log m head.sourceRefs)
    (hobs : log.Readable (observations.map (·.sourceRef)))
    (h : applyConfirmationEvaluation m head evaluation observations decisionAt = .ok m') : Changes log m m' := by
  unfold applyConfirmationEvaluation at h
  split at h
  · cases h
    exact .refl
  · exact changes_of_appendReview hhead hobs h
  · split_ifs at h
    · cases h
      exact .refl
    · obtain ⟨_, -, h⟩ := bind_ok.mp h
      exact .single (change_of_appendDecided (by decide) hhead hobs h)

theorem changes_of_decideSplit {root head : CorporateActionRecord} {observations : List SourceObservation}
    {decisionAt : UtcTimestamp} (hhead : RefsKnown log m head.sourceRefs)
    (hobs : log.Readable (observations.map (·.sourceRef)))
    (h : decideSplit m root head observations decisionAt = .ok m') : Changes log m m' := by
  obtain ⟨resolution, -, h⟩ := bind_ok.mp h
  split at h
  · split_ifs at h
    · exact changes_of_appendReview hhead hobs h
    · obtain ⟨evaluation, -, h⟩ := bind_ok.mp h
      exact changes_of_applyConfirmation hhead hobs h
  · exact changes_of_appendReview hhead hobs h

/-- The head of a lineage is a stored row. -/
theorem refsKnown_of_requireHead {eventId : EventId} {lineage : List CorporateActionRecord} {head : CorporateActionRecord}
    (hl : m.eventLineage eventId = .ok lineage) (hh : requireHead lineage = .ok head) :
    RefsKnown log m head.sourceRefs := by
  unfold requireHead at hh
  split at hh
  · cases hh
  · rename_i last hlast
    cases hh
    obtain ⟨row, hrow, rfl⟩ := Master.mem_of_eventLineage hl head (List.mem_of_getLast? hlast)
    exact fun ref href => .inl ⟨row, hrow, href⟩

theorem changes_of_blockIfDetected {eventId : EventId} {head head' : CorporateActionRecord} {decisionAt : UtcTimestamp}
    (hhead : RefsKnown log m head.sourceRefs)
    (h : blockIfDetected m eventId head decisionAt = .ok (head', m')) :
    Changes log m m' ∧ RefsKnown log m' head'.sourceRefs := by
  unfold blockIfDetected at h
  split_ifs at h
  · obtain ⟨blocked, hb, h⟩ := bind_ok.mp h
    obtain ⟨⟨o, m₁⟩, happ, h⟩ := bind_ok.mp h
    obtain ⟨lineage, hl, h⟩ := bind_ok.mp h
    obtain ⟨last, hh, h⟩ := bind_ok.mp h
    cases h
    obtain ⟨-, hstate, -, hsrc⟩ := eventWithState_ok hb
    have hc : Change log m m' := by
      refine .transition (by rw [hstate]; decide) ?_ happ
      rw [hsrc]
      exact hhead
    exact ⟨.single hc, refsKnown_of_requireHead hl hh⟩
  · cases h
    exact ⟨.refl, hhead⟩

theorem changes_of_registerIdentity {record : SecurityIdentityRecord} {outcome : AppendOutcome}
    (h : registerIdentity log m record = .ok (outcome, m')) : Changes log m m' := by
  obtain ⟨_, hr, h⟩ := bind_ok.mp h
  obtain ⟨⟨o, m₁⟩, happ, h⟩ := bind_ok.mp h
  obtain ⟨_, -, h⟩ := bind_ok.mp h
  cases h
  exact .single (.identity (RecordLog.readable_of_validateRefsFrom hr) happ)

theorem changes_of_discoverSplit {event head : CorporateActionRecord}
    (h : discoverSplit log m event = .ok (head, m')) : Changes log m m' := by
  obtain ⟨_, hd, h⟩ := bind_ok.mp h
  obtain ⟨_, hr, h⟩ := bind_ok.mp h
  obtain ⟨_, -, h⟩ := bind_ok.mp h
  obtain ⟨⟨o₁, m₁⟩, happ, h⟩ := bind_ok.mp h
  obtain ⟨blocked, hb, h⟩ := bind_ok.mp h
  obtain ⟨⟨o₂, m₂⟩, happ', h⟩ := bind_ok.mp h
  obtain ⟨_, -, h⟩ := bind_ok.mp h
  obtain ⟨_, -, h⟩ := bind_ok.mp h
  cases h
  exact .single (.root (require_ok.mp hd) (RecordLog.readable_of_validateRefsFrom hr) happ hb happ')

theorem changes_of_confirmSplit {eventId : EventId} {observations : List SourceObservation} {decisionAt : UtcTimestamp}
    {result : CorporateActionRecord} (h : confirmSplit log m eventId observations decisionAt = .ok (result, m')) :
    Changes log m m' := by
  obtain ⟨_, hr, h⟩ := bind_ok.mp h
  obtain ⟨validated, hv, h⟩ := bind_ok.mp h
  obtain ⟨lineage, hl, h⟩ := bind_ok.mp h
  obtain ⟨head, hh, h⟩ := bind_ok.mp h
  obtain ⟨⟨head', m₁⟩, hblock, h⟩ := bind_ok.mp h
  obtain ⟨m₂, hdecide, h⟩ := bind_ok.mp h
  obtain ⟨_, -, h⟩ := bind_ok.mp h
  obtain ⟨_, -, h⟩ := bind_ok.mp h
  cases h
  obtain ⟨hfirst, hhead'⟩ := changes_of_blockIfDetected (refsKnown_of_requireHead hl hh) hblock
  exact hfirst.trans (changes_of_decideSplit hhead' (readable_of_revalidated hr hv) hdecide)

theorem changes_of_quarantine {q : QuarantineQuery} {d : QuarantineDecision}
    (h : quarantine log m q = .ok (d, m')) : Changes log m m' := by
  obtain ⟨d', -, h⟩ := bind_ok.mp h
  obtain ⟨⟨o, m₁⟩, hrec, h⟩ := bind_ok.mp h
  dsimp only at h
  split at h
  · cases h
  · obtain ⟨_, -, h⟩ := bind_ok.mp h
    cases h
    exact .single (.decision hrec)

theorem changes_of_checkFor {purpose : QuarantinePurpose} {q : QuarantineQuery} {d : QuarantineDecision}
    (h : checkFor purpose log m q = .ok (d, m')) : Changes log m m' := by
  obtain ⟨_, -, h⟩ := bind_ok.mp h
  exact changes_of_quarantine h

end

/-- A transaction commits its changes or none. -/
theorem committed_changes {α : Type} {s : State D} {result : Except Failure (α × Master D)}
    (h : ∀ a m', result = .ok (a, m') → Changes s.log s.master m') :
    (committed s result).log = s.log ∧ Changes s.log s.master (committed s result).master := by
  cases result with
  | error e => exact ⟨rfl, .refl⟩
  | ok r => exact ⟨rfl, h r.1 r.2 rfl⟩

/-- A call appends to the source log, or makes changes of the repository. -/
theorem after_changes (s : State D) (call : Call) :
    s.log.Grows (s.after call).log ∧ (s.after call).master = s.master ∨
      (s.after call).log = s.log ∧ Changes s.log s.master (s.after call).master := by
  cases call with
  | appendSource record =>
    left
    unfold State.after
    dsimp only
    split
    · rename_i happ
      exact ⟨RecordLog.append_grows happ, rfl⟩
    · exact ⟨List.prefix_refl _, rfl⟩
  | registerIdentity record => exact .inr (committed_changes fun _ _ h => changes_of_registerIdentity h)
  | discoverSplit event => exact .inr (committed_changes fun _ _ h => changes_of_discoverSplit h)
  | confirmSplit eventId observations decisionAt =>
    exact .inr (committed_changes fun _ _ h => changes_of_confirmSplit h)
  | quarantine q => exact .inr (committed_changes fun _ _ h => changes_of_quarantine h)
  | candidateCreationCheck q => exact .inr (committed_changes fun _ _ h => changes_of_checkFor h)
  | riskApprovalCheck q => exact .inr (committed_changes fun _ _ h => changes_of_checkFor h)
  | submitRecheck q => exact .inr (committed_changes fun _ _ h => changes_of_checkFor h)

theorem Changes.of_changes {log : RecordLog} {m m' : Master D} {P : RecordLog → Master D → Prop}
    (h : Changes log m m') (hchange : ∀ {log : RecordLog} {m m' : Master D}, Change log m m' → P log m → P log m')
    (h0 : P log m) : P log m' := by
  induction h with
  | refl => exact h0
  | tail _ hc ih => exact hchange hc ih

/-- A fact that growth of the log and every change keep is kept by a run. -/
theorem Runs.of_changes {P : RecordLog → Master D → Prop} {s s' : State D} (hr : Runs s s')
    (hlog : ∀ {log log' : RecordLog} {m : Master D}, log.Grows log' → P log m → P log' m)
    (hchange : ∀ {log : RecordLog} {m m' : Master D}, Change log m m' → P log m → P log m')
    (h0 : P s.log s.master) : P s'.log s'.master := by
  induction hr with
  | refl => exact h0
  | tail _ hc ih =>
    obtain ⟨call, rfl⟩ := hc
    rcases after_changes _ call with ⟨hg, hm⟩ | ⟨hl, hm⟩
    · rw [hm]
      exact hlog hg ih
    · rw [hl]
      exact hm.of_changes hchange ih

/-- What holds of the empty repository and is kept by every change holds in every reachable
state. -/
theorem Reachable.of_changes {P : RecordLog → Master D → Prop} {s : State D} (hs : Reachable s)
    (h0 : P Table.empty Master.empty)
    (hlog : ∀ {log log' : RecordLog} {m : Master D}, log.Grows log' → P log m → P log' m)
    (hchange : ∀ {log : RecordLog} {m m' : Master D}, Change log m m' → P log m → P log m') :
    P s.log s.master := Runs.of_changes hs hlog hchange h0

end SevenLens.Securities
