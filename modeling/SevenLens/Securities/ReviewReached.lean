import SevenLens.Securities.EventChains

/-! # When a conflict reaches the review

`confirm_split` sends an event to review when its identity or one of its sources is in doubt, by
appending a row that carries the merged sources.  The row has to satisfy the contract of a
corporate-action record, which is narrower than what observations may be: `review_reached_iff`
says that exactly the merge of the sources (`RefsFit`) and the number of identity records decide
whether the review is stored. -/

namespace SevenLens.Securities

open CorporateActionRecord (Follows SameEvent)

variable {D : Digests} {log : RecordLog} {m : Master D} {e : EventId} {root head c : CorporateActionRecord}
  {observations : List SourceObservation} {decisionAt : UtcTimestamp}

/-! ### Stored events that are not at an end -/

/-- The rows of the event run from the root to a head that is not final, and the identity that they pin is stored. -/
structure Pending (m : Master D) (e : EventId) (root head : CorporateActionRecord) : Prop where
  chained : m.Chained e
  first : ((m.rowsOf e).map EventRow.record).head? = some root
  last : ((m.rowsOf e).map EventRow.record).getLast? = some head
  active : head.state.isTerminal = false
  pinned : m.PinsIdentity root

/-- Digests tell the rows of the event in different states apart, and from the rows of other events. -/
structure TellsApart (m : Master D) (head : CorporateActionRecord) : Prop where
  states : ∀ a b, head.SameEvent a → head.SameEvent b → D.event a = D.event b → a.state = b.state
  events : ∀ row ∈ m.events.rows, ∀ b, head.SameEvent b → D.event row.record = D.event b →
    row.record.eventId = b.eventId

/-- The merged sources of a new row are few, and no two of them disagree about a record. -/
def RefsFit (head : CorporateActionRecord) (observations : List SourceObservation) : Prop :=
  (head.sourceRefs ++ observations.map (·.sourceRef)).Pairwise (fun a b => a.recordId = b.recordId → a = b) ∧
    (head.sourceRefs ++ observations.map (·.sourceRef)).dedup.length ≤ maxSourceRefs

theorem CorporateActionRecord.SameEvent.symm {a b : CorporateActionRecord} (h : a.SameEvent b) : b.SameEvent a :=
  ⟨h.eventId.symm, h.securityId.symm, h.securityIdentityHash.symm, h.actionType.symm, h.ratio.symm, h.declaredAt.symm,
    h.exDate.symm, h.effectiveDate.symm⟩

theorem PinsIdentity.congr {m' : Master D} {a b : CorporateActionRecord} (h : m.PinsIdentity a) (hsame : a.SameEvent b)
    (hids : m'.identities = m.identities) : m'.PinsIdentity b := by
  obtain ⟨identity, hget, hsid⟩ := h
  refine ⟨identity, ?_, hsid.trans hsame.securityId⟩
  rw [hids, ← hsame.securityIdentityHash, hget]

/-- Along a lineage the states go deeper. -/
theorem depth_le_of_isChain {rows : List CorporateActionRecord} (h : rows.IsChain Follows)
    (hlast : rows.getLast? = some head) : ∀ row ∈ rows, row.state.depth ≤ head.state.depth := by
  induction rows with
  | nil => simp
  | cons a rows ih =>
    cases rows with
    | nil =>
      cases hlast
      simp
    | cons b rows =>
      obtain ⟨hf, hc⟩ := List.isChain_cons_cons.mp h
      rw [List.getLast?_cons_cons] at hlast
      have hrest := ih hc hlast
      refine List.forall_mem_cons.mpr ⟨?_, hrest⟩
      exact (CorporateActionState.depth_lt hf.allowed).le.trans (hrest b List.mem_cons_self)

namespace Pending

theorem lineage (h : Pending m e root head) : m.eventLineage e = .ok ((m.rowsOf e).map EventRow.record) :=
  h.chained.eventLineage_eq

theorem lastRow (h : Pending m e root head) : ∃ row, (m.rowsOf e).getLast? = some row ∧ row.record = head := by
  have hlast := h.last
  rwa [List.getLast?_map, Option.map_eq_some_iff] at hlast

theorem eventId (h : Pending m e root head) : head.eventId = e := by
  obtain ⟨row, hrow, rfl⟩ := h.lastRow
  exact (Master.mem_rowsOf.mp (List.mem_of_getLast? hrow)).2

/-- Every row of the event states the facts of the root. -/
theorem same_row (h : Pending m e root head) {row : CorporateActionRecord} (hrow : row ∈ (m.rowsOf e).map EventRow.record) :
    root.SameEvent row := by
  have hchain := h.chained.chain
  have hfirst := h.first
  cases hrows : (m.rowsOf e).map EventRow.record with
  | nil =>
    rw [hrows] at hfirst
    cases hfirst
  | cons a rows =>
    rw [hrows] at hfirst hchain hrow
    cases hfirst
    exact (sameEvent_of_isChain hchain row hrow).1

theorem same (h : Pending m e root head) : root.SameEvent head := h.same_row (List.mem_of_getLast? h.last)

/-- A row that may follow the head is new. -/
theorem get_none (h : Pending m e root head) (htells : TellsApart m head) (hc : head.Follows c) :
    m.events.get (D.event c) = none := by
  refine Table.get_eq_none_iff.mpr fun row hrow hkey => ?_
  have hid : row.record.eventId = e := (htells.events row hrow c hc.same hkey).trans (hc.same.eventId.symm.trans h.eventId)
  have hmem : row.record ∈ (m.rowsOf e).map EventRow.record := List.mem_map_of_mem (Master.mem_rowsOf.mpr ⟨hrow, hid⟩)
  have hstate := htells.states row.record c (h.same.symm.trans (h.same_row hmem)) hc.same hkey
  have hle := depth_le_of_isChain h.chained.chain h.last row.record hmem
  have hlt := CorporateActionState.depth_lt hc.allowed
  rw [hstate] at hle
  omega

/-- A row that may follow the head is appended. -/
theorem append (h : Pending m e root head) (htells : TellsApart m head) (hc : head.Follows c) (hs : c.state ≠ .detected) :
    ∃ m', m.appendEvent c (some (D.event head)) = .ok (.appended, m') ∧ m'.identities = m.identities ∧ m'.Chained e ∧
      m'.rowsOf e = m.rowsOf e ++ [⟨c, some (D.event head)⟩] ∧
      ∀ row ∈ m'.events.rows, row ∈ m.events.rows ∨ row.record = c := by
  have hnone := h.get_none htells hc
  have hid : c.eventId = e := hc.same.eventId.symm.trans h.eventId
  obtain ⟨row, hrow, hhead⟩ := h.lastRow
  have hmem : row ∈ m.events.rows := (Master.mem_rowsOf.mp (List.mem_of_getLast? hrow)).1
  have hcheck : m.checkHead c (some (D.event head)) = .ok () := by
    have hheads : m.eventHeads.lookup c.eventId = some (D.event head) := by
      rw [hid, h.chained.head, hrow, ← hhead]
      rfl
    have hget : m.events.get (D.event head) = some row := by
      rw [← hhead]
      exact Table.get_of_mem hmem
    have htransition : validateTransition row.record c = .ok () := validateTransition_ok.mpr (hhead ▸ hc)
    simp only [Master.checkHead, if_neg hs, hheads, hget, htransition, requireOr, if_true, bind, Except.bind]
  have hpins : m.PinsIdentity c := PinsIdentity.congr h.pinned (h.same.trans hc.same) rfl
  obtain ⟨m', happ⟩ : ∃ m', m.appendEvent c (some (D.event head)) = .ok (.appended, m') := by
    simp only [Master.appendEvent, requireOr, if_pos hpins, hnone, hcheck, bind, Except.bind, pure, Except.pure]
    exact ⟨_, rfl⟩
  have hchained : m'.Chained e := h.chained.appendEvent (hid ▸ h.chained) happ
  obtain ⟨-, hstored⟩ | ⟨-, -, rfl⟩ := Master.appendEvent_ok happ
  · rw [Table.get_eq_none_iff] at hnone
    exact absurd rfl (hnone _ hstored)
  · refine ⟨_, happ, rfl, hchained, by rw [Master.rowsOf_add hnone, if_pos hid], fun row hrow => ?_⟩
    exact ((Table.mem_add_iff hnone).mp hrow).imp_right fun hnew => by rw [hnew]

/-- The event with another row that is not final. -/
theorem after (h : Pending m e root head) {m' : Master D} (hids : m'.identities = m.identities) (hchained : m'.Chained e)
    {previous : Option Hash} (hrows : m'.rowsOf e = m.rowsOf e ++ [⟨c, previous⟩]) (hactive : c.state.isTerminal = false) :
    Pending m' e root c where
  chained := hchained
  first := by
    rw [hrows, List.map_append, List.head?_append, h.first]
    rfl
  last := by
    rw [hrows, List.map_append, List.map_singleton, List.getLast?_concat]
  active := hactive
  pinned := PinsIdentity.congr h.pinned (.refl root) hids

end Pending

/-! ### A row with the merged sources -/

theorem mergeRefs_ok {refs merged : List SourceRef} : mergeRefs refs = .ok merged ↔
    refs.Pairwise (fun a b => a.recordId = b.recordId → a = b) ∧ refs.dedup.sortOn SourceRef.recordId = merged := by
  unfold mergeRefs mergedRefs
  by_cases h : refs.Pairwise (fun a b => a.recordId = b.recordId → a = b)
  · simp [h]
  · simp [h, throwing]

theorem le_later_left (s t : UtcTimestamp) : s ≤ later s t := by
  unfold later
  split_ifs with h
  · exact le_rfl
  · exact (not_le.mp h).le

/-- References without two that disagree name distinct records. -/
theorem nodup_merged {refs : List SourceRef} (h : refs.Pairwise (fun a b => a.recordId = b.recordId → a = b)) :
    ((refs.dedup.sortOn SourceRef.recordId).map SourceRef.recordId).Nodup := by
  rw [((List.sortOn_perm _ _).map _).nodup_iff]
  have hsub : refs.dedup.Pairwise (fun a b => a.recordId = b.recordId → a = b) := h.sublist (List.dedup_sublist refs)
  refine List.pairwise_map.mpr ((hsub.and (List.nodup_dedup refs)).imp ?_)
  exact fun hab hid => hab.2 (hab.1 hid)

/-- The row with the merged sources meets the contract of a record if they fit. -/
theorem decidedRow_of_fit (hfit : RefsFit head observations) (state : CorporateActionState) (decisionAt : UtcTimestamp) : ∃ refs row,
    mergeRefs (head.sourceRefs ++ observations.map (·.sourceRef)) = .ok refs ∧
      eventWithState head state (later head.availableAt decisionAt) refs = .ok row := by
  obtain ⟨hpair, hlen⟩ := hfit
  have hdeclared : head.declaredAt ≤ later head.availableAt decisionAt := head.known_ok.trans (le_later_left _ _)
  have hbounds : (head.sourceRefs ++ observations.map (·.sourceRef)).dedup.sortOn SourceRef.recordId ≠ [] ∧
      ((head.sourceRefs ++ observations.map (·.sourceRef)).dedup.sortOn SourceRef.recordId).length ≤ maxSourceRefs := by
    refine ⟨fun hnil => ?_, by rwa [List.length_sortOn]⟩
    obtain ⟨ref, href⟩ := List.exists_mem_of_ne_nil _ head.refs_ok.1
    have hmem := (List.sortOn_perm SourceRef.recordId _).mem_iff.mpr
      (List.mem_dedup.mpr (List.mem_append_left (observations.map (·.sourceRef)) href))
    rw [hnil] at hmem
    cases hmem
  obtain ⟨row, hrow⟩ : ∃ row, eventWithState head state (later head.availableAt decisionAt)
      ((head.sourceRefs ++ observations.map (·.sourceRef)).dedup.sortOn SourceRef.recordId) = .ok row :=
    ⟨_, by rw [eventWithState, dif_pos hdeclared, dif_pos hbounds, dif_pos (nodup_merged hpair)]⟩
  exact ⟨_, row, mergeRefs_ok.mpr ⟨hpair, rfl⟩, hrow⟩

theorem fit_of_decidedRow {refs : List SourceRef} {row : CorporateActionRecord} {state : CorporateActionState} {t : UtcTimestamp}
    (hrefs : mergeRefs (head.sourceRefs ++ observations.map (·.sourceRef)) = .ok refs)
    (hrow : eventWithState head state t refs = .ok row) : RefsFit head observations := by
  obtain ⟨hpair, rfl⟩ := mergeRefs_ok.mp hrefs
  have hlen := row.refs_ok.2.1
  rw [(eventWithState_ok hrow).2.2.2, List.length_sortOn] at hlen
  exact ⟨hpair, hlen⟩

namespace Pending

theorem follows_of_row {refs : List SourceRef} {state : CorporateActionState} (hallowed : head.state.allowed state = true)
    (hrow : eventWithState head state (later head.availableAt decisionAt) refs = .ok c) : head.Follows c := by
  obtain ⟨hsame, hstate, havailable, -⟩ := eventWithState_ok hrow
  exact ⟨hsame, hstate ▸ hallowed, havailable ▸ le_later_left _ _⟩

/-- The event goes to a state that is allowed exactly if the sources fit. -/
theorem decided_iff (h : Pending m e root head) (htells : TellsApart m head) {state : CorporateActionState}
    (hallowed : head.state.allowed state = true) (hs : state ≠ .detected) :
    (∃ m', appendDecided m head state observations decisionAt = .ok m') ↔ RefsFit head observations := by
  constructor
  · rintro ⟨m', hm⟩
    obtain ⟨refs, hrefs, hm⟩ := bind_ok.mp hm
    obtain ⟨row, hrow, -⟩ := bind_ok.mp hm
    exact fit_of_decidedRow hrefs hrow
  · intro hfit
    obtain ⟨refs, row, hrefs, hrow⟩ := decidedRow_of_fit hfit state decisionAt
    have hstate := (eventWithState_ok hrow).2.1
    obtain ⟨m', happ, -⟩ := h.append htells (follows_of_row hallowed hrow) (hstate ▸ hs)
    refine ⟨m', ?_⟩
    simp only [appendDecided, hrefs, hrow, happ, bind, Except.bind, pure, Except.pure]

theorem head_of_decided (h : Pending m e root head) (htells : TellsApart m head) {state : CorporateActionState}
    (hallowed : head.state.allowed state = true) (hs : state ≠ .detected) {m' : Master D}
    (hm : appendDecided m head state observations decisionAt = .ok m') :
    ∃ rows row, m'.eventLineage e = .ok rows ∧ rows.getLast? = some row ∧ row.state = state := by
  obtain ⟨refs, hrefs, hm⟩ := bind_ok.mp hm
  obtain ⟨row, hrow, hm⟩ := bind_ok.mp hm
  have hstate := (eventWithState_ok hrow).2.1
  obtain ⟨m₁, happ, -, hchained, hrows, -⟩ := h.append htells (follows_of_row hallowed hrow) (hstate ▸ hs)
  rw [happ] at hm
  cases hm
  refine ⟨_, row, hchained.eventLineage_eq, ?_, hstate⟩
  rw [hrows, List.map_append, List.map_singleton, List.getLast?_concat]

/-- The block that a detected event gets first leaves it pending, with the same sources. -/
theorem blocked (h : Pending m e root head) (htells : TellsApart m head) (decisionAt : UtcTimestamp) : ∃ head' m',
    blockIfDetected m e head decisionAt = .ok (head', m') ∧ Pending m' e root head' ∧ TellsApart m' head' ∧
      m'.identities = m.identities ∧ head'.sourceRefs = head.sourceRefs ∧ head'.state.allowed .reviewRequired = true := by
  by_cases hs : head.state = .detected
  · have hdeclared : head.declaredAt ≤ later head.availableAt decisionAt := head.known_ok.trans (le_later_left _ _)
    obtain ⟨row, hrow⟩ : ∃ row, eventWithState head .entryBlocked (later head.availableAt decisionAt) head.sourceRefs = .ok row :=
      ⟨_, by rw [eventWithState, dif_pos hdeclared, dif_pos ⟨head.refs_ok.1, head.refs_ok.2.1⟩, dif_pos head.refs_ok.2.2]⟩
    obtain ⟨hsame, hstate, -, hrefs⟩ := eventWithState_ok hrow
    have hfollows : head.Follows row := follows_of_row (by rw [hs]; rfl) hrow
    obtain ⟨m', happ, hids, hchained, hrows, hmem⟩ := h.append htells hfollows (by rw [hstate]; decide)
    have hafter : Pending m' e root row := h.after hids hchained hrows (by rw [hstate]; rfl)
    have hhead : requireHead ((m'.rowsOf e).map EventRow.record) = .ok row := by rw [requireHead, hafter.last]
    refine ⟨row, m', ?_, hafter, ⟨?_, ?_⟩, hids, hrefs, by rw [hstate]; rfl⟩
    · simp only [blockIfDetected, if_pos hs, hrow, happ, hafter.lineage, hhead, bind, Except.bind, pure, Except.pure]
    · exact fun a b ha hb => htells.states a b (hsame.trans ha) (hsame.trans hb)
    · intro r hr b hb hkey
      obtain hr | hr := hmem r hr
      · exact htells.events r hr b (hsame.trans hb) hkey
      · rw [hr]
        exact hb.eventId
  · refine ⟨head, m, by rw [blockIfDetected, if_neg hs], h, htells, rfl, rfl, ?_⟩
    have hactive := h.active
    cases hstate : head.state <;> rw [hstate] at hs hactive <;> first | rfl | cases hactive

end Pending

/-! ### The observations -/

/-- Every observation is of a version in the log, at the instant at which it became available. -/
def SourceBound (log : RecordLog) (observations : List SourceObservation) : Prop :=
  ∀ o ∈ observations, log.availableAt o.sourceRef = .ok o.availableAt

theorem SourceBound.read (h : SourceBound log observations) {o : SourceObservation} (ho : o ∈ observations) :
    ∃ record, log.read o.sourceRef = .ok record := by
  obtain ⟨record, hread, -⟩ := bind_ok.mp (h o ho)
  exact ⟨record, hread⟩

theorem SourceBound.validateRefs (h : SourceBound log observations)
    (hdistinct : (observations.map (fun o => o.sourceRef.recordId)).Nodup) :
    ∃ records, log.validateRefs (observations.map (·.sourceRef)) none = .ok records := by
  refine RecordLog.validateRefsFrom_total (fun ref href => ?_) (by rwa [List.map_map]) (by simp)
  obtain ⟨o, ho, rfl⟩ := List.mem_map.mp href
  obtain ⟨record, hread⟩ := h.read ho
  exact ⟨record, hread, nofun⟩

theorem isCurrent_total {ref : SourceRef} {record : NormalizedSourceRecord} (h : log.read ref = .ok record) :
    ∃ b, log.isCurrent ref = .ok b := by
  obtain ⟨hmem, hid, -, -⟩ := RecordLog.read_ok.mp h
  have hversion : record ∈ log.versions ref.recordId := List.mem_filter.mpr ⟨hmem, by simp [hid]⟩
  obtain ⟨current, hcurrent⟩ := Option.isSome_iff_exists.mp (List.getLast?_isSome.mpr (List.ne_nil_of_mem hversion))
  rw [RecordLog.isCurrent, RecordLog.current, hcurrent]
  exact ⟨_, rfl⟩

/-- Observations that are source-bound are revalidated, and stay about the same records. -/
theorem SourceBound.revalidated (h : SourceBound log observations) : ∃ validated,
    observations.mapM (revalidateObservation log) = .ok validated ∧ validated.map (·.sourceRef) = observations.map (·.sourceRef) := by
  obtain ⟨validated, hvalidated⟩ : ∃ validated, observations.mapM (revalidateObservation log) = .ok validated := by
    refine Dict.exists_mapM fun o ho => ?_
    obtain ⟨record, hread⟩ := h.read ho
    obtain ⟨b, hb⟩ := isCurrent_total hread
    simp only [revalidateObservation, h o ho, requireOr, if_true, hb, bind, Except.bind]
    split_ifs <;> exact ⟨_, rfl⟩
  refine ⟨validated, hvalidated, ?_⟩
  rw [← List.forall₂_eq_eq_eq, List.forall₂_map_left_iff, List.forall₂_map_right_iff]
  exact (Dict.forall₂_of_mapM hvalidated).flip.imp fun _ _ hov => revalidateObservation_ref hov

theorem ObservationsOk.congr {validated : List SourceObservation} {lineage : List CorporateActionRecord}
    (h : ObservationsOk observations lineage) (hrefs : validated.map (·.sourceRef) = observations.map (·.sourceRef)) :
    ObservationsOk validated lineage := by
  have hlen := congrArg List.length hrefs
  rw [List.length_map, List.length_map] at hlen
  refine ⟨⟨fun hnil => h.bounded.1 ?_, hlen ▸ h.bounded.2⟩, ?_, fun r hr ref href => ?_⟩
  · rw [hnil, List.length_nil] at hlen
    exact List.eq_nil_of_length_eq_zero hlen.symm
  · have hdistinct := h.distinct
    rw [show (fun o : SourceObservation => o.sourceRef.recordId) = SourceRef.recordId ∘ (·.sourceRef) from rfl, ← List.map_map] at hdistinct ⊢
    rwa [hrefs]
  · obtain ⟨o, ho, hid, hhash⟩ := h.covering r hr ref href
    have hmem : o.sourceRef ∈ validated.map (·.sourceRef) := hrefs ▸ List.mem_map_of_mem ho
    obtain ⟨o', ho', heq⟩ := List.mem_map.mp hmem
    exact ⟨o', ho', heq ▸ hid, heq ▸ hhash⟩

/-! ### The review -/

/-- The identity does not resolve to the version that the event pins, or something is found about the sources. -/
def Contested (log : RecordLog) (m : Master D) (root : CorporateActionRecord) (observations : List SourceObservation)
    (decisionAt : UtcTimestamp) : Prop :=
  ∀ identity validated, identityResolutionForEvent m root decisionAt = .ok (.resolved identity) →
    D.identity identity = root.securityIdentityHash → observations.mapM (revalidateObservation log) = .ok validated →
    confirmationFindings D root identity validated decisionAt ≠ []

/-- The call returns, and the head that it commits is in review. -/
def ReviewReached (s : State D) (e : EventId) (observations : List SourceObservation) (decisionAt : UtcTimestamp) : Prop :=
  ∃ head m' rows, confirmSplit s.log s.master e observations decisionAt = .ok (head, m') ∧
    (s.after (.confirmSplit e observations decisionAt)).master.eventLineage e = .ok rows ∧ rows.getLast? = some head ∧
    head.state = .reviewRequired

theorem Pending.root_detected (h : Pending m e root head) : root.state = .detected := by
  have hfirst := h.first
  rw [List.head?_map, Option.map_eq_some_iff] at hfirst
  obtain ⟨row, hrow, rfl⟩ := hfirst
  exact h.chained.detected row hrow

theorem length_of_decideSplit {m' : Master D} (h : decideSplit m root head observations decisionAt = .ok m') :
    (m.identitiesOf root.securityId).length ≤ maxResolutionRecords := by
  obtain ⟨_, hresolution, -⟩ := bind_ok.mp h
  exact resolveIdentity_length hresolution

/-- A contested event is sent to review. -/
theorem decideSplit_contested (hlen : (m.identitiesOf root.securityId).length ≤ maxResolutionRecords)
    (hroot : root.state = .detected) (hok : ObservationsOk observations [root])
    (hcontested : ∀ identity, identityResolutionForEvent m root decisionAt = .ok (.resolved identity) →
      D.identity identity = root.securityIdentityHash → confirmationFindings D root identity observations decisionAt ≠ []) :
    decideSplit m root head observations decisionAt = appendReviewIfPossible m head observations decisionAt := by
  obtain ⟨x, hx⟩ : ∃ x, identityResolutionForEvent m root decisionAt = .ok x := ⟨_, resolveIdentity_eq hlen⟩
  rw [decideSplit, hx]
  cases x with
  | resolved identity =>
    by_cases hpin : D.identity identity = root.securityIdentityHash
    · have hpre : root.state.isPreConfirmation = true := by rw [hroot]; rfl
      have hvalid : validateObservations observations [root] = .ok () := validateObservations_ok.mpr hok
      simp only [evaluateConfirmation, hpin, require, requireOr, hpre, hvalid, hcontested identity hx hpin, bind, Except.bind,
        ne_eq, not_true, not_false_eq_true, if_true, if_false, pure, Except.pure, applyConfirmationEvaluation]
    · simp only [bind, Except.bind, ne_eq, hpin, not_false_eq_true, if_true]
  | unknown => rfl
  | ambiguous => rfl
  | conflict => rfl
  | stale => rfl

theorem refsFit_congr {head' : CorporateActionRecord} {validated : List SourceObservation} (hhead : head'.sourceRefs = head.sourceRefs)
    (hrefs : validated.map (·.sourceRef) = observations.map (·.sourceRef)) : RefsFit head' validated ↔ RefsFit head observations := by
  rw [RefsFit, RefsFit, hhead, hrefs]

/-- A contested event reaches the review exactly if the merged sources make up a record and the identity records can be
resolved; otherwise the call raises, and the event stays where it was. -/
theorem review_reached_iff {s : State D} (h : Pending s.master e root head) (htells : TellsApart s.master head)
    (hbound : SourceBound s.log observations) (hok : ObservationsOk observations [root])
    (hcontested : Contested s.log s.master root observations decisionAt) :
    ReviewReached s e observations decisionAt ↔
      (s.master.identitiesOf root.securityId).length ≤ maxResolutionRecords ∧ RefsFit head observations := by
  obtain ⟨validated, hvalidated, hrefs⟩ := hbound.revalidated
  obtain ⟨records, hrecords⟩ : ∃ records, s.log.validateRefs (observations.map (·.sourceRef)) none = .ok records :=
    hbound.validateRefs hok.distinct
  obtain ⟨head', m₁, hblock, hpending, htells', hids, hsources, hallowed⟩ := h.blocked htells decisionAt
  have hhead : requireHead ((s.master.rowsOf e).map EventRow.record) = .ok head := by rw [requireHead, h.last]
  have hroot : ((s.master.rowsOf e).map EventRow.record).headD head = root := by
    rw [List.headD_eq_head?_getD, h.first]
    rfl
  have hcall : confirmSplit s.log s.master e observations decisionAt = (do
      let m ← decideSplit m₁ root head' validated decisionAt
      let result ← requireHead (← m.eventLineage e)
      return (result, m)) := by
    simp only [confirmSplit, hrecords, hvalidated, h.lineage, hhead, hroot, hblock, bind, Except.bind]
  have hfound : ∀ identity, identityResolutionForEvent m₁ root decisionAt = .ok (.resolved identity) →
      D.identity identity = root.securityIdentityHash → confirmationFindings D root identity validated decisionAt ≠ [] := by
    intro identity hidentity hpin
    refine hcontested identity validated ?_ hpin hvalidated
    rwa [identityResolutionForEvent, Master.identitiesOf, ← hids]
  have hreview : appendReviewIfPossible m₁ head' validated decisionAt = appendDecided m₁ head' .reviewRequired validated decisionAt :=
    if_neg (by simp [hpending.active])
  have hidentities : m₁.identitiesOf root.securityId = s.master.identitiesOf root.securityId := by
    rw [Master.identitiesOf, hids, Master.identitiesOf]
  rw [← refsFit_congr hsources hrefs, ← hidentities, ← hpending.decided_iff htells' hallowed (by decide)]
  constructor
  · rintro ⟨head, m', rows, hconfirm, -⟩
    rw [hcall] at hconfirm
    obtain ⟨m₂, hdecide, -⟩ := bind_ok.mp hconfirm
    have hlen := length_of_decideSplit hdecide
    refine ⟨hlen, m₂, ?_⟩
    rwa [decideSplit_contested hlen h.root_detected (hok.congr hrefs) hfound, hreview] at hdecide
  · rintro ⟨hlen, m₂, hdecided⟩
    obtain ⟨rows, row, hlineage, hlast, hstate⟩ := hpending.head_of_decided htells' hallowed (by decide) hdecided
    have hrow : requireHead rows = .ok row := by rw [requireHead, hlast]
    have hconfirm : confirmSplit s.log s.master e observations decisionAt = .ok (row, m₂) := by
      rw [hcall, decideSplit_contested hlen h.root_detected (hok.congr hrefs) hfound, hreview, hdecided]
      simp only [hlineage, hrow, bind, Except.bind, pure, Except.pure]
    refine ⟨row, m₂, rows, hconfirm, ?_, hlast, hstate⟩
    rw [State.after, hconfirm]
    exact hlineage

/-! ### Reachable states -/

theorem pinsIdentity_of_appendEvent {record : CorporateActionRecord} {previous : Option Hash} {outcome : AppendOutcome}
    {m' : Master D} (hm : ∀ row ∈ m.events.rows, m.PinsIdentity row.record)
    (h : m.appendEvent record previous = .ok (outcome, m')) : ∀ row ∈ m'.events.rows, m'.PinsIdentity row.record := by
  have hpins : m.PinsIdentity record := by
    obtain ⟨_, hp, -⟩ := bind_ok.mp h
    exact requireOr_ok.mp hp
  obtain ⟨rfl, -⟩ | ⟨hnone, -, rfl⟩ := Master.appendEvent_ok h
  · exact hm
  · intro row hrow
    obtain hrow | rfl := (Table.mem_add_iff hnone).mp hrow
    · exact hm row hrow
    · exact hpins

theorem Reachable.pinned {s : State D} (hs : Reachable s) : ∀ row ∈ s.master.events.rows, s.master.PinsIdentity row.record := by
  refine hs.of_changes (P := fun _ m => ∀ row ∈ m.events.rows, m.PinsIdentity row.record) ?_ (fun _ h => h) fun hc hm => ?_
  · rintro row ⟨⟩
  · cases hc with
    | identity _ append =>
      obtain ⟨rfl, -⟩ | ⟨hnone, hids, hev, -⟩ := Master.appendIdentity_ok append
      · exact hm
      · intro row hrow
        rw [hev] at hrow
        obtain ⟨identity, hget, hsid⟩ := hm row hrow
        refine ⟨identity, ?_, hsid⟩
        rw [hids, ← Table.key_of_get hget]
        exact Table.get_of_mem ((Table.mem_add_iff hnone).mpr (Or.inl (Table.mem_of_get hget)))
    | root _ _ append _ append' => exact pinsIdentity_of_appendEvent (pinsIdentity_of_appendEvent hm append) append'
    | transition _ _ append => exact pinsIdentity_of_appendEvent hm append
    | decision record =>
      obtain ⟨rfl, -⟩ | ⟨-, rfl⟩ := Master.recordDecision_ok record
      · exact hm
      · exact hm

/-- The stored events of a reachable state with a head that is not final. -/
theorem Reachable.pending {s : State D} (hs : Reachable s) {rows : List CorporateActionRecord}
    (hrows : s.master.eventLineage e = .ok rows) (hroot : rows.head? = some root) (hhead : rows.getLast? = some head)
    (hactive : head.state.isTerminal = false) : Pending s.master e root head := by
  have hchained := (hs.eventsSound e).1
  rw [hchained.eventLineage_eq, Except.ok.injEq] at hrows
  subst hrows
  refine ⟨hchained, hroot, hhead, hactive, ?_⟩
  obtain ⟨row, hrow, rfl⟩ := List.mem_map.mp (List.mem_of_head? hroot)
  exact hs.pinned row (Master.mem_rowsOf.mp hrow).1

/-! ### A withdrawn notice among seventeen -/

/-- Digests that tell the states of a row apart. -/
def stateDigests : Digests :=
  { sampleDigests with
    event := fun r =>
      match r.state with
      | .detected => repeated 'd' (Eq.refl true)
      | .entryBlocked => repeated 'e' (Eq.refl true)
      | .confirmed => repeated 'c' (Eq.refl true)
      | .reviewRequired => repeated 'f' (Eq.refl true)
      | .effectivePendingReconciliation => repeated '0' (Eq.refl true) }

theorem furtherNotice_ok : ∀ k : Fin 16, recordIdPattern.fullmatch ("notice-" ++ String.singleton (Char.ofNat (97 + k))) = true := by
  decide

/-- Sixteen notices beside `sampleNotice`. -/
def furtherNotice (k : Fin 16) : SourceRef :=
  ⟨"notice-" ++ String.singleton (Char.ofNat (97 + k)), .alpacaCorporateActions, repeated '2' (Eq.refl true), furtherNotice_ok k⟩

def seventeenNotices : List SourceRef := sampleNotice :: (List.finRange 16).map furtherNotice

/-- The sample event after its discovery, with the notices in the log. -/
def blockedState : State stateDigests :=
  ((((sampleRef :: seventeenNotices).foldl (fun s ref => s.after (.appendSource (sampleRecord ref))) State.initial).after
    (.registerIdentity sampleIdentity)).after (.discoverSplit sampleEvent))

def withdrawnNotice (ref : SourceRef) : SourceObservation := ⟨ref, sampleTime 0, true, true, none, none, none, none⟩

theorem blockedState_reachable : Reachable blockedState := by
  have hfold : ∀ (refs : List SourceRef) (s : State stateDigests), Reachable s →
      Reachable (refs.foldl (fun s ref => s.after (.appendSource (sampleRecord ref))) s) := by
    intro refs
    induction refs with
    | nil => exact fun s hs => hs
    | cons ref refs ih => exact fun s hs => ih _ (hs.after _)
  exact ((hfold _ _ .refl).after _).after _

/-- The head after the discovery. -/
def blockedEvent : CorporateActionRecord := { sampleEvent with state := .entryBlocked }

theorem blockedState_pending : Pending blockedState.master sampleEvent.eventId sampleEvent blockedEvent :=
  blockedState_reachable.pending (show blockedState.master.eventLineage sampleEvent.eventId = .ok [sampleEvent, blockedEvent] by decide +kernel)
    rfl rfl rfl

theorem blockedState_tellsApart : TellsApart blockedState.master blockedEvent where
  states a b _ _ h := by
    cases ha : a.state <;> cases hb : b.state <;> simp only [stateDigests, ha, hb] at h <;> first | rfl | exact absurd h (by decide)
  events row hrow b hb _ := by
    have hrows : ∀ row ∈ blockedState.master.events.rows, row.record.eventId = blockedEvent.eventId := by decide +kernel
    exact (hrows row hrow).trans hb.eventId

/-- A withdrawn observation contests the event. -/
theorem contested_of_withdrawn {o : SourceObservation} (ho : o ∈ observations) (hw : o.withdrawn = true) :
    Contested log m root observations decisionAt := by
  intro identity validated _ _ hvalidated hnil
  obtain ⟨o', ho', heq⟩ := Dict.exists_of_forall₂ (Dict.forall₂_of_mapM hvalidated) ho
  obtain ⟨_, -, heq⟩ := bind_ok.mp heq
  obtain ⟨_, -, heq⟩ := bind_ok.mp heq
  rw [if_pos hw] at heq
  cases heq
  have hany : validated.any (·.withdrawn) = true := List.any_eq_true.mpr ⟨o, ho', hw⟩
  simp [confirmationFindings, finding, hany] at hnil

/-- The notice alone, withdrawn, brings the event into review. -/
theorem withdrawn_notice_reviewed : ReviewReached blockedState sampleEvent.eventId ([sampleNotice].map withdrawnNotice) (sampleTime 1) := by
  have hbound : SourceBound blockedState.log ([sampleNotice].map withdrawnNotice) := by
    unfold SourceBound
    decide +kernel
  have hok : ObservationsOk ([sampleNotice].map withdrawnNotice) [sampleEvent] := ⟨by decide, by decide, by decide⟩
  refine (review_reached_iff blockedState_pending blockedState_tellsApart hbound hok
    (contested_of_withdrawn List.mem_cons_self rfl)).mpr ⟨by decide +kernel, ?_⟩
  unfold RefsFit
  decide

/-- With sixteen more notices the review row has too many sources, and the call raises. -/
theorem withdrawn_notice_unreviewed : ¬ ∀ (s : State stateDigests) (e : EventId) (root head : CorporateActionRecord)
    (observations : List SourceObservation) (decisionAt : UtcTimestamp), Reachable s → Pending s.master e root head →
    TellsApart s.master head → SourceBound s.log observations → ObservationsOk observations [root] →
    Contested s.log s.master root observations decisionAt → ReviewReached s e observations decisionAt := by
  intro h
  have hbound : SourceBound blockedState.log (seventeenNotices.map withdrawnNotice) := by
    unfold SourceBound
    decide +kernel
  have hok : ObservationsOk (seventeenNotices.map withdrawnNotice) [sampleEvent] := ⟨by decide, by decide, by decide⟩
  obtain ⟨head, m', rows, hconfirm, -⟩ := h blockedState _ _ _ _ (sampleTime 1) blockedState_reachable blockedState_pending
    blockedState_tellsApart hbound hok (contested_of_withdrawn List.mem_cons_self rfl)
  have hraises : (confirmSplit blockedState.log blockedState.master sampleEvent.eventId (seventeenNotices.map withdrawnNotice)
    (sampleTime 1)).isOk = false := by decide +kernel
  rw [hconfirm] at hraises
  cases hraises

end SevenLens.Securities
