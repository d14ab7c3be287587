import SevenLens.Securities.EventChains

/-! # Point-in-time quarantine

What becomes available after the decision time of a query does not change what the query
is answered with: not an identity, not an event row and not a version of a source record
(`decision_stable`).  The one thing that later records can do is to exceed the number of
identity records that `resolveIdentity` takes.

Every part of the evaluation cuts at the decision time on its own: the reader
(`isCurrentAt_eq`), the evidence of an event (`evidenceFor_eq`), and the resolver, for which only
the visible records count (`evaluateQuarantine_congr`). -/

namespace SevenLens.Securities

open CorporateActionRecord (Follows SameEvent)

variable {D : Digests}

/-! ### Extensions -/

/-- The second list is the first one and then entries that come late. -/
def ExtendsBy {α : Type} (late : α → Prop) (l l' : List α) : Prop := ∃ more, l' = l ++ more ∧ ∀ a ∈ more, late a

theorem ExtendsBy.filter {α : Type} {late : α → Prop} {l l' : List α} (h : ExtendsBy late l l') {p : α → Bool}
    (hp : ∀ a, late a → p a = false) : l'.filter p = l.filter p := by
  obtain ⟨more, rfl, hl⟩ := h
  have hnil : more.filter p = [] := by
    rw [List.filter_eq_nil_iff]
    intro a ha
    simp [hp a (hl a ha)]
  rw [List.filter_append, hnil, List.append_nil]

theorem ExtendsBy.of_filter {α : Type} {late : α → Prop} {l l' : List α} (h : ExtendsBy late l l') (p : α → Bool) :
    ExtendsBy late (l.filter p) (l'.filter p) := by
  obtain ⟨more, rfl, hl⟩ := h
  exact ⟨more.filter p, List.filter_append _ _, fun a ha => hl a (List.mem_of_mem_filter ha)⟩

theorem ExtendsBy.subset {α : Type} {late : α → Prop} {l l' : List α} (h : ExtendsBy late l l') : l ⊆ l' := by
  obtain ⟨more, rfl, -⟩ := h
  exact List.subset_append_left l more

/-- The second state is the first one and then records that become available after `t`. -/
structure Extends (t : UtcTimestamp) (s s' : State D) : Prop where
  log : ExtendsBy (fun r => t < r.available) s.log.rows s'.log.rows
  identities : ExtendsBy (fun r => t < r.availableAt) s.master.identities.rows s'.master.identities.rows
  events : ExtendsBy (fun row => t < row.record.availableAt) s.master.events.rows s'.master.events.rows

/-! ### Stored references can be read -/

/-- Every stored record names source versions that are in the log. -/
structure Sourced (log : RecordLog) (m : Master D) : Prop where
  identities : ∀ r ∈ m.identities.rows, log.Readable r.sourceRefs
  events : ∀ row ∈ m.events.rows, log.Readable row.record.sourceRefs

theorem Sourced.appendEvent {log : RecordLog} {m m' : Master D} {record : CorporateActionRecord}
    {previous : Option Hash} {outcome : AppendOutcome} (hm : Sourced log m) (hr : log.Readable record.sourceRefs)
    (h : m.appendEvent record previous = .ok (outcome, m')) : Sourced log m' := by
  rcases Master.appendEvent_ok h with ⟨rfl, -⟩ | ⟨hnone, -, rfl⟩
  · exact hm
  · refine ⟨hm.identities, fun row hrow => ?_⟩
    rcases (Table.mem_add_iff hnone).mp hrow with hrow | rfl
    · exact hm.events row hrow
    · exact hr

theorem Change.sourced {log : RecordLog} {m m' : Master D} (h : Change log m m') (hm : Sourced log m) :
    Sourced log m' := by
  cases h with
  | identity readable append =>
    rcases Master.appendIdentity_ok append with ⟨rfl, -⟩ | ⟨hnone, hids, hev, -, -⟩
    · exact hm
    · refine ⟨fun r hr => ?_, hev ▸ hm.events⟩
      rw [hids] at hr
      rcases (Table.mem_add_iff hnone).mp hr with hr | rfl
      · exact hm.identities r hr
      · exact readable
  | root detected readable append block append' =>
    refine (hm.appendEvent readable append).appendEvent ?_ append'
    rw [(eventWithState_ok block).2.2.2]
    exact readable
  | transition later known append =>
    refine hm.appendEvent (fun ref href => ?_) append
    rcases known ref href with ⟨row, hrow, hmem⟩ | h
    · exact hm.events row hrow ref hmem
    · exact h
  | decision record =>
    rcases Master.recordDecision_ok record with ⟨rfl, -⟩ | ⟨-, rfl⟩
    · exact hm
    · exact ⟨hm.identities, hm.events⟩

theorem Reachable.sourced {s : State D} (hs : Reachable s) : Sourced s.log s.master := by
  refine hs.of_changes (P := Sourced) ⟨?_, ?_⟩ ?_ (fun h hm => h.sourced hm)
  · rintro r ⟨⟩
  · rintro row ⟨⟩
  · intro log log' m hg hm
    exact ⟨fun r hr => (hm.identities r hr).of_grows hg, fun row hrow => (hm.events row hrow).of_grows hg⟩

/-! ### The reader -/

section Reader

variable {t : UtcTimestamp} {log log' : RecordLog} (hlog : ExtendsBy (fun r => t < r.available) log.rows log'.rows)

include hlog

theorem grows_of_extendsBy : log.Grows log' := by
  obtain ⟨more, h, -⟩ := hlog
  exact ⟨more, h.symm⟩

theorem read_eq {ref : SourceRef} (hr : ∃ record, log.read ref = .ok record) : log'.read ref = log.read ref := by
  obtain ⟨record, hr⟩ := hr
  rw [hr]
  exact RecordLog.read_of_grows (grows_of_extendsBy hlog) hr

/-- Which version is current at `t` does not depend on later versions. -/
theorem isCurrentAt_eq {ref : SourceRef} (hr : ∃ record, log.read ref = .ok record) :
    log'.isCurrentAt ref t = log.isCurrentAt ref t := by
  have hv : (log'.versions ref.recordId).filter (fun r => decide (r.available ≤ t)) =
      (log.versions ref.recordId).filter (fun r => decide (r.available ≤ t)) :=
    (hlog.of_filter _).filter (fun r hr => by simpa using hr)
  unfold RecordLog.isCurrentAt
  rw [read_eq hlog hr, hv]

theorem observationFromStoredRef_eq {ref : SourceRef} (hr : ∃ record, log.read ref = .ok record)
    (head : CorporateActionRecord) :
    observationFromStoredRef log' ref head t = observationFromStoredRef log ref head t := by
  unfold observationFromStoredRef RecordLog.availableAt
  rw [read_eq hlog hr, isCurrentAt_eq hlog hr]

end Reader

/-! ### Evidence -/

section Evidence

variable {t : UtcTimestamp} {s s' : State D} (hx : Extends t s s') (hs : Reachable s) (hs' : Reachable s')

include hx in
theorem rowsOf_extendsBy (e : EventId) :
    ExtendsBy (fun row => t < row.record.availableAt) (s.master.rowsOf e) (s'.master.rowsOf e) :=
  hx.events.of_filter _

include hx in
/-- The rows of an event that are known at `t`. -/
theorem visible_eq (e : EventId) :
    ((s'.master.rowsOf e).map EventRow.record).filter (·.knownAt t) =
      ((s.master.rowsOf e).map EventRow.record).filter (·.knownAt t) := by
  rw [List.filter_map, List.filter_map, (rowsOf_extendsBy hx e).filter]
  intro row hrow
  simpa [CorporateActionRecord.knownAt] using hrow

include hx hs hs' in
/-- The evidence about an event at `t`. -/
theorem evidenceFor_eq (e : EventId) :
    evidenceFor s'.log s'.master t e = evidenceFor s.log s.master t e := by
  unfold evidenceFor
  rw [(hs.eventsSound e).1.eventLineage_eq, (hs'.eventsSound e).1.eventLineage_eq]
  simp only [bind, Except.bind, visible_eq hx e]
  split
  · rfl
  · rename_i head _
    cases hm : mergeRefs ((((s.master.rowsOf e).map EventRow.record).filter (·.knownAt t)).flatMap
        (·.sourceRefs)) with
    | error failure => rfl
    | ok refs =>
      have hobs : refs.mapM (fun ref => observationFromStoredRef s'.log ref head t) =
          refs.mapM (fun ref => observationFromStoredRef s.log ref head t) := by
        refine Dict.mapM_congr fun ref href => observationFromStoredRef_eq hx.log ?_ head
        obtain ⟨record, hrecord, href⟩ := List.mem_flatMap.mp (mem_of_mergeRefs hm href)
        obtain ⟨row, hrow, rfl⟩ := List.mem_map.mp (List.mem_of_mem_filter hrecord)
        exact hs.sourced.events row (Master.mem_rowsOf.mp hrow).1 ref href
      simp only [hobs]

include hs in
/-- An event without a row in the first state shows nothing. -/
theorem evidenceFor_of_rowsOf_nil {e : EventId} (h : s.master.rowsOf e = []) :
    evidenceFor s.log s.master t e = .ok none := by
  unfold evidenceFor
  rw [(hs.eventsSound e).1.eventLineage_eq, h]
  rfl

theorem mem_securityEventIds {m : Master D} {sid : SecurityId} {e : EventId} :
    e ∈ m.securityEventIds sid ↔ ∃ row ∈ m.rowsOf e, row.record.securityId = sid := by
  unfold Master.securityEventIds
  rw [List.mem_sortOn, List.mem_dedup, List.mem_map]
  constructor
  · rintro ⟨row, hrow, rfl⟩
    obtain ⟨hrow, hs⟩ := List.mem_filter.mp hrow
    exact ⟨row, Master.mem_rowsOf.mpr ⟨hrow, rfl⟩, by simpa using hs⟩
  · rintro ⟨row, hrow, hs⟩
    obtain ⟨hrow, he⟩ := Master.mem_rowsOf.mp hrow
    exact ⟨row, List.mem_filter.mpr ⟨hrow, by simpa using hs⟩, he⟩

theorem pairwise_securityEventIds (m : Master D) (sid : SecurityId) : (m.securityEventIds sid).Pairwise (· < ·) :=
  @List.pairwise_lt_sortOn _ _ _ id _ (by simpa using List.nodup_dedup _)

/-- The rows of one event are about one security. -/
theorem securityId_eq_of_rowsOf {m : Master D} {e : EventId} (hc : m.Chained e) {row row' : EventRow}
    (h : row ∈ m.rowsOf e) (h' : row' ∈ m.rowsOf e) : row.record.securityId = row'.record.securityId := by
  have hchain := hc.chain
  cases hrows : (m.rowsOf e).map EventRow.record with
  | nil =>
    have hmem := List.mem_map_of_mem (f := EventRow.record) h
    rw [hrows] at hmem
    cases hmem
  | cons root rest =>
    rw [hrows] at hchain
    have hsame : ∀ row ∈ m.rowsOf e, root.securityId = row.record.securityId := by
      intro row hrow
      have hmem := List.mem_map_of_mem (f := EventRow.record) hrow
      rw [hrows] at hmem
      exact (sameEvent_of_isChain hchain _ hmem).1.securityId
    exact (hsame row h).symm.trans (hsame row' h')

include hx hs hs' in
/-- The evidence about a security at `t`. -/
theorem evidence_eq (sid : SecurityId) :
    ((s'.master.securityEventIds sid).mapM (evidenceFor s'.log s'.master t)).map (List.filterMap id) =
      ((s.master.securityEventIds sid).mapM (evidenceFor s.log s.master t)).map (List.filterMap id) := by
  have hids : (s'.master.securityEventIds sid).filter (fun e => decide (e ∈ s.master.securityEventIds sid)) =
      s.master.securityEventIds sid := by
    refine @List.eq_of_pairwise_lt _ _ _ id _ _ ((pairwise_securityEventIds _ sid).filter _)
      (pairwise_securityEventIds _ sid) ?_
    intro e
    rw [List.mem_filter, decide_eq_true_eq, and_iff_right_iff_imp]
    intro he
    obtain ⟨row, hrow, hsid⟩ := mem_securityEventIds.mp he
    exact mem_securityEventIds.mpr ⟨row, (rowsOf_extendsBy hx e).subset hrow, hsid⟩
  rw [Dict.mapM_filterMap_filter (fun e => decide (e ∈ s.master.securityEventIds sid)), hids,
    Dict.mapM_congr fun e _ => evidenceFor_eq hx hs hs' e]
  intro e he hnew
  -- a row of the first state would be about the same security
  have hnil : s.master.rowsOf e = [] := by
    rw [List.eq_nil_iff_forall_not_mem]
    intro row hrow
    obtain ⟨row', hrow', hsid⟩ := mem_securityEventIds.mp he
    have hsame := securityId_eq_of_rowsOf (hs'.eventsSound e).1 ((rowsOf_extendsBy hx e).subset hrow) hrow'
    exact of_decide_eq_false hnew (mem_securityEventIds.mpr ⟨row, hrow, hsame.trans hsid⟩)
  rw [evidenceFor_eq hx hs hs' e]
  exact evidenceFor_of_rowsOf_nil hs hnil

end Evidence

/-! ### Identities -/

section Identities

variable {m : Master D} {q : QuarantineQuery}

/-- The stored records that a query reads. -/
def relevantIdentities (m : Master D) (q : QuarantineQuery) : List SecurityIdentityRecord :=
  m.identities.rows.filter (fun r => decide (r.securityId = q.securityId ∨ r.symbol = q.symbolAsOf))

/-- The two reads of a query, without repetition and in the order of the hashes. -/
theorem identityRecordsFor_ok (m : Master D) (q : QuarantineQuery) :
    ∃ records, identityRecordsFor m q = .ok records ∧ (∀ r, r ∈ records ↔ r ∈ relevantIdentities m q) ∧
      records.Pairwise (fun a b => D.identity a < D.identity b) ∧
      records.length = (relevantIdentities m q).length := by
  have hmem : ∀ r, r ∈ m.identitiesOf q.securityId ++ m.identitiesNamed q.symbolAsOf ↔ r ∈ relevantIdentities m q := by
    intro r
    simp only [Master.identitiesOf, Master.identitiesNamed, relevantIdentities, List.mem_append, List.mem_filter,
      decide_eq_true_eq]
    tauto
  have hrow : ∀ r ∈ relevantIdentities m q, r ∈ m.identities.rows := fun r hr => List.mem_of_mem_filter hr
  have hcheck : (m.identitiesOf q.securityId ++ m.identitiesNamed q.symbolAsOf).Pairwise
      (fun a b => D.identity a = D.identity b → a = b) := by
    refine List.Pairwise.imp_of_mem ?_ (List.pairwise_of_forall (R := fun _ _ => True) fun _ _ => trivial)
    intro a b ha hb _ he
    exact Table.eq_of_mem_of_key (hrow a ((hmem a).mp ha)) (hrow b ((hmem b).mp hb)) he
  have hnodup : (((m.identitiesOf q.securityId ++ m.identitiesNamed q.symbolAsOf).dedup).map D.identity).Nodup := by
    refine List.Nodup.map_on ?_ (List.nodup_dedup _)
    intro a ha b hb he
    exact Table.eq_of_mem_of_key (hrow a ((hmem a).mp (List.mem_dedup.mp ha)))
      (hrow b ((hmem b).mp (List.mem_dedup.mp hb))) he
  refine ⟨_, ?_, ?_, List.pairwise_lt_sortOn hnodup, ?_⟩
  · simp only [identityRecordsFor, dedupeIdentities, requireOr, if_pos hcheck, bind, Except.bind, pure, Except.pure]
  · intro r
    rw [List.mem_sortOn, List.mem_dedup, hmem]
  · have hrel : (relevantIdentities m q).Nodup := (List.Nodup.of_map _ m.identities.nodup).filter _
    rw [List.length_sortOn]
    refine ((List.perm_ext_iff_of_nodup (List.nodup_dedup _) hrel).mpr fun r => ?_).length_eq
    rw [List.mem_dedup, hmem]

/-- The sources of the stored identities are all found. -/
theorem validateRefs_of_sourced {log : RecordLog} (hm : Sourced log m) {records : List SecurityIdentityRecord}
    (hr : ∀ r ∈ records, r ∈ m.identities.rows) :
    ∃ found, records.mapM (fun r => log.validateRefs r.sourceRefs none) = .ok found := by
  refine Dict.exists_mapM fun r hmem => ?_
  refine RecordLog.validateRefsFrom_total (fun ref href => ?_) r.refs_ok.2.2 (by simp)
  obtain ⟨record, hread⟩ := hm.identities r (hr r hmem) ref href
  exact ⟨record, hread, by simp⟩

end Identities

/-! ### The evaluation -/

section Evaluation

variable {q : QuarantineQuery} {records records' : List SecurityIdentityRecord} {events : List EventEvidence}

/-- What the claim of stability is about: the outcome, the events and the sources. -/
def QuarantineDecision.view (d : QuarantineDecision) : QuarantineOutcome × List EventId × List SourceRef :=
  (d.outcome, d.eventIds, d.sourceRefs)

theorem buildDecision_view (resolved : Option SecurityIdentityRecord) (outcome : QuarantineOutcome)
    (reasons reasons' : List QuarantineReason) (eventIds : List EventId) (refs : List SourceRef) :
    (buildDecision D q resolved outcome (sortedReasons reasons) eventIds refs).map QuarantineDecision.view =
      (buildDecision D q resolved outcome (sortedReasons reasons') eventIds refs).map QuarantineDecision.view := by
  unfold buildDecision
  simp only [sortedReasons_idem, dite_true]
  split_ifs <;> rfl

/-- The evaluation depends on the records through the resolved record and on whether there is
a finding about the identity. -/
theorem evaluateQuarantine_view {x x' : IdentityResolution}
    (hx : resolveIdentity D.identity records q.identityQuery = .ok x)
    (hx' : resolveIdentity D.identity records' q.identityQuery = .ok x') (hr : x.record? = x'.record?)
    (hf : identityFindings D q records x ≠ [] ↔ identityFindings D q records' x' ≠ []) :
    (evaluateQuarantine D q records events).map QuarantineDecision.view =
      (evaluateQuarantine D q records' events).map QuarantineDecision.view := by
  unfold evaluateQuarantine
  cases require (events.length ≤ maxEventLineages)
    "event_lineages must be a tuple of at most 16 EventEvidence values" with
  | error e => rfl
  | ok _ =>
    cases require (events.map EventEvidence.eventId?).Nodup "event_lineages must carry unique event identifiers" with
    | error e => rfl
    | ok _ =>
      simp only [bind, Except.bind, hx, hx', hr]
      cases events.mapM (judge D q x'.record?) with
      | error e => rfl
      | ok vs =>
        dsimp only
        cases collectSourceRefs x'.record? ((vs.filterMap id).flatMap Verdict.sourceRefs) with
        | error e => rfl
        | ok refs =>
          simp only [hf]
          exact buildDecision_view ..

theorem filter_of_known {p : SecurityIdentityRecord → Bool} {t : UtcTimestamp}
    (hp : ∀ r, p r = true → r.knownAt t = true)
    (h : records.filter (·.knownAt t) = records'.filter (·.knownAt t)) : records.filter p = records'.filter p := by
  have hsplit : ∀ l : List SecurityIdentityRecord, l.filter p = (l.filter (·.knownAt t)).filter p := by
    intro l
    rw [List.filter_filter]
    refine List.filter_congr fun r _ => ?_
    cases hpr : p r with
    | false => rfl
    | true => rw [hp r hpr]; rfl
  rw [hsplit records, hsplit records', h]

/-- Records that are not yet known do not change the decision. -/
theorem evaluateQuarantine_congr (h : records.filter (·.knownAt q.decisionAt) = records'.filter (·.knownAt q.decisionAt))
    (hlen : records.length ≤ maxResolutionRecords) (hlen' : records'.length ≤ maxResolutionRecords) :
    (evaluateQuarantine D q records events).map QuarantineDecision.view =
      (evaluateQuarantine D q records' events).map QuarantineDecision.view := by
  have hvis : (records.filter (matchesKey q.identityQuery)).filter (·.knownAt q.decisionAt) =
      (records'.filter (matchesKey q.identityQuery)).filter (·.knownAt q.decisionAt) := by
    rw [List.filter_comm, h, List.filter_comm]
  have hclaims : symbolClaimsAreAmbiguous records q = symbolClaimsAreAmbiguous records' q := by
    unfold symbolClaimsAreAmbiguous
    rw [filter_of_known ?_ h]
    intro r hr
    simp only [Bool.and_eq_true, SecurityIdentityRecord.answersAsOf] at hr
    exact hr.2.1
  have hx := @resolveIdentity_eq D.identity records q.identityQuery hlen
  have hx' := @resolveIdentity_eq D.identity records' q.identityQuery hlen'
  by_cases hnil : (records.filter (matchesKey q.identityQuery)).filter (·.knownAt q.decisionAt) = []
  · -- nothing is visible: the security is unknown or only known later, and neither is resolved
    have hopen : ∀ {l : List SecurityIdentityRecord}, l.length ≤ maxResolutionRecords →
        (l.filter (matchesKey q.identityQuery)).filter (·.knownAt q.decisionAt) = [] →
        ∃ x, resolveIdentity D.identity l q.identityQuery = .ok x ∧ x.record? = none ∧
          identityFindings D q l x ≠ [] := by
      intro l hl hv
      rw [resolveIdentity_eq hl]
      refine ⟨_, rfl, ?_⟩
      split_ifs with h1 h2
      · exact ⟨rfl, by simp [identityFindings, resolutionFindings]⟩
      · exact ⟨rfl, by simp [identityFindings, resolutionFindings]⟩
      · exact absurd hv h2
    obtain ⟨x, hx, hr, hf⟩ := hopen hlen hnil
    obtain ⟨x', hx', hr', hf'⟩ := hopen hlen' (hvis.symm.trans hnil)
    exact evaluateQuarantine_view hx hx' (hr.trans hr'.symm) ⟨fun _ => hf', fun _ => hf⟩
  · have hin : ∀ {l : List SecurityIdentityRecord},
        (l.filter (matchesKey q.identityQuery)).filter (·.knownAt q.decisionAt) ≠ [] →
        l.filter (matchesKey q.identityQuery) ≠ [] := by
      intro l hv he
      rw [he] at hv
      exact hv rfl
    have hnil' := hvis ▸ hnil
    have hknown : q.identityQuery.knownAt = q.decisionAt := rfl
    rw [if_neg (hin hnil), hknown, if_neg hnil] at hx
    rw [if_neg (hin hnil'), hknown, if_neg hnil', ← hvis] at hx'
    refine evaluateQuarantine_view hx hx' rfl ?_
    rw [identityFindings, identityFindings, hclaims]

end Evaluation

/-! ### Stability -/

theorem relevant_extendsBy {t : UtcTimestamp} {s s' : State D} (hx : Extends t s s') (q : QuarantineQuery) :
    ExtendsBy (fun r => t < r.availableAt) (relevantIdentities s.master q) (relevantIdentities s'.master q) :=
  hx.identities.of_filter _

/-- `quarantine` returns only what it has computed. -/
theorem computed_of_quarantine {log : RecordLog} {m m' : Master D} {q : QuarantineQuery} {d : QuarantineDecision}
    (h : quarantine log m q = .ok (d, m')) : computeDecision log m q = .ok d := by
  obtain ⟨d', hc, h⟩ := bind_ok.mp h
  obtain ⟨_, -, h⟩ := bind_ok.mp h
  dsimp only at h
  split at h
  · cases h
  · obtain ⟨_, hr, h⟩ := bind_ok.mp h
    cases h
    rw [hc, requireOr_ok.mp hr]

theorem computeDecision_stable {s s' : State D} (hs : Reachable s) (hs' : Reachable s') {q : QuarantineQuery}
    (hx : Extends q.decisionAt s s') (hlen : (relevantIdentities s'.master q).length ≤ maxResolutionRecords) :
    (computeDecision s'.log s'.master q).map QuarantineDecision.view =
      (computeDecision s.log s.master q).map QuarantineDecision.view := by
  obtain ⟨records, hrec, hmem, hsorted, hcount⟩ := identityRecordsFor_ok s.master q
  obtain ⟨records', hrec', hmem', hsorted', hcount'⟩ := identityRecordsFor_ok s'.master q
  obtain ⟨found, hfound⟩ := validateRefs_of_sourced hs.sourced
    (fun r hr => List.mem_of_mem_filter ((hmem r).mp hr))
  obtain ⟨found', hfound'⟩ := validateRefs_of_sourced hs'.sourced
    (fun r hr => List.mem_of_mem_filter ((hmem' r).mp hr))
  have hrel := relevant_extendsBy hx q
  have hknown : records'.filter (·.knownAt q.decisionAt) = records.filter (·.knownAt q.decisionAt) := by
    refine List.eq_of_pairwise_lt (hsorted'.filter _) (hsorted.filter _) fun r => ?_
    have hfilter := hrel.filter (p := (·.knownAt q.decisionAt)) fun r hr => by
      simpa [SecurityIdentityRecord.knownAt] using hr
    have hr : r ∈ (relevantIdentities s'.master q).filter (·.knownAt q.decisionAt) ↔
        r ∈ (relevantIdentities s.master q).filter (·.knownAt q.decisionAt) := by
      rw [hfilter]
    rw [List.mem_filter, List.mem_filter] at hr
    rw [List.mem_filter, List.mem_filter, hmem, hmem', hr]
  have hle : records.length ≤ records'.length := by
    obtain ⟨more, heq, -⟩ := hrel
    rw [hcount, hcount', heq, List.length_append]
    exact Nat.le_add_right _ _
  rw [← hcount'] at hlen
  have hevidence := evidence_eq hx hs hs' q.securityId
  simp only [computeDecision, hrec, hrec', hfound, hfound', bind, Except.bind]
  cases he' : (s'.master.securityEventIds q.securityId).mapM (evidenceFor s'.log s'.master q.decisionAt) with
  | error e =>
    cases he : (s.master.securityEventIds q.securityId).mapM (evidenceFor s.log s.master q.decisionAt) with
    | error e₀ =>
      rw [he, he'] at hevidence
      cases hevidence
      rfl
    | ok evidence =>
      rw [he, he'] at hevidence
      cases hevidence
  | ok evidence' =>
    cases he : (s.master.securityEventIds q.securityId).mapM (evidenceFor s.log s.master q.decisionAt) with
    | error e =>
      rw [he, he'] at hevidence
      cases hevidence
    | ok evidence =>
      rw [he, he'] at hevidence
      have hsame : evidence'.filterMap id = evidence.filterMap id := Except.ok.inj hevidence
      dsimp only
      rw [hsame]
      exact evaluateQuarantine_congr hknown hlen (hle.trans hlen)

/-- A query is answered alike in two states of which the second adds only what becomes
available after the decision time, and no more identity records than the resolver takes. -/
theorem decision_stable {s s' : State D} (hs : Reachable s) (hs' : Reachable s') {q : QuarantineQuery}
    (hx : Extends q.decisionAt s s') (hlen : (relevantIdentities s'.master q).length ≤ maxResolutionRecords) :
    (computeDecision s'.log s'.master q).map QuarantineDecision.view =
        (computeDecision s.log s.master q).map QuarantineDecision.view ∧
      ∀ d d' m₁ m₁', quarantine s.log s.master q = .ok (d, m₁) → quarantine s'.log s'.master q = .ok (d', m₁') →
        d'.view = d.view := by
  have hstable := computeDecision_stable hs hs' hx hlen
  refine ⟨hstable, ?_⟩
  intro d d' m₁ m₁' h h'
  rw [computed_of_quarantine h, computed_of_quarantine h'] at hstable
  exact Except.ok.inj hstable

/-! ### More records than the resolver takes -/

/-- A digest that spells out the low bits of the number. -/
def bitDigest (n : Nat) : Hash :=
  ⟨String.ofList ((List.range 64).map (fun i => if n.testBit i then '1' else '0')), by simp, by
    rw [String.toList_ofList, List.all_map, List.all_eq_true]
    intro i _
    simp only [Function.comp_apply]
    split_ifs <;> decide⟩

theorem bitDigest_injective {a b : Nat} (ha : a < 2 ^ 64) (hb : b < 2 ^ 64) (h : bitDigest a = bitDigest b) : a = b := by
  have htext : (List.range 64).map (fun i => if a.testBit i then '1' else '0') =
      (List.range 64).map (fun i => if b.testBit i then '1' else '0') :=
    String.ofList_injective (congrArg Hash.text h)
  rw [List.map_inj_left] at htext
  refine Nat.eq_of_testBit_eq fun i => ?_
  by_cases hi : i < 64
  · have hbit := htext i (List.mem_range.mpr hi)
    cases hta : a.testBit i <;> cases htb : b.testBit i <;> simp [hta, htb] at hbit ⊢
  · have hpow : 2 ^ 64 ≤ 2 ^ i := Nat.pow_le_pow_right (by decide) (not_lt.mp hi)
    rw [Nat.testBit_lt_two_pow (ha.trans_le hpow), Nat.testBit_lt_two_pow (hb.trans_le hpow)]

/-- Digests that tell identity records with distinct availability apart. -/
def stampDigests : Digests := { sampleDigests with identity := fun r => bitDigest r.availableAt.micros }

/-- So many microseconds after 17:00. -/
def reobservedAt (n : Nat) : UtcTimestamp :=
  ⟨63915930000000000 + n % 5000, by
    have := Nat.mod_lt n (show 0 < 5000 by decide)
    simp only [maxMicros]
    omega⟩

/-- The same observation at another instant. -/
def observedAt (r : SecurityIdentityRecord) (t : UtcTimestamp) : SecurityIdentityRecord := { r with availableAt := t }

theorem intervalKey_observedAt (r : SecurityIdentityRecord) (t : UtcTimestamp) :
    intervalKey (observedAt r t) = intervalKey r := rfl

/-- The sample identity, observed again. -/
def reobserved (n : Nat) : SecurityIdentityRecord := observedAt sampleIdentity (reobservedAt n)

/-- The sample identity is registered again and again. -/
def reobservedState : Nat → State stampDigests
  | 0 => State.initial.after (.appendSource (sampleRecord sampleRef))
  | n + 1 => (reobservedState n).after (.registerIdentity (reobserved n))

theorem reobservedState_reachable (n : Nat) : Reachable (reobservedState n) := by
  induction n with
  | zero => exact Reachable.after .refl _
  | succ n ih => exact ih.after _

theorem reobserved_hash_ne {k n : Nat} (hk : k < n) (hn : n < 5000) :
    stampDigests.identity (reobserved k) ≠ stampDigests.identity (reobserved n) := by
  intro h
  have hmicros : ∀ j, (reobservedAt j).micros < 2 ^ 64 := fun j => by
    have := Nat.mod_lt j (show 0 < 5000 by decide)
    simp only [reobservedAt]
    omega
  have he : (reobservedAt k).micros = (reobservedAt n).micros := bitDigest_injective (hmicros k) (hmicros n) h
  simp only [reobservedAt] at he
  omega

/-- The head of the one interval that the repeated observations have. -/
def reobservedHeads : Nat → List (IdentityKey × Hash)
  | 0 => []
  | n + 1 => [(intervalKey (reobserved n), stampDigests.identity (reobserved n))]

/-- The first records of a run of registrations are all there. -/
structure Reobserved (n : Nat) (s : State stampDigests) : Prop where
  log : s.log = (reobservedState 0).log
  identities : s.master.identities.rows = (List.range n).map reobserved
  heads : s.master.identityHeads = reobservedHeads n
  events : s.master.events = Table.empty

theorem reobserved_validateRefs (n : Nat) : ∃ found,
    (reobservedState 0).log.validateRefs (reobserved n).sourceRefs (some (reobserved n).availableAt) = .ok found := by
  refine RecordLog.validateRefsFrom_total ?_ sampleIdentity.refs_ok.2.2 (by simp)
  intro ref href
  obtain rfl : ref = sampleRef := List.mem_singleton.mp href
  refine ⟨sampleRecord sampleRef, by decide +kernel, ?_⟩
  rintro cutoff ⟨⟩
  show sampleTime 0 ≤ reobservedAt n
  rw [UtcTimestamp.le_iff]
  simp only [sampleTime, reobservedAt, hourMicros]
  norm_num
  omega

/-- The first observation of a security. -/
theorem appendIdentity_first {m : Master D} {record : SecurityIdentityRecord} (hheads : m.identityHeads = [])
    (hnone : m.identities.get (D.identity record) = none) :
    m.appendIdentity record = .ok (.appended, { m with
      identities := m.identities.add record
      identityHeads := [(intervalKey record, D.identity record)] }) := by
  have hover : m.overlapsHead record = false := by simp [Master.overlapsHead, hheads]
  simp [Master.appendIdentity, hnone, hover, requireOr, hheads, Dict.insert, bind, Except.bind, pure, Except.pure]

/-- A later observation of the one interval there is becomes its head. -/
theorem appendIdentity_later {m : Master D} {current record : SecurityIdentityRecord}
    (hheads : m.identityHeads = [(intervalKey record, D.identity current)])
    (hkey : intervalKey current = intervalKey record) (hmem : current ∈ m.identities.rows)
    (hnone : m.identities.get (D.identity record) = none) (hlt : current.availableAt < record.availableAt) :
    m.appendIdentity record = .ok (.appended, { m with
      identities := m.identities.add record
      identityHeads := [(intervalKey record, D.identity record)] }) := by
  have hget : m.identities.get (D.identity current) = some current := Table.get_of_mem hmem
  have hover : m.overlapsHead record = false := by simp [Master.overlapsHead, hheads, hget, hkey]
  simp [Master.appendIdentity, hnone, hover, requireOr, hheads, hget, hlt, ne_of_gt hlt, Dict.insert, bind,
    Except.bind, pure, Except.pure]

theorem reobserved_appendIdentity {n : Nat} (hn : n < 5000) {s : State stampDigests} (h : Reobserved n s) :
    s.master.identities.get (stampDigests.identity (reobserved n)) = none ∧
      s.master.appendIdentity (reobserved n) = .ok (.appended, { s.master with
        identities := s.master.identities.add (reobserved n)
        identityHeads := reobservedHeads (n + 1) }) := by
  have hnone : s.master.identities.get (stampDigests.identity (reobserved n)) = none := by
    rw [Table.get_eq_none_iff, h.identities]
    intro r hr
    obtain ⟨k, hk, rfl⟩ := List.mem_map.mp hr
    exact reobserved_hash_ne (List.mem_range.mp hk) hn
  refine ⟨hnone, ?_⟩
  cases n with
  | zero => exact appendIdentity_first h.heads hnone
  | succ k =>
    have hkey : intervalKey (reobserved k) = intervalKey (reobserved (k + 1)) := by
      rw [reobserved, reobserved, intervalKey_observedAt, intervalKey_observedAt]
    have hheads : s.master.identityHeads = [(intervalKey (reobserved (k + 1)), stampDigests.identity (reobserved k))] := by
      rw [h.heads, reobservedHeads, hkey]
    have hlt : reobservedAt k < reobservedAt (k + 1) := by
      rw [UtcTimestamp.lt_iff]
      simp only [reobservedAt]
      omega
    refine appendIdentity_later hheads hkey ?_ hnone hlt
    rw [h.identities]
    exact List.mem_map_of_mem (List.mem_range.mpr (Nat.lt_succ_self k))

theorem reobserved_register {n : Nat} (hn : n < 5000) {s : State stampDigests} (h : Reobserved n s) :
    Reobserved (n + 1) (s.after (.registerIdentity (reobserved n))) := by
  obtain ⟨found, hfound⟩ := reobserved_validateRefs n
  obtain ⟨hnone, happ⟩ := reobserved_appendIdentity hn h
  have hrows : (s.master.identities.add (reobserved n)).rows = (List.range (n + 1)).map reobserved := by
    rw [Table.add_rows hnone, h.identities, List.range_succ, List.map_append]
    rfl
  have hread : reobserved n ∈ (s.master.identities.add (reobserved n)).rows.filter
      (fun r => decide (r.securityId = (reobserved n).securityId)) := by
    rw [List.mem_filter, hrows]
    exact ⟨List.mem_map_of_mem (List.mem_range.mpr (Nat.lt_succ_self n)), decide_eq_true rfl⟩
  have hreg : registerIdentity s.log s.master (reobserved n) = .ok (.appended, { s.master with
      identities := s.master.identities.add (reobserved n)
      identityHeads := reobservedHeads (n + 1) }) := by
    unfold registerIdentity
    rw [h.log, hfound]
    simp only [bind, Except.bind, happ]
    rw [requireOr, if_pos (by exact hread)]
    rfl
  simp only [State.after, hreg, committed]
  exact ⟨h.log, hrows, rfl, h.events⟩

theorem reobservedState_rows {n : Nat} (hn : n ≤ 5000) : Reobserved n (reobservedState n) := by
  induction n with
  | zero => exact ⟨rfl, rfl, rfl, rfl⟩
  | succ n ih => exact reobserved_register hn (ih (Nat.le_of_succ_le hn))

theorem reobserved_extends {n : Nat} (hn : n ≤ 5000) :
    Extends sampleQuery.decisionAt (reobservedState 0) (reobservedState n) := by
  have h := reobservedState_rows hn
  have hlate : sampleQuery.decisionAt < sampleTime 2 := by decide +kernel
  refine ⟨⟨[], ?_, by simp⟩, ⟨(List.range n).map reobserved, h.identities, ?_⟩, ⟨[], ?_, by simp⟩⟩
  · rw [h.log, List.append_nil]
  · intro r hr
    obtain ⟨k, -, rfl⟩ := List.mem_map.mp hr
    show sampleQuery.decisionAt < reobservedAt k
    refine hlate.trans ?_
    rw [UtcTimestamp.lt_iff]
    simp only [sampleTime, reobservedAt, hourMicros]
    norm_num
    omega
  · rw [h.events]
    rfl

theorem relevant_reobserved {n : Nat} (hn : n ≤ 5000) :
    (relevantIdentities (reobservedState n).master sampleQuery).length = n := by
  rw [relevantIdentities, (reobservedState_rows hn).identities, List.filter_eq_self.mpr, List.length_map,
    List.length_range]
  intro r hr
  obtain ⟨k, -, rfl⟩ := List.mem_map.mp hr
  exact decide_eq_true (Or.inl rfl)

theorem reobserved_refused {n : Nat} (hn : n ≤ 5000) (hmany : maxResolutionRecords < n) :
    computeDecision (reobservedState n).log (reobservedState n).master sampleQuery = refuse tooManyRecords := by
  obtain ⟨records, hrec, hmem, -, hcount⟩ := identityRecordsFor_ok (reobservedState n).master sampleQuery
  rw [relevant_reobserved hn] at hcount
  obtain ⟨found, hfound⟩ := validateRefs_of_sourced (reobservedState_reachable n).sourced
    (fun r hr => List.mem_of_mem_filter ((hmem r).mp hr))
  have hids : (reobservedState n).master.securityEventIds sampleQuery.securityId = [] := by
    rw [Master.securityEventIds, (reobservedState_rows hn).events]
    rfl
  have hlen : ¬ records.length ≤ maxResolutionRecords := by
    rw [hcount]
    exact not_le.mpr hmany
  simp only [computeDecision, hrec, hfound, hids, bind, Except.bind, List.mapM_nil, pure, Except.pure]
  simp only [evaluateQuarantine, resolveIdentity, require, requireOr, if_neg hlen, List.filterMap_nil, List.length_nil,
    List.map_nil, List.nodup_nil, Nat.zero_le, if_true, bind, Except.bind]
  rfl

/-- A query that was answered is refused after 4097 later observations of the security. -/
theorem later_observations_refused :
    Reachable (reobservedState 0) ∧ Reachable (reobservedState 4097) ∧
      Extends sampleQuery.decisionAt (reobservedState 0) (reobservedState 4097) ∧
      (computeDecision (reobservedState 0).log (reobservedState 0).master sampleQuery).map QuarantineDecision.view =
        .ok (.reviewRequired, [], []) ∧
      computeDecision (reobservedState 4097).log (reobservedState 4097).master sampleQuery = refuse tooManyRecords :=
  ⟨reobservedState_reachable 0, reobservedState_reachable 4097, reobserved_extends (by decide), by decide +kernel,
    reobserved_refused (by decide) (by decide)⟩

/-- The query of the sample under these digests. -/
def stampQuery : QuarantineQuery :=
  { sampleQuery with
    masterVersion := masterVersionFor stampDigests sampleIdentity
    version_ok := masterVersionFor_ok stampDigests sampleIdentity }

/-- The sample identity is registered. -/
def knownState : State stampDigests :=
  (State.initial.after (.appendSource (sampleRecord sampleRef))).after (.registerIdentity sampleIdentity)

/-- Then it is observed again at 17:00. -/
def laterState : State stampDigests := knownState.after (.registerIdentity (reobserved 0))

/-- A security that is eligible at 15:00 stays so when it is observed again later. -/
theorem eligible_after_reobservation :
    (computeDecision laterState.log laterState.master stampQuery).map QuarantineDecision.view =
      .ok (.eligible, [], [sampleRef]) := by
  have hs₀ : Reachable (State.initial : State stampDigests) := Relation.ReflTransGen.refl
  have hs : Reachable knownState := (hs₀.after (.appendSource (sampleRecord sampleRef))).after (.registerIdentity sampleIdentity)
  have hs' : Reachable laterState := hs.after (.registerIdentity (reobserved 0))
  have hx : Extends stampQuery.decisionAt knownState laterState := by
    refine ⟨⟨[], by decide +kernel, by simp⟩, ⟨[reobserved 0], by decide +kernel, ?_⟩, ⟨[], by decide +kernel, by simp⟩⟩
    decide +kernel
  have hlen : (relevantIdentities laterState.master stampQuery).length ≤ maxResolutionRecords := by decide +kernel
  rw [(decision_stable hs hs' hx hlen).1]
  decide +kernel

end SevenLens.Securities
