import SevenLens.Screening.Funnel

/-! # The ranking of the quant candidates

The scores of complete vectors are exact in the context, so that the sort keys are the scores
themselves and the order of the candidates is the order by scores and security id (`rankKey`).  A
ranking is the same for every order of the vectors (`rankedCandidates_perm`) and follows the raw
values (`rankKey_lt`). -/

namespace SevenLens.Screening

open Securities Universe

variable {auth : Authority}

/-! ### The order -/

/-- Higher scores come first, by composite, trend, quality, value and low risk, then smaller
security ids. -/
def rankKey (e : CandidateEntry) : ScoreKey :=
  toLex (-e.composite.value, toLex (-e.trend.value, toLex (-e.quality.value, toLex (-e.value.value,
    toLex (-e.lowRisk.value, e.securityId)))))

theorem value_of_minus_exact {a d : Decimal} (ha : context.Representable a.value) (h : context.minus a = .ok d) :
    d.value = -a.value := by
  rw [Decimal.value_of_minus h, Decimal.Context.round_neg, ha]

/-- The key of an entry whose scores are exact. -/
theorem scoreKey_ok {e : CandidateEntry} {key : ScoreKey} (he : e.toScores.Representable) (h : scoreKey e = .ok key) :
    key = rankKey e := by
  simp only [scoreKey, bind_ok, arith_ok] at h
  obtain ⟨composite, hcomposite, trend, htrend, quality, hquality, value, hvalue, lowRisk, hlowRisk, h⟩ := h
  cases h
  rw [rankKey, value_of_minus_exact he.composite hcomposite, value_of_minus_exact he.trend htrend,
    value_of_minus_exact he.quality hquality, value_of_minus_exact he.value hvalue,
    value_of_minus_exact he.lowRisk hlowRisk]

/-- The canonical order of entries with exact scores. -/
theorem canonicalOrder_ok {entries ordered : List CandidateEntry} (he : ∀ e ∈ entries, e.toScores.Representable)
    (h : canonicalOrder entries = .ok ordered) : ordered = entries.sortOn rankKey := by
  obtain ⟨keys, hkeys, h⟩ := bind_ok.mp h
  cases h
  have hmap : keys.zip entries = entries.map (fun e => (rankKey e, e)) := by
    have hf := Dict.forall₂_of_mapM hkeys
    clear hkeys h
    induction hf with
    | nil => rfl
    | @cons e key entries keys hkey _ ih =>
      obtain ⟨hfirst, hrest⟩ := List.forall_mem_cons.mp he
      rw [List.zip_cons_cons, List.map_cons, ih hrest, scoreKey_ok hfirst hkey]
  rw [hmap, List.sortOn_map, List.map_map]
  exact List.map_id _

/-- Two entries with the same key are of the same security. -/
theorem securityId_of_rankKey {a b : CandidateEntry} (h : rankKey a = rankKey b) : a.securityId = b.securityId := by
  simp only [rankKey, toLex_inj, Prod.mk.injEq] at h
  exact h.2.2.2.2.2

theorem nodup_rankKey {entries : List CandidateEntry} (h : (entries.map (fun e => e.securityId)).Nodup) :
    (entries.map rankKey).Nodup := by
  rw [List.Nodup, List.pairwise_map] at h ⊢
  exact h.imp fun hne hkey => hne (securityId_of_rankKey hkey)

/-- Scores that are at least as high come first, unless they are the same and the security id is
not smaller. -/
theorem rankKey_lt {a b : CandidateEntry} (h : a.toScores.AtLeast b.toScores)
    (hdiffer : a.toScores.same b.toScores = false ∨ a.securityId < b.securityId) : rankKey a < rankKey b := by
  have hcomposite := neg_le_neg h.composite
  have htrend := neg_le_neg h.trend
  have hquality := neg_le_neg h.quality
  have hvalue := neg_le_neg h.value
  have hlowRisk := neg_le_neg h.lowRisk
  simp only [rankKey, Prod.Lex.toLex_lt_toLex]
  -- At the first score that differs it is the higher one.
  rcases hcomposite.lt_or_eq with hlt | hcomposite
  · exact .inl hlt
  refine .inr ⟨hcomposite, ?_⟩
  rcases htrend.lt_or_eq with hlt | htrend
  · exact .inl hlt
  refine .inr ⟨htrend, ?_⟩
  rcases hquality.lt_or_eq with hlt | hquality
  · exact .inl hlt
  refine .inr ⟨hquality, ?_⟩
  rcases hvalue.lt_or_eq with hlt | hvalue
  · exact .inl hlt
  refine .inr ⟨hvalue, ?_⟩
  rcases hlowRisk.lt_or_eq with hlt | hlowRisk
  · exact .inl hlt
  refine .inr ⟨hlowRisk, hdiffer.resolve_left fun hsame => ?_⟩
  rw [neg_inj] at hcomposite htrend hquality hvalue hlowRisk
  simp [Scores.same, Decimal.equals, hcomposite, htrend, hquality, hvalue, hlowRisk] at hsame

/-! ### The entries of a ranking -/

/-- The candidate copies the vector and the universe entry, and its scores are the ones computed
from the raw values. -/
structure EntryOf (expected : List (SecurityId × Scores)) (members : List UniverseEntry) (v : FeatureVector auth)
    (e : CandidateEntry) : Prop where
  body : ∃ scores member decision, v.scores = some scores ∧ memberOf members v.securityId = some member ∧
    member.symbol = v.symbol ∧ member.quarantineDecisionHash = some decision ∧
    e.toEntryBody = quantBody v scores decision
  recomputed : ∃ scores, expected.lookup v.securityId = some scores ∧ e.toScores.same scores = true

namespace EntryOf

variable {expected : List (SecurityId × Scores)} {members : List UniverseEntry} {v : FeatureVector auth}
  {e : CandidateEntry}

theorem securityId (h : EntryOf expected members v e) : e.securityId = v.securityId := by
  obtain ⟨scores, member, decision, -, -, -, -, hbody⟩ := h.body
  rw [hbody]
  rfl

theorem scores (h : EntryOf expected members v e) : v.scores = some e.toScores := by
  obtain ⟨scores, member, decision, hscores, -, -, -, hbody⟩ := h.body
  rw [hbody, hscores]
  rfl

theorem unique {e' : CandidateEntry} (h : EntryOf expected members v e) (h' : EntryOf expected members v e') :
    e.toEntryBody = e'.toEntryBody := by
  obtain ⟨scores, member, decision, hscores, hmember, -, hdecision, hbody⟩ := h.body
  obtain ⟨scores', member', decision', hscores', hmember', -, hdecision', hbody'⟩ := h'.body
  rw [hscores] at hscores'
  rw [hmember] at hmember'
  cases hscores'
  cases hmember'
  rw [hdecision] at hdecision'
  cases hdecision'
  rw [hbody, hbody']

end EntryOf

theorem same_iff {s t : Scores} : s.same t = true ↔ s.composite.value = t.composite.value ∧
    s.trend.value = t.trend.value ∧ s.quality.value = t.quality.value ∧ s.value.value = t.value.value ∧
    s.lowRisk.value = t.lowRisk.value := by
  simp only [Scores.same, Decimal.equals, Bool.and_eq_true, decide_eq_true_eq, and_assoc]

theorem Scores.Representable.of_same {s t : Scores} (ht : t.Representable) (h : s.same t = true) :
    s.Representable := by
  obtain ⟨hcomposite, htrend, hquality, hvalue, hlowRisk⟩ := same_iff.mp h
  constructor
  · rw [htrend]
    exact ht.trend
  · rw [hquality]
    exact ht.quality
  · rw [hvalue]
    exact ht.value
  · rw [hlowRisk]
    exact ht.lowRisk
  · rw [hcomposite]
    exact ht.composite

theorem checkScores_ok {expected : List (SecurityId × Scores)} {v : FeatureVector auth}
    (h : checkScores expected v = .ok ()) :
    ∃ scores computed, v.scores = some scores ∧ expected.lookup v.securityId = some computed ∧
      scores.same computed = true := by
  unfold checkScores at h
  split at h
  · cases h
  · rename_i computed hcomputed
    obtain ⟨scores, hscores, hsame⟩ := (Option.any_eq_true _ _).mp (require_ok.mp h)
    exact ⟨scores, computed, hscores, hcomputed, hsame⟩

theorem quantEntry_ok {members : List UniverseEntry} {v : FeatureVector auth} {scores : Scores}
    {r : Option CandidateEntry} (hscores : v.scores = some scores) (h : quantEntry members v = .ok r) :
    ∃ member decision e, memberOf members v.securityId = some member ∧ member.symbol = v.symbol ∧
      member.quarantineDecisionHash = some decision ∧ r = some e ∧ e.toEntryBody = quantBody v scores decision := by
  unfold quantEntry at h
  split at h
  · cases h
  · rename_i member hmember
    obtain ⟨_, hsymbol, h⟩ := bind_ok.mp h
    split at h
    · cases h
    · rename_i decision hdecision
      simp only [hscores] at h
      obtain ⟨e, he, h⟩ := bind_ok.mp h
      cases h
      exact ⟨member, decision, e, hmember, require_ok.mp hsymbol, hdecision, rfl, finalizeCandidateEntry_ok.mp he⟩

/-! ### What is ranked -/

/-- The complete vectors, each with its candidate. -/
structure Candidates (vectors : List (FeatureVector auth)) (snapshot : UniverseSnapshot auth.sha256)
    (candidates : List CandidateEntry) : Prop where
  nodup : (vectors.map (fun v => v.securityId)).Nodup
  entries : ∃ expected, categoryScores (rawBySecurity (completeVectors vectors)) = .ok expected ∧
    List.Forall₂ (EntryOf expected (eligibleEntries snapshot.toUniverseBody)) (completeVectors vectors) candidates
  bound : ∀ v ∈ vectors, v.status = .complete → v.universeHash = snapshot.universeHash

theorem mem_completeVectors {vectors : List (FeatureVector auth)} {v : FeatureVector auth} :
    v ∈ completeVectors vectors ↔ v ∈ vectors ∧ v.status = .complete := by
  simp only [completeVectors, List.mem_filter, decide_eq_true_eq]

theorem keys_rawBySecurity (complete : List (FeatureVector auth)) :
    (rawBySecurity complete).map Prod.fst = complete.map (fun v => v.securityId) := by
  rw [rawBySecurity, List.map_map]
  rfl

namespace Candidates

variable {vectors : List (FeatureVector auth)} {snapshot : UniverseSnapshot auth.sha256}
  {candidates : List CandidateEntry}

theorem nodup_complete (h : Candidates vectors snapshot candidates) :
    ((completeVectors vectors).map (fun v => v.securityId)).Nodup :=
  h.nodup.sublist (List.filter_sublist.map _)

theorem securityIds (h : Candidates vectors snapshot candidates) :
    candidates.map (fun e => e.securityId) = (completeVectors vectors).map (fun v => v.securityId) := by
  obtain ⟨expected, -, hentries⟩ := h.entries
  clear h
  generalize completeVectors vectors = complete at hentries ⊢
  induction hentries with
  | nil => rfl
  | cons hentry _ ih => rw [List.map_cons, List.map_cons, ih, hentry.securityId]

theorem nodup_keys (h : Candidates vectors snapshot candidates) : (candidates.map rankKey).Nodup := by
  refine nodup_rankKey ?_
  rw [h.securityIds]
  exact h.nodup_complete

/-- The scores of a candidate are exact. -/
theorem representable (h : Candidates vectors snapshot candidates) : ∀ e ∈ candidates, e.toScores.Representable := by
  intro e he
  obtain ⟨expected, hexpected, hentries⟩ := h.entries
  obtain ⟨v, hv, hentry⟩ := Dict.exists_of_forall₂ hentries.flip he
  obtain ⟨computed, hcomputed, hsame⟩ := hentry.recomputed
  refine (scores_representable hexpected ?_ hcomputed).of_same hsame
  rw [keys_rawBySecurity]
  exact List.mem_map_of_mem hv

end Candidates

theorem checkVectors_ok {vectors : List (FeatureVector auth)} {snapshot : UniverseSnapshot auth.sha256}
    (h : checkVectors vectors snapshot = .ok ()) :
    (vectors.map (fun v => v.securityId)).Nodup ∧
      ∀ v ∈ vectors, v.status = .complete → v.universeHash = snapshot.universeHash := by
  simp only [checkVectors, bind_ok, require_ok, exists_const] at h
  exact ⟨h.1, h.2.2.2.1⟩

/-- The passes over the complete vectors, when they end, make a candidate of each. -/
theorem candidates_of_passes {vectors : List (FeatureVector auth)} {snapshot : UniverseSnapshot auth.sha256}
    {expected : List (SecurityId × Scores)} {entries : List (Option CandidateEntry)}
    (hcheck : checkVectors vectors snapshot = .ok ())
    (hexpected : categoryScores (rawBySecurity (completeVectors vectors)) = .ok expected)
    (hscores : ∀ v ∈ completeVectors vectors, checkScores expected v = .ok ())
    (hentries : (completeVectors vectors).mapM (quantEntry (eligibleEntries snapshot.toUniverseBody)) = .ok entries) :
    Candidates vectors snapshot entries.reduceOption := by
  obtain ⟨hnodup, hbound⟩ := checkVectors_ok hcheck
  refine ⟨hnodup, ⟨expected, hexpected, ?_⟩, hbound⟩
  have hf := Dict.forall₂_of_mapM hentries
  clear hentries hcheck hexpected
  generalize completeVectors vectors = complete at hf hscores
  induction hf with
  | nil => exact .nil
  | @cons v r complete rest hv _ ih =>
    obtain ⟨hfirst, hrest⟩ := List.forall_mem_cons.mp hscores
    obtain ⟨scores, computed, hvs, hcomputed, hsame⟩ := checkScores_ok hfirst
    obtain ⟨member, decision, e, hmember, hsymbol, hdecision, rfl, hbody⟩ := quantEntry_ok hvs hv
    change List.Forall₂ _ _ (e :: rest.reduceOption)
    refine .cons ⟨⟨scores, member, decision, hvs, hmember, hsymbol, hdecision, hbody⟩, computed, hcomputed, ?_⟩
      (ih hrest)
    have htoScores : e.toScores = scores := congrArg EntryBody.toScores hbody
    rw [htoScores]
    exact hsame

theorem rankedCandidates_ok {vectors : List (FeatureVector auth)} {snapshot : UniverseSnapshot auth.sha256}
    {ranked : List CandidateEntry} (h : rankedCandidates vectors snapshot = .ok ranked) :
    ∃ candidates, Candidates vectors snapshot candidates ∧ ranked = candidates.sortOn rankKey := by
  obtain ⟨_, hcheck, h⟩ := bind_ok.mp h
  obtain ⟨expected, hexpected, h⟩ := bind_ok.mp h
  obtain ⟨_, hscores, h⟩ := bind_ok.mp h
  obtain ⟨entries, hentries, h⟩ := bind_ok.mp h
  have hc := candidates_of_passes hcheck hexpected (Dict.forM_ok.mp hscores) hentries
  exact ⟨entries.reduceOption, hc, canonicalOrder_ok hc.representable h⟩

/-! ### The order of the vectors -/

theorem categoryScores_perm {raw raw' : List (SecurityId × Row)} (hp : raw.Perm raw')
    (hn : (raw.map Prod.fst).Nodup) : categoryScores raw' = categoryScores raw := by
  have hids : (raw'.map Prod.fst).sortOn id = (raw.map Prod.fst).sortOn id :=
    (List.sortOn_congr (hp.map Prod.fst) (by rwa [List.map_id])).symm
  have hcell : cell raw' = cell raw := by
    funext name sid
    rw [cell, cell, Dict.lookup_perm hp hn]
  have hempty : raw'.isEmpty = raw.isEmpty := by
    rw [Bool.eq_iff_iff, List.isEmpty_iff_length_eq_zero, List.isEmpty_iff_length_eq_zero, hp.length_eq]
  have hcolumn : percentileColumn raw' = percentileColumn raw := by
    funext ids name
    rw [percentileColumn, percentileColumn, hcell]
  rw [categoryScores, categoryScores, hids, hcolumn, hempty]

theorem canonicalOrder_perm {entries entries' ordered : List CandidateEntry} (hp : entries.Perm entries')
    (he : ∀ e ∈ entries, e.toScores.Representable) (hn : (entries.map rankKey).Nodup)
    (h : canonicalOrder entries = .ok ordered) : canonicalOrder entries' = .ok ordered := by
  obtain ⟨keys, hkeys, -⟩ := bind_ok.mp h
  obtain ⟨keys', hkeys'⟩ : ∃ keys', entries'.mapM scoreKey = .ok keys' := by
    refine Dict.exists_mapM fun e hmem => ?_
    obtain ⟨key, -, hkey⟩ := Dict.exists_of_forall₂ (Dict.forall₂_of_mapM hkeys) (hp.mem_iff.mpr hmem)
    exact ⟨key, hkey⟩
  have hordered : ∃ ordered', canonicalOrder entries' = .ok ordered' := by
    rw [canonicalOrder, hkeys']
    exact ⟨_, rfl⟩
  obtain ⟨ordered', hordered'⟩ := hordered
  rw [hordered', canonicalOrder_ok (fun e hmem => he e (hp.mem_iff.mpr hmem)) hordered', canonicalOrder_ok he h,
    List.sortOn_congr hp hn]

theorem checkVectors_perm {vectors vectors' : List (FeatureVector auth)} {snapshot : UniverseSnapshot auth.sha256}
    (hp : vectors.Perm vectors') (h : checkVectors vectors snapshot = .ok ()) :
    checkVectors vectors' snapshot = .ok () := by
  have hids := hp.map (fun v => v.securityId)
  simp only [checkVectors, bind_ok, require_ok, exists_const] at h ⊢
  obtain ⟨hnodup, ⟨hmember, heligible⟩, hmanifest, huniverse, hknown⟩ := h
  exact ⟨hids.nodup_iff.mp hnodup,
    ⟨fun id hid => hmember (hids.mem_iff.mpr hid), fun id hid => hids.mem_iff.mp (heligible hid)⟩,
    fun v hv => hmanifest v (hp.mem_iff.mpr hv), fun v hv => huniverse v (hp.mem_iff.mpr hv),
    fun v hv => hknown v (hp.mem_iff.mpr hv)⟩

/-- The ranking does not depend on the order of the vectors. -/
theorem rankedCandidates_perm {vectors vectors' : List (FeatureVector auth)} {snapshot : UniverseSnapshot auth.sha256}
    {ranked : List CandidateEntry} (hp : vectors.Perm vectors') (h : rankedCandidates vectors snapshot = .ok ranked) :
    rankedCandidates vectors' snapshot = .ok ranked := by
  obtain ⟨_, hcheck, h⟩ := bind_ok.mp h
  obtain ⟨expected, hexpected, h⟩ := bind_ok.mp h
  obtain ⟨_, hscores, h⟩ := bind_ok.mp h
  obtain ⟨entries, hentries, h⟩ := bind_ok.mp h
  have hscores := Dict.forM_ok.mp hscores
  have hc := candidates_of_passes hcheck hexpected hscores hentries
  have hcomplete : (completeVectors vectors).Perm (completeVectors vectors') := hp.filter _
  have hexpected' : categoryScores (rawBySecurity (completeVectors vectors')) = .ok expected := by
    have hkeys := hc.nodup_complete
    rw [← keys_rawBySecurity] at hkeys
    exact (categoryScores_perm (hcomplete.map _) hkeys).trans hexpected
  have hscores' : (completeVectors vectors').forM (checkScores expected) = .ok () :=
    Dict.forM_ok.mpr fun v hv => hscores v (hcomplete.mem_iff.mpr hv)
  obtain ⟨entries', hentries'⟩ : ∃ entries',
      (completeVectors vectors').mapM (quantEntry (eligibleEntries snapshot.toUniverseBody)) = .ok entries' := by
    refine Dict.exists_mapM fun v hv => ?_
    obtain ⟨r, -, hr⟩ := Dict.exists_of_forall₂ (Dict.forall₂_of_mapM hentries) (hcomplete.mem_iff.mpr hv)
    exact ⟨r, hr⟩
  have hperm : entries.reduceOption.Perm entries'.reduceOption := by
    rw [Dict.eq_filterMap_of_mapM hentries, Dict.eq_filterMap_of_mapM hentries']
    exact (hcomplete.filterMap _).filterMap _
  refine bind_ok.mpr ⟨(), checkVectors_perm hp hcheck, ?_⟩
  refine bind_ok.mpr ⟨expected, hexpected', ?_⟩
  refine bind_ok.mpr ⟨(), hscores', ?_⟩
  refine bind_ok.mpr ⟨entries', hentries', ?_⟩
  exact canonicalOrder_perm hperm hc.representable hc.nodup_keys h

/-! ### Results -/

/-- A call of `quant_candidates` that returns. -/
structure QuantRun (auth : Authority) where
  vectors : List (FeatureVector auth)
  snapshot : UniverseSnapshot auth.sha256
  quant : List CandidateEntry
  accepted : quantCandidates vectors snapshot = .ok quant

theorem QuantRun.ranked (r : QuantRun auth) :
    ∃ candidates, Candidates r.vectors r.snapshot candidates ∧
      rankedCandidates r.vectors r.snapshot = .ok (candidates.sortOn rankKey) ∧
      r.quant = (candidates.sortOn rankKey).take CandidateStage.quant.cap := by
  obtain ⟨ranked, hranked, hquant⟩ := bind_ok.mp r.accepted
  obtain ⟨candidates, hc, rfl⟩ := rankedCandidates_ok hranked
  exact ⟨candidates, hc, hranked, (Except.ok.inj hquant).symm⟩

theorem Candidates.pairwise {vectors : List (FeatureVector auth)} {snapshot : UniverseSnapshot auth.sha256}
    {candidates : List CandidateEntry} (h : Candidates vectors snapshot candidates) :
    (candidates.sortOn rankKey).Pairwise (fun a b => rankKey a < rankKey b) :=
  List.pairwise_lt_sortOn h.nodup_keys

/-- The quant candidates are the first hundred of all candidates of complete vectors, whose scores
are the ones computed from the raw values of the whole cross-section, in strict order of the scores
and the security id; the vectors may come in any order. -/
theorem quant_is_canonical (r : QuantRun auth) :
    ∃ candidates ranked : List CandidateEntry, Candidates r.vectors r.snapshot candidates ∧ ranked.Perm candidates ∧
      ranked.Pairwise (fun a b => rankKey a < rankKey b) ∧ r.quant = ranked.take CandidateStage.quant.cap ∧
      ∀ vectors', r.vectors.Perm vectors' → quantCandidates vectors' r.snapshot = .ok r.quant := by
  obtain ⟨candidates, hc, hranked, hquant⟩ := r.ranked
  refine ⟨candidates, candidates.sortOn rankKey, hc, List.sortOn_perm _ _, hc.pairwise, hquant, fun vectors' hp => ?_⟩
  exact bind_ok.mpr ⟨_, rankedCandidates_perm hp hranked, by rw [hquant]; rfl⟩

/-- A security that is at least as good as another one in each of the nine raw values has scores
at least as high, and if its scores differ or its id is smaller it stands before the other one
whenever that one is among the candidates. -/
def RespectsDominance (vectors : List (FeatureVector auth)) (quant : List CandidateEntry) : Prop :=
  ∀ a ∈ completeVectors vectors, ∀ b ∈ completeVectors vectors, Dominates a.row b.row →
    ∃ s t, a.scores = some s ∧ b.scores = some t ∧ s.AtLeast t ∧
      ((s.same t = false ∨ a.securityId < b.securityId) → b.securityId ∈ quant.map (fun e => e.securityId) →
        [a.securityId, b.securityId].Sublist (quant.map (fun e => e.securityId)))

theorem Scores.AtLeast.of_same {s t s' t' : Scores} (h : s'.AtLeast t') (hs : s.same s' = true)
    (ht : t.same t' = true) : s.AtLeast t := by
  obtain ⟨hcomposite, htrend, hquality, hvalue, hlowRisk⟩ := same_iff.mp hs
  obtain ⟨hcomposite', htrend', hquality', hvalue', hlowRisk'⟩ := same_iff.mp ht
  constructor
  · rw [htrend, htrend']
    exact h.trend
  · rw [hquality, hquality']
    exact h.quality
  · rw [hvalue, hvalue']
    exact h.value
  · rw [hlowRisk, hlowRisk']
    exact h.lowRisk
  · rw [hcomposite, hcomposite']
    exact h.composite

/-- The ranking follows the raw values through winsorizing, midranks, averages and rounding. -/
theorem quant_respects_dominance (r : QuantRun auth) : RespectsDominance r.vectors r.quant := by
  intro a ha b hb hdominates
  obtain ⟨candidates, hc, -, hquant⟩ := r.ranked
  obtain ⟨expected, hexpected, hentries⟩ := hc.entries
  obtain ⟨ea, hea, hentryA⟩ := Dict.exists_of_forall₂ hentries ha
  obtain ⟨eb, heb, hentryB⟩ := Dict.exists_of_forall₂ hentries hb
  obtain ⟨sa, hsa, hsameA⟩ := hentryA.recomputed
  obtain ⟨sb, hsb, hsameB⟩ := hentryB.recomputed
  have hkeys : ((rawBySecurity (completeVectors r.vectors)).map Prod.fst).Nodup := by
    rw [keys_rawBySecurity]
    exact hc.nodup_complete
  obtain ⟨s, t, hs, ht, hst⟩ := scores_of_dominates hkeys hexpected (List.mem_map_of_mem ha) (List.mem_map_of_mem hb)
    hdominates
  obtain rfl := Option.some.inj (hsa.symm.trans hs)
  obtain rfl := Option.some.inj (hsb.symm.trans ht)
  have hatLeast : ea.toScores.AtLeast eb.toScores := hst.of_same hsameA hsameB
  refine ⟨ea.toScores, eb.toScores, hentryA.scores, hentryB.scores, hatLeast, fun hdiffer hmem => ?_⟩
  rw [← hentryA.securityId, ← hentryB.securityId] at hdiffer ⊢
  rw [← hentryB.securityId] at hmem
  have hlt := rankKey_lt hatLeast hdiffer
  -- The entry of the second security is the one that is kept.
  obtain ⟨e, he, hid⟩ := List.mem_map.mp hmem
  rw [hquant] at he ⊢
  have heq : e = eb := by
    have he' := List.mem_sortOn.mp (List.mem_of_mem_take he)
    have hnodup : (candidates.map (fun e => e.securityId)).Nodup := by
      rw [hc.securityIds]
      exact hc.nodup_complete
    exact List.inj_on_of_nodup_map hnodup he' heb hid
  subst heq
  have hea' := List.mem_take_of_lt hc.pairwise (List.mem_sortOn.mpr hea) he hlt
  exact (List.sublist_of_lt (hc.pairwise.sublist (List.take_sublist _ _)) hea' he hlt).map
    (fun e => e.securityId)

end SevenLens.Screening
