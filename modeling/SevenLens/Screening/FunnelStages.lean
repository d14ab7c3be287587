import SevenLens.Screening.Ranking

/-! # The stages of the funnel compose

Each stage takes some entries of the one before it, in their order, and relabels them
(`Follows`).  So the next stage accepts what a stage returns, and the candidate set accepts all
four. -/

namespace SevenLens.Screening

open Securities Universe

variable {auth : Authority} {D : Digests}

/-! ### Ordered stages -/

/-- The entries of a stage as the later stages want them. -/
structure Ordered (stage : CandidateStage) (entries : List CandidateEntry) : Prop where
  stages : ∀ e ∈ entries, e.stage = stage
  ids : (entries.map (fun e => e.securityId)).Nodup
  order : entries.Pairwise (fun a b => rankKey a < rankKey b)
  representable : ∀ e ∈ entries, e.toScores.Representable
  keys : ∀ e ∈ entries, ∃ key, scoreKey e = .ok key

/-- Entries of a stage for some entries of the stage before it, one by one: the scores and the
security are those of the parent. -/
def Follows (stage : CandidateStage) : List CandidateEntry → List CandidateEntry → Prop :=
  List.Forall₂ (fun p e => e.stage = stage ∧ e.toScores = p.toScores ∧ e.securityId = p.securityId)

theorem scoreKey_congr {p e : CandidateEntry} (hs : e.toScores = p.toScores) (hid : e.securityId = p.securityId) :
    scoreKey e = scoreKey p := by
  rw [scoreKey, scoreKey, hs, hid]

theorem rankKey_congr {p e : CandidateEntry} (hs : e.toScores = p.toScores) (hid : e.securityId = p.securityId) :
    rankKey e = rankKey p := by
  rw [rankKey, rankKey, hs, hid]

theorem Follows.map_eq {α : Type} {stage : CandidateStage} {parent entries : List CandidateEntry}
    (h : Follows stage parent entries) {f : CandidateEntry → α}
    (hf : ∀ p e, e.toScores = p.toScores → e.securityId = p.securityId → f e = f p) : entries.map f = parent.map f := by
  induction h with
  | nil => rfl
  | cons hentry _ ih => rw [List.map_cons, List.map_cons, ih, hf _ _ hentry.2.1 hentry.2.2]

theorem Ordered.sublist {stage : CandidateStage} {entries chosen : List CandidateEntry} (h : Ordered stage entries)
    (hs : chosen.Sublist entries) : Ordered stage chosen where
  stages e he := h.stages e (hs.subset he)
  ids := h.ids.sublist (hs.map _)
  order := h.order.sublist hs
  representable e he := h.representable e (hs.subset he)
  keys e he := h.keys e (hs.subset he)

theorem Ordered.follows {stage next : CandidateStage} {parent entries : List CandidateEntry} (h : Ordered stage parent)
    (hf : Follows next parent entries) : Ordered next entries where
  stages e he := by
    obtain ⟨p, -, hp, -⟩ := Dict.exists_of_forall₂ (List.Forall₂.flip hf) he
    exact hp
  ids := by
    rw [hf.map_eq (f := fun e => e.securityId) fun _ _ _ hid => hid]
    exact h.ids
  order := by
    have hkeys := hf.map_eq (f := rankKey) fun _ _ => rankKey_congr
    have horder : (parent.map rankKey).Pairwise (· < ·) := List.pairwise_map.mpr h.order
    rw [← hkeys] at horder
    exact List.pairwise_map.mp horder
  representable e he := by
    obtain ⟨p, hp, -, hs, -⟩ := Dict.exists_of_forall₂ (List.Forall₂.flip hf) he
    rw [hs]
    exact h.representable p hp
  keys e he := by
    obtain ⟨p, hp, -, hs, hid⟩ := Dict.exists_of_forall₂ (List.Forall₂.flip hf) he
    rw [scoreKey_congr hs hid]
    exact h.keys p hp

theorem Scores.same_refl (s : Scores) : s.same s = true := same_iff.mpr ⟨rfl, rfl, rfl, rfl, rfl⟩

theorem sameEntries_refl (entries : List CandidateEntry) : sameEntries entries entries = true := by
  rw [sameEntries, beq_self_eq_true, Bool.true_and, List.all_eq_true]
  intro p hp
  have heq : p.1 = p.2 := by
    induction entries with
    | nil => cases hp
    | cons e entries ih =>
      rcases List.mem_cons.mp hp with rfl | hp
      · rfl
      · exact ih hp
  rw [CandidateEntry.same, heq, Scores.same_refl]
  simp

/-- Entries that are in order stay as they are. -/
theorem Ordered.canonicalOrder {stage : CandidateStage} {entries : List CandidateEntry} (h : Ordered stage entries) :
    canonicalOrder entries = .ok entries := by
  obtain ⟨keys, hkeys⟩ := Dict.exists_mapM h.keys
  have hok : ∃ ordered, Screening.canonicalOrder entries = .ok ordered := by
    rw [Screening.canonicalOrder, hkeys]
    exact ⟨_, rfl⟩
  obtain ⟨ordered, hordered⟩ := hok
  rw [hordered, canonicalOrder_ok h.representable hordered, List.sortOn_of_pairwise (h.order.imp le_of_lt)]

theorem Ordered.validated {stage : CandidateStage} {entries : List CandidateEntry} (h : Ordered stage entries)
    (label : String) : validatedCandidateSequence entries stage label = .ok entries := by
  have hstages : entries.all (fun e => e.stage = stage) = true := by
    simpa using h.stages
  refine bind_ok.mpr ⟨(), require_ok.mpr h.ids, bind_ok.mpr ⟨(), require_ok.mpr hstages, ?_⟩⟩
  refine bind_ok.mpr ⟨entries, h.canonicalOrder, bind_ok.mpr ⟨(), ?_, rfl⟩⟩
  exact require_ok.mpr (sameEntries_refl entries)

/-! ### The evidence gate -/

/-- The evidence candidate of a quant candidate. -/
def Promoted (D : Digests) (g : Gate auth) (entry kept : CandidateEntry) : Prop :=
  ∃ view assignment, g.accept D entry = some (view, assignment) ∧ kept.toEntryBody = promote entry view assignment

/-- The candidates that the gate lets through. -/
def admitted (D : Digests) (g : Gate auth) (quant : List CandidateEntry) : List CandidateEntry :=
  quant.filter (fun entry => (g.accept D entry).isSome)

theorem keepFirst_ok {g : Gate auth} {n : Nat} {quant evidence : List CandidateEntry}
    (h : keepFirst D g n quant = .ok evidence) :
    List.Forall₂ (Promoted D g) ((admitted D g quant).take n) evidence := by
  induction quant generalizing n evidence with
  | nil =>
    cases n <;> cases h <;> simp [admitted]
  | cons entry quant ih =>
    cases n with
    | zero =>
      cases h
      simp
    | succ n =>
      rw [keepFirst] at h
      cases haccept : g.accept D entry with
      | none =>
        rw [haccept] at h
        have hskip : admitted D g (entry :: quant) = admitted D g quant := by
          rw [admitted, List.filter_cons_of_neg (by simp [haccept]), admitted]
        rw [hskip]
        exact ih h
      | some p =>
        rw [haccept] at h
        obtain ⟨kept, hkept, h⟩ := bind_ok.mp h
        obtain ⟨rest, hrest, h⟩ := bind_ok.mp h
        cases h
        have hkeep : admitted D g (entry :: quant) = entry :: admitted D g quant := by
          rw [admitted, List.filter_cons_of_pos (by simp [haccept]), admitted]
        rw [hkeep, List.take_succ_cons]
        exact .cons ⟨p.1, p.2, haccept, finalizeCandidateEntry_ok.mp hkept⟩ (ih hrest)

theorem follows_of_promoted {g : Gate auth} {parent evidence : List CandidateEntry}
    (h : List.Forall₂ (Promoted D g) parent evidence) : Follows .evidence parent evidence := by
  refine h.imp fun p e hpe => ?_
  obtain ⟨view, assignment, -, hbody⟩ := hpe
  refine ⟨?_, ?_, ?_⟩ <;> rw [hbody] <;> rfl

/-! ### The focus windows -/

/-- The focus candidate of an evidence candidate. -/
def Relabelled (stage : CandidateStage) (entry focus : CandidateEntry) : Prop :=
  focus.toEntryBody = { entry.toEntryBody with stage := stage }

/-- What is checked of an evidence candidate is checked of a focus candidate. -/
theorem postInit_relabelled {e : EntryBody} {stage : CandidateStage} (he : e.stage = .evidence) (hs : stage ≠ .quant)
    (h : e.postInit = .ok ()) : EntryBody.postInit { e with stage := stage } = .ok () := by
  simp only [EntryBody.postInit, he, hs, ne_eq, reduceCtorEq, not_false_eq_true, forall_const, false_implies] at h ⊢
  exact h

theorem exists_focus {evidence : List CandidateEntry} (window : FocusWindow) (h : Ordered .evidence evidence) :
    ∃ focus, expectedFocusFromEvidence evidence window.stage = .ok focus ∧
      List.Forall₂ (Relabelled window.stage) (evidence.take window.stage.cap) focus := by
  have hstage : window.stage ≠ .quant := by
    cases window <;> simp [FocusWindow.stage]
  have hfocus : window.stage = .focusOpen ∨ window.stage = .focusClose := by
    cases window <;> simp [FocusWindow.stage]
  have hall : evidence.all (fun e => e.stage = .evidence) = true := by
    simpa using h.stages
  obtain ⟨focus, hmap⟩ := @Dict.exists_mapM _ _ _
    (fun e : CandidateEntry => finalizeCandidateEntry { e.toEntryBody with stage := window.stage })
    (evidence.take window.stage.cap) (by
      intro e he
      have hpost := postInit_relabelled (h.stages e (List.mem_of_mem_take he)) hstage e.valid
      exact ⟨⟨_, hpost⟩, finalizeCandidateEntry_ok.mpr rfl⟩)
  refine ⟨focus, ?_, (Dict.forall₂_of_mapM hmap).imp fun e f hf => finalizeCandidateEntry_ok.mp hf⟩
  exact bind_ok.mpr ⟨(), require_ok.mpr hall, bind_ok.mpr ⟨(), require_ok.mpr hfocus, hmap⟩⟩

theorem follows_of_relabelled {stage : CandidateStage} {parent focus : List CandidateEntry}
    (h : List.Forall₂ (Relabelled stage) parent focus) : Follows stage parent focus := by
  refine h.imp fun p e hpe => ?_
  unfold Relabelled at hpe
  refine ⟨?_, ?_, ?_⟩ <;> rw [hpe]

/-! ### The candidate set -/

theorem lineage_of_promoted {g : Gate auth} {p e : CandidateEntry} (h : Promoted D g p e) :
    e.securityId = p.securityId ∧ CandidateSetBody.lineage .evidence e p = true := by
  obtain ⟨view, assignment, -, hbody⟩ := h
  simp [CandidateSetBody.lineage, hbody, promote, Scores.same_refl]

theorem lineage_of_relabelled {stage : CandidateStage} {p e : CandidateEntry} (h : Relabelled stage p e) :
    e.securityId = p.securityId ∧ CandidateSetBody.lineage stage e p = true := by
  unfold Relabelled at h
  simp [CandidateSetBody.lineage, h, Scores.same_refl]

theorem checkParent_of_lineage {b : CandidateSetBody} {stage parent : CandidateStage} {chosen : List CandidateEntry}
    (hs : chosen.Sublist (b.entries parent)) (hparent : Ordered parent (b.entries parent))
    (hlineage : List.Forall₂ (fun p e => e.securityId = p.securityId ∧ CandidateSetBody.lineage stage e p = true)
      chosen (b.entries stage)) :
    b.checkParent stage parent = .ok () := by
  have hids : (b.entries stage).map (fun e => e.securityId) = chosen.map (fun e => e.securityId) := by
    clear hs
    generalize b.entries stage = entries at hlineage ⊢
    induction hlineage with
    | nil => rfl
    | cons hentry _ ih => rw [List.map_cons, List.map_cons, ih, hentry.1]
  have hsub : ((b.entries stage).map (fun e => e.securityId)).Sublist
      ((b.entries parent).map (fun e => e.securityId)) := by
    rw [hids]
    exact hs.map _
  refine bind_ok.mpr ⟨(), require_ok.mpr ?_, bind_ok.mpr ⟨(), require_ok.mpr ?_, require_ok.mpr ?_⟩⟩
  · rw [List.all_eq_true]
    intro id hid
    exact List.contains_iff_mem.mpr (hsub.subset hid)
  · rw [List.all_eq_true]
    intro e he
    obtain ⟨p, hp, hid, hpe⟩ := Dict.exists_of_forall₂ (List.Forall₂.flip hlineage) he
    have hfind : (b.entries parent).find? (fun q => q.securityId = e.securityId) = some p := by
      refine (Dict.find?_eq_some_iff_of_unique fun q hq q' hq' hqe hq'e => ?_).mpr ⟨hs.subset hp, by simp [hid]⟩
      exact List.inj_on_of_nodup_map hparent.ids hq hq'
        ((of_decide_eq_true hqe).trans (of_decide_eq_true hq'e).symm)
    rw [hfind]
    exact hpe
  · exact (List.sortOn_findIdx_of_sublist hsub hparent.ids).symm

/-- The entry copies a complete vector. -/
structure Copied (vectors : List (FeatureVector auth)) (e : CandidateEntry) (v : FeatureVector auth) : Prop where
  mem : v ∈ completeVectors vectors
  securityId : v.securityId = e.securityId
  symbol : v.symbol = e.symbol
  featureHash : v.featureHash = e.featureHash
  universeHash : v.universeHash = e.universeHash
  scores : v.scores = some e.toScores

theorem EntryOf.copied {vectors : List (FeatureVector auth)} {expected : List (SecurityId × Scores)}
    {members : List UniverseEntry} {v : FeatureVector auth} {e : CandidateEntry} (h : EntryOf expected members v e)
    (hv : v ∈ completeVectors vectors) : Copied vectors e v := by
  obtain ⟨scores, member, decision, hscores, -, -, -, hbody⟩ := h.body
  constructor
  · exact hv
  all_goals rw [hbody]
  all_goals first | rfl | exact hscores

theorem Copied.promoted {vectors : List (FeatureVector auth)} {g : Gate auth} {p e : CandidateEntry}
    {v : FeatureVector auth} (hc : Copied vectors p v) (h : Promoted D g p e) : Copied vectors e v := by
  obtain ⟨view, assignment, -, hbody⟩ := h
  constructor
  · exact hc.mem
  all_goals rw [hbody]
  · exact hc.securityId
  · exact hc.symbol
  · exact hc.featureHash
  · exact hc.universeHash
  · exact hc.scores

theorem Copied.relabelled {vectors : List (FeatureVector auth)} {stage : CandidateStage} {p e : CandidateEntry}
    {v : FeatureVector auth} (hc : Copied vectors p v) (h : Relabelled stage p e) : Copied vectors e v := by
  unfold Relabelled at h
  constructor
  · exact hc.mem
  all_goals rw [h]
  · exact hc.securityId
  · exact hc.symbol
  · exact hc.featureHash
  · exact hc.universeHash
  · exact hc.scores

theorem Copied.copiedFrom {vectors : List (FeatureVector auth)} {asOf knownAt : UtcTimestamp} {e : CandidateEntry}
    {v : FeatureVector auth} (hc : Copied vectors e v) (hn : (vectors.map (fun v => v.securityId)).Nodup)
    (hasOf : v.asOf = asOf) (hknownAt : v.knownAt ≤ knownAt) : copiedFrom vectors asOf knownAt e = true := by
  obtain ⟨hv, hcomplete⟩ := mem_completeVectors.mp hc.mem
  have hfind : vectors.find? (fun v => v.securityId = e.securityId) = some v := by
    refine (Dict.find?_eq_some_iff_of_unique fun w hw w' hw' hwe hw'e => ?_).mpr ⟨hv, by simp [hc.securityId]⟩
    exact List.inj_on_of_nodup_map hn hw hw' ((of_decide_eq_true hwe).trans (of_decide_eq_true hw'e).symm)
  rw [Screening.copiedFrom, hfind]
  simp [hcomplete, hc.symbol, hc.featureHash, hc.universeHash, hasOf, hknownAt, hc.scores, Scores.same_refl]

theorem checks_ok {x : Except Failure Unit} {f : Unit → Except Failure Unit} :
    (x >>= f) = .ok () ↔ x = .ok () ∧ f () = .ok () := by
  rw [bind_ok]
  constructor
  · rintro ⟨_, h⟩
    exact h
  · intro h
    exact ⟨(), h⟩

/-- Four stages of which each follows from the one before it. -/
structure Chained (b : CandidateSetBody) : Prop where
  quant : Ordered .quant b.quant
  quantCap : b.quant.length ≤ 100
  evidence : Ordered .evidence b.evidence
  evidenceCap : b.evidence.length ≤ 30
  chosen : ∃ chosen, chosen.Sublist b.quant ∧ List.Forall₂ (fun p e =>
    e.securityId = p.securityId ∧ CandidateSetBody.lineage .evidence e p = true) chosen b.evidence
  focusOpen : expectedFocusFromEvidence b.evidence .focusOpen = .ok b.focusOpen ∧
    List.Forall₂ (Relabelled .focusOpen) (b.evidence.take 12) b.focusOpen
  focusClose : expectedFocusFromEvidence b.evidence .focusClose = .ok b.focusClose ∧
    List.Forall₂ (Relabelled .focusClose) (b.evidence.take 5) b.focusClose

namespace Chained

variable {b : CandidateSetBody}

theorem ordered (h : Chained b) (stage : CandidateStage) : Ordered stage (b.entries stage) := by
  cases stage
  case quant => exact h.quant
  case evidence => exact h.evidence
  case focusOpen => exact (h.evidence.sublist (List.take_sublist _ _)).follows (follows_of_relabelled h.focusOpen.2)
  case focusClose => exact (h.evidence.sublist (List.take_sublist _ _)).follows (follows_of_relabelled h.focusClose.2)

theorem length_le (h : Chained b) (stage : CandidateStage) : (b.entries stage).length ≤ stage.cap := by
  cases stage
  case quant => exact h.quantCap
  case evidence => exact h.evidenceCap
  case focusOpen =>
    rw [CandidateSetBody.entries, ← h.focusOpen.2.length_eq, List.length_take]
    exact min_le_left _ _
  case focusClose =>
    rw [CandidateSetBody.entries, ← h.focusClose.2.length_eq, List.length_take]
    exact min_le_left _ _

theorem checkStage (h : Chained b) (stage : CandidateStage) : b.checkStage stage = .ok () := by
  have ho := h.ordered stage
  have hstages : (b.entries stage).all (fun e => e.stage = stage) = true := by
    simpa using ho.stages
  refine bind_ok.mpr ⟨(), require_ok.mpr hstages, bind_ok.mpr ⟨(), require_ok.mpr ho.ids, ?_⟩⟩
  exact bind_ok.mpr ⟨_, ho.canonicalOrder, require_ok.mpr (sameEntries_refl _)⟩

theorem checkEvidence (h : Chained b) : b.checkParent .evidence .quant = .ok () := by
  obtain ⟨chosen, hsub, hlineage⟩ := h.chosen
  exact checkParent_of_lineage hsub (h.ordered .quant) hlineage

theorem checkFocusParent (h : Chained b) {stage : CandidateStage} (hstage : stage = .focusOpen ∨ stage = .focusClose) :
    b.checkParent stage .evidence = .ok () := by
  rcases hstage with rfl | rfl
  · exact checkParent_of_lineage (List.take_sublist 12 _) (h.ordered .evidence)
      (h.focusOpen.2.imp fun _ _ => lineage_of_relabelled)
  · exact checkParent_of_lineage (List.take_sublist 5 _) (h.ordered .evidence)
      (h.focusClose.2.imp fun _ _ => lineage_of_relabelled)

theorem checkFocus (h : Chained b) {stage : CandidateStage} (hstage : stage = .focusOpen ∨ stage = .focusClose) :
    b.checkFocus stage = .ok () := by
  rcases hstage with rfl | rfl
  · exact bind_ok.mpr ⟨_, h.focusOpen.1, require_ok.mpr (sameEntries_refl _)⟩
  · exact bind_ok.mpr ⟨_, h.focusClose.1, require_ok.mpr (sameEntries_refl _)⟩

/-- The constructor of a candidate set accepts the stages. -/
theorem postInit (h : Chained b) (hknown : b.knownAt ≤ b.asOf) (hfactor : b.factorManifestHash = auth.factorManifestHash)
    (hcluster : b.clusterManifestHash = auth.clusterManifestHash)
    (huniverse : ∀ stage, ∀ e ∈ b.entries stage, e.universeHash = b.universeHash)
    (hproducer : b.producerVersion = "p4c.screening.v1") : b.postInit auth = .ok () := by
  have hsum : (stages.map (fun stage => (b.entries stage).length)).sum ≤ 147 := by
    have hq := h.length_le .quant
    have he := h.length_le .evidence
    have ho := h.length_le .focusOpen
    have hc := h.length_le .focusClose
    simp only [CandidateStage.cap] at hq he ho hc
    simp only [stages, List.map_cons, List.map_nil, List.sum_cons, List.sum_nil]
    omega
  have hbound : ∀ stage, (b.entries stage).all (fun e => e.universeHash = b.universeHash) = true := by
    intro stage
    simpa using huniverse stage
  have htext : boundedText b.producerVersion "producer_version" = .ok () := by
    rw [hproducer]
    rfl
  simp only [CandidateSetBody.postInit, checks_ok, require_ok, each_ok]
  exact ⟨hknown, hfactor, hcluster, fun stage _ => h.length_le stage, hsum, fun stage _ => hbound stage,
    fun stage _ => h.checkStage stage, h.checkEvidence, h.checkFocusParent (.inl rfl), h.checkFocusParent (.inr rfl),
    fun stage hstage => h.checkFocus (by simpa using hstage), htext, hproducer⟩

end Chained

theorem buildCandidateSet_of_checks {vectors : List (FeatureVector auth)} {b : CandidateSetBody}
    (hn : (vectors.map (fun v => v.securityId)).Nodup)
    (hcopied : ∀ stage, ∀ e ∈ b.entries stage, copiedFrom vectors b.asOf b.knownAt e = true)
    (hbytes : b.wire.bytes ≤ 4194304) (hpost : b.postInit auth = .ok ()) :
    ∃ set, buildCandidateSet vectors b = .ok set ∧ set.toCandidateSetBody = b := by
  have hhash : ∃ hash, b.computeHash auth = .ok hash := by
    refine ⟨_, bind_ok.mpr ⟨b.wire.dumps, ?_, rfl⟩⟩
    exact bind_ok.mpr ⟨(), require_ok.mpr hbytes, rfl⟩
  obtain ⟨hash, hhash⟩ := hhash
  refine ⟨⟨b, hash, hpost, hhash⟩, bind_ok.mpr ⟨(), require_ok.mpr hn, bind_ok.mpr ⟨(), ?_, ?_⟩⟩, rfl⟩
  · exact each_ok.mpr fun stage _ => each_ok.mpr fun e he => require_ok.mpr (hcopied stage e he)
  · split
    · rename_i hfail
      rw [hhash] at hfail
      cases hfail
    · rename_i hash' hhash'
      split
      · rename_i hfail
        rw [hpost] at hfail
        cases hfail
      · rw [hhash] at hhash'
        cases hhash'
        rfl

/-! ### Runs of the funnel -/

/-- Calls of `quant_candidates` and of `evidence_candidates` on its result that return.  The keys of
a mapping are distinct. -/
structure FunnelRun (auth : Authority) (D : Digests) extends QuantRun auth where
  views : List EvidenceView
  sectorDivision : List (String × SectorAssignment auth)
  identityRecords : IdentityRecords
  cutoff : UtcTimestamp
  evidence : List CandidateEntry
  keys : (sectorDivision.map Prod.fst).Nodup
  promoted : evidenceCandidates D quant views sectorDivision identityRecords cutoff snapshot = .ok evidence

/-- The gate of a run. -/
structure GateOf (r : FunnelRun auth D) (g : Gate auth) : Prop where
  views : g.views = r.views
  sectors : r.sectorDivision.mapM (sectorOf r.cutoff r.snapshot.knownAt) = .ok g.sectors
  assignments : g.assignments = r.sectorDivision
  identities : r.identityRecords.byId = .ok g.identities
  members : g.members = eligibleEntries r.snapshot.toUniverseBody
  asOf : g.asOf = r.cutoff
  knownAt : g.knownAt = r.snapshot.knownAt

/-- The candidate set of a run with its focus stages. -/
def FunnelRun.setBody (r : FunnelRun auth D) (focusOpen focusClose : List CandidateEntry) (asOf knownAt : UtcTimestamp)
    (policyHash : Hash) (schemaVersion : SchemaVersion) : CandidateSetBody where
  asOf := asOf
  knownAt := knownAt
  factorManifestHash := auth.factorManifestHash
  clusterManifestHash := auth.clusterManifestHash
  universeHash := r.snapshot.universeHash
  quant := r.quant
  evidence := r.evidence
  focusOpen := focusOpen
  focusClose := focusClose
  policyHash := policyHash
  producerVersion := "p4c.screening.v1"
  schemaVersion := schemaVersion

namespace FunnelRun

variable (r : FunnelRun auth D)

/-- The passes of `evidence_candidates`. -/
theorem gate : ∃ g, GateOf r g ∧ r.quant.map (fun e => e.stage) = r.quant.map (fun _ => .quant) ∧
    (∀ e ∈ r.quant, ∃ key, scoreKey e = .ok key) ∧ keepFirst D g CandidateStage.evidence.cap r.quant = .ok r.evidence := by
  obtain ⟨quant, hquant, h⟩ := bind_ok.mp r.promoted
  obtain ⟨_, -, h⟩ := bind_ok.mp h
  obtain ⟨_, -, h⟩ := bind_ok.mp h
  obtain ⟨_, -, h⟩ := bind_ok.mp h
  obtain ⟨identities, hidentities, h⟩ := bind_ok.mp h
  obtain ⟨sectors, hsectors, h⟩ := bind_ok.mp h
  obtain ⟨_, -, hquant⟩ := bind_ok.mp hquant
  obtain ⟨_, hstages, hquant⟩ := bind_ok.mp hquant
  obtain ⟨expected, hexpected, hquant⟩ := bind_ok.mp hquant
  obtain ⟨_, -, hquant⟩ := bind_ok.mp hquant
  cases hquant
  obtain ⟨keys, hkeys, -⟩ := bind_ok.mp hexpected
  refine ⟨_, ⟨rfl, hsectors, rfl, hidentities, rfl, rfl, rfl⟩, ?_, fun e he => ?_, h⟩
  · refine List.map_congr_left fun e he => ?_
    simpa using List.all_eq_true.mp (require_ok.mp hstages) e he
  · obtain ⟨key, -, hkey⟩ := Dict.exists_of_forall₂ (Dict.forall₂_of_mapM hkeys) he
    exact ⟨key, hkey⟩

/-- The quant candidates, each with the vector it copies. -/
theorem quantEntries : Ordered .quant r.quant ∧ r.quant.length ≤ 100 ∧ (r.vectors.map (fun v => v.securityId)).Nodup ∧
    ∀ e ∈ r.quant, e.universeHash = r.snapshot.universeHash ∧ ∃ v, Copied r.vectors e v := by
  obtain ⟨g, -, hstages, hkeys, -⟩ := r.gate
  obtain ⟨candidates, hc, -, hquant⟩ := r.ranked
  have hsub : r.quant.Sublist (candidates.sortOn rankKey) := by
    rw [hquant]
    exact List.take_sublist _ _
  have hmem : ∀ e ∈ r.quant, e ∈ candidates := fun e he => List.mem_sortOn.mp (hsub.subset he)
  refine ⟨⟨?_, ?_, hc.pairwise.sublist hsub, fun e he => hc.representable e (hmem e he), hkeys⟩, ?_, hc.nodup,
    fun e he => ?_⟩
  · exact List.map_inj_left.mp hstages
  · refine List.Nodup.sublist (hsub.map _) ?_
    rw [((List.sortOn_perm rankKey candidates).map _).nodup_iff, hc.securityIds]
    exact hc.nodup_complete
  · rw [hquant, List.length_take]
    exact min_le_left _ _
  · obtain ⟨expected, -, hentries⟩ := hc.entries
    obtain ⟨v, hv, hentry⟩ := Dict.exists_of_forall₂ (List.Forall₂.flip hentries) (hmem e he)
    have hcopied := hentry.copied hv
    obtain ⟨hvmem, hcomplete⟩ := mem_completeVectors.mp hv
    exact ⟨hcopied.universeHash.symm.trans (hc.bound v hvmem hcomplete), v, hcopied⟩

end FunnelRun

/-- What is true of each entry of a stage is true of each one that follows it. -/
theorem forall_of_forall₂ {R : CandidateEntry → CandidateEntry → Prop} {P : CandidateEntry → Prop}
    {parent entries : List CandidateEntry} (h : List.Forall₂ R parent entries)
    (hR : ∀ p e, R p e → P p → P e) (hP : ∀ p ∈ parent, P p) : ∀ e ∈ entries, P e := by
  intro e he
  obtain ⟨p, hp, hpe⟩ := Dict.exists_of_forall₂ (List.Forall₂.flip h) he
  exact hR p e hpe (hP p hp)

/-- The stages of the funnel compose.  The evidence candidates are the first thirty quant candidates
that the gate lets through.  Both focus windows accept them and take the first twelve and five.  And
from the four stages a candidate set is built for every cutoff that the vectors share, unless its
text exceeds the cap. -/
theorem funnel_stages_compose (r : FunnelRun auth D) :
    ∃ g focusOpen focusClose, GateOf r g ∧
      List.Forall₂ (Promoted D g) ((admitted D g r.quant).take 30) r.evidence ∧
      focusCandidates r.evidence .openPlus60m = .ok focusOpen ∧
      List.Forall₂ (Relabelled .focusOpen) (r.evidence.take 12) focusOpen ∧
      focusCandidates r.evidence .closeMinus90m = .ok focusClose ∧
      List.Forall₂ (Relabelled .focusClose) (r.evidence.take 5) focusClose ∧
      ∀ asOf knownAt policyHash schemaVersion, knownAt ≤ asOf →
        (∀ v ∈ completeVectors r.vectors, v.asOf = asOf ∧ v.knownAt ≤ knownAt) →
        (r.setBody focusOpen focusClose asOf knownAt policyHash schemaVersion).wire.bytes ≤ 4194304 →
        ∃ set, buildCandidateSet r.vectors (r.setBody focusOpen focusClose asOf knownAt policyHash schemaVersion) =
            .ok set ∧
          set.toCandidateSetBody = r.setBody focusOpen focusClose asOf knownAt policyHash schemaVersion := by
  obtain ⟨g, hg, -, -, hkeep⟩ := r.gate
  obtain ⟨hquant, hcap, hnodup, hcopied⟩ := r.quantEntries
  have hpromoted := keepFirst_ok hkeep
  have hchosen : ((admitted D g r.quant).take 30).Sublist r.quant :=
    (List.take_sublist _ _).trans List.filter_sublist
  have hevidence : Ordered .evidence r.evidence := (hquant.sublist hchosen).follows (follows_of_promoted hpromoted)
  obtain ⟨focusOpen, hopen, hopenEntries⟩ := exists_focus .openPlus60m hevidence
  obtain ⟨focusClose, hclose, hcloseEntries⟩ := exists_focus .closeMinus90m hevidence
  refine ⟨g, focusOpen, focusClose, hg, hpromoted, ?_, hopenEntries, ?_, hcloseEntries, ?_⟩
  · exact bind_ok.mpr ⟨_, hevidence.validated _, hopen⟩
  · exact bind_ok.mpr ⟨_, hevidence.validated _, hclose⟩
  intro asOf knownAt policyHash schemaVersion hknown hshared hbytes
  generalize hb : r.setBody focusOpen focusClose asOf knownAt policyHash schemaVersion = b at hbytes ⊢
  have hlength : r.evidence.length ≤ 30 := by
    rw [← hpromoted.length_eq, List.length_take]
    exact min_le_left _ _
  have hchained : Chained b := by
    subst hb
    exact ⟨hquant, hcap, hevidence, hlength, ⟨_, hchosen, hpromoted.imp fun _ _ => lineage_of_promoted⟩,
      ⟨hopen, hopenEntries⟩, ⟨hclose, hcloseEntries⟩⟩
  -- Every entry of every stage copies a complete vector of the universe.
  have hevidenceCopied := forall_of_forall₂ hpromoted
    (P := fun e => e.universeHash = r.snapshot.universeHash ∧ ∃ v, Copied r.vectors e v)
    (by
      rintro p e hpe ⟨huniverse, v, hv⟩
      have hv' := hv.promoted hpe
      exact ⟨by rw [← hv'.universeHash, hv.universeHash, huniverse], v, hv'⟩)
    (fun p hp => hcopied p (hchosen.subset hp))
  have hfocusCopied : ∀ stage cap focus, List.Forall₂ (Relabelled stage) (r.evidence.take cap) focus →
      ∀ e ∈ focus, e.universeHash = r.snapshot.universeHash ∧ ∃ v, Copied r.vectors e v := by
    intro stage cap focus hfocus
    refine forall_of_forall₂ hfocus ?_ (fun p hp => hevidenceCopied p (List.mem_of_mem_take hp))
    rintro p e hpe ⟨huniverse, v, hv⟩
    have hv' := hv.relabelled hpe
    exact ⟨by rw [← hv'.universeHash, hv.universeHash, huniverse], v, hv'⟩
  have hall : ∀ stage, ∀ e ∈ b.entries stage, e.universeHash = r.snapshot.universeHash ∧ ∃ v, Copied r.vectors e v := by
    subst hb
    intro stage
    cases stage
    case quant => exact hcopied
    case evidence => exact hevidenceCopied
    case focusOpen => exact hfocusCopied _ _ _ hopenEntries
    case focusClose => exact hfocusCopied _ _ _ hcloseEntries
  have hbody : b.asOf = asOf ∧ b.knownAt = knownAt ∧ b.universeHash = r.snapshot.universeHash ∧
      b.factorManifestHash = auth.factorManifestHash ∧ b.clusterManifestHash = auth.clusterManifestHash ∧
      b.producerVersion = "p4c.screening.v1" := by
    subst hb
    exact ⟨rfl, rfl, rfl, rfl, rfl, rfl⟩
  obtain ⟨hasOf, hknownAt, huniverse, hfactor, hcluster, hproducer⟩ := hbody
  refine buildCandidateSet_of_checks hnodup (fun stage e he => ?_) hbytes
    (hchained.postInit (by rw [hasOf, hknownAt]; exact hknown) hfactor hcluster (fun stage e he => ?_) hproducer)
  · obtain ⟨-, v, hv⟩ := hall stage e he
    obtain ⟨hvasOf, hvknownAt⟩ := hshared v hv.mem
    exact hv.copiedFrom hnodup (hvasOf.trans hasOf.symm) (by rw [hknownAt]; exact hvknownAt)
  · rw [huniverse]
    exact (hall stage e he).1

/-! ### The order of what is supplied -/

/-- The same records in another order. -/
inductive IdentityRecords.Perm : IdentityRecords → IdentityRecords → Prop
  | mapping {items items' : List (String × SecurityIdentityRecord)} (h : items.Perm items') :
    Perm (.mapping items) (.mapping items')
  | sequence {values values' : List SecurityIdentityRecord} (h : values.Perm values') :
    Perm (.sequence values) (.sequence values')

theorem IdentityRecords.byId_perm {records records' : IdentityRecords} {byId : List (String × SecurityIdentityRecord)}
    (h : records.Perm records') (hok : records.byId = .ok byId) :
    ∃ byId', records'.byId = .ok byId' ∧ byId.Perm byId' ∧ (byId.map Prod.fst).Nodup := by
  cases h with
  | mapping h =>
    obtain ⟨_, hnodup, hok⟩ := bind_ok.mp hok
    obtain ⟨_, hbound, hok⟩ := bind_ok.mp hok
    cases hok
    have hnodup := require_ok.mp hnodup
    have hbound := require_ok.mp hbound
    refine ⟨_, bind_ok.mpr ⟨(), require_ok.mpr ((h.map _).nodup_iff.mp hnodup), ?_⟩, h, hnodup⟩
    exact bind_ok.mpr ⟨(), require_ok.mpr fun item hitem => hbound item (h.mem_iff.mpr hitem), rfl⟩
  | sequence h =>
    obtain ⟨_, hnodup, hok⟩ := bind_ok.mp hok
    cases hok
    have hnodup := require_ok.mp hnodup
    refine ⟨_, bind_ok.mpr ⟨(), require_ok.mpr ((h.map _).nodup_iff.mp hnodup), rfl⟩, h.map _, ?_⟩
    rw [List.map_map]
    exact hnodup

theorem sectorOf_ok {asOf knownAt : UtcTimestamp} {item : String × SectorAssignment auth} {sector : String × SicDivision}
    (h : sectorOf asOf knownAt item = .ok sector) : sector.1 = item.1 := by
  obtain ⟨_, -, h⟩ := bind_ok.mp h
  obtain ⟨_, -, h⟩ := bind_ok.mp h
  cases h
  rfl

/-- Gates that look up the same things let the same candidates through. -/
theorem accept_congr {g g' : Gate auth} (hviews : g.views.Perm g'.views) (hsectors : g.sectors.Perm g'.sectors)
    (hassignments : g.assignments.Perm g'.assignments) (hidentities : g.identities.Perm g'.identities)
    (hmembers : g.members = g'.members) (hasOf : g.asOf = g'.asOf) (hknownAt : g.knownAt = g'.knownAt)
    (hnviews : (g.views.map (fun view => view.securityId)).Nodup) (hnsectors : (g.sectors.map Prod.fst).Nodup)
    (hnassignments : (g.assignments.map Prod.fst).Nodup) (hnidentities : (g.identities.map Prod.fst).Nodup) :
    g'.accept D = g.accept D := by
  funext entry
  have hview : g'.views.find? (fun view => view.securityId = entry.securityId) =
      g.views.find? (fun view => view.securityId = entry.securityId) := by
    refine Dict.find?_perm hviews fun v hv v' hv' hid hid' => ?_
    exact List.inj_on_of_nodup_map hnviews hv hv' ((of_decide_eq_true hid).trans (of_decide_eq_true hid').symm)
  have hclosed : ∀ view member identity assignment,
      Closed D g' entry view member identity assignment ↔ Closed D g entry view member identity assignment := by
    intro view member identity assignment
    rw [closed_iff, closed_iff, hasOf, hknownAt]
  simp only [Gate.accept, hview, Dict.lookup_perm hsectors hnsectors, Dict.lookup_perm hassignments hnassignments,
    Dict.lookup_perm hidentities hnidentities, ← hmembers, hclosed]

theorem keepFirst_congr {g g' : Gate auth} (h : g'.accept D = g.accept D) (n : Nat) (quant : List CandidateEntry) :
    keepFirst D g' n quant = keepFirst D g n quant := by
  induction quant generalizing n with
  | nil => cases n <;> rfl
  | cons entry quant ih =>
    cases n with
    | zero => rfl
    | succ n => simp only [keepFirst, h, ih]

/-- The evidence candidates are the same for every order of the views, of the sector assignments and
of the identity records. -/
def FunnelRun.OrderFree (r : FunnelRun auth D) : Prop :=
  ∀ views sectorDivision identityRecords, r.views.Perm views → r.sectorDivision.Perm sectorDivision →
    r.identityRecords.Perm identityRecords →
    evidenceCandidates D r.quant views sectorDivision identityRecords r.cutoff r.snapshot = .ok r.evidence

end SevenLens.Screening
