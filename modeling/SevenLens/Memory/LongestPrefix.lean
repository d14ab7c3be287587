import SevenLens.Memory.Chain
import SevenLens.Memory.SelectionSpec

/-! # The prefix that an artifact keeps

`build_selected_artifact` drops the last entry as long as the canonical bytes are too many.  A sum of
references or a rendered line beyond its bound is checked before the bytes and ends the loop, so that the
longest prefix that fits is returned exactly if the whole selection keeps to these two bounds
(`longest_prefix_iff`). -/

namespace SevenLens.Memory

open Securities

variable {R : Rules}

/-! ### The checks of a body -/

theorem require_of {p : Prop} [Decidable p] {message : String} (h : p) : require p message = .ok () := require_ok.mpr h

theorem require_of_not {p : Prop} [Decidable p] {message : String} (h : ¬ p) : require p message = refuse message := if_neg h

/-- The lines of an entry in `render_lines`. -/
def MemoryEntry.renderedLines (e : MemoryEntry R) : List String :=
  ["category: " ++ e.category.value, "importance: " ++ toString e.importance, "observation: " ++ e.observation,
    "reusable_lesson: " ++ e.reusableLesson, "applies_when: " ++ ArtifactBody.joined e.appliesWhen,
    "invalid_when: " ++ ArtifactBody.joined e.invalidWhen, "evidence_ids: " ++ ArtifactBody.joined e.evidenceIds,
    "source_record_ids: " ++ ArtifactBody.joined e.sourceRecordIds,
    "risk_reason_codes: " ++ ArtifactBody.joined e.riskReasonCodes]

/-- The lines above the entries. -/
def ArtifactFields.headerLines (fields : ArtifactFields) : List String :=
  ["artifact_id: " ++ fields.artifactId, "schema_version: " ++ fields.schemaVersion,
    "created_at: " ++ fields.createdAt.text, "cutoff_at: " ++ fields.cutoffAt.text,
    "previous_artifact_id: " ++ fields.previousArtifactId.getD "-"]

theorem ArtifactBody.renderLines_eq (b : ArtifactBody R) :
    b.renderLines = b.toArtifactFields.headerLines ++ b.entries.flatMap MemoryEntry.renderedLines := rfl

theorem ArtifactBody.length_renderLines (b : ArtifactBody R) : b.renderLines.length = 5 + 9 * b.entries.length := by
  rw [b.renderLines_eq, List.length_append, List.length_flatMap]
  have hlines : b.entries.map (fun e => e.renderedLines.length) = b.entries.map (fun _ => 9) := rfl
  rw [hlines, List.map_const', List.sum_replicate_nat, Nat.mul_comm]
  rfl

/-- What the checks ask of the fields that are given with the entries. -/
structure ArtifactFields.Checked (R : Rules) (fields : ArtifactFields) : Prop where
  artifactId : R.ref "artifact_id" fields.artifactId = .ok ()
  schemaVersion : R.version "schema_version" fields.schemaVersion = .ok ()
  cutoff : fields.cutoffAt ≤ fields.createdAt
  sources : R.refs "source_record_ids" maxArtifactSources true fields.sourceRecordIds = .ok ()
  previous : fields.previousArtifactId.toList.forM (R.ref "previous_artifact_id") = .ok ()
  predecessor : fields.previousArtifactId ≠ some fields.artifactId
  promptVersion : R.version "prompt_version" fields.promptVersion = .ok ()
  modelVersion : R.version "model_version" fields.modelVersion = .ok ()
  providerVersion : R.version "provider_version" fields.providerVersion = .ok ()
  lines : ∀ line ∈ fields.headerLines, line.utf8ByteSize ≤ maxFieldBytes

/-- The bounds on entries that are checked before the canonical bytes. -/
structure WithinFieldBounds (entries : List (MemoryEntry R)) : Prop where
  references : (entries.map (fun e => e.evidenceIds.length)).sum ≤ maxTotalFactRefs
  lines : ∀ e ∈ entries, ∀ line ∈ e.renderedLines, line.utf8ByteSize ≤ maxFieldBytes

/-- The body that `build_memory_artifact` checks. -/
def builtBody (fields : ArtifactFields) (entries : List (MemoryEntry R)) : ArtifactBody R :=
  let provisional : ArtifactBody R :=
    ⟨fields, entries, 5 + 9 * entries.length, ⟨String.ofList (List.replicate 64 '0'), Hash.zeros_ok⟩⟩
  { provisional with contentHash := R.sha256 provisional.canonicalContentBytes }

theorem checked_of_postInit {b : ArtifactBody R} (h : b.postInit = .ok ()) : b.toArtifactFields.Checked R := by
  simp only [ArtifactBody.postInit, bind_ok, require_ok, exists_const] at h
  obtain ⟨_, hid, _, hschema, hcutoff, _, hsources, _, hprevious, hpredecessor, -, -, -, -, _, hprompt, _, hmodel, _,
    hprovider, -, hlines, -, -⟩ := h
  refine ⟨hid, hschema, hcutoff, hsources, hprevious, hpredecessor, hprompt, hmodel, hprovider, fun line hline => ?_⟩
  exact hlines line (by rw [b.renderLines_eq]; exact List.mem_append_left _ hline)

section Attempt

variable {fields : ArtifactFields} {entries : List (MemoryEntry R)}

theorem withinFieldBounds_iff (hchecked : fields.Checked R) : WithinFieldBounds entries ↔
    (entries.map (fun e => e.evidenceIds.length)).sum ≤ maxTotalFactRefs ∧
      ∀ line ∈ (builtBody fields entries).renderLines, line.utf8ByteSize ≤ maxFieldBytes := by
  have hlines : (builtBody fields entries).renderLines = fields.headerLines ++ entries.flatMap MemoryEntry.renderedLines := rfl
  rw [hlines, List.forall_mem_append, List.forall_mem_flatMap]
  exact ⟨fun h => ⟨h.references, hchecked.lines, h.lines⟩, fun h => ⟨h.1, h.2.2⟩⟩

/-- What is left of the checks where only the entries may be at fault. -/
theorem postInit_builtBody (hchecked : fields.Checked R) (hentries : entries ≠ [])
    (hlength : 5 + 9 * entries.length ≤ maxArtifactLines)
    (hcover : ∀ e ∈ entries, ∀ id ∈ e.sourceRecordIds, id ∈ fields.sourceRecordIds) :
    (builtBody fields entries).postInit = (do
      require ((entries.map (fun e => e.evidenceIds.length)).sum ≤ maxTotalFactRefs)
        "artifact exceeds total fact-reference bound"
      require (∀ line ∈ (builtBody fields entries).renderLines, line.utf8ByteSize ≤ maxFieldBytes)
        "artifact rendered line exceeds byte bound"
      require ((builtBody fields entries).canonicalContentBytes.size ≤ maxArtifactBytes)
        "artifact exceeds canonical byte bound") := by
  have hitems : entries.length ≤ maxArtifactEntries := by
    unfold maxArtifactLines at hlength
    unfold maxArtifactEntries
    omega
  have hskip : ∀ {p : Prop} [Decidable p] (message : String) (rest : Unit → Except Failure Unit), p →
      (require p message >>= rest) = rest () := by
    intro p _ message rest hp
    rw [show require p message = .ok () from require_ok.mpr hp]
    rfl
  have hpass : ∀ {x : Except Failure Unit} (rest : Unit → Except Failure Unit), x = .ok () → (x >>= rest) = rest () := by
    rintro x rest rfl
    rfl
  refine (hpass _ hchecked.artifactId).trans ((hpass _ hchecked.schemaVersion).trans ((hskip _ _ hchecked.cutoff).trans
    ((hpass _ hchecked.sources).trans ((hpass _ hchecked.previous).trans ((hskip _ _ hchecked.predecessor).trans
    ((hskip _ _ ⟨hitems, hentries⟩).trans ((hskip _ _ hcover).trans (bind_congr fun _ => ?_))))))))
  refine (hskip _ _ ⟨Nat.le_add_right_of_le (by decide), hlength⟩).trans ((hpass _ hchecked.promptVersion).trans
    ((hpass _ hchecked.modelVersion).trans ((hpass _ hchecked.providerVersion).trans
    ((hskip _ _ (builtBody fields entries).length_renderLines.symm).trans (bind_congr fun _ => ?_)))))
  rw [show require (R.sha256 (builtBody fields entries).canonicalContentBytes = (builtBody fields entries).contentHash)
    "artifact content hash does not match canonical bytes" = .ok () from require_ok.mpr rfl]
  cases require ((builtBody fields entries).canonicalContentBytes.size ≤ maxArtifactBytes)
    "artifact exceeds canonical byte bound" <;> rfl

theorem buildMemoryArtifact_of_ok (hentries : entries ≠ []) (h : (builtBody fields entries).postInit = .ok ()) :
    buildMemoryArtifact fields entries = .ok ⟨builtBody fields entries, .candidate, h⟩ := by
  rw [buildMemoryArtifact, require_of hentries]
  dsimp only [bind, Except.bind]
  split
  · rename_i heq
    cases heq.symm.trans h
  · rfl

theorem buildMemoryArtifact_of_error {e : Failure} (hentries : entries ≠ [])
    (h : (builtBody fields entries).postInit = .error e) :
    buildMemoryArtifact fields entries = .error e := by
  rw [buildMemoryArtifact, require_of hentries]
  dsimp only [bind, Except.bind]
  split
  · rename_i heq
    exact congrArg Except.error (Except.error.inj (heq.symm.trans h))
  · rename_i heq
    cases heq.symm.trans h

theorem postInit_of_buildMemoryArtifact {a : MemoryArtifact R} (h : buildMemoryArtifact fields entries = .ok a) :
    entries ≠ [] ∧ (builtBody fields entries).postInit = .ok () := by
  obtain ⟨_, hentries, -⟩ := bind_ok.mp h
  have hentries := require_ok.mp hentries
  cases hpost : (builtBody fields entries).postInit with
  | ok _ => exact ⟨hentries, rfl⟩
  | error e =>
    rw [buildMemoryArtifact_of_error hentries hpost] at h
    cases h

/-- Within the bounds on its entries an artifact is built, or has too many bytes. -/
theorem buildMemoryArtifact_within (hchecked : fields.Checked R) (hentries : entries ≠ [])
    (hlength : 5 + 9 * entries.length ≤ maxArtifactLines)
    (hcover : ∀ e ∈ entries, ∀ id ∈ e.sourceRecordIds, id ∈ fields.sourceRecordIds) (hwithin : WithinFieldBounds entries) :
    (∃ a, buildMemoryArtifact fields entries = .ok a) ∨ buildMemoryArtifact fields entries = .error byteBound := by
  obtain ⟨hreferences, hlines⟩ := (withinFieldBounds_iff hchecked).mp hwithin
  have hpost := postInit_builtBody hchecked hentries hlength hcover
  rw [require_of hreferences, require_of hlines] at hpost
  by_cases hbytes : (builtBody fields entries).canonicalContentBytes.size ≤ maxArtifactBytes
  · rw [require_of hbytes] at hpost
    exact .inl ⟨_, buildMemoryArtifact_of_ok hentries hpost⟩
  · rw [require_of_not hbytes] at hpost
    exact .inr (buildMemoryArtifact_of_error hentries hpost)

theorem buildMemoryArtifact_references (hchecked : fields.Checked R) (hentries : entries ≠ [])
    (hlength : 5 + 9 * entries.length ≤ maxArtifactLines)
    (hcover : ∀ e ∈ entries, ∀ id ∈ e.sourceRecordIds, id ∈ fields.sourceRecordIds)
    (hreferences : ¬ (entries.map (fun e => e.evidenceIds.length)).sum ≤ maxTotalFactRefs) :
    buildMemoryArtifact fields entries = refuse "artifact exceeds total fact-reference bound" := by
  have hpost := postInit_builtBody hchecked hentries hlength hcover
  rw [require_of_not hreferences] at hpost
  exact buildMemoryArtifact_of_error hentries hpost

theorem buildMemoryArtifact_lines (hchecked : fields.Checked R) (hentries : entries ≠ [])
    (hlength : 5 + 9 * entries.length ≤ maxArtifactLines)
    (hcover : ∀ e ∈ entries, ∀ id ∈ e.sourceRecordIds, id ∈ fields.sourceRecordIds)
    (hreferences : (entries.map (fun e => e.evidenceIds.length)).sum ≤ maxTotalFactRefs)
    (hbeyond : ¬ WithinFieldBounds entries) :
    buildMemoryArtifact fields entries = refuse "artifact rendered line exceeds byte bound" := by
  have hlines := fun h => hbeyond ((withinFieldBounds_iff hchecked).mpr ⟨hreferences, h⟩)
  have hpost := postInit_builtBody hchecked hentries hlength hcover
  rw [require_of hreferences, require_of_not hlines] at hpost
  exact buildMemoryArtifact_of_error hentries hpost

/-- Beyond these bounds the error is another one. -/
theorem buildMemoryArtifact_beyond (hchecked : fields.Checked R) (hentries : entries ≠ [])
    (hlength : 5 + 9 * entries.length ≤ maxArtifactLines)
    (hcover : ∀ e ∈ entries, ∀ id ∈ e.sourceRecordIds, id ∈ fields.sourceRecordIds) (hbeyond : ¬ WithinFieldBounds entries) :
    ∃ e, e ≠ byteBound ∧ buildMemoryArtifact fields entries = .error e := by
  by_cases hreferences : (entries.map (fun e => e.evidenceIds.length)).sum ≤ maxTotalFactRefs
  · exact ⟨.raised ⟨.valueError, "artifact rendered line exceeds byte bound"⟩, by decide,
      buildMemoryArtifact_lines hchecked hentries hlength hcover hreferences hbeyond⟩
  · exact ⟨.raised ⟨.valueError, "artifact exceeds total fact-reference bound"⟩, by decide,
      buildMemoryArtifact_references hchecked hentries hlength hcover hreferences⟩

end Attempt

/-! ### The entries of a selection -/

theorem sources_derived {c d : MemoryCandidate R} {sourceRecords : Option SourceMap}
    (h : deriveCandidatePolicy c sourceRecords = .ok d) : d.entry.sourceRecordIds = c.entry.sourceRecordIds := by
  cases sourceRecords with
  | none => rw [(memoryCandidate_ok h).1]; rfl
  | some m =>
    obtain ⟨policy, -, h⟩ := bind_ok.mp h
    rw [(memoryCandidate_ok h).1]
    rfl

theorem sources_mergeGroup {group : List (MemoryCandidate R)} {c : MemoryCandidate R} (h : mergeGroup group = .ok c) :
    c.entry.sourceRecordIds = mergeRefs MemoryEntry.sourceRecordIds group := by
  unfold mergeGroup at h
  split at h
  · cases h
  · split_ifs at h
    · cases h
      rfl
    · cases h

theorem mem_of_mem_candidateGroups {candidates group : List (MemoryCandidate R)} (h : group ∈ candidateGroups candidates)
    {c : MemoryCandidate R} (hc : c ∈ group) : c ∈ candidates := by
  obtain ⟨key, -, rfl⟩ := List.mem_map.mp h
  exact List.mem_of_mem_filter hc

/-- The records of a selected entry are those of candidates. -/
theorem sources_of_selected {candidates : List (MemoryCandidate R)} {cutoffAt : UtcTimestamp}
    {quotas : MemoryCategory → Nat} {maximum : Nat} {sourceRecords : Option SourceMap} {selected : List (MemoryEntry R)}
    (h : selectEntries candidates cutoffAt quotas maximum sourceRecords = .ok selected) {e : MemoryEntry R}
    (he : e ∈ selected) {id : String} (hid : id ∈ e.sourceRecordIds) : ∃ c ∈ candidates, id ∈ c.entry.sourceRecordIds := by
  obtain ⟨-, -, derived, hderived, rfl⟩ := selectEntries_ok.mp h
  obtain ⟨merged, hmerged, hderive⟩ := bind_ok.mp hderived
  obtain ⟨picked, hsub, heq⟩ := @chosenFrom_eq_map _ quotas maximum (rankedBy cutoffAt derived)
  rw [heq] at he
  obtain ⟨d, hd, rfl⟩ := List.mem_map.mp he
  have hd := List.mem_of_mem_filter (List.mem_sortOn.mp (hsub.subset hd))
  obtain ⟨c, hc, hcd⟩ := Dict.exists_of_forall₂ (Dict.forall₂_of_mapM hderive).flip hd
  obtain ⟨group, hgroup, hmerge⟩ := Dict.exists_of_forall₂ (Dict.forall₂_of_mapM hmerged).flip hc
  rw [show (normalized d).sourceRecordIds = c.entry.sourceRecordIds from sources_derived hcd,
    sources_mergeGroup hmerge] at hid
  obtain ⟨b, hb, hid⟩ := mem_mergeRefs.mp hid
  exact ⟨b, mem_of_mem_candidateGroups hgroup hb, hid⟩

theorem WithinFieldBounds.take {entries : List (MemoryEntry R)} (h : WithinFieldBounds entries) (n : Nat) :
    WithinFieldBounds (entries.take n) := by
  refine ⟨le_trans ?_ h.references, fun e he => h.lines e (List.mem_of_mem_take he)⟩
  nth_rewrite 2 [← List.take_append_drop n entries]
  rw [List.map_append, List.sum_append]
  exact Nat.le_add_right _ _

/-! ### The loop -/

/-- The loop returns the artifact of the longest prefix that is built, where the longer ones have too many bytes. -/
theorem fitArtifact_longest {fields : ArtifactFields} {selected : List (MemoryEntry R)} {first : MemoryArtifact R} {n : Nat}
    (hn : 1 ≤ n) (hfirst : buildMemoryArtifact fields (selected.take 1) = .ok first)
    (h : ∀ m, 1 ≤ m → m ≤ n → (∃ a, buildMemoryArtifact fields (selected.take m) = .ok a) ∨
      buildMemoryArtifact fields (selected.take m) = .error byteBound) :
    ∃ k a, k ≤ n ∧ buildMemoryArtifact fields (selected.take k) = .ok a ∧ fitArtifact fields selected n = .ok a ∧
      ∀ m, k < m → m ≤ n → buildMemoryArtifact fields (selected.take m) = .error byteBound := by
  induction n, hn using Nat.le_induction with
  | base =>
    refine ⟨1, first, le_rfl, hfirst, by rw [fitArtifact, hfirst], fun m hm hle => absurd hm (not_lt.mpr hle)⟩
  | succ n hn ih =>
    rcases h (n + 1) (Nat.le_add_left 1 n) le_rfl with ⟨a, ha⟩ | hbytes
    · exact ⟨n + 1, a, le_rfl, ha, by rw [fitArtifact, ha], fun m hm hle => absurd hm (not_lt.mpr hle)⟩
    · obtain ⟨k, a, hk, hbuild, hfit, hlonger⟩ := ih fun m hm hle => h m hm (Nat.le_succ_of_le hle)
      refine ⟨k, a, Nat.le_succ_of_le hk, hbuild, by rw [fitArtifact, hbytes]; exact (if_pos rfl).trans hfit, fun m hm hle => ?_⟩
      rcases Nat.lt_or_eq_of_le hle with hlt | rfl
      · exact hlonger m hm (Nat.le_of_lt_succ hlt)
      · exact hbytes

/-! ### The longest prefix -/

/-- The artifact of the longest prefix of a selection that makes one is returned. -/
def KeepsLongestPrefix (candidates : List (MemoryCandidate R)) (sourceRecords : Option SourceMap) (fields : ArtifactFields)
    (selected : List (MemoryEntry R)) : Prop :=
  ∃ n a, buildSelectedArtifact candidates sourceRecords fields = .ok a ∧ n ≤ selected.length ∧
    buildMemoryArtifact fields (selected.take n) = .ok a ∧
    ∀ m b, n < m → m ≤ selected.length → buildMemoryArtifact fields (selected.take m) ≠ .ok b

/-- Where the candidates' records are covered and the first selected entry makes an artifact, the longest prefix is kept
exactly if the whole selection is within the bounds on references and lines. -/
theorem longest_prefix_iff (candidates : List (MemoryCandidate R)) (sourceRecords : Option SourceMap)
    (fields : ArtifactFields) (selected : List (MemoryEntry R)) (first : MemoryArtifact R)
    (hcover : ∀ c ∈ candidates, ∀ id ∈ c.entry.sourceRecordIds, id ∈ fields.sourceRecordIds)
    (hselected : selectEntries candidates fields.cutoffAt defaultCategoryQuotas maxArtifactEntries sourceRecords = .ok selected)
    (hfirst : buildMemoryArtifact fields (selected.take 1) = .ok first) :
    KeepsLongestPrefix candidates sourceRecords fields selected ↔ WithinFieldBounds selected := by
  obtain ⟨hne, hpost⟩ := postInit_of_buildMemoryArtifact hfirst
  have hchecked : fields.Checked R := checked_of_postInit hpost
  have hpositive : 1 ≤ selected.length := by
    rw [Nat.one_le_iff_ne_zero, Ne, List.length_eq_zero_iff]
    rintro rfl
    exact hne rfl
  have hcapacity : 5 + 9 * selected.length ≤ maxArtifactLines := by
    obtain ⟨-, -, derived, -, rfl⟩ := selectEntries_ok.mp hselected
    exact length_chosenFrom.2
  have hsources : ∀ e ∈ selected, ∀ id ∈ e.sourceRecordIds, id ∈ fields.sourceRecordIds := by
    intro e he id hid
    obtain ⟨c, hc, hid⟩ := sources_of_selected hselected he hid
    exact hcover c hc id hid
  have hbuild : buildSelectedArtifact candidates sourceRecords fields = fitArtifact fields selected selected.length := by
    rw [buildSelectedArtifact, hselected]
    rfl
  constructor
  · rintro ⟨n, a, ha, -⟩
    by_contra hbeyond
    obtain ⟨e, hbytes, he⟩ := buildMemoryArtifact_beyond hchecked (List.ne_nil_of_length_pos hpositive) hcapacity hsources hbeyond
    -- the first attempt is the whole selection
    obtain ⟨m, hm⟩ := Nat.exists_eq_add_of_le' hpositive
    have hfit : fitArtifact fields selected selected.length = .error e := by
      rw [hm, fitArtifact, ← hm, List.take_length, he]
      exact if_neg hbytes
    rw [hbuild, hfit] at ha
    cases ha
  · intro hwithin
    obtain ⟨n, a, hn, hprefix, hfit, hlonger⟩ := fitArtifact_longest hpositive hfirst fun m hm hle => by
      refine buildMemoryArtifact_within hchecked ?_ ?_ (fun e he => hsources e (List.mem_of_mem_take he)) (hwithin.take m)
      · exact List.ne_nil_of_length_pos (by rw [List.length_take]; omega)
      · rw [List.length_take]
        omega
    refine ⟨n, a, hbuild.trans hfit, hn, hprefix, fun m b hm hle hb => ?_⟩
    rw [hlonger m hm hle] at hb
    cases hb

/-! ### A long lesson -/

theorem eraseDups_of_nodup {α : Type} [DecidableEq α] {l : List α} (h : l.Nodup) : l.eraseDups = l := by
  induction l with
  | nil => rfl
  | cons a l ih =>
    obtain ⟨ha, hl⟩ := List.nodup_cons.mp h
    have hfilter : l.filter (fun b => !b == a) = l := by
      refine List.filter_eq_self.mpr fun b hb => ?_
      have hne : b ≠ a := fun heq => ha (heq ▸ hb)
      simp [hne]
    rw [List.eraseDups_cons, hfilter, ih hl]

/-- A candidate that is alone with its key stays as it is. -/
theorem mergeGroup_singleton (c : MemoryCandidate R) : mergeGroup [c] = .ok c := by
  have hrefs : ∀ field : MemoryEntry R → List String, (field c.entry).Nodup → mergeRefs field [c] = field c.entry := by
    intro field hnodup
    rw [mergeRefs, show [c].sortOn MemoryCandidate.tieBreaker = [c] from rfl, List.flatMap_singleton, eraseDups_of_nodup hnodup]
  obtain ⟨hevidence, -, -, hevidenceNodup⟩ := Rules.items_ok.mp c.entry.evidence_ok
  obtain ⟨hsources, -, -, hsourcesNodup⟩ := Rules.items_ok.mp c.entry.sources_ok
  obtain ⟨hreasons, -, -, hreasonsNodup⟩ := Rules.items_ok.mp c.entry.reasons_ok
  have hbounds : WithinBounds [c] := by
    rw [WithinBounds, hrefs _ hevidenceNodup, hrefs _ hsourcesNodup, hrefs _ hreasonsNodup]
    exact ⟨hevidence, hsources, hreasons⟩
  have hentry : c.entry.withLineage [c] (List.cons_ne_nil _ _) hbounds = c.entry := by
    simp only [MemoryEntry.withLineage, hrefs _ hevidenceNodup, hrefs _ hsourcesNodup, hrefs _ hreasonsNodup]
  have hsort : [c].sortOn MemoryCandidate.tieBreaker = [c] := rfl
  rw [mergeGroup_eq hsort (List.cons_ne_nil _ _), dif_pos hbounds, hentry]

theorem mergeCandidates_pair {c d : MemoryCandidate R} (h : c.entry.dedupKey < d.entry.dedupKey) :
    mergeCandidates [c, d] = .ok [c, d] := by
  have hkeys : [c.entry.dedupKey, d.entry.dedupKey].dedup.sortOn id = [c.entry.dedupKey, d.entry.dedupKey] := by
    rw [List.dedup_eq_self.mpr (by simpa using h.ne)]
    exact List.sortOn_of_pairwise (by simpa using h.le)
  have hgroups : candidateGroups [c, d] = [[c], [d]] := by
    rw [candidateGroups, List.map_cons, List.map_singleton, hkeys]
    simp [List.filter_cons, h.ne, h.ne']
  rw [mergeCandidates, hgroups, List.mapM_cons, List.mapM_cons, mergeGroup_singleton, mergeGroup_singleton]
  rfl

section Sample

def shortEntry : MemoryEntry sizedRules := (sizedEntry.withCategory .general).withImportance 40 (by decide)

/-- A lesson of one letter. -/
def lesson (n : Nat) : String := String.ofList (List.replicate n 'x')

theorem toList_lesson (n : Nat) : (lesson n).toList = List.replicate n 'x' := String.toList_ofList

theorem utf8ByteSize_lesson (n : Nat) : (Json.quote (lesson n)).utf8ByteSize = n + 2 ∧ (lesson n).utf8ByteSize = n := by
  have hplain : ∀ c ∈ (lesson n).toList, Json.PlainChar c := by
    intro c hc
    rw [toList_lesson] at hc
    rw [List.eq_of_mem_replicate hc]
    decide
  have hlength : (lesson n).length = n := by rw [← String.length_toList, toList_lesson, List.length_replicate]
  simpa only [hlength] using Json.utf8ByteSize_quote_of_plain hplain

theorem lesson_ok {n : Nat} (hpositive : 1 ≤ n) (hbound : n ≤ maxFieldBytes) :
    sizedRules.exactText "reusable_lesson" maxFieldBytes false (lesson n) = .ok () := by
  have habsent : ∀ {m : Nat}, Char.ofNat m ≠ 'x' → Char.ofNat m ∉ (lesson n).toList := by
    intro m hm hmem
    rw [toList_lesson] at hmem
    exact hm (List.eq_of_mem_replicate hmem)
  rw [Rules.exactText, require_of (habsent (by decide)), require_of (by rw [(utf8ByteSize_lesson n).2]; exact ⟨hpositive, hbound⟩)]
  exact require_of ⟨habsent (by decide), habsent (by decide)⟩

section Long

variable {n : Nat} (h : 600 ≤ n ∧ n ≤ maxFieldBytes)

def longEntry : MemoryEntry sizedRules :=
  { shortEntry with
    reusableLesson := lesson n
    lesson_ok := lesson_ok ((by decide : 1 ≤ 600).trans h.1) h.2 }

def candidateOf (e : MemoryEntry sizedRules) : MemoryCandidate sizedRules :=
  ⟨e, sampleDay 0, 1, false, 0, one_recurrence_ok, zero_rating_ok⟩

theorem sizeDigest_of_le {s : String} (hs : 550 ≤ s.utf8ByteSize) :
    sizeDigest s.toUTF8 = ⟨String.ofList (List.replicate 64 '8'), by decide⟩ := if_neg (not_lt.mpr hs)

theorem dedupKey_longEntry : (longEntry h).dedupKey = ⟨String.ofList (List.replicate 64 '8'), by decide⟩ := by
  have hlesson : (longEntry h).wording.reusableLesson = lesson n := rfl
  have hdigest : sizedRules.sha256 = sizeDigest := rfl
  rw [MemoryEntry.dedupKey, MemoryEntry.keyOf, hdigest, hlesson]
  refine sizeDigest_of_le ?_
  rw [String.utf8ByteSize_append, Json.utf8ByteSize_dumps, Json.bytes, Json.bytesItems, Json.bytesItems,
    Json.bytesItems, Json.bytes, Json.bytes, Json.bytes, (utf8ByteSize_lesson n).1]
  have hn := h.1
  omega

theorem dedupKey_shortEntry : shortEntry.dedupKey = ⟨String.ofList (List.replicate 64 '7'), by decide⟩ := by decide +kernel

theorem selected_long : selectEntries [candidateOf shortEntry, candidateOf (longEntry h)] (sampleDay 3) defaultCategoryQuotas
    maxArtifactEntries none = .ok [shortEntry, longEntry h] := by
  have hlt : (candidateOf shortEntry).entry.dedupKey < (candidateOf (longEntry h)).entry.dedupKey := by
    show shortEntry.dedupKey < (longEntry h).dedupKey
    rw [dedupKey_shortEntry, dedupKey_longEntry]
    decide +kernel
  have hderived : derivedFrom [candidateOf shortEntry, candidateOf (longEntry h)] none =
      .ok [candidateOf shortEntry, candidateOf (longEntry h)] := by
    rw [derivedFrom, mergeCandidates_pair hlt]
    rfl
  have hrank : rankKey (candidateOf shortEntry) ≤ rankKey (candidateOf (longEntry h)) := by
    refine Prod.Lex.toLex_le_toLex.mpr (.inr ⟨rfl, Prod.Lex.toLex_le_toLex.mpr (.inr ⟨rfl, ?_⟩)⟩)
    exact Prod.Lex.toLex_le_toLex.mpr (.inr ⟨rfl, Prod.Lex.toLex_le_toLex.mpr (.inl hlt)⟩)
  have hranked : rankedBy (sampleDay 3) [candidateOf shortEntry, candidateOf (longEntry h)] =
      [candidateOf shortEntry, candidateOf (longEntry h)] := by
    have hvisible : sampleDay 0 ≤ sampleDay 3 := by decide +kernel
    have hfilter : [candidateOf shortEntry, candidateOf (longEntry h)].filter (fun c => decide (c.availableAt ≤ sampleDay 3)) =
        [candidateOf shortEntry, candidateOf (longEntry h)] := by
      refine List.filter_eq_self.mpr fun c hc => decide_eq_true ?_
      rcases List.mem_pair.mp hc with rfl | rfl <;> exact hvisible
    rw [rankedBy, hfilter]
    exact List.sortOn_of_pairwise (List.pairwise_pair.mpr hrank)
  have hroom : ∀ (chosen : List (MemoryEntry sizedRules)) (c : MemoryCandidate sizedRules), chosen.length ≤ 1 →
      c.entry.dedupKey ∉ chosen.map MemoryEntry.dedupKey →
      ¬ (Passes defaultCategoryQuotas chosen c ∨ Full maxArtifactEntries chosen c) := by
    intro chosen c hlength hkey hstop
    have hquota := @List.countP_le_length _ (fun e => decide (e.category = c.entry.category)) chosen
    rcases hstop with (hmem | hfull) | hfull | hfull
    · exact hkey hmem
    · exact absurd (hfull.trans (hquota.trans hlength)) (by decide : ¬ 64 ≤ 1)
    · exact absurd (hfull.trans hlength) (by decide)
    · unfold maxArtifactLines at hfull
      omega
  have hfirst : List.greedyStep normalized (Passes defaultCategoryQuotas) (Full maxArtifactEntries) [] (candidateOf shortEntry) =
      [shortEntry] := if_neg (hroom [] _ (Nat.zero_le 1) List.not_mem_nil)
  have hsecond : List.greedyStep normalized (Passes defaultCategoryQuotas) (Full maxArtifactEntries) [shortEntry]
      (candidateOf (longEntry h)) = [shortEntry, longEntry h] :=
    if_neg (hroom _ _ le_rfl fun hmem => hlt.ne' (List.mem_singleton.mp hmem))
  refine selectEntries_ok.mpr ⟨by decide, fun _ _ => (by decide : 64 ≤ 512), _, hderived, ?_⟩
  rw [hranked, chosenFrom, List.greedy, List.foldl_cons, List.foldl_cons, List.foldl_nil, hfirst, hsecond]

theorem covered_long : ∀ c ∈ [candidateOf shortEntry, candidateOf (longEntry h)], ∀ id ∈ c.entry.sourceRecordIds,
    id ∈ sampleFields.sourceRecordIds := by
  intro c hc id hid
  rcases List.mem_pair.mp hc with rfl | rfl <;> exact hid

theorem shortBody_ok : (builtBody sampleFields [shortEntry]).postInit = .ok () := by decide +kernel

/-- With the name of the field before it the lesson is too long for a line. -/
theorem beyond_long (hn : 2032 ≤ n) : ¬ WithinFieldBounds [shortEntry, longEntry h] := by
  intro hwithin
  have hline := hwithin.lines (longEntry h) (by simp) ("reusable_lesson: " ++ lesson n)
    (List.mem_cons_of_mem _ (List.mem_cons_of_mem _ (List.mem_cons_of_mem _ List.mem_cons_self)))
  have hname : "reusable_lesson: ".utf8ByteSize = 17 := by decide
  rw [String.utf8ByteSize_append, hname, (utf8ByteSize_lesson n).2, maxFieldBytes] at hline
  omega

theorem aborted_long (hn : 2032 ≤ n) :
    buildSelectedArtifact [candidateOf shortEntry, candidateOf (longEntry h)] none sampleFields =
      refuse "artifact rendered line exceeds byte bound" := by
  have hcover : ∀ e ∈ [shortEntry, longEntry h], ∀ id ∈ e.sourceRecordIds, id ∈ sampleFields.sourceRecordIds := by
    intro e he id hid
    rcases List.mem_pair.mp he with rfl | rfl <;> exact hid
  have hchecked : sampleFields.Checked sizedRules := checked_of_postInit shortBody_ok
  have hbuild := buildMemoryArtifact_lines hchecked (List.cons_ne_nil _ _)
    (by rw [List.length_cons, List.length_singleton]; decide) hcover (by decide : 2 ≤ 8192) (beyond_long h hn)
  rw [buildSelectedArtifact, show sampleFields.cutoffAt = sampleDay 3 from rfl, selected_long h]
  show fitArtifact sampleFields [shortEntry, longEntry h] 2 = _
  rw [fitArtifact, show [shortEntry, longEntry h].take (1 + 1) = [shortEntry, longEntry h] from rfl, hbuild]
  exact if_neg (by decide)

end Long

end Sample

/-- A second lesson of 2040 bytes ends the loop, although the first entry makes an artifact. -/
theorem oversized_entry_aborts :
    ∃ (candidates : List (MemoryCandidate sizedRules)) (selected : List (MemoryEntry sizedRules))
      (first : MemoryArtifact sizedRules),
      (∀ c ∈ candidates, ∀ id ∈ c.entry.sourceRecordIds, id ∈ sampleFields.sourceRecordIds) ∧
        selectEntries candidates sampleFields.cutoffAt defaultCategoryQuotas maxArtifactEntries none = .ok selected ∧
        buildMemoryArtifact sampleFields (selected.take 1) = .ok first ∧
        buildSelectedArtifact candidates none sampleFields = refuse "artifact rendered line exceeds byte bound" ∧
        ¬ KeepsLongestPrefix candidates none sampleFields selected := by
  have hbound : 600 ≤ 2040 ∧ 2040 ≤ maxFieldBytes := by decide
  have haborted := aborted_long hbound (by decide)
  refine ⟨_, _, _, covered_long hbound, selected_long hbound,
    buildMemoryArtifact_of_ok (List.cons_ne_nil shortEntry []) shortBody_ok, haborted, ?_⟩
  rintro ⟨_, a, ha, -⟩
  rw [haborted] at ha
  cases ha

/-- The selection of the sample is one entry, which is kept. -/
theorem longest_prefix_sample : ∃ (selected : List (MemoryEntry sampleRules)) (first : MemoryArtifact sampleRules),
    selectEntries [sampleCandidate] sampleFields.cutoffAt defaultCategoryQuotas maxArtifactEntries (some sampleMap) = .ok selected ∧
      buildMemoryArtifact sampleFields (selected.take 1) = .ok first ∧
      (KeepsLongestPrefix [sampleCandidate] (some sampleMap) sampleFields selected ↔ WithinFieldBounds selected) := by
  have hbuilt : (do
      let selected ← selectEntries [sampleCandidate] sampleFields.cutoffAt defaultCategoryQuotas maxArtifactEntries (some sampleMap)
      let _ ← buildMemoryArtifact sampleFields (selected.take 1)
      return ()) = .ok () := by decide +kernel
  obtain ⟨selected, hselected, hfirst⟩ := bind_ok.mp hbuilt
  obtain ⟨first, hfirst, -⟩ := bind_ok.mp hfirst
  refine ⟨selected, first, hselected, hfirst, longest_prefix_iff _ _ _ _ first ?_ hselected hfirst⟩
  decide

end SevenLens.Memory
