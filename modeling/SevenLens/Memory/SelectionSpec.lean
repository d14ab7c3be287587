import SevenLens.Analysis.Texts
import SevenLens.Library.Greedy
import SevenLens.Memory.Validation

/-! # What the selection promises

`select_entries` goes once through the ranked candidates (`choose_eq_greedy`), so that its result is
as large as the quotas and the capacity allow (`Selects`).  It does not depend on the order of the
candidates (`selectEntries_perm`).  Where two candidates of one key agree in all that the tie
breaker compares, they may still differ in the fields that a provider ranks them by; these are
replaced before anything is compared (`deriveCandidatePolicy_unranked`). -/

namespace SevenLens.Memory

open Securities

variable {R : Rules}

/-! ### The loop -/

/-- The key of the candidate has been chosen, or the quota of its category is used up. -/
def Passes (quotas : MemoryCategory → Nat) (chosen : List (MemoryEntry R)) (c : MemoryCandidate R) : Prop :=
  c.entry.dedupKey ∈ chosen.map MemoryEntry.dedupKey ∨
    quotas c.entry.category ≤ chosen.countP (fun e => decide (e.category = c.entry.category))

/-- Neither the number of entries nor the rendered lines leave room for another entry. -/
def Full (maximum : Nat) (chosen : List (MemoryEntry R)) (_ : MemoryCandidate R) : Prop :=
  maximum ≤ chosen.length ∨ maxArtifactLines < 5 + 9 * (chosen.length + 1)

instance (quotas : MemoryCategory → Nat) (chosen : List (MemoryEntry R)) (c : MemoryCandidate R) :
    Decidable (Passes quotas chosen c) := inferInstanceAs (Decidable (_ ∨ _))

instance (maximum : Nat) (chosen : List (MemoryEntry R)) (c : MemoryCandidate R) : Decidable (Full maximum chosen c) :=
  inferInstanceAs (Decidable (_ ∨ _))

/-- What is chosen from the ranked candidates. -/
def chosenFrom (quotas : MemoryCategory → Nat) (maximum : Nat) (ranked : List (MemoryCandidate R)) : List (MemoryEntry R) :=
  ranked.greedy normalized (Passes quotas) (Full maximum)

theorem choose_eq_foldl {quotas : MemoryCategory → Nat} {maximum : Nat} (ranked : List (MemoryCandidate R))
    {chosen : List (MemoryEntry R)} (h : chosen.length < maximum) :
    choose quotas maximum ranked chosen = ranked.foldl (List.greedyStep normalized (Passes quotas) (Full maximum)) chosen := by
  induction ranked generalizing chosen with
  | nil => rfl
  | cons c rest ih =>
    rw [List.foldl_cons, List.greedyStep, choose]
    by_cases hpass : Passes quotas chosen c
    · rw [if_pos (show _ ∨ _ from hpass), if_pos (.inl hpass), ih h]
    rw [if_neg (show ¬ (_ ∨ _) from hpass)]
    by_cases hlines : maxArtifactLines < 5 + 9 * (chosen.length + 1)
    · have hfull : ∀ d, Full maximum chosen d := fun _ => .inr hlines
      rw [if_pos hlines, if_pos (.inr (hfull c)), List.foldl_greedyStep_of_full hfull]
    have hroom : ¬ Full maximum chosen c := not_or.mpr ⟨not_le.mpr h, hlines⟩
    rw [if_neg hlines, if_neg (not_or.mpr ⟨hpass, hroom⟩)]
    have hlength : (chosen ++ [normalized c]).length = chosen.length + 1 := by simp
    by_cases hlast : maximum ≤ chosen.length + 1
    · rw [if_pos hlast, List.foldl_greedyStep_of_full fun _ => .inl (hlength ▸ hlast)]
    · rw [if_neg hlast, ih (hlength ▸ not_le.mp hlast)]

/-- The loop chooses greedily. -/
theorem choose_eq_greedy {quotas : MemoryCategory → Nat} {maximum : Nat} (h : 1 ≤ maximum) (ranked : List (MemoryCandidate R)) :
    choose quotas maximum ranked [] = chosenFrom quotas maximum ranked := choose_eq_foldl ranked h

/-! ### What is chosen -/

section Chosen

variable {quotas : MemoryCategory → Nat} {maximum : Nat} {ranked : List (MemoryCandidate R)}

theorem dedupKey_normalized (c : MemoryCandidate R) : (normalized c).dedupKey = c.entry.dedupKey := rfl

theorem category_normalized (c : MemoryCandidate R) : (normalized c).category = c.entry.category := rfl

theorem nodup_chosenFrom : ((chosenFrom quotas maximum ranked).map MemoryEntry.dedupKey).Nodup := by
  refine List.greedy_rec (P := fun chosen => (chosen.map MemoryEntry.dedupKey).Nodup) List.nodup_nil
    fun chosen c _ hchosen hpass _ => ?_
  rw [List.map_append, List.map_singleton, List.nodup_append]
  refine ⟨hchosen, List.nodup_singleton _, ?_⟩
  rintro key hkey other hother rfl
  rw [List.mem_singleton.mp hother, dedupKey_normalized] at hkey
  exact hpass (.inl hkey)

theorem countP_chosenFrom (category : MemoryCategory) :
    (chosenFrom quotas maximum ranked).countP (fun e => decide (e.category = category)) ≤ quotas category := by
  refine List.greedy_rec (P := fun chosen : List (MemoryEntry R) => chosen.countP (fun e => decide (e.category = category)) ≤ quotas category)
    (Nat.zero_le _) fun chosen c _ hchosen hpass _ => ?_
  rw [List.countP_append, List.countP_singleton, category_normalized]
  split_ifs with hc
  · obtain rfl := of_decide_eq_true hc
    have hroom := not_le.mp (not_or.mp hpass).2
    omega
  · exact hchosen

theorem length_chosenFrom : (chosenFrom quotas maximum ranked).length ≤ maximum ∧
    5 + 9 * (chosenFrom quotas maximum ranked).length ≤ maxArtifactLines := by
  refine List.greedy_rec (P := fun chosen : List (MemoryEntry R) => chosen.length ≤ maximum ∧ 5 + 9 * chosen.length ≤ maxArtifactLines)
    ⟨Nat.zero_le _, Nat.le_of_ble_eq_true rfl⟩ fun chosen c _ _ _ hfull => ?_
  obtain ⟨hmaximum, hlines⟩ := not_or.mp hfull
  rw [List.length_append, List.length_singleton]
  omega

/-- What is chosen is some of the candidates, in their order. -/
theorem chosenFrom_eq_map (ranked : List (MemoryCandidate R)) : ∃ picked : List (MemoryCandidate R),
    picked.Sublist ranked ∧ chosenFrom quotas maximum ranked = picked.map normalized := List.greedy_eq_map ranked

/-- In the order of the ranks the scores do not increase. -/
theorem pairwise_chosenFrom (h : ranked.Pairwise (fun c d => rankKey c ≤ rankKey d)) :
    (chosenFrom quotas maximum ranked).Pairwise (fun a b => b.importance ≤ a.importance) := by
  obtain ⟨picked, hsub, heq⟩ := @chosenFrom_eq_map _ quotas maximum ranked
  rw [heq, List.pairwise_map]
  refine (h.sublist hsub).imp fun {c d} hcd => ?_
  have hscore := (Prod.Lex.toLex_le_toLex.mp hcd).elim le_of_lt fun h => h.1.le
  have hscore : (deterministicImportance d : ℤ) ≤ deterministicImportance c := neg_le_neg_iff.mp hscore
  exact_mod_cast hscore

end Chosen

/-! ### The order of the candidates -/

theorem map_mapM {α β γ : Type} (f : α → Except Failure β) (g : β → γ) (l : List α) :
    (l.mapM f).map (List.map g) = l.mapM (fun a => (f a).map g) := by
  induction l with
  | nil => rfl
  | cons a l ih =>
    rw [List.mapM_cons, List.mapM_cons, ← ih]
    cases f a with
    | error e => rfl
    | ok b => cases l.mapM f <;> rfl

/-- The results of two lists of calls agree after a map, if the calls do one by one. -/
theorem mapM_map_congr {α β γ δ : Type} {f : α → Except Failure γ} {f' : β → Except Failure γ} {g : γ → δ} {l : List α}
    {m : List β} (h : List.Forall₂ (fun a b => (f a).map g = (f' b).map g) l m) :
    (l.mapM f).map (List.map g) = (m.mapM f').map (List.map g) := by
  rw [map_mapM, map_mapM]
  induction h with
  | nil => rfl
  | cons hab _ ih => rw [List.mapM_cons, List.mapM_cons, hab, ih]

namespace MemoryCandidate

/-- A candidate with the fields that rank it put back to what they are without sources. -/
def unranked (c : MemoryCandidate R) : MemoryCandidate R where
  entry := (c.entry.withCategory .general).withImportance 0 zero_rating_ok
  availableAt := c.availableAt
  recurrenceCount := 1
  unresolved := false
  modelImportance := 0
  recurrence_ok := one_recurrence_ok
  model_ok := zero_rating_ok

/-- A candidate without the scores it was given. -/
def unscored (c : MemoryCandidate R) : MemoryCandidate R :=
  { c with
    entry := c.entry.withImportance 0 zero_rating_ok
    modelImportance := 0
    model_ok := zero_rating_ok }

theorem unranked_of_tieBreaker {c d : MemoryCandidate R} (h : c.tieBreaker = d.tieBreaker) : c.unranked = d.unranked := by
  obtain ⟨⟨_, _, _, _, _, _, _, _, _⟩, _, _, _, _⟩ := c
  obtain ⟨⟨_, _, _, _, _, _, _, _, _⟩, _, _, _, _⟩ := d
  simp only [tieBreaker, List.cons.injEq, and_true] at h
  obtain ⟨-, -, -, -, hevidence, hsources, hreasons, havailable, hobservation, hlesson, happlies, hinvalid⟩ := h
  obtain rfl := UtcTimestamp.text_injective havailable
  simp only [unranked, MemoryEntry.withCategory, MemoryEntry.withImportance, hevidence, hsources, hreasons, hobservation,
    hlesson, happlies, hinvalid]

theorem rankKey_unscored (c : MemoryCandidate R) : rankKey c.unscored = rankKey c := rfl

end MemoryCandidate

/-- Groups of the same candidates have the same lineage. -/
theorem mergeRefs_perm {field : MemoryEntry R → List String} {group group' : List (MemoryCandidate R)}
    (h : group.Perm group') (hfield : ∀ c d : MemoryCandidate R, c.tieBreaker = d.tieBreaker → field c.entry = field d.entry) :
    mergeRefs field group = mergeRefs field group' := by
  have hkeys : (group.sortOn MemoryCandidate.tieBreaker).map MemoryCandidate.tieBreaker =
      (group'.sortOn MemoryCandidate.tieBreaker).map MemoryCandidate.tieBreaker := List.map_key_sortOn h
  have hmap := List.map_eq_of_key hfield hkeys
  rw [mergeRefs, mergeRefs, List.flatMap_def, List.flatMap_def, hmap]

theorem lineage_perm {group group' : List (MemoryCandidate R)} (h : group.Perm group') :
    mergeRefs MemoryEntry.evidenceIds group = mergeRefs MemoryEntry.evidenceIds group' ∧
      mergeRefs MemoryEntry.sourceRecordIds group = mergeRefs MemoryEntry.sourceRecordIds group' ∧
      mergeRefs MemoryEntry.riskReasonCodes group = mergeRefs MemoryEntry.riskReasonCodes group' := by
  refine ⟨mergeRefs_perm h fun c d hcd => ?_, mergeRefs_perm h fun c d hcd => ?_, mergeRefs_perm h fun c d hcd => ?_⟩ <;>
  · simp only [MemoryCandidate.tieBreaker, List.cons.injEq] at hcd
    tauto

theorem mergeGroup_eq {group rest : List (MemoryCandidate R)} {representative : MemoryCandidate R}
    (h : group.sortOn MemoryCandidate.tieBreaker = representative :: rest) (hgroup : group ≠ []) :
    mergeGroup group = if hbounds : WithinBounds group then
      .ok { representative with entry := representative.entry.withLineage group hgroup hbounds }
    else refuse "merged candidate lineage exceeds hard entry bounds" := by
  unfold mergeGroup
  split
  · rename_i hnil
    rw [hnil] at h
    cases h
  · rename_i heq
    rw [h] at heq
    obtain ⟨rfl, rfl⟩ := List.cons.inj heq
    rfl

/-- The order of a group matters at most to the fields that rank the result. -/
theorem mergeGroup_perm {group group' : List (MemoryCandidate R)} (h : group.Perm group') :
    (mergeGroup group).map MemoryCandidate.unranked = (mergeGroup group').map MemoryCandidate.unranked := by
  have hkeys : (group.sortOn MemoryCandidate.tieBreaker).map MemoryCandidate.tieBreaker =
      (group'.sortOn MemoryCandidate.tieBreaker).map MemoryCandidate.tieBreaker := List.map_key_sortOn h
  cases hsort : group.sortOn MemoryCandidate.tieBreaker with
  | nil =>
    have hlength : (group.sortOn MemoryCandidate.tieBreaker).length = group.length := List.length_sortOn group
    rw [hsort] at hlength
    obtain rfl := List.length_eq_zero_iff.mp hlength.symm
    rw [List.nil_perm.mp h]
  | cons representative rest =>
    rw [hsort, List.map_cons] at hkeys
    cases hsort' : group'.sortOn MemoryCandidate.tieBreaker with
    | nil =>
      rw [hsort'] at hkeys
      cases hkeys
    | cons representative' rest' =>
      rw [hsort', List.map_cons] at hkeys
      have hrep := MemoryCandidate.unranked_of_tieBreaker (List.cons.inj hkeys).1
      have hne : ∀ {g r : List (MemoryCandidate R)} {c : MemoryCandidate R}, g.sortOn MemoryCandidate.tieBreaker = c :: r → g ≠ [] := by
        rintro g r c hg rfl
        cases hg
      obtain ⟨hevidence, hsources, hreasons⟩ := lineage_perm h
      rw [mergeGroup_eq hsort (hne hsort), mergeGroup_eq hsort' (hne hsort')]
      have hbounds : WithinBounds group ↔ WithinBounds group' := by rw [WithinBounds, WithinBounds, hevidence, hsources, hreasons]
      by_cases hb : WithinBounds group
      · rw [dif_pos hb, dif_pos (hbounds.mp hb)]
        simp only [MemoryCandidate.unranked, MemoryEntry.withCategory, MemoryEntry.withImportance,
          MemoryCandidate.mk.injEq, MemoryEntry.mk.injEq] at hrep
        simp only [Except.map, MemoryCandidate.unranked, MemoryEntry.withCategory, MemoryEntry.withImportance,
          MemoryEntry.withLineage, hevidence, hsources, hreasons, hrep]
      · rw [dif_neg hb, dif_neg fun hb' => hb (hbounds.mpr hb')]

/-- The groups of the candidates hold the same candidates, in whatever order these come. -/
theorem candidateGroups_perm {candidates candidates' : List (MemoryCandidate R)} (h : candidates.Perm candidates') :
    List.Forall₂ List.Perm (candidateGroups candidates) (candidateGroups candidates') := by
  have hkeys : (candidates.map (fun c => c.entry.dedupKey)).dedup.sortOn id =
      (candidates'.map (fun c => c.entry.dedupKey)).dedup.sortOn id :=
    List.sortOn_congr (h.map _).dedup (by rw [List.map_id]; exact List.nodup_dedup _)
  rw [candidateGroups, candidateGroups, hkeys, List.forall₂_map_left_iff, List.forall₂_map_right_iff]
  exact List.forall₂_same.mpr fun key _ => h.filter _

/-- What is derived reads nothing of the fields that rank a candidate. -/
theorem deriveCandidatePolicy_unranked (c : MemoryCandidate R) (sourceRecords : Option SourceMap) :
    (deriveCandidatePolicy c sourceRecords).map MemoryCandidate.unscored =
      (deriveCandidatePolicy c.unranked sourceRecords).map MemoryCandidate.unscored := by
  cases sourceRecords with
  | none => rfl
  | some m =>
    simp only [deriveCandidatePolicy, deriveEntryPolicy, MemoryCandidate.unranked, MemoryEntry.withCategory,
      MemoryEntry.withImportance]
    cases derivePolicy c.entry.evidenceIds c.entry.sourceRecordIds m with
    | error e => rfl
    | ok policy =>
      simp only [bind, Except.bind, memoryCandidate]
      split_ifs <;> rfl

/-- The merged candidates with what is derived for them. -/
def derivedFrom (candidates : List (MemoryCandidate R)) (sourceRecords : Option SourceMap) :
    Except Failure (List (MemoryCandidate R)) := do
  let merged ← mergeCandidates candidates
  merged.mapM (deriveCandidatePolicy · sourceRecords)

theorem derivedFrom_perm {candidates candidates' : List (MemoryCandidate R)} (h : candidates.Perm candidates')
    (sourceRecords : Option SourceMap) : (derivedFrom candidates sourceRecords).map (List.map MemoryCandidate.unscored) =
      (derivedFrom candidates' sourceRecords).map (List.map MemoryCandidate.unscored) := by
  have hmerged : (mergeCandidates candidates).map (List.map MemoryCandidate.unranked) =
      (mergeCandidates candidates').map (List.map MemoryCandidate.unranked) :=
    mapM_map_congr ((candidateGroups_perm h).imp fun _ _ => mergeGroup_perm)
  have hderived : ∀ merged merged' : List (MemoryCandidate R),
      merged.map MemoryCandidate.unranked = merged'.map MemoryCandidate.unranked →
      (merged.mapM (deriveCandidatePolicy · sourceRecords)).map (List.map MemoryCandidate.unscored) =
        (merged'.mapM (deriveCandidatePolicy · sourceRecords)).map (List.map MemoryCandidate.unscored) := by
    intro merged merged' heq
    refine mapM_map_congr ?_
    have hpairs : List.Forall₂ (fun c d : MemoryCandidate R => c.unranked = d.unranked) merged merged' := by
      rw [← List.forall₂_map_left_iff (f := MemoryCandidate.unranked) (R := fun c (d : MemoryCandidate R) => c = d.unranked),
        ← List.forall₂_map_right_iff (f := MemoryCandidate.unranked) (R := Eq), List.forall₂_eq_eq_eq]
      exact heq
    refine hpairs.imp fun c d hcd => ?_
    rw [deriveCandidatePolicy_unranked, hcd, ← deriveCandidatePolicy_unranked]
  rw [derivedFrom, derivedFrom]
  revert hmerged
  cases mergeCandidates candidates with
  | error e =>
    cases mergeCandidates candidates' with
    | error e' => exact fun heq => congrArg Except.error (Except.error.inj heq)
    | ok merged' => exact fun heq => nomatch heq
  | ok merged =>
    cases mergeCandidates candidates' with
    | error e' => exact fun heq => nomatch heq
    | ok merged' => exact fun heq => hderived merged merged' (Except.ok.inj heq)

/-- The ranked candidates that are available by the cutoff. -/
def rankedBy (cutoffAt : UtcTimestamp) (derived : List (MemoryCandidate R)) : List (MemoryCandidate R) :=
  (derived.filter (fun c => decide (c.availableAt ≤ cutoffAt))).sortOn rankKey

theorem rankedBy_unscored (cutoffAt : UtcTimestamp) (derived : List (MemoryCandidate R)) :
    rankedBy cutoffAt (derived.map MemoryCandidate.unscored) = (rankedBy cutoffAt derived).map MemoryCandidate.unscored := by
  rw [rankedBy, rankedBy, List.map_sortOn_map MemoryCandidate.rankKey_unscored, List.filter_map]
  rfl

theorem chosenFrom_unscored (quotas : MemoryCategory → Nat) (maximum : Nat) (ranked : List (MemoryCandidate R)) :
    chosenFrom quotas maximum (ranked.map MemoryCandidate.unscored) = chosenFrom quotas maximum ranked := by
  rw [chosenFrom, List.greedy, List.foldl_map]
  rfl

theorem selectEntries_eq (candidates : List (MemoryCandidate R)) (cutoffAt : UtcTimestamp) (quotas : MemoryCategory → Nat)
    (maximum : Nat) (sourceRecords : Option SourceMap) :
    selectEntries candidates cutoffAt quotas maximum sourceRecords = (do
      require (1 ≤ maximum ∧ maximum ≤ maxArtifactEntries) "maximum_entries is outside its bound"
      require (∀ category ∈ markerPriority ++ [.riskRejection, .forecastCalibration, .general],
        quotas category ≤ maxArtifactEntries) "category quota is outside its bound"
      let derived ← derivedFrom candidates sourceRecords
      return choose quotas maximum (rankedBy cutoffAt derived) []) := by
  unfold selectEntries derivedFrom
  simp only [bind_assoc]
  rfl

theorem selectEntries_ok {candidates : List (MemoryCandidate R)} {cutoffAt : UtcTimestamp} {quotas : MemoryCategory → Nat}
    {maximum : Nat} {sourceRecords : Option SourceMap} {selected : List (MemoryEntry R)} :
    selectEntries candidates cutoffAt quotas maximum sourceRecords = .ok selected ↔
      (1 ≤ maximum ∧ maximum ≤ maxArtifactEntries) ∧
      (∀ category ∈ markerPriority ++ [.riskRejection, .forecastCalibration, .general], quotas category ≤ maxArtifactEntries) ∧
      ∃ derived, derivedFrom candidates sourceRecords = .ok derived ∧
        chosenFrom quotas maximum (rankedBy cutoffAt derived) = selected := by
  simp only [selectEntries_eq, bind_ok, require_ok, exists_const, pure, Except.pure, Except.ok.injEq]
  refine and_congr_right fun hmaximum => and_congr_right fun _ => exists_congr fun derived => ?_
  rw [choose_eq_greedy hmaximum.1]

/-- The order of the candidates does not matter. -/
theorem selectEntries_perm {candidates candidates' : List (MemoryCandidate R)} (h : candidates.Perm candidates')
    {cutoffAt : UtcTimestamp} {quotas : MemoryCategory → Nat} {maximum : Nat} {sourceRecords : Option SourceMap}
    {selected : List (MemoryEntry R)}
    (hselected : selectEntries candidates cutoffAt quotas maximum sourceRecords = .ok selected) :
    selectEntries candidates' cutoffAt quotas maximum sourceRecords = .ok selected := by
  rw [selectEntries_ok] at hselected ⊢
  obtain ⟨hmaximum, hquotas, derived, hderived, rfl⟩ := hselected
  have hperm := derivedFrom_perm h sourceRecords
  rw [hderived] at hperm
  cases hderived' : derivedFrom candidates' sourceRecords with
  | error e =>
    rw [hderived'] at hperm
    cases hperm
  | ok derived' =>
    rw [hderived'] at hperm
    have hperm : derived.map MemoryCandidate.unscored = derived'.map MemoryCandidate.unscored := Except.ok.inj hperm
    refine ⟨hmaximum, hquotas, derived', rfl, ?_⟩
    rw [← chosenFrom_unscored, ← rankedBy_unscored, ← hperm, rankedBy_unscored, chosenFrom_unscored]

/-! ### The specification -/

/-- A selection from candidates: the candidates may come in any order; what is chosen keeps to the quotas and the capacity,
each key is chosen once and the best come first; and a candidate that is visible by the cutoff is chosen, unless its key, the
quota of its category or the capacity was used up by candidates that come before it. -/
structure Selects (candidates : List (MemoryCandidate R)) (cutoffAt : UtcTimestamp) (quotas : MemoryCategory → Nat)
    (maximum : Nat) (sourceRecords : Option SourceMap) (selected : List (MemoryEntry R)) : Prop where
  permuted : ∀ candidates', candidates.Perm candidates' →
    selectEntries candidates' cutoffAt quotas maximum sourceRecords = .ok selected
  keys : (selected.map MemoryEntry.dedupKey).Nodup
  quota : ∀ category, selected.countP (fun e => decide (e.category = category)) ≤ quotas category
  capacity : selected.length ≤ maximum ∧ 5 + 9 * selected.length ≤ maxArtifactLines
  scores : selected.Pairwise (fun a b => b.importance ≤ a.importance)
  maximal : ∃ merged derived, mergeCandidates candidates = .ok merged ∧
    merged.mapM (deriveCandidatePolicy · sourceRecords) = .ok derived ∧
    ∀ before c after, (derived.filter (fun c => decide (c.availableAt ≤ cutoffAt))).sortOn rankKey = before ++ c :: after →
      ∃ earlier : List (MemoryEntry R), earlier <+: selected ∧ (∀ e ∈ earlier, ∃ d ∈ before, e = normalized d) ∧
        (earlier ++ [normalized c] <+: selected ∨ c.entry.dedupKey ∈ earlier.map MemoryEntry.dedupKey ∨
          quotas c.entry.category ≤ earlier.countP (fun e => decide (e.category = c.entry.category)) ∨
          maximum ≤ earlier.length ∨ maxArtifactLines < 5 + 9 * (earlier.length + 1))

/-- What `select_entries` returns is a selection. -/
theorem select_entries_selects (candidates : List (MemoryCandidate R)) (cutoffAt : UtcTimestamp)
    (quotas : MemoryCategory → Nat) (maximum : Nat) (sourceRecords : Option SourceMap) (selected : List (MemoryEntry R))
    (h : selectEntries candidates cutoffAt quotas maximum sourceRecords = .ok selected) :
    Selects candidates cutoffAt quotas maximum sourceRecords selected := by
  obtain ⟨-, -, derived, hderived, rfl⟩ := selectEntries_ok.mp h
  obtain ⟨merged, hmerged, hderive⟩ := bind_ok.mp hderived
  refine ⟨fun _ hperm => selectEntries_perm hperm h, nodup_chosenFrom, countP_chosenFrom, length_chosenFrom,
    pairwise_chosenFrom (List.pairwise_sortOn rankKey _), merged, derived, hmerged, hderive, fun before c after hsplit => ?_⟩
  rw [rankedBy, hsplit]
  refine ⟨chosenFrom quotas maximum before, List.greedy_begins before (c :: after), fun e he => ?_, ?_⟩
  · obtain ⟨picked, hsub, heq⟩ := @chosenFrom_eq_map _ quotas maximum before
    rw [heq] at he
    obtain ⟨d, hd, rfl⟩ := List.mem_map.mp he
    exact ⟨d, hsub.subset hd, rfl⟩
  · have hmaximal : chosenFrom quotas maximum before ++ [normalized c] <+: chosenFrom quotas maximum (before ++ c :: after) ∨
        Passes quotas (chosenFrom quotas maximum before) c ∨ Full maximum (chosenFrom quotas maximum before) c :=
      List.greedy_maximal before c after
    rcases hmaximal with hchosen | (hkey | hquota) | hfull
    · exact .inl hchosen
    · exact .inr (.inl hkey)
    · exact .inr (.inr (.inl hquota))
    · exact .inr (.inr (.inr hfull))

/-- The lesson of the sample is selected. -/
theorem selects_sample : ∃ selected, selectEntries [sampleCandidate, sampleCandidate] (sampleDay 3) defaultCategoryQuotas 512
      (some sampleMap) = .ok selected ∧ selected.length = 1 ∧
    Selects [sampleCandidate, sampleCandidate] (sampleDay 3) defaultCategoryQuotas 512 (some sampleMap) selected := by
  have hlength : (selectEntries [sampleCandidate, sampleCandidate] (sampleDay 3) defaultCategoryQuotas 512
      (some sampleMap)).toOption.map List.length = some 1 := by decide +kernel
  obtain ⟨selected, hselected, hone⟩ := Option.map_eq_some_iff.mp hlength
  have hok := Dict.ok_of_toOption hselected
  exact ⟨selected, hok, hone, select_entries_selects _ _ _ _ _ _ hok⟩

end SevenLens.Memory
