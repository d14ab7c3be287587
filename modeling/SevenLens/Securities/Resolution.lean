import Mathlib.Data.List.Pairwise
import SevenLens.Securities.Eligibility

/-! # What the resolver decides

`resolveIdentity` against the records themselves: `Newest` is the record that speaks for its
interval, and `Orderly` histories have one for each interval and no two intervals of one
security with a common instant.  The resolver groups, compares neighbours in the order of their
beginnings and counts; `resolveVisible_resolved_iff` and `resolveVisible_conflict_iff` say that
this is the pairwise condition.

`answers_by_id` is the specification of a query by security id, and `symbol_agrees_iff` says when
a query by symbol agrees with it. -/

namespace SevenLens.Securities

/-! ### Histories -/

section

variable (visible : List SecurityIdentityRecord)

/-- The record was learned after every other one of its security and interval. -/
structure Newest (r : SecurityIdentityRecord) : Prop where
  mem : r ∈ visible
  later : ∀ s ∈ visible, intervalKey s = intervalKey r → s ≠ r → s.availableAt < r.availableAt

/-- Each interval has a latest record, and no instant lies in two intervals of one security. -/
structure Orderly : Prop where
  latest : ∀ s ∈ visible, ∃ r, Newest visible r ∧ intervalKey r = intervalKey s
  apart : ∀ s ∈ visible, ∀ t ∈ visible, s.securityId = t.securityId → s.interval ≠ t.interval →
    ∀ point, ¬ (s.validAt point = true ∧ t.validAt point = true)

end

theorem intervalKey_eq_iff {r s : SecurityIdentityRecord} :
    intervalKey r = intervalKey s ↔ r.securityId = s.securityId ∧ r.interval = s.interval := by
  rw [intervalKey, intervalKey, Prod.mk.injEq, Prod.mk.injEq, ValidityInterval.mk.injEq]

/-! ### Intervals -/

namespace ValidityInterval

variable {i j : ValidityInterval}

/-- Two intervals overlap exactly if they have a common instant. -/
theorem overlaps_iff_exists : i.overlaps j = true ↔ ∃ point, i.contains point = true ∧ j.contains point = true := by
  simp only [overlaps_iff, contains_iff]
  constructor
  · rintro ⟨hij, hji⟩
    exact ⟨max i.validFrom j.validFrom, ⟨le_max_left _ _, fun t ht => max_lt (i.ordered t ht) (hij t ht)⟩,
      le_max_right _ _, fun t ht => max_lt (hji t ht) (j.ordered t ht)⟩
  · rintro ⟨point, ⟨hi, hiend⟩, hj, hjend⟩
    exact ⟨fun t ht => hj.trans_lt (hiend t ht), fun t ht => hi.trans_lt (hjend t ht)⟩

/-- An interval that overlaps a later one overlaps what begins between the two. -/
theorem overlaps_between {k : ValidityInterval} (hij : i.validFrom ≤ j.validFrom) (hjk : j.validFrom ≤ k.validFrom)
    (h : i.overlaps k = true) : i.overlaps j = true := by
  rw [overlaps_iff] at h ⊢
  exact ⟨fun t ht => hjk.trans_lt (h.1 t ht), fun t ht => hij.trans_lt (j.ordered t ht)⟩

end ValidityInterval

/-! ### Heads -/

section

variable {identityHash : SecurityIdentityRecord → Hash} {visible heads : List SecurityIdentityRecord}
  {asOf : UtcTimestamp} {r s : SecurityIdentityRecord}

theorem Newest.unique (hr : Newest visible r) (hs : Newest visible s) (h : intervalKey r = intervalKey s) : r = s := by
  by_contra hne
  exact lt_asymm (hs.later r hr.mem h hne) (hr.later s hs.mem h.symm (Ne.symm hne))

theorem eq_singleton_of_unique {α : Type} {l : List α} {a : α} (hl : l.Nodup) (h : ∀ b, b ∈ l ↔ b = a) : l = [a] := by
  refine List.perm_singleton.mp ((List.perm_ext_iff_of_nodup hl (List.nodup_singleton a)).mpr fun b => ?_)
  rw [h b, List.mem_singleton]

/-- A record that was learned after all the others is the head of its group. -/
theorem groupHead_of_latest {group : List SecurityIdentityRecord}
    (hinj : ∀ a ∈ group, ∀ b ∈ group, identityHash a = identityHash b → a = b) (hr : r ∈ group)
    (h : ∀ s ∈ group, s ≠ r → s.availableAt < r.availableAt) : groupHead identityHash group = some r := by
  have hmem : ∀ s, s ∈ Dict.uniqueBy identityHash group ↔ s ∈ group := by
    intro s
    refine ⟨Dict.mem_of_mem_uniqueBy, fun hs => ?_⟩
    obtain ⟨b, hb, hkey⟩ := Dict.exists_mem_uniqueBy identityHash hs
    rwa [← hinj b (Dict.mem_of_mem_uniqueBy hb) s hs hkey]
  have hnodup : (Dict.uniqueBy identityHash group).Nodup := List.Nodup.of_map _ (Dict.nodup_keys_uniqueBy identityHash group)
  have hle : ∀ s ∈ group, s.availableAt ≤ r.availableAt := by
    intro s hs
    obtain rfl | hne := eq_or_ne s r
    · exact le_rfl
    · exact (h s hs hne).le
  have hlatest : latestOf (Dict.uniqueBy identityHash group) = [r] := by
    refine eq_singleton_of_unique (hnodup.filter _) fun s => ?_
    simp only [latestOf, List.mem_filter, List.all_eq_true, decide_eq_true_eq, hmem]
    constructor
    · rintro ⟨hs, hall⟩
      by_contra hne
      exact absurd (hall r hr) (not_le.mpr (h s hs hne))
    · rintro rfl
      exact ⟨hr, hle⟩
  unfold groupHead
  split
  · rename_i a ha
    have hra := (hmem r).mpr hr
    rw [ha] at hra
    rw [List.mem_singleton.mp hra]
  · rw [hlatest]

theorem groupHead_iff {group : List SecurityIdentityRecord}
    (hinj : ∀ a ∈ group, ∀ b ∈ group, identityHash a = identityHash b → a = b) :
    groupHead identityHash group = some r ↔ r ∈ group ∧ ∀ s ∈ group, s ≠ r → s.availableAt < r.availableAt :=
  ⟨fun h => ⟨groupHead_mem h, groupHead_latest hinj h⟩, fun h => groupHead_of_latest hinj h.1 h.2⟩

/-- The head of the group of an interval is the latest record of the interval. -/
theorem groupHead_filter_iff (hinj : ∀ a ∈ visible, ∀ b ∈ visible, identityHash a = identityHash b → a = b)
    {k : SecurityId × UtcTimestamp × Option UtcTimestamp} :
    groupHead identityHash (visible.filter (fun a => decide (intervalKey a = k))) = some r ↔
      Newest visible r ∧ intervalKey r = k := by
  rw [groupHead_iff fun a ha b hb => hinj a (List.mem_of_mem_filter ha) b (List.mem_of_mem_filter hb)]
  simp only [List.mem_filter, decide_eq_true_eq]
  constructor
  · rintro ⟨⟨hr, rfl⟩, h⟩
    exact ⟨⟨hr, fun s hs hk => h s ⟨hs, hk⟩⟩, rfl⟩
  · rintro ⟨h, rfl⟩
    exact ⟨⟨h.mem, rfl⟩, fun s hs => h.later s hs.1 hs.2⟩

/-- The heads are the latest records, one for each interval. -/
theorem supersessionHeads_some (hinj : ∀ a ∈ visible, ∀ b ∈ visible, identityHash a = identityHash b → a = b)
    (h : supersessionHeads identityHash visible = some heads) : (∀ r, r ∈ heads ↔ Newest visible r) ∧ heads.Nodup ∧
      ∀ s ∈ visible, ∃ r, Newest visible r ∧ intervalKey r = intervalKey s := by
  obtain ⟨ks, hnodup, hmem, hpass⟩ : ∃ ks : List (SecurityId × UtcTimestamp × Option UtcTimestamp), ks.Nodup ∧
      (∀ s ∈ visible, intervalKey s ∈ ks) ∧ List.Forall₂ (fun k r => Newest visible r ∧ intervalKey r = k) ks heads := by
    have hpass := Dict.forall₂_of_mapM_some h
    rw [Dict.groupsOf, List.forall₂_map_left_iff] at hpass
    exact ⟨_, Dict.nodup_eraseDups _, fun s hs => Dict.mem_keys hs,
      hpass.imp fun _ _ hk => (groupHead_filter_iff hinj).mp hk⟩
  have hkeys : heads.map intervalKey = ks := by
    rw [← List.forall₂_eq_eq_eq, List.forall₂_map_left_iff]
    exact hpass.flip.imp fun _ _ hk => hk.2
  refine ⟨fun r => ⟨fun hr => ?_, fun hr => ?_⟩, List.Nodup.of_map intervalKey (hkeys ▸ hnodup), fun s hs => ?_⟩
  · obtain ⟨k, -, hk⟩ := Dict.exists_of_forall₂ hpass.flip hr
    exact hk.1
  · obtain ⟨r', hr', hlatest, hk⟩ := Dict.exists_of_forall₂ hpass (hmem _ hr.mem)
    rwa [hr.unique hlatest hk.symm]
  · obtain ⟨r, -, hk⟩ := Dict.exists_of_forall₂ hpass (hmem s hs)
    exact ⟨r, hk⟩

theorem supersessionHeads_none (hinj : ∀ a ∈ visible, ∀ b ∈ visible, identityHash a = identityHash b → a = b)
    (h : supersessionHeads identityHash visible = none) :
    ¬ ∀ s ∈ visible, ∃ r, Newest visible r ∧ intervalKey r = intervalKey s := by
  intro hall
  obtain ⟨group, hgroup, hnone⟩ := Dict.exists_of_mapM_none h
  obtain ⟨hne, k, rfl⟩ := Dict.mem_of_mem_groupsOf hgroup
  obtain ⟨s, hs⟩ := List.exists_mem_of_ne_nil _ hne
  obtain ⟨hs, hk⟩ := List.mem_filter.mp hs
  obtain ⟨r, hr, hkey⟩ := hall s hs
  rw [(groupHead_filter_iff hinj).mpr ⟨hr, hkey.trans (of_decide_eq_true hk)⟩] at hnone
  cases hnone

/-! ### Overlaps -/

theorem isChain_of_neighboursOverlap {l : List SecurityIdentityRecord} (h : neighboursOverlap l = false) :
    l.IsChain (fun a b => ¬ a.interval.overlaps b.interval = true) := by
  induction l with
  | nil => exact .nil
  | cons a l ih =>
    cases l with
    | nil => exact .singleton a
    | cons b l =>
      rw [neighboursOverlap, Bool.or_eq_false_iff] at h
      exact List.isChain_cons_cons.mpr ⟨by simp [h.1], ih h.2⟩

theorem neighboursOverlap_of_pairwise {l : List SecurityIdentityRecord}
    (h : l.Pairwise (fun a b => ¬ a.interval.overlaps b.interval = true)) : neighboursOverlap l = false := by
  induction l with
  | nil => rfl
  | cons a l ih =>
    obtain ⟨ha, hl⟩ := List.pairwise_cons.mp h
    cases l with
    | nil => rfl
    | cons b l =>
      rw [neighboursOverlap, Bool.or_eq_false_iff]
      exact ⟨Bool.eq_false_of_not_eq_true (ha b List.mem_cons_self), ih hl⟩

/-- In the order of the beginnings it is enough to compare neighbours. -/
theorem neighboursOverlap_sortOn (l : List SecurityIdentityRecord) :
    neighboursOverlap (l.sortOn (fun r => r.interval.validFrom)) = false ↔
      l.Pairwise (fun a b => ¬ a.interval.overlaps b.interval = true) := by
  have hsymm : ∀ {a b : SecurityIdentityRecord}, ¬ a.interval.overlaps b.interval = true → ¬ b.interval.overlaps a.interval = true := by
    intro a b h
    rwa [ValidityInterval.overlaps_comm]
  rw [← (List.sortOn_perm (fun r => r.interval.validFrom) l).pairwise_iff hsymm]
  refine ⟨fun h => ?_, neighboursOverlap_of_pairwise⟩
  exact List.pairwise_of_neighbours (List.pairwise_sortOn _ l)
    (fun a b c hab hbc => ValidityInterval.overlaps_between hab hbc) (isChain_of_neighboursOverlap h)

/-- Two heads of one security do not overlap. -/
theorem anyIntervalConflict_false_iff (hnodup : heads.Nodup) : anyIntervalConflict heads = false ↔
    ∀ a ∈ heads, ∀ b ∈ heads, a.securityId = b.securityId → a ≠ b → ∀ point, ¬ (a.validAt point = true ∧ b.validAt point = true) := by
  have hpoint : ∀ a b : SecurityIdentityRecord, ¬ a.interval.overlaps b.interval = true ↔
      ∀ point, ¬ (a.validAt point = true ∧ b.validAt point = true) := by
    intro a b
    rw [ValidityInterval.overlaps_iff_exists, not_exists]
    rfl
  rw [anyIntervalConflict, List.any_eq_false]
  constructor
  · intro h a ha b hb hsid hne
    have hgroup := h _ (@Dict.mem_groupsOf _ _ _ SecurityIdentityRecord.securityId _ _ ha)
    rw [Bool.not_eq_true, neighboursOverlap_sortOn] at hgroup
    rw [← hpoint]
    have : Std.Symm (fun a b : SecurityIdentityRecord => ¬ a.interval.overlaps b.interval = true) :=
      ⟨fun a b h => by rwa [ValidityInterval.overlaps_comm]⟩
    exact hgroup.forall (List.mem_filter.mpr ⟨ha, by simp⟩) (List.mem_filter.mpr ⟨hb, by simp [hsid]⟩) hne
  · intro h group hgroup
    obtain ⟨-, k, rfl⟩ := Dict.mem_of_mem_groupsOf hgroup
    rw [Bool.not_eq_true, neighboursOverlap_sortOn]
    refine (hnodup.filter _).pairwise_of_forall_ne fun a ha b hb hne => ?_
    obtain ⟨ha, hka⟩ := List.mem_filter.mp ha
    obtain ⟨hb, hkb⟩ := List.mem_filter.mp hb
    rw [hpoint]
    exact h a ha b hb ((of_decide_eq_true hka).trans (of_decide_eq_true hkb).symm) hne

/-- A history is orderly exactly if its heads do not conflict. -/
theorem orderly_iff (hinj : ∀ a ∈ visible, ∀ b ∈ visible, identityHash a = identityHash b → a = b)
    (h : supersessionHeads identityHash visible = some heads) : Orderly visible ↔ anyIntervalConflict heads = false := by
  obtain ⟨hheads, hnodup, hlatest⟩ := supersessionHeads_some hinj h
  rw [anyIntervalConflict_false_iff hnodup]
  constructor
  · intro ho a ha b hb hsid hne
    have ha := (hheads a).mp ha
    have hb := (hheads b).mp hb
    exact ho.apart a ha.mem b hb.mem hsid fun hint => hne (ha.unique hb (intervalKey_eq_iff.mpr ⟨hsid, hint⟩))
  · refine fun hall => ⟨hlatest, fun s hs t ht hsid hint => ?_⟩
    obtain ⟨a, ha, hka⟩ := hlatest s hs
    obtain ⟨b, hb, hkb⟩ := hlatest t ht
    obtain ⟨hsa, hia⟩ := intervalKey_eq_iff.mp hka
    obtain ⟨hsb, hib⟩ := intervalKey_eq_iff.mp hkb
    have hne : a ≠ b := by
      rintro rfl
      exact hint (hia.symm.trans hib)
    have hapart := hall a ((hheads a).mpr ha) b ((hheads b).mpr hb) (hsa.trans (hsid.trans hsb.symm)) hne
    simpa only [SecurityIdentityRecord.validAt, hia, hib] using hapart

/-! ### Outcomes -/

theorem decideValid_resolved_iff {valid : List SecurityIdentityRecord} : decideValid valid = .resolved r ↔ valid = [r] := by
  cases valid with
  | nil => simp [decideValid]
  | cons a rest =>
    rw [decideValid]
    constructor
    · intro h
      split_ifs at h with hnodup hrest
      cases h
      rw [not_not.mp hrest]
    · intro h
      cases h
      simp

theorem resolveVisible_of_not_orderly (hinj : ∀ a ∈ visible, ∀ b ∈ visible, identityHash a = identityHash b → a = b)
    (h : ¬ Orderly visible) : resolveVisible identityHash visible asOf = .conflict := by
  unfold resolveVisible
  cases hheads : supersessionHeads identityHash visible with
  | none => rfl
  | some heads =>
    rw [orderly_iff hinj hheads, Bool.not_eq_false] at h
    exact if_pos h

/-- Of an orderly history the latest records that are valid at the instant are counted. -/
theorem resolveVisible_of_orderly (hinj : ∀ a ∈ visible, ∀ b ∈ visible, identityHash a = identityHash b → a = b)
    (h : Orderly visible) (asOf : UtcTimestamp) : ∃ valid : List SecurityIdentityRecord, valid.Nodup ∧
      (∀ r, r ∈ valid ↔ Newest visible r ∧ r.validAt asOf = true) ∧
      resolveVisible identityHash visible asOf = decideValid valid := by
  unfold resolveVisible
  cases hheads : supersessionHeads identityHash visible with
  | none => exact absurd h.latest (supersessionHeads_none hinj hheads)
  | some heads =>
    obtain ⟨hmem, hnodup, -⟩ := supersessionHeads_some hinj hheads
    refine ⟨heads.filter (·.validAt asOf), hnodup.filter _, fun r => ?_, ?_⟩
    · rw [List.mem_filter, hmem]
    · have hconflict := (orderly_iff hinj hheads).mp h
      simp [hconflict]

/-- A record is the answer if the history is orderly and the record is the only one that speaks at the instant. -/
theorem resolveVisible_resolved_iff (hinj : ∀ a ∈ visible, ∀ b ∈ visible, identityHash a = identityHash b → a = b) :
    resolveVisible identityHash visible asOf = .resolved r ↔ Orderly visible ∧ Newest visible r ∧ r.validAt asOf = true ∧
      ∀ s, Newest visible s → s.validAt asOf = true → s = r := by
  by_cases ho : Orderly visible
  · obtain ⟨valid, hnodup, hmem, hvalid⟩ := resolveVisible_of_orderly hinj ho asOf
    rw [hvalid, decideValid_resolved_iff]
    constructor
    · rintro rfl
      have hr := (hmem r).mp (List.mem_singleton_self r)
      exact ⟨ho, hr.1, hr.2, fun s hs hv => List.mem_singleton.mp ((hmem s).mpr ⟨hs, hv⟩)⟩
    · rintro ⟨-, hr, hv, hall⟩
      refine eq_singleton_of_unique hnodup fun s => ?_
      rw [hmem]
      exact ⟨fun hs => hall s hs.1 hs.2, by rintro rfl; exact ⟨hr, hv⟩⟩
  · rw [resolveVisible_of_not_orderly hinj ho]
    exact ⟨nofun, fun h => absurd h.1 ho⟩

end

/-! ### Queries by security id -/

/-- The records of a security that are known at an instant. -/
def known (records : List SecurityIdentityRecord) (sid : SecurityId) (knownAt : UtcTimestamp) : List SecurityIdentityRecord :=
  (records.filter (fun r => decide (r.securityId = sid))).filter (·.knownAt knownAt)

section

variable (records : List SecurityIdentityRecord) (sid : SecurityId) (asOf knownAt : UtcTimestamp)

theorem mem_known {r : SecurityIdentityRecord} : r ∈ known records sid knownAt ↔
    r ∈ records ∧ r.securityId = sid ∧ r.availableAt ≤ knownAt := by
  simp only [known, SecurityIdentityRecord.knownAt, List.mem_filter, decide_eq_true_eq, and_assoc]

/-- The record is the latest one of its interval, speaks at the instant, and no record of the security is in doubt. -/
structure Speaks (r : SecurityIdentityRecord) : Prop where
  newest : Newest (known records sid knownAt) r
  valid : r.validAt asOf = true
  orderly : Orderly (known records sid knownAt)

/-- Something is known of the security, and it is in doubt. -/
def InDoubt : Prop := known records sid knownAt ≠ [] ∧ ¬ Orderly (known records sid knownAt)

/-- There are records of the security, and none of them is known. -/
def NotYetKnown : Prop := (∃ r ∈ records, r.securityId = sid) ∧ known records sid knownAt = []

/-- What a query by security id is to answer. -/
structure AnswersById (x : IdentityResolution) : Prop where
  resolved : ∀ r, x = .resolved r ↔ Speaks records sid asOf knownAt r
  conflict : x = .conflict ↔ InDoubt records sid knownAt
  stale : x = .stale ↔ NotYetKnown records sid knownAt
  unknown : x = .unknown ↔ ¬ (∃ r, Speaks records sid asOf knownAt r) ∧ ¬ InDoubt records sid knownAt ∧
    ¬ NotYetKnown records sid knownAt

end

section

variable {identityHash : SecurityIdentityRecord → Hash} {records : List SecurityIdentityRecord} {sid : SecurityId}
  {asOf knownAt : UtcTimestamp} {q : IdentityQuery} {r s : SecurityIdentityRecord}

/-- No two records of a security in order speak at one instant. -/
theorem Orderly.sole (ho : Orderly (known records sid knownAt)) (hr : Newest (known records sid knownAt) r)
    (hs : Newest (known records sid knownAt) s) (hvr : r.validAt asOf = true) (hvs : s.validAt asOf = true) : r = s := by
  have hsid : r.securityId = s.securityId := ((mem_known _ _ _).mp hr.mem).2.1.trans ((mem_known _ _ _).mp hs.mem).2.1.symm
  refine hr.unique hs (intervalKey_eq_iff.mpr ⟨hsid, ?_⟩)
  by_contra hne
  exact ho.apart r hr.mem s hs.mem hsid hne asOf ⟨hvr, hvs⟩

theorem Speaks.not_inDoubt (h : Speaks records sid asOf knownAt r) : ¬ InDoubt records sid knownAt := fun hd => hd.2 h.orderly

theorem Speaks.not_notYetKnown (h : Speaks records sid asOf knownAt r) : ¬ NotYetKnown records sid knownAt :=
  fun hn => List.ne_nil_of_mem h.newest.mem hn.2

theorem Speaks.answers (h : Speaks records sid asOf knownAt r) : AnswersById records sid asOf knownAt (.resolved r) where
  resolved s := by
    refine ⟨fun hs => ?_, fun hs => ?_⟩
    · cases hs
      exact h
    · rw [h.orderly.sole h.newest hs.newest h.valid hs.valid]
  conflict := ⟨nofun, fun hd => absurd hd h.not_inDoubt⟩
  stale := ⟨nofun, fun hn => absurd hn h.not_notYetKnown⟩
  unknown := ⟨nofun, fun hu => absurd ⟨r, h⟩ hu.1⟩

theorem InDoubt.answers (h : InDoubt records sid knownAt) : AnswersById records sid asOf knownAt .conflict where
  resolved _ := ⟨nofun, fun hs => absurd h hs.not_inDoubt⟩
  conflict := ⟨fun _ => h, fun _ => rfl⟩
  stale := ⟨nofun, fun hn => absurd hn.2 h.1⟩
  unknown := ⟨nofun, fun hu => absurd h hu.2.1⟩

theorem NotYetKnown.answers (h : NotYetKnown records sid knownAt) : AnswersById records sid asOf knownAt .stale where
  resolved _ := ⟨nofun, fun hs => absurd h hs.not_notYetKnown⟩
  conflict := ⟨nofun, fun hd => absurd h.2 hd.1⟩
  stale := ⟨fun _ => h, fun _ => rfl⟩
  unknown := ⟨nofun, fun hu => absurd h hu.2.2⟩

theorem answers_unknown (hs : ¬ ∃ r, Speaks records sid asOf knownAt r) (hd : ¬ InDoubt records sid knownAt)
    (hn : ¬ NotYetKnown records sid knownAt) : AnswersById records sid asOf knownAt .unknown where
  resolved r := ⟨nofun, fun h => absurd ⟨r, h⟩ hs⟩
  conflict := ⟨nofun, fun h => absurd h hd⟩
  stale := ⟨nofun, fun h => absurd h hn⟩
  unknown := ⟨fun _ => ⟨hs, hd, hn⟩, fun _ => rfl⟩

/-- The answer to a query by id is that of the known records of the security. -/
theorem resolve_by_id (hq : q.securityId = some sid) (hlen : records.length ≤ maxResolutionRecords) :
    resolveIdentity identityHash records q = .ok (if (∀ r ∈ records, r.securityId ≠ sid) then .unknown
      else if known records sid q.knownAt = [] then .stale
      else resolveVisible identityHash (known records sid q.knownAt) q.asOf) := by
  have hscope : records.filter (matchesKey q) = records.filter (fun r => decide (r.securityId = sid)) :=
    List.filter_congr fun r _ => by rw [matchesKey, hq]
  have hnone : records.filter (fun r => decide (r.securityId = sid)) = [] ↔ ∀ r ∈ records, r.securityId ≠ sid := by
    simp [List.filter_eq_nil_iff]
  rw [resolveIdentity_eq hlen, hscope]
  simp only [hnone]
  rfl

/-- A query by id answers what the records of the security say, whatever their order and however often they are repeated. -/
theorem answers_by_id (hq : q.securityId = some sid) (hlen : records.length ≤ maxResolutionRecords)
    (hinj : ∀ a ∈ records, ∀ b ∈ records, identityHash a = identityHash b → a = b) :
    ∃ x, resolveIdentity identityHash records q = .ok x ∧ AnswersById records sid q.asOf q.knownAt x := by
  refine ⟨_, resolve_by_id hq hlen, ?_⟩
  have hinj' : ∀ a ∈ known records sid q.knownAt, ∀ b ∈ known records sid q.knownAt, identityHash a = identityHash b → a = b :=
    fun a ha b hb => hinj a ((mem_known _ _ _).mp ha).1 b ((mem_known _ _ _).mp hb).1
  split_ifs with hnone hknown
  · have hempty : known records sid q.knownAt = [] := by
      rw [List.eq_nil_iff_forall_not_mem]
      intro r hr
      exact hnone r ((mem_known _ _ _).mp hr).1 ((mem_known _ _ _).mp hr).2.1
    refine answers_unknown ?_ (fun hd => hd.1 hempty) fun hn => ?_
    · rintro ⟨r, hr⟩
      exact List.ne_nil_of_mem hr.newest.mem hempty
    · obtain ⟨r, hr, hsid⟩ := hn.1
      exact hnone r hr hsid
  · push Not at hnone
    exact NotYetKnown.answers ⟨hnone, hknown⟩
  · by_cases ho : Orderly (known records sid q.knownAt)
    · by_cases hs : ∃ r, Speaks records sid q.asOf q.knownAt r
      · obtain ⟨r, hr⟩ := hs
        rw [(resolveVisible_resolved_iff hinj').mpr ⟨ho, hr.newest, hr.valid, fun s hs hv => ho.sole hs hr.newest hv hr.valid⟩]
        exact hr.answers
      · obtain ⟨valid, -, hmem, hvalid⟩ := resolveVisible_of_orderly hinj' ho q.asOf
        have hempty : valid = [] := by
          rw [List.eq_nil_iff_forall_not_mem]
          intro r hr
          obtain ⟨hlatest, hv⟩ := (hmem r).mp hr
          exact hs ⟨r, hlatest, hv, ho⟩
        rw [hvalid, hempty]
        exact answers_unknown hs (fun hd => hd.2 ho) fun hn => hknown hn.2
    · rw [resolveVisible_of_not_orderly hinj' ho]
      exact InDoubt.answers ⟨hknown, ho⟩

/-! ### Queries by symbol -/

/-- The query for a security at the same instants. -/
def IdentityQuery.forSecurity (q : IdentityQuery) (sid : SecurityId) : IdentityQuery where
  asOf := q.asOf
  knownAt := q.knownAt
  securityId := some sid
  symbol := none
  keyed := Or.inl rfl

/-- The records of a symbol that are known at an instant. -/
def named (records : List SecurityIdentityRecord) (symbol : SecuritySymbol) (knownAt : UtcTimestamp) :
    List SecurityIdentityRecord :=
  (records.filter (fun r => decide (r.symbol = symbol))).filter (·.knownAt knownAt)

/-- Among the known records of the symbol, which are in order, this one alone speaks at the instant. -/
structure SpeaksFor (records : List SecurityIdentityRecord) (symbol : SecuritySymbol) (asOf knownAt : UtcTimestamp)
    (r : SecurityIdentityRecord) : Prop where
  newest : Newest (named records symbol knownAt) r
  valid : r.validAt asOf = true
  orderly : Orderly (named records symbol knownAt)
  sole : ∀ s, Newest (named records symbol knownAt) s → s.validAt asOf = true → s = r

theorem resolveIdentity_resolved_iff : resolveIdentity identityHash records q = .ok (.resolved r) ↔
    records.length ≤ maxResolutionRecords ∧
      resolveVisible identityHash ((records.filter (matchesKey q)).filter (·.knownAt q.knownAt)) q.asOf = .resolved r := by
  constructor
  · intro h
    have hlen := resolveIdentity_length h
    rw [resolveIdentity_eq hlen, Except.ok.injEq] at h
    split_ifs at h
    exact ⟨hlen, h⟩
  · rintro ⟨hlen, h⟩
    have hmem := (resolveVisible_resolved h).1
    rw [resolveIdentity_eq hlen, if_neg (List.ne_nil_of_mem (List.mem_of_mem_filter hmem)), if_neg (List.ne_nil_of_mem hmem), h]

theorem resolved_by_id_iff (hinj : ∀ a ∈ records, ∀ b ∈ records, identityHash a = identityHash b → a = b) :
    resolveIdentity identityHash records (q.forSecurity sid) = .ok (.resolved r) ↔
      records.length ≤ maxResolutionRecords ∧ Speaks records sid q.asOf q.knownAt r := by
  have hinj' : ∀ a ∈ known records sid q.knownAt, ∀ b ∈ known records sid q.knownAt, identityHash a = identityHash b → a = b :=
    fun a ha b hb => hinj a ((mem_known _ _ _).mp ha).1 b ((mem_known _ _ _).mp hb).1
  rw [resolveIdentity_resolved_iff, show (records.filter (matchesKey (q.forSecurity sid))).filter
    (·.knownAt (q.forSecurity sid).knownAt) = known records sid q.knownAt from rfl, resolveVisible_resolved_iff hinj']
  refine and_congr_right fun _ => ⟨fun h => ⟨h.2.1, h.2.2.1, h.1⟩, fun h => ⟨h.orderly, h.newest, h.valid, fun s hs hv => ?_⟩⟩
  exact h.orderly.sole hs h.newest hv h.valid

theorem resolved_by_symbol_iff {symbol : SecuritySymbol} (hid : q.securityId = none) (hsymbol : q.symbol = some symbol)
    (hinj : ∀ a ∈ records, ∀ b ∈ records, identityHash a = identityHash b → a = b) :
    resolveIdentity identityHash records q = .ok (.resolved r) ↔
      records.length ≤ maxResolutionRecords ∧ SpeaksFor records symbol q.asOf q.knownAt r := by
  have hscope : records.filter (matchesKey q) = records.filter (fun r => decide (r.symbol = symbol)) :=
    List.filter_congr fun r _ => by simp [matchesKey, hid, hsymbol]
  have hsub : ∀ {a}, a ∈ named records symbol q.knownAt → a ∈ records :=
    fun ha => List.mem_of_mem_filter (List.mem_of_mem_filter ha)
  rw [resolveIdentity_resolved_iff, hscope, ← named,
    resolveVisible_resolved_iff fun a ha b hb => hinj a (hsub ha) b (hsub hb)]
  exact and_congr_right fun _ => ⟨fun h => ⟨h.2.1, h.2.2.1, h.1, h.2.2.2⟩, fun h => ⟨h.orderly, h.newest, h.valid, h.sole⟩⟩

/-- A symbol resolves as its security does, unless the history of the security goes on under another symbol: the records
of all symbols are to be in order, and the answer newest among them. -/
theorem symbol_agrees_iff {symbol : SecuritySymbol} (hid : q.securityId = none) (hsymbol : q.symbol = some symbol)
    (hinj : ∀ a ∈ records, ∀ b ∈ records, identityHash a = identityHash b → a = b) :
    (∀ r, resolveIdentity identityHash records q = .ok (.resolved r) →
      resolveIdentity identityHash records (q.forSecurity r.securityId) = .ok (.resolved r)) ↔
    (records.length ≤ maxResolutionRecords → ∀ r, SpeaksFor records symbol q.asOf q.knownAt r →
      Newest (known records r.securityId q.knownAt) r ∧ Orderly (known records r.securityId q.knownAt)) := by
  simp only [resolved_by_symbol_iff hid hsymbol hinj, resolved_by_id_iff hinj]
  constructor
  · intro h hlen r hr
    have hspeaks := (h r ⟨hlen, hr⟩).2
    exact ⟨hspeaks.newest, hspeaks.orderly⟩
  · rintro h r ⟨hlen, hr⟩
    obtain ⟨hnewest, horderly⟩ := h hlen r hr
    exact ⟨hlen, hnewest, hr.valid, horderly⟩

end

/-! ### A correction of the symbol -/

/-- The security of the sample turns out to be named BBB. -/
def sampleCorrection : SecurityIdentityRecord := { sampleIdentity with symbol := ⟨"BBB", Eq.refl true⟩, availableAt := sampleTime 1 }

def sampleHistory : List SecurityIdentityRecord := [sampleIdentity, sampleCorrection]

/-- Two hours later, by the old symbol. -/
def oldSymbolQuery : IdentityQuery := ⟨sampleTime 2, sampleTime 2, none, some sampleIdentity.symbol, Or.inr rfl⟩

/-- A digest that tells the two records apart. -/
def symbolDigest (r : SecurityIdentityRecord) : Hash :=
  if r.symbol = sampleIdentity.symbol then repeated '1' (Eq.refl true) else repeated '2' (Eq.refl true)

theorem symbolDigest_inj : ∀ a ∈ sampleHistory, ∀ b ∈ sampleHistory, symbolDigest a = symbolDigest b → a = b := by decide

/-- The correction is the answer. -/
theorem answers_by_id_corrected : ∃ x, resolveIdentity symbolDigest sampleHistory (oldSymbolQuery.forSecurity sampleIdentity.securityId) =
    .ok x ∧ AnswersById sampleHistory sampleIdentity.securityId (sampleTime 2) (sampleTime 2) x :=
  answers_by_id rfl (by decide) symbolDigest_inj

/-- The superseded record is still returned under the symbol that it had. -/
theorem symbol_answer_superseded : ¬ ∀ r, resolveIdentity symbolDigest sampleHistory oldSymbolQuery = .ok (.resolved r) →
    resolveIdentity symbolDigest sampleHistory (oldSymbolQuery.forSecurity r.securityId) = .ok (.resolved r) := by
  intro h
  have hbyid := h sampleIdentity (by decide)
  have hcorrection : resolveIdentity symbolDigest sampleHistory (oldSymbolQuery.forSecurity sampleIdentity.securityId) =
    .ok (.resolved sampleCorrection) := by decide
  rw [hcorrection, Except.ok.injEq, IdentityResolution.resolved.injEq] at hbyid
  exact absurd hbyid (by decide)

theorem Newest.single (r : SecurityIdentityRecord) : Newest [r] r :=
  ⟨List.mem_singleton_self r, fun _ hs _ hne => absurd (List.mem_singleton.mp hs) hne⟩

theorem Orderly.single (r : SecurityIdentityRecord) : Orderly [r] where
  latest s hs := ⟨r, .single r, by rw [List.mem_singleton.mp hs]⟩
  apart s hs t ht _ hne := absurd (by rw [List.mem_singleton.mp hs, List.mem_singleton.mp ht]) hne

/-- Where the correction is not there the record is the answer, and the two queries agree. -/
theorem symbol_agrees_uncorrected : resolveIdentity symbolDigest [sampleIdentity] oldSymbolQuery = .ok (.resolved sampleIdentity) ∧
    ∀ r, resolveIdentity symbolDigest [sampleIdentity] oldSymbolQuery = .ok (.resolved r) →
      resolveIdentity symbolDigest [sampleIdentity] (oldSymbolQuery.forSecurity r.securityId) = .ok (.resolved r) := by
  refine ⟨by decide, (symbol_agrees_iff rfl rfl (by simp)).mpr fun _ r hr => ?_⟩
  obtain rfl : r = sampleIdentity := List.mem_singleton.mp (List.mem_of_mem_filter (List.mem_of_mem_filter hr.newest.mem))
  have hknown : known [sampleIdentity] sampleIdentity.securityId oldSymbolQuery.knownAt = [sampleIdentity] := by decide
  rw [hknown]
  exact ⟨.single _, .single _⟩

end SevenLens.Securities
