import SevenLens.Library.Dict
import SevenLens.Library.Rank
import SevenLens.Securities.Contracts

/-! # Point-in-time identity resolution

`resolveIdentity` answers one as-of/known-at query over identity records.  Records learned after
the cutoff are invisible; of the records of one security and one validity interval the latest
one speaks, and any doubt ends in an outcome that is not `resolved`.

The answer is a function of the visible records alone, `resolveVisible`, except that records
which are there and not yet visible make the difference between `unknown` and `stale`. -/

namespace SevenLens.Securities

/-! ### Queries and outcomes -/

/-- One query.  A given security id scopes the search, and otherwise the symbol does. -/
structure IdentityQuery where
  asOf : UtcTimestamp
  knownAt : UtcTimestamp
  securityId : Option SecurityId
  symbol : Option SecuritySymbol
  keyed : securityId.isSome ∨ symbol.isSome

theorem IdentityQuery.keyed_by_id (securityId : SecurityId) :
    (some securityId).isSome ∨ (none : Option SecuritySymbol).isSome := .inl rfl

/-- The closed resolver outcomes; only the first carries a record. -/
inductive IdentityResolution where
  | resolved (record : SecurityIdentityRecord)
  | unknown | ambiguous | conflict | stale
deriving DecidableEq

def IdentityResolution.statusValue : IdentityResolution → String
  | resolved _ => "RESOLVED"
  | unknown => "UNKNOWN"
  | ambiguous => "AMBIGUOUS"
  | conflict => "CONFLICT"
  | stale => "STALE"

def maxResolutionRecords : Nat := 4096

def tooManyRecords : String := "records must be a tuple of at most 4096 identity records"

/-! ### The resolver -/

section

variable (identityHash : SecurityIdentityRecord → Hash)

/-- `_matches_key` -/
def matchesKey (q : IdentityQuery) (r : SecurityIdentityRecord) : Bool :=
  match q.securityId with
  | some sid => r.securityId = sid
  | none => some r.symbol = q.symbol

/-- `_interval_key` -/
def intervalKey (r : SecurityIdentityRecord) : SecurityId × UtcTimestamp × Option UtcTimestamp :=
  (r.securityId, r.interval.validFrom, r.interval.validTo)

/-- The records of a group with the latest availability. -/
def latestOf (group : List SecurityIdentityRecord) : List SecurityIdentityRecord :=
  group.filter (fun r => group.all (fun s => decide (s.availableAt ≤ r.availableAt)))

/-- The record that speaks for the records of one interval, unless two of them were learned at
the same latest instant. -/
def groupHead (group : List SecurityIdentityRecord) : Option SecurityIdentityRecord :=
  match Dict.uniqueBy identityHash group with
  | [r] => some r
  | unique =>
    match latestOf unique with
    | [r] => some r
    | _ => none

/-- `_supersession_heads` -/
def supersessionHeads (visible : List SecurityIdentityRecord) : Option (List SecurityIdentityRecord) :=
  (Dict.groupsOf intervalKey visible).mapM (groupHead identityHash)

/-- Two neighbours of a list overlap. -/
def neighboursOverlap : List SecurityIdentityRecord → Bool
  | earlier :: later :: rest => earlier.interval.overlaps later.interval || neighboursOverlap (later :: rest)
  | _ => false

/-- `_any_interval_conflict` -/
def anyIntervalConflict (heads : List SecurityIdentityRecord) : Bool :=
  (Dict.groupsOf SecurityIdentityRecord.securityId heads).any
    (fun group => neighboursOverlap (group.sortOn (fun r => r.interval.validFrom)))

/-- The decision among the heads that are valid at the instant. -/
def decideValid (valid : List SecurityIdentityRecord) : IdentityResolution :=
  match valid with
  | [] => .unknown
  | r :: rest =>
    if ¬ ((r :: rest).map SecurityIdentityRecord.securityId).Nodup then .conflict
    else if rest ≠ [] then .ambiguous
    else .resolved r

/-- The answer given the visible records, of which there is one at least. -/
def resolveVisible (visible : List SecurityIdentityRecord) (asOf : UtcTimestamp) : IdentityResolution :=
  match supersessionHeads identityHash visible with
  | none => .conflict
  | some heads =>
    if anyIntervalConflict heads then .conflict
    else decideValid (heads.filter (·.validAt asOf))

/-- `resolve_identity` -/
def resolveIdentity (records : List SecurityIdentityRecord) (q : IdentityQuery) :
    Except Failure IdentityResolution := do
  require (records.length ≤ maxResolutionRecords) tooManyRecords
  let inScope := records.filter (matchesKey q)
  if inScope = [] then return .unknown
  let visible := inScope.filter (·.knownAt q.knownAt)
  if visible = [] then return .stale
  return resolveVisible identityHash visible q.asOf

end

/-! ### What an answer says -/

section

variable {identityHash : SecurityIdentityRecord → Hash} {records visible : List SecurityIdentityRecord}
  {q : IdentityQuery} {asOf : UtcTimestamp} {r : SecurityIdentityRecord}

theorem groupHead_mem {group : List SecurityIdentityRecord} (h : groupHead identityHash group = some r) :
    r ∈ group := by
  have hu : r ∈ Dict.uniqueBy identityHash group := by
    unfold groupHead at h
    split at h
    · rename_i s hs
      cases h
      rw [hs]
      exact List.mem_singleton_self r
    · split at h
      · rename_i s hs
        cases h
        have hr : r ∈ latestOf (Dict.uniqueBy identityHash group) := by
          rw [hs]
          exact List.mem_singleton_self r
        exact List.mem_of_mem_filter hr
      · cases h
  exact Dict.mem_of_mem_uniqueBy hu

/-- A head is one of the visible records. -/
theorem supersessionHeads_mem {heads : List SecurityIdentityRecord}
    (h : supersessionHeads identityHash visible = some heads) (hr : r ∈ heads) : r ∈ visible := by
  obtain ⟨group, hg, hh⟩ := Dict.exists_of_mem_mapM h hr
  obtain ⟨-, k, rfl⟩ := Dict.mem_of_mem_groupsOf hg
  exact List.mem_of_mem_filter (groupHead_mem hh)

theorem resolveVisible_resolved (h : resolveVisible identityHash visible asOf = .resolved r) :
    r ∈ visible ∧ r.validAt asOf = true := by
  unfold resolveVisible at h
  split at h
  · cases h
  · rename_i heads hh
    split_ifs at h
    have hr : r ∈ heads.filter (·.validAt asOf) := by
      unfold decideValid at h
      split at h
      · cases h
      · rename_i s rest hv
        split_ifs at h
        cases h
        rw [hv]
        exact List.mem_cons_self
    obtain ⟨hr, hv⟩ := List.mem_filter.mp hr
    exact ⟨supersessionHeads_mem hh hr, hv⟩

/-- The answer by what is scoped and what is visible. -/
theorem resolveIdentity_eq (hlen : records.length ≤ maxResolutionRecords) :
    resolveIdentity identityHash records q =
      .ok (if records.filter (matchesKey q) = [] then .unknown
        else if (records.filter (matchesKey q)).filter (·.knownAt q.knownAt) = [] then .stale
        else resolveVisible identityHash ((records.filter (matchesKey q)).filter (·.knownAt q.knownAt)) q.asOf) := by
  have hr : require (records.length ≤ maxResolutionRecords) tooManyRecords = .ok () := require_ok.mpr hlen
  simp only [resolveIdentity, hr, bind, Except.bind]
  split_ifs <;> rfl

theorem resolveIdentity_length {x : IdentityResolution} (h : resolveIdentity identityHash records q = .ok x) :
    records.length ≤ maxResolutionRecords := by
  obtain ⟨_, hlen, _⟩ := bind_ok.mp h
  exact require_ok.mp hlen

/-- A resolved record is one of the records, is what the query asks for and answers it. -/
theorem resolveIdentity_resolved (h : resolveIdentity identityHash records q = .ok (.resolved r)) :
    r ∈ records ∧ matchesKey q r = true ∧ r.answersAsOf q.asOf q.knownAt = true := by
  rw [resolveIdentity_eq (resolveIdentity_length h), Except.ok.injEq] at h
  split_ifs at h
  obtain ⟨hm, hv⟩ := resolveVisible_resolved h
  obtain ⟨hm, hk⟩ := List.mem_filter.mp hm
  obtain ⟨hr, hq⟩ := List.mem_filter.mp hm
  exact ⟨hr, hq, by simp only [SecurityIdentityRecord.answersAsOf, hk, hv, Bool.and_self]⟩

/-! ### Repeated observations of one interval -/

/-- The record is known at the instant, and every other one that is known was learned before it. -/
def Current (records : List SecurityIdentityRecord) (knownAt : UtcTimestamp) (r : SecurityIdentityRecord) : Prop :=
  r ∈ records ∧ r.availableAt ≤ knownAt ∧
    ∀ s ∈ records, s.availableAt ≤ knownAt → s ≠ r → s.availableAt < r.availableAt

theorem Current.unique {knownAt : UtcTimestamp} {s : SecurityIdentityRecord} (hr : Current records knownAt r)
    (hs : Current records knownAt s) : r = s := by
  by_contra hne
  exact lt_asymm (hs.2.2 r hr.1 hr.2.1 hne) (hr.2.2 s hs.1 hs.2.1 (Ne.symm hne))

/-- The head of a group was learned after every other record of it. -/
theorem groupHead_latest {group : List SecurityIdentityRecord}
    (hinj : ∀ a ∈ group, ∀ b ∈ group, identityHash a = identityHash b → a = b)
    (h : groupHead identityHash group = some r) : ∀ s ∈ group, s ≠ r → s.availableAt < r.availableAt := by
  have hrep : ∀ s ∈ group, s ∈ Dict.uniqueBy identityHash group := by
    intro s hs
    obtain ⟨b, hb, hkey⟩ := Dict.exists_mem_uniqueBy identityHash hs
    rwa [← hinj b (Dict.mem_of_mem_uniqueBy hb) s hs hkey]
  intro s hs hne
  unfold groupHead at h
  split at h
  · rename_i a ha
    cases h
    have hmem := hrep s hs
    rw [ha] at hmem
    exact absurd (List.mem_singleton.mp hmem) hne
  · split at h
    · rename_i a ha
      cases h
      have hlatest : ∀ b ∈ Dict.uniqueBy identityHash group, b.availableAt ≤ r.availableAt := by
        have hr : r ∈ latestOf (Dict.uniqueBy identityHash group) := by
          rw [ha]
          exact List.mem_singleton_self r
        intro b hb
        exact of_decide_eq_true (List.all_eq_true.mp (List.mem_filter.mp hr).2 b hb)
      refine lt_of_le_of_ne (hlatest s (hrep s hs)) fun heq => hne ?_
      -- a record learned at the same instant would be a latest one too
      have hs' : s ∈ latestOf (Dict.uniqueBy identityHash group) := by
        refine List.mem_filter.mpr ⟨hrep s hs, List.all_eq_true.mpr fun b hb => ?_⟩
        exact decide_eq_true (heq ▸ hlatest b hb)
      rw [ha] at hs'
      exact List.mem_singleton.mp hs'
    · cases h

/-- Of records of one interval the current one is resolved, or none. -/
theorem current_of_resolved {sid : SecurityId} (hq : q.securityId = some sid)
    (hkey : ∀ a ∈ records, ∀ b ∈ records, intervalKey a = intervalKey b)
    (hinj : ∀ a ∈ records, ∀ b ∈ records, identityHash a = identityHash b → a = b)
    (h : resolveIdentity identityHash records q = .ok (.resolved r)) : Current records q.knownAt r := by
  obtain ⟨hr, hmatch, hanswers⟩ := resolveIdentity_resolved h
  have hknown : r.availableAt ≤ q.knownAt := by
    simp only [SecurityIdentityRecord.answersAsOf, Bool.and_eq_true] at hanswers
    exact of_decide_eq_true hanswers.1
  have hscope : records.filter (matchesKey q) = records := by
    rw [List.filter_eq_self]
    intro s hs
    have hsid : s.securityId = r.securityId := congrArg Prod.fst (hkey s hs r hr)
    simp only [matchesKey, hq] at hmatch ⊢
    rw [hsid]
    exact hmatch
  refine ⟨hr, hknown, fun s hs hsk hne => ?_⟩
  rw [resolveIdentity_eq (resolveIdentity_length h), Except.ok.injEq, hscope] at h
  split_ifs at h with h1 h2
  have hgroups := Dict.groupsOf_of_const h2
    (fun a ha => hkey a (List.mem_of_mem_filter ha) r hr)
  have hhead : groupHead identityHash (records.filter (·.knownAt q.knownAt)) = some r := by
    unfold resolveVisible supersessionHeads at h
    rw [hgroups] at h
    cases hg : groupHead identityHash (records.filter (·.knownAt q.knownAt)) with
    | none => simp [hg] at h
    | some head =>
      simp only [List.mapM_cons, List.mapM_nil, hg, Option.pure_def, Option.bind_eq_bind, Option.bind_some] at h
      split_ifs at h
      rw [List.filter_singleton] at h
      cases hv : head.validAt q.asOf with
      | false =>
        rw [hv] at h
        cases h
      | true =>
        simp only [hv, cond_true, decideValid, List.map_singleton, List.nodup_singleton, not_true, if_false, ne_eq] at h
        cases h
        rfl
  refine groupHead_latest (fun a ha b hb => hinj a (List.mem_of_mem_filter ha) b (List.mem_of_mem_filter hb)) hhead s ?_ hne
  exact List.mem_filter.mpr ⟨hs, decide_eq_true hsk⟩

end

end SevenLens.Securities
