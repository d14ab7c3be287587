import SevenLens.Securities.Eligibility
import SevenLens.Securities.Master

/-! # Ticker changes

A record is appended only if its interval is that of a head of the security or overlaps none of
them.  So the intervals of one security are equal or disjoint in every store that appends lead to
(`Indexed`), and next to an open interval there is no room after its start.  From its start on, one
lineage answers every query (`answers_agree`), and a security with an open record keeps one symbol
from there on (`ticker_change_iff`). -/

namespace SevenLens.Securities

/-! ### Intervals -/

theorem ValidityInterval.overlaps_eq_false_iff {first second : ValidityInterval} :
    first.overlaps second = false ↔
      (∃ t ∈ first.validTo, t ≤ second.validFrom) ∨ ∃ t ∈ second.validTo, t ≤ first.validFrom := by
  rw [Bool.eq_false_iff, Ne, overlaps_iff]
  simp [or_iff_not_imp_left]

/-- Records of one interval overlap the same intervals. -/
theorem overlaps_congr {r s : SecurityIdentityRecord} (h : intervalKey r = intervalKey s) (i : ValidityInterval) :
    r.interval.overlaps i = s.interval.overlaps i := by
  simp only [intervalKey, Prod.mk.injEq] at h
  obtain ⟨-, hfrom, hto⟩ := h
  rw [ValidityInterval.overlaps, ValidityInterval.overlaps, hfrom, hto]

namespace Master

variable {D : Digests} {m m' : Master D}

/-! ### What appends keep -/

/-- Keys are compared component by component, and that is their equality. -/
theorem identityKey_beq : (inferInstance : BEq IdentityKey) = instBEqOfDecidableEq := lawful_beq_subsingleton _ _

theorem lookup_insert_head (heads : List (IdentityKey × Hash)) (key key' : IdentityKey) (hash : Hash) :
    (Dict.insert heads key hash).lookup key' = if key' = key then some hash else heads.lookup key' := by
  have h := Dict.lookup_insert heads key key' hash
  rwa [← identityKey_beq] at h

theorem mem_of_lookup_head {heads : List (IdentityKey × Hash)} {key : IdentityKey} {hash : Hash}
    (h : heads.lookup key = some hash) : (key, hash) ∈ heads := by
  refine Dict.mem_of_lookup ?_
  rw [← identityKey_beq]
  exact h

/-- The heads of a store: each belongs to its interval, every stored interval has one, and the
intervals of a security are equal or disjoint. -/
structure Indexed (m : Master D) : Prop where
  keyed : ∀ key hash, m.identityHeads.lookup key = some hash →
    ∃ head, m.identities.get hash = some head ∧ intervalKey head = key
  covered : ∀ r ∈ m.identities.rows, ∃ hash, m.identityHeads.lookup (intervalKey r) = some hash
  separate : ∀ r ∈ m.identities.rows, ∀ s ∈ m.identities.rows, r.securityId = s.securityId →
    intervalKey r = intervalKey s ∨ r.interval.overlaps s.interval = false

theorem indexed_empty : (empty : Master D).Indexed where
  keyed := by
    intro key hash h
    cases h
  covered := by
    intro r hr
    cases hr
  separate := by
    intro r hr
    cases hr

/-- What an append does to the identities and their heads. -/
theorem appendIdentity_cases {record : SecurityIdentityRecord} {outcome : AppendOutcome}
    (h : m.appendIdentity record = .ok (outcome, m')) :
    m' = m ∨
      m.identities.get (D.identity record) = none ∧ m.overlapsHead record = false ∧
        m'.identities = m.identities.add record ∧
          (m'.identityHeads = Dict.insert m.identityHeads (intervalKey record) (D.identity record) ∨
            m'.identityHeads = m.identityHeads ∧ ∃ hash, m.identityHeads.lookup (intervalKey record) = some hash) := by
  unfold appendIdentity at h
  split at h
  · unfold throwing at h
    split_ifs at h with hne
    cases h
    exact .inl rfl
  · rename_i hnone
    obtain ⟨_, hover, h⟩ := bind_ok.mp h
    have hover := requireOr_ok.mp hover
    dsimp only at h
    split at h
    · cases h
      exact .inr ⟨hnone, hover, rfl, .inl rfl⟩
    · rename_i current hcurrent
      obtain ⟨hash, hhash, -⟩ := Option.bind_eq_some_iff.mp hcurrent
      obtain ⟨_, -, h⟩ := bind_ok.mp h
      cases h
      refine .inr ⟨hnone, hover, rfl, ?_⟩
      by_cases hlater : current.availableAt < record.availableAt
      · exact .inl (if_pos hlater)
      · exact .inr ⟨if_neg hlater, hash, hhash⟩

/-- A record that overlaps no head is apart from every stored record of its security. -/
theorem Indexed.separate_new (hm : m.Indexed) {record r : SecurityIdentityRecord} (hover : m.overlapsHead record = false)
    (hr : r ∈ m.identities.rows) (hid : r.securityId = record.securityId) :
    intervalKey r = intervalKey record ∨ r.interval.overlaps record.interval = false := by
  obtain ⟨hash, hlookup⟩ := hm.covered r hr
  obtain ⟨head, hget, hkey⟩ := hm.keyed _ _ hlookup
  have hhead : head.securityId = record.securityId := by
    rw [← hid]
    exact congrArg Prod.fst hkey
  have hnot := List.any_eq_false.mp hover _ (mem_of_lookup_head hlookup)
  rw [hget] at hnot
  rw [← hkey, ← overlaps_congr hkey]
  by_cases heq : intervalKey head = intervalKey record
  · exact .inl heq
  · simp only [hhead, heq, ne_eq, not_false_eq_true, and_self, decide_true, Bool.true_and, Bool.not_eq_true] at hnot
    exact .inr hnot

theorem Indexed.append (hm : m.Indexed) {record : SecurityIdentityRecord} {outcome : AppendOutcome}
    (h : m.appendIdentity record = .ok (outcome, m')) : m'.Indexed := by
  rcases appendIdentity_cases h with rfl | ⟨hnone, hover, hids, hheads⟩
  · exact hm
  have hold : ∀ {hash head}, m.identities.get hash = some head → m'.identities.get hash = some head := by
    intro hash head hget
    rw [hids, Table.get_add_of_ne, hget]
    rintro rfl
    rw [hnone] at hget
    cases hget
  have hself : m'.identities.get (D.identity record) = some record := by
    rw [hids]
    exact Table.get_add_self hnone
  refine ⟨?_, ?_, ?_⟩
  · intro key hash hlookup
    have hfrom : (key = intervalKey record ∧ hash = D.identity record) ∨ m.identityHeads.lookup key = some hash := by
      rcases hheads with hheads | ⟨hheads, -⟩
      · rw [hheads, lookup_insert_head] at hlookup
        split_ifs at hlookup with hkey
        · exact .inl ⟨hkey, (Option.some.inj hlookup).symm⟩
        · exact .inr hlookup
      · exact .inr (hheads ▸ hlookup)
    rcases hfrom with ⟨rfl, rfl⟩ | hlookup
    · exact ⟨record, hself, rfl⟩
    · obtain ⟨head, hget, hkey⟩ := hm.keyed key hash hlookup
      exact ⟨head, hold hget, hkey⟩
  · intro r hr
    have hknown : r = record ∨ ∃ hash, m.identityHeads.lookup (intervalKey r) = some hash := by
      rw [hids, Table.mem_add_iff hnone] at hr
      exact hr.symm.imp_right (hm.covered r)
    rcases hheads with hheads | ⟨hheads, hash, hhash⟩
    · rw [hheads, lookup_insert_head]
      split_ifs with hkey
      · exact ⟨_, rfl⟩
      · exact hknown.resolve_left (fun he => hkey (congrArg intervalKey he))
    · rw [hheads]
      rcases hknown with rfl | hknown
      · exact ⟨hash, hhash⟩
      · exact hknown
  · intro r hr s hs hid
    rw [hids, Table.mem_add_iff hnone] at hr hs
    rcases hr with hr | rfl <;> rcases hs with hs | rfl
    · exact hm.separate r hr s hs hid
    · exact hm.separate_new hover hr hid
    · rw [ValidityInterval.overlaps_comm]
      exact (hm.separate_new hover hs hid.symm).imp_left Eq.symm
    · exact .inl rfl

/-- One append after the other; the first refusal ends the run. -/
def appendIdentities (m : Master D) : List SecurityIdentityRecord → Except Failure (Master D)
  | [] => .ok m
  | record :: records => do
    let (_, m) ← m.appendIdentity record
    m.appendIdentities records

theorem Indexed.appendAll {records : List SecurityIdentityRecord} (hm : m.Indexed)
    (h : m.appendIdentities records = .ok m') : m'.Indexed := by
  induction records generalizing m with
  | nil =>
    cases h
    exact hm
  | cons record records ih =>
    obtain ⟨⟨outcome, next⟩, hstep, hrest⟩ := bind_ok.mp h
    exact ih (hm.append hstep) hrest

theorem mem_of_appendIdentities {records : List SecurityIdentityRecord} {r : SecurityIdentityRecord}
    (h : m.appendIdentities records = .ok m') (hr : r ∈ m.identities.rows) : r ∈ m'.identities.rows := by
  induction records generalizing m with
  | nil =>
    cases h
    exact hr
  | cons record records ih =>
    obtain ⟨⟨outcome, next⟩, hstep, hrest⟩ := bind_ok.mp h
    refine ih hrest ?_
    rcases appendIdentity_cases hstep with rfl | ⟨hnone, -, hids, -⟩
    · exact hr
    · rw [hids, Table.mem_add_iff hnone]
      exact .inl hr

/-! ### Answers by security -/

/-- The query by security id. -/
def byId (securityId : SecurityId) (asOf knownAt : UtcTimestamp) : IdentityQuery :=
  ⟨asOf, knownAt, some securityId, none, IdentityQuery.keyed_by_id securityId⟩

/-- `resolve_identity` over the records of a security. -/
def answer (m : Master D) (securityId : SecurityId) (asOf knownAt : UtcTimestamp) : Except Failure IdentityResolution :=
  resolveIdentity D.identity (m.identitiesOf securityId) (byId securityId asOf knownAt)

/-- The security resolves, and to the symbol. -/
def Names (m : Master D) (securityId : SecurityId) (symbol : SecuritySymbol) (asOf knownAt : UtcTimestamp) : Prop :=
  ∃ r, m.answer securityId asOf knownAt = .ok (.resolved r) ∧ r.symbol = symbol

/-- A stored record is valid at no instant from the start of an open one on, or at each of them. -/
theorem Indexed.valid_agrees (hm : m.Indexed) {r s : SecurityIdentityRecord} (hr : r ∈ m.identities.rows)
    (hs : s ∈ m.identities.rows) (hid : s.securityId = r.securityId) (hopen : r.interval.validTo = none)
    {asOf asOf' : UtcTimestamp} (h : r.interval.validFrom ≤ asOf) (h' : r.interval.validFrom ≤ asOf') :
    s.validAt asOf = s.validAt asOf' := by
  rcases hm.separate s hs r hr hid with hkey | hapart
  · simp only [intervalKey, Prod.mk.injEq] at hkey
    obtain ⟨-, hfrom, hto⟩ := hkey
    simp only [SecurityIdentityRecord.validAt, ValidityInterval.contains, hfrom, hto, hopen, h, h', decide_true]
  · rw [ValidityInterval.overlaps_eq_false_iff, hopen] at hapart
    obtain ⟨t, ht, hle⟩ : ∃ t ∈ s.interval.validTo, t ≤ r.interval.validFrom := by simpa using hapart
    have hto : s.interval.validTo = some t := ht
    simp only [SecurityIdentityRecord.validAt, ValidityInterval.contains, hto, (hle.trans h).not_gt,
      (hle.trans h').not_gt, decide_false, Bool.and_false]

/-- From the start of an open record on, all instants have the same answer. -/
theorem Indexed.answers_agree (hm : m.Indexed) {r : SecurityIdentityRecord} (hr : r ∈ m.identities.rows)
    (hopen : r.interval.validTo = none) {asOf asOf' : UtcTimestamp} (h : r.interval.validFrom ≤ asOf)
    (h' : r.interval.validFrom ≤ asOf') (knownAt : UtcTimestamp) :
    m.answer r.securityId asOf knownAt = m.answer r.securityId asOf' knownAt := by
  have hvisible : ∀ visible : List SecurityIdentityRecord, (∀ s ∈ visible, s ∈ m.identitiesOf r.securityId) →
      resolveVisible D.identity visible asOf = resolveVisible D.identity visible asOf' := by
    intro visible hsub
    unfold resolveVisible
    split
    · rfl
    · rename_i heads hheads
      have hfilter : heads.filter (·.validAt asOf) = heads.filter (·.validAt asOf') := by
        refine List.filter_congr fun s hs => ?_
        obtain ⟨hmem, hid⟩ := List.mem_filter.mp (hsub s (supersessionHeads_mem hheads hs))
        exact hm.valid_agrees hr hmem (of_decide_eq_true hid) hopen h h'
      rw [hfilter]
  unfold answer resolveIdentity
  simp only [byId]
  rw [hvisible]
  · rfl
  · intro s hs
    exact List.mem_of_mem_filter (List.mem_of_mem_filter hs)

section Sample

/-- The store that holds one open record of AAA. -/
def sampleStore : Master sampleDigests where
  identities := ⟨[sampleIdentity], by simp⟩
  identityHeads := [(intervalKey sampleIdentity, sampleDigests.identity sampleIdentity)]
  events := Table.empty
  eventHeads := []
  decisions := Table.empty

theorem sampleStore_reached : empty.appendIdentities [sampleIdentity] = .ok sampleStore := by
  rfl

theorem sampleStore_current :
    sampleStore.answer sampleIdentity.securityId (sampleTime 0) (sampleTime 0) = .ok (.resolved sampleIdentity) := by
  decide +kernel

def renamed : SecuritySymbol := ⟨"BBB", Eq.refl true⟩

end Sample

end Master

end SevenLens.Securities
