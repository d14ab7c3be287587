import SevenLens.Securities.Eligibility
import SevenLens.Universe.Judgement

/-! # The snapshot of an admitted input

The checks of `buildUniverse` without an order: what a record has to be by itself (`Intact`),
and that no decision was made under another version than the identity of its security
(`NoDrift`).  Both are insensitive to the order of the records, and so is the snapshot, whose
content is `judgedBody`: the judgement of every security by its own views
(`buildUniverse_ok`).  A drifted decision refuses the whole input
(`drift_refuses_input`). -/

namespace SevenLens.Universe

open Securities Screening MarketData

variable {D : Digests} {input : UniverseInput}

/-! ### Admitted inputs -/

/-- Every record passes the checks that are about it alone, and the calendar and the records
fit together. -/
structure Intact (input : UniverseInput) : Prop where
  sessions : (input.sessions.map MarketSession.tradingDate).Nodup
  calendar : ∀ k < input.asOf.day, ∃ session ∈ input.sessionOn (k + 1),
    k + 1 < input.asOf.day → session.dayKind = .closed
  inRange : ¬ (input.asOf.year = 9999 ∧ input.asOf.month = 12 ∧ input.asOf.day = 31)
  openDay : ∀ session ∈ input.sessionOn input.asOf.day, session.isOpen = true
  known : OnOrAfter input.asOf input.knownAt
  version : input.securityMasterVersion ≠ ""
  observed : ∀ asset ∈ input.assets, asset.observedAt ≤ input.knownAt
  assets : (input.assets.map AssetObservation.securityId).Nodup
  identities : (input.identities.map IdentityView.securityId).Nodup
  quarantines : (input.quarantines.map QuarantineView.securityId).Nodup
  markets : (input.markets.map MarketView.securityId).Nodup
  identityIds : ∀ sid ∈ input.identities.map IdentityView.securityId, sid ∈ input.assets.map AssetObservation.securityId
  quarantineIds : ∀ sid ∈ input.quarantines.map QuarantineView.securityId,
    sid ∈ input.assets.map AssetObservation.securityId
  marketIds : ∀ sid ∈ input.markets.map MarketView.securityId, sid ∈ input.assets.map AssetObservation.securityId
  identityViews : ∀ i ∈ input.identities, (i.asOf = input.asOf.start ∧ i.knownAt = input.knownAt) ∧
    (i.record.status = .active → i.record.answersAsOf input.asOf.start input.knownAt = true)
  decided : ∀ q ∈ input.quarantines, q.decision.decisionAt ≤ input.knownAt
  marketViews : ∀ m ∈ input.markets, m.snapshot.asOf.day = input.asOf.days ∧ m.snapshot.knownAt ≤ input.knownAt

/-- A decision of a security was made under the version of its identity. -/
def NoDrift (D : Digests) (input : UniverseInput) : Prop :=
  ∀ q ∈ input.quarantines, ∀ i ∈ input.identityOf q.securityId, q.decision.masterVersion = masterVersionFor D i.record

theorem checkDay_ok {day : Nat} : input.checkDay day = .ok () ↔
    ∃ session ∈ input.sessionOn day, day < input.asOf.day → session.dayKind = .closed := by
  unfold UniverseInput.checkDay
  cases input.sessionOn day with
  | none => simp [refuse, throwing]
  | some session => simp only [require_ok, Option.mem_def, Option.some.injEq, exists_eq_left']

theorem checkCalendar_ok : input.checkCalendar = .ok () ↔
    (input.sessions.map MarketSession.tradingDate).Nodup ∧
      (∀ k < input.asOf.day, ∃ session ∈ input.sessionOn (k + 1), k + 1 < input.asOf.day → session.dayKind = .closed) ∧
      ¬ (input.asOf.year = 9999 ∧ input.asOf.month = 12 ∧ input.asOf.day = 31) ∧
      ∀ session ∈ input.sessionOn input.asOf.day, session.isOpen = true := by
  simp only [UniverseInput.checkCalendar, bind_ok, require_ok, requireOr_ok, Dict.forM_ok, checkDay_ok, exists_const,
    List.mem_range]

/-- The checks pass where every record is intact and no decision has drifted. -/
theorem check_ok : input.check D = .ok () ↔ Intact input ∧ NoDrift D input := by
  simp only [UniverseInput.check, bind_ok, require_ok, exists_const, UniverseInput.assertUnique,
    UniverseInput.assertCandidates, Dict.forM_ok, UniverseInput.checkIdentity, UniverseInput.checkQuarantine,
    UniverseInput.checkMarket]
  constructor
  · rintro ⟨_, hcal, h2, h3, h4, h5, h6, h7, h8, h9, h10, h11, h12, h13, h14⟩
    obtain ⟨c1, c2, c3, c4⟩ := checkCalendar_ok.mp hcal
    exact ⟨⟨c1, c2, c3, c4, h2, h3, h4, h5, h6, h7, h8, h9, h10, h11, h12, fun q hq => (h13 q hq).1, h14⟩,
      fun q hq => (h13 q hq).2⟩
  · rintro ⟨h, hd⟩
    exact ⟨(), checkCalendar_ok.mpr ⟨h.sessions, h.calendar, h.inRange, h.openDay⟩, h.known, h.version, h.observed,
      h.assets, h.identities, h.quarantines, h.markets, h.identityIds, h.quarantineIds, h.marketIds, h.identityViews,
      fun q hq => ⟨h.decided q hq, hd q hq⟩, h.marketViews⟩

/-! ### The snapshot -/

namespace UniverseInput

/-- The content of the snapshot by the judgement of every security. -/
def judgedBody (D : Digests) (input : UniverseInput) : UniverseBody :=
  input.body (input.assets.map (fun asset => judgedEntry D input.knownAt asset (input.views asset.securityId)))

end UniverseInput

/-- A snapshot is returned where the checks pass and every entry and the content can be built. -/
theorem buildUniverse_ok {sha256 : String → Hash} {s : UniverseSnapshot sha256} :
    buildUniverse D sha256 input = .ok s ↔ input.check D = .ok () ∧
      (∀ asset ∈ input.assets, evaluateEntry D asset (input.views asset.securityId) input.knownAt =
        .ok (judgedEntry D input.knownAt asset (input.views asset.securityId))) ∧
      s.toUniverseBody = input.judgedBody D := by
  simp only [buildUniverse, bind_ok, buildUniverseSnapshot_ok, UniverseInput.judgedBody]
  constructor
  · rintro ⟨_, hc, entries, hentries, hs⟩
    have hmap : ∀ asset ∈ input.assets, evaluateEntry D asset (input.views asset.securityId) input.knownAt =
        .ok (judgedEntry D input.knownAt asset (input.views asset.securityId)) := by
      intro asset ha
      obtain ⟨e, -, he⟩ := Dict.exists_of_forall₂ (Dict.forall₂_of_mapM hentries) ha
      rw [he, judgedEntry_of_evaluateEntry he]
    rw [Dict.mapM_congr hmap] at hentries
    have hpure : entries = input.assets.map
        (fun asset => judgedEntry D input.knownAt asset (input.views asset.securityId)) :=
      (Except.ok.inj ((List.mapM_pure (m := Except Failure)).symm.trans hentries)).symm
    exact ⟨hc, hmap, hpure ▸ hs⟩
  · rintro ⟨hc, hmap, hs⟩
    exact ⟨(), hc, _, (Dict.mapM_congr hmap).trans List.mapM_pure, hs⟩

/-- The bounds that the constructors of the entries and of the snapshot set, beyond the checks of
the input. -/
structure WithinBounds (D : Digests) (input : UniverseInput) : Prop where
  version : IsMasterVersion input.securityMasterVersion
  items : input.assets.length ≤ maxUniverseSnapshotItems
  events : ∀ q ∈ input.quarantines, q.decision.eventIds.length ≤ maxEventLineages
  cutoff : maxAuthorityStaleness ≤ input.knownAt.micros
  bytes : (input.judgedBody D).wire.bytes ≤ maxUniverseSnapshotBytes

theorem views_about (hevents : ∀ q ∈ input.quarantines, q.decision.eventIds.length ≤ maxEventLineages)
    (asset : AssetObservation) : (input.views asset.securityId).About asset where
  identity := by
    intro i hi
    have hp := List.find?_some (p := fun i => decide (IdentityView.securityId i = asset.securityId)) hi
    exact of_decide_eq_true hp
  market := by
    intro m hm
    have hp := List.find?_some (p := fun m => decide (MarketView.securityId m = asset.securityId)) hm
    exact of_decide_eq_true hp
  events := fun q hq => hevents q (List.mem_of_find?_eq_some hq)

theorem judgedBody_entries_perm (D : Digests) (input : UniverseInput) : ((input.judgedBody D).entries.map UniverseEntry.securityId).Perm
    (input.assets.map AssetObservation.securityId) := by
  refine ((List.sortOn_perm _ _).map _).trans ?_
  rw [List.map_map]
  exact List.Perm.refl _

/-- The content by the judgements passes the constructor. -/
theorem postInit_judgedBody (h : Intact input) (hb : WithinBounds D input) : (input.judgedBody D).postInit = .ok () := by
  have hmarkets : input.markets.length ≤ input.assets.length := by
    have hle := (List.subperm_of_subset h.markets h.marketIds).length_le
    rwa [List.length_map, List.length_map] at hle
  have hrefs : (input.judgedBody D).marketSnapshotRefs.Pairwise (· < ·) := by
    refine List.pairwise_lt_sortOn ?_
    rw [List.map_id']
    exact List.nodup_dedup _
  have hlen : (input.judgedBody D).marketSnapshotRefs.length ≤ input.markets.length := by
    have hle := (List.dedup_sublist (input.markets.map (fun m => m.snapshot.snapshotHash))).length_le
    rw [List.length_map] at hle
    exact (List.length_sortOn _).trans_le hle
  have hentries : (input.judgedBody D).entries.length = input.assets.length := by
    have hlen := (judgedBody_entries_perm D input).length_eq
    rwa [List.length_map, List.length_map] at hlen
  simp only [UniverseBody.postInit, bind_ok, require_ok, exists_const]
  refine ⟨h.known, hb.version, (hlen.trans hmarkets).trans hb.items, sortOn_dedup_of_pairwise hrefs,
    hentries.trans_le hb.items, ?_, (judgedBody_entries_perm D input).nodup_iff.mpr h.assets⟩
  exact (List.sortOn_of_pairwise (List.pairwise_sortOn _ _)).symm

/-- Within the bounds an input that passes its checks gives a snapshot. -/
theorem buildUniverse_total (sha256 : String → Hash) (hc : input.check D = .ok ()) (hb : WithinBounds D input) :
    ∃ s, buildUniverse D sha256 input = .ok s := by
  have hpost := postInit_judgedBody (check_ok.mp hc).1 hb
  have hhash : (input.judgedBody D).computeHash sha256 =
      .ok (sha256 ("seven-lens.p4c.universe-snapshot.v1\x00" ++ (input.judgedBody D).wire.dumps)) := by
    simp only [UniverseBody.computeHash, require, requireOr, if_pos hb.bytes]
    rfl
  refine ⟨⟨input.judgedBody D, _, hpost, hhash⟩, buildUniverse_ok.mpr ⟨hc, ?_, rfl⟩⟩
  intro asset _
  exact evaluateEntry_eq hb.cutoff (views_about hb.events asset)

/-! ### Reordered inputs -/

/-- The same input with its records in another order. -/
structure Reordered (input other : UniverseInput) : Prop where
  asOf : other.asOf = input.asOf
  knownAt : other.knownAt = input.knownAt
  version : other.securityMasterVersion = input.securityMasterVersion
  policy : other.policyHash = input.policyHash
  schema : other.schemaVersion = input.schemaVersion
  assets : input.assets.Perm other.assets
  identities : input.identities.Perm other.identities
  quarantines : input.quarantines.Perm other.quarantines
  markets : input.markets.Perm other.markets
  sessions : input.sessions.Perm other.sessions

section

variable {other : UniverseInput}

/-- A search by a key that no two records share. -/
theorem find?_key_perm {α κ : Type} [DecidableEq κ] {key : α → κ} {l l' : List α} (hl : l.Perm l')
    (hn : (l.map key).Nodup) (k : κ) :
    l'.find? (fun a => decide (key a = k)) = l.find? (fun a => decide (key a = k)) := by
  refine Dict.find?_perm hl fun a ha b hb hka hkb => ?_
  exact List.inj_on_of_nodup_map hn ha hb ((of_decide_eq_true hka).trans (of_decide_eq_true hkb).symm)

theorem views_reordered (h : Intact input) (hr : Reordered input other) (sid : SecurityId) :
    other.views sid = input.views sid := by
  simp only [UniverseInput.views, UniverseInput.identityOf, UniverseInput.quarantineOf, UniverseInput.marketOf,
    find?_key_perm hr.identities h.identities, find?_key_perm hr.quarantines h.quarantines,
    find?_key_perm hr.markets h.markets]

theorem sessionOn_reordered (h : Intact input) (hr : Reordered input other) (day : Nat) :
    other.sessionOn day = input.sessionOn day := by
  unfold UniverseInput.sessionOn
  rw [hr.asOf]
  refine Dict.find?_perm hr.sessions fun a ha b hb hka hkb => List.inj_on_of_nodup_map h.sessions ha hb ?_
  obtain ⟨hy, hm, hd⟩ := of_decide_eq_true hka
  obtain ⟨hy', hm', hd'⟩ := of_decide_eq_true hkb
  rw [TradingDate.mk.injEq]
  exact ⟨hy.trans hy'.symm, hm.trans hm'.symm, hd.trans hd'.symm⟩

theorem intact_reordered (h : Intact input) (hr : Reordered input other) : Intact other where
  sessions := (hr.sessions.map _).nodup_iff.mp h.sessions
  calendar := by
    simp only [sessionOn_reordered h hr, hr.asOf]
    exact h.calendar
  inRange := by
    rw [hr.asOf]
    exact h.inRange
  openDay := by
    rw [sessionOn_reordered h hr, hr.asOf]
    exact h.openDay
  known := by
    rw [hr.asOf, hr.knownAt]
    exact h.known
  version := by
    rw [hr.version]
    exact h.version
  observed := fun asset ha => by
    rw [hr.knownAt]
    exact h.observed asset (hr.assets.mem_iff.mpr ha)
  assets := (hr.assets.map _).nodup_iff.mp h.assets
  identities := (hr.identities.map _).nodup_iff.mp h.identities
  quarantines := (hr.quarantines.map _).nodup_iff.mp h.quarantines
  markets := (hr.markets.map _).nodup_iff.mp h.markets
  identityIds := fun sid hs =>
    (hr.assets.map _).mem_iff.mp (h.identityIds sid ((hr.identities.map _).mem_iff.mpr hs))
  quarantineIds := fun sid hs =>
    (hr.assets.map _).mem_iff.mp (h.quarantineIds sid ((hr.quarantines.map _).mem_iff.mpr hs))
  marketIds := fun sid hs =>
    (hr.assets.map _).mem_iff.mp (h.marketIds sid ((hr.markets.map _).mem_iff.mpr hs))
  identityViews := fun i hi => by
    rw [hr.asOf, hr.knownAt]
    exact h.identityViews i (hr.identities.mem_iff.mpr hi)
  decided := fun q hq => by
    rw [hr.knownAt]
    exact h.decided q (hr.quarantines.mem_iff.mpr hq)
  marketViews := fun m hm => by
    rw [hr.asOf, hr.knownAt]
    exact h.marketViews m (hr.markets.mem_iff.mpr hm)

theorem noDrift_reordered (h : Intact input) (hd : NoDrift D input) (hr : Reordered input other) : NoDrift D other := by
  intro q hq i hi
  refine hd q (hr.quarantines.mem_iff.mpr hq) i ?_
  rwa [show other.identityOf q.securityId = input.identityOf q.securityId from
    congrArg Views.identity (views_reordered h hr q.securityId)] at hi

theorem judgedBody_reordered (h : Intact input) (hr : Reordered input other) :
    other.judgedBody D = input.judgedBody D := by
  have hrefs : (other.judgedBody D).marketSnapshotRefs = (input.judgedBody D).marketSnapshotRefs := by
    refine (List.sortOn_congr ((hr.markets.map _).dedup) ?_).symm
    rw [List.map_id]
    exact List.nodup_dedup _
  have hentries : (other.judgedBody D).entries = (input.judgedBody D).entries := by
    simp only [UniverseInput.judgedBody, UniverseInput.body, views_reordered h hr, hr.knownAt]
    refine (List.sortOn_congr (hr.assets.map _) ?_).symm
    rw [List.map_map]
    exact h.assets
  unfold UniverseInput.judgedBody UniverseInput.body at hrefs hentries ⊢
  simp only at hrefs hentries
  rw [hrefs, hentries, hr.asOf, hr.knownAt, hr.version, hr.policy, hr.schema]

end

/-- An input that passes its checks gives a snapshot within the bounds of the constructors.  A
snapshot has one entry for every asset observation, sorted by security, with the judgement on
the views of that security; it does not depend on the order of the records, and an entry not on
the records of other securities. -/
theorem universe_meets_specification (sha256 : String → Hash) (hc : input.check D = .ok ()) :
    (WithinBounds D input → ∃ s, buildUniverse D sha256 input = .ok s) ∧
      ∀ s, buildUniverse D sha256 input = .ok s →
        ((s.entries.map UniverseEntry.securityId).Pairwise (· < ·) ∧
          (s.entries.map UniverseEntry.securityId).Perm (input.assets.map AssetObservation.securityId)) ∧
        (∀ asset ∈ input.assets, ∃ e ∈ s.entries, e.securityId = asset.securityId ∧ e.symbol = asset.symbol ∧
          (e.eligible = true ↔ Eligible D input.knownAt asset (input.views asset.securityId)) ∧
          e.reason = firstFailing (hardFilters D input.knownAt asset (input.views asset.securityId))) ∧
        (∀ other s', buildUniverse D sha256 other = .ok s' → other.knownAt = input.knownAt →
          ∀ asset ∈ input.assets, asset ∈ other.assets →
            other.views asset.securityId = input.views asset.securityId →
            ∀ e ∈ s.entries, e.securityId = asset.securityId → e ∈ s'.entries) ∧
        ∀ other, Reordered input other → buildUniverse D sha256 other = .ok s := by
  refine ⟨buildUniverse_total sha256 hc, fun s hs => ?_⟩
  obtain ⟨hintact, hdrift⟩ := check_ok.mp hc
  obtain ⟨-, hone, hbody⟩ := buildUniverse_ok.mp hs
  have hentries : s.entries = (input.judgedBody D).entries := congrArg UniverseBody.entries hbody
  have hmem : ∀ asset ∈ input.assets, judgedEntry D input.knownAt asset (input.views asset.securityId) ∈ s.entries := by
    intro asset ha
    rw [hentries]
    exact List.mem_sortOn.mpr (List.mem_map_of_mem ha)
  have hperm : (s.entries.map UniverseEntry.securityId).Perm (input.assets.map AssetObservation.securityId) := by
    rw [hentries]
    exact judgedBody_entries_perm D input
  have hnodup : (s.entries.map UniverseEntry.securityId).Nodup := hperm.nodup_iff.mpr hintact.assets
  refine ⟨⟨?_, hperm⟩, ?_, ?_, ?_⟩
  · rw [hentries, List.pairwise_map]
    refine List.pairwise_lt_sortOn ?_
    rw [List.map_map]
    exact hintact.assets
  · intro asset ha
    refine ⟨_, hmem asset ha, rfl, rfl, ?_, rfl⟩
    rw [← judgedReason_eq_none]
    exact Option.isNone_iff_eq_none
  · intro other s' hs' hknown asset ha ha' hviews e he hsid
    obtain ⟨-, -, hbody'⟩ := buildUniverse_ok.mp hs'
    -- the entry is the one of the asset, which the other input judges in the same way
    obtain rfl : judgedEntry D input.knownAt asset (input.views asset.securityId) = e :=
      List.inj_on_of_nodup_map hnodup (hmem asset ha) he hsid.symm
    rw [congrArg UniverseBody.entries hbody', ← hknown, ← hviews]
    exact List.mem_sortOn.mpr (List.mem_map_of_mem ha')
  · intro other hr
    refine buildUniverse_ok.mpr ⟨check_ok.mpr ⟨intact_reordered hintact hr, noDrift_reordered hintact hdrift hr⟩, ?_,
      hbody.trans (judgedBody_reordered hintact hr).symm⟩
    intro asset ha
    rw [views_reordered hintact hr, hr.knownAt]
    exact hone asset (hr.assets.mem_iff.mpr ha)

/-! ### A sample month -/

/-- The identity of security 00000001, observed again on 2026-06-28. -/
def currentIdentity : SecurityIdentityRecord := { sampleIdentity with availableAt := sampleTime 650 }

/-- Digests that tell the two observations apart. -/
def monthDigests : Digests :=
  { sampleDigests with identity := fun r =>
      if r.availableAt = sampleTime 0 then repeated 'a' (Eq.refl true) else repeated 'b' (Eq.refl true) }

def sampleSha256 : String → Hash := fun _ => repeated 'c' (Eq.refl true)

/-- 2026-07-01, the first session of its month. -/
def firstSession : MarketSession where
  tradingDate := ⟨2026, 7, 1, TradingDate.year_2026, TradingDate.july, by decide⟩
  dayKind := .regular
  regularSession := some ⟨sampleTime 720, sampleTime 726, by decide⟩
  window_ok := by decide

def sampleAsset : AssetObservation where
  securityId := ⟨"00000001", Eq.refl true⟩
  symbol := ⟨"AAA", Eq.refl true⟩
  kind := .ordinaryCommonStock
  active := true
  tradable := true
  exchange := .nyse
  observedAt := sampleTime 700
  halted := some false
  identityHash := monthDigests.identity currentIdentity

/-- Another asset, of which nothing else is known. -/
def otherAsset : AssetObservation := { sampleAsset with securityId := ⟨"00000002", Eq.refl true⟩, symbol := ⟨"BBB", Eq.refl true⟩ }

/-- The security may enter, by a decision under the version of the identity record. -/
def decisionUnder (r : SecurityIdentityRecord) (hours : Fin 1000) : QuarantineView where
  decision :=
    { securityId := ⟨"00000001", Eq.refl true⟩
      symbolAsOf := ⟨"AAA", Eq.refl true⟩
      masterVersion := masterVersionFor monthDigests r
      decisionAt := sampleTime hours
      outcome := .eligible
      reasons := []
      eventIds := []
      sourceRefs := []
      version_ok := masterVersionFor_ok monthDigests r
      reasons_ok := by decide
      events_ok := by decide
      refs_ok := by decide }

def sampleMonth (version : String) (quarantines : List QuarantineView) : UniverseInput where
  asOf := firstSession.tradingDate
  knownAt := sampleTime 726
  securityMasterVersion := version
  assets := [otherAsset, sampleAsset]
  identities := [⟨currentIdentity, firstSession.tradingDate.start, sampleTime 726⟩]
  quarantines := quarantines
  markets := []
  sessions := [firstSession]
  policyHash := repeated 'd' (Eq.refl true)
  schemaVersion := ⟨"1.0.0"⟩

/-- A version that is any other text passes the checks, but no snapshot can carry it. -/
theorem no_snapshot_of_other_version :
    { sampleMonth "v1" [] with assets := [], identities := [] }.check monthDigests = .ok () ∧
      buildUniverse monthDigests sampleSha256 { sampleMonth "v1" [] with assets := [], identities := [] } =
        refuse "security_master_version must be the bounded P4-B version" := by
  decide +kernel

/-- The sample month with the asset that has an identity and a decision. -/
def clearMonth : UniverseInput :=
  { sampleMonth (masterVersionFor monthDigests currentIdentity) [decisionUnder currentIdentity 660] with
    assets := [sampleAsset] }

theorem clearMonth_snapshot : ∃ s, buildUniverse monthDigests sampleSha256 clearMonth = .ok s ∧
    ∃ e ∈ s.entries, e.securityId = sampleAsset.securityId ∧ e.reason = some .quoteMissingOrStale := by
  have hcheck : clearMonth.check monthDigests = .ok () := by decide +kernel
  obtain ⟨htotal, hspec⟩ := universe_meets_specification sampleSha256 hcheck
  obtain ⟨s, hs⟩ := htotal ⟨isMasterVersion_masterVersionFor _, by decide, by decide, by decide +kernel,
    by decide +kernel⟩
  obtain ⟨-, hentries, -⟩ := hspec s hs
  obtain ⟨e, he, hsid, -, -, hreason⟩ := hentries sampleAsset (by decide +kernel)
  exact ⟨s, hs, e, he, hsid, hreason.trans (by decide +kernel)⟩

/-! ### A drifted decision -/

def driftMessage : String := "quarantine decision master version does not match the identity"

/-- A decision was made under another version than the one of the identity now resolved. -/
def Drifted (D : Digests) (input : UniverseInput) (q : QuarantineView) : Prop :=
  ∃ i ∈ input.identityOf q.securityId, q.decision.masterVersion ≠ masterVersionFor D i.record

theorem noDrift_iff : NoDrift D input ↔ ∀ q ∈ input.quarantines, ¬ Drifted D input q := by
  simp only [NoDrift, Drifted, not_exists, not_and, ne_eq, not_not]

theorem buildUniverse_drifted (sha256 : String → Hash) (h : Intact input)
    (hdrift : ∃ q ∈ input.quarantines, Drifted D input q) :
    buildUniverse D sha256 input = refuse driftMessage := by
  have hone : ∀ q ∈ input.quarantines, input.checkQuarantine D q =
      if ∀ i ∈ input.identityOf q.securityId, q.decision.masterVersion = masterVersionFor D i.record then .ok ()
      else refuse driftMessage := by
    intro q hq
    simp only [UniverseInput.checkQuarantine, require, requireOr, if_pos (h.decided q hq), bind, Except.bind]
    rfl
  have hloop : input.quarantines.forM (input.checkQuarantine D) = refuse driftMessage := by
    refine Dict.forM_error ?_ ?_
    · intro q hq
      rw [hone q hq]
      split_ifs
      · exact .inl rfl
      · exact .inr rfl
    · obtain ⟨q, hq, i, hi, hne⟩ := hdrift
      refine ⟨q, hq, ?_⟩
      rw [hone q hq, if_neg fun hall => hne (hall i hi)]
      rfl
  have hcal := checkCalendar_ok.mpr ⟨h.sessions, h.calendar, h.inRange, h.openDay⟩
  have hids : input.identities.forM input.checkIdentity = .ok () := by
    rw [Dict.forM_ok]
    intro i hi
    simp only [UniverseInput.checkIdentity, bind_ok, require_ok, exists_const]
    exact h.identityViews i hi
  simp only [buildUniverse, UniverseInput.check, hcal, UniverseInput.assertUnique, UniverseInput.assertCandidates,
    require, requireOr, if_pos h.known, if_pos h.version, if_pos h.observed, if_pos h.assets, if_pos h.identities,
    if_pos h.quarantines, if_pos h.markets, if_pos h.identityIds, if_pos h.quarantineIds, if_pos h.marketIds, hids,
    hloop, bind, Except.bind]
  rfl

/-- Among intact records one drifted decision refuses the input of all securities; without one the
checks pass, and every security is judged by its own views. -/
theorem drift_refuses_input (sha256 : String → Hash) (h : Intact input) :
    ((∃ q ∈ input.quarantines, Drifted D input q) → buildUniverse D sha256 input = refuse driftMessage) ∧
      ((∀ q ∈ input.quarantines, ¬ Drifted D input q) → input.check D = .ok ()) :=
  ⟨buildUniverse_drifted sha256 h, fun hnone => check_ok.mpr ⟨h, noDrift_iff.mpr hnone⟩⟩

/-- The decision on AAA is of 2026-06-26, two days before its identity was observed again; BBB has
no decision at all. -/
def driftedMonth : UniverseInput :=
  sampleMonth (masterVersionFor monthDigests currentIdentity) [decisionUnder sampleIdentity 600]

theorem driftedMonth_intact : Intact driftedMonth where
  sessions := by decide
  calendar := by
    intro k hk
    obtain rfl : k = 0 := Nat.lt_one_iff.mp hk
    exact ⟨firstSession, by decide, fun h => absurd h (by decide)⟩
  inRange := by decide
  openDay := by
    intro session hs
    obtain rfl : firstSession = session := Option.some.inj hs
    rfl
  known := by decide +kernel
  version := by decide +kernel
  observed := by decide +kernel
  assets := by decide
  identities := by decide
  quarantines := by decide
  markets := by decide
  identityIds := by decide
  quarantineIds := by decide
  marketIds := by decide
  identityViews := by decide +kernel
  decided := by decide +kernel
  marketViews := by decide

theorem drifted_decision : Drifted monthDigests driftedMonth (decisionUnder sampleIdentity 600) :=
  ⟨⟨currentIdentity, firstSession.tradingDate.start, sampleTime 726⟩, by decide +kernel, by decide +kernel⟩

/-- No snapshot is returned, although every record is intact and nothing is wrong with BBB. -/
theorem no_snapshot_after_drift :
    Intact driftedMonth ∧ Drifted monthDigests driftedMonth (decisionUnder sampleIdentity 600) ∧
      Recent driftedMonth.knownAt (sampleTime 600) ∧ ∀ s, buildUniverse monthDigests sampleSha256 driftedMonth ≠ .ok s := by
  refine ⟨driftedMonth_intact, drifted_decision, by decide +kernel, fun s hs => ?_⟩
  rw [buildUniverse_drifted sampleSha256 driftedMonth_intact ⟨_, List.mem_cons_self, drifted_decision⟩] at hs
  cases hs

theorem driftedMonth_refused : Intact driftedMonth ∧
    buildUniverse monthDigests sampleSha256 driftedMonth = refuse driftMessage :=
  ⟨driftedMonth_intact, (drift_refuses_input sampleSha256 driftedMonth_intact).1
    ⟨decisionUnder sampleIdentity 600, List.mem_cons_self, drifted_decision⟩⟩

end SevenLens.Universe
