import SevenLens.Universe.Builder

/-! # What a universe snapshot says

The judgement on one security, stated by itself: the hard filters are a list of conditions in
the documented order, each with the reason for a security that fails it, and a security is
eligible where all of them hold.  For an input that passes its checks and keeps the bounds of
the records, `buildUniverse` publishes this judgement for every asset observation, and for
nothing else (`universe_meets_specification`). -/

namespace SevenLens.Universe

open Securities Screening MarketData

variable (D : Digests)

/-! ### The judgement -/

/-- The instant is at most the staleness bound before the other one. -/
def Recent (knownAt observedAt : UtcTimestamp) : Prop := knownAt.micros ≤ observedAt.micros + maxAuthorityStaleness

instance (knownAt observedAt : UtcTimestamp) : Decidable (Recent knownAt observedAt) :=
  inferInstanceAs (Decidable (_ ≤ _))

/-- The identity is resolved with the symbol, the exchange and the hash of the asset. -/
def IdentityMatches (asset : AssetObservation) (i : IdentityView) : Prop :=
  i.record.status = .active ∧ i.record.symbol = asset.symbol ∧ i.record.exchange = asset.exchange ∧
    D.identity i.record = asset.identityHash

/-- The decision is about the asset under its identity, and lets it enter. -/
def QuarantineMatches (knownAt : UtcTimestamp) (asset : AssetObservation) (i : IdentityView) (q : QuarantineView) :
    Prop :=
  q.securityId = asset.securityId ∧ q.decision.symbolAsOf = asset.symbol ∧
    q.decision.masterVersion = masterVersionFor D i.record ∧ q.decision.outcome = .eligible ∧
    Recent knownAt q.decision.decisionAt

/-- The price, the liquidity, the history, the freshness and the spread are within the limits. -/
structure MarketWithin (asset : AssetObservation) (m : MarketSnapshot) : Prop where
  symbol : m.symbol = asset.symbol
  noConflict : .marketDataConflict ∉ m.reasons
  price : ∃ x ∈ m.last, 5 ≤ x.value
  adv : ∃ x ∈ m.adv20Usd, 20000000 ≤ x.value
  history : 252 ≤ m.barDates.length
  fresh : m.freshness = .fresh
  spread : .spreadTooWide ∉ m.reasons

/-- What makes a security eligible. -/
structure Eligible (knownAt : UtcTimestamp) (asset : AssetObservation) (v : Views) : Prop where
  kind : asset.kind = .ordinaryCommonStock
  active : asset.active = true ∧ asset.tradable = true
  notHalted : asset.halted = some false
  observed : Recent knownAt asset.observedAt
  identity : ∃ i ∈ v.identity, IdentityMatches D asset i
  quarantine : ∃ i ∈ v.identity, ∃ q ∈ v.quarantine, QuarantineMatches D knownAt asset i q
  market : ∃ m ∈ v.market, MarketWithin asset m.snapshot

/-- The hard filters in their order, each with the reason of those who fail it. -/
def hardFilters (knownAt : UtcTimestamp) (asset : AssetObservation) (v : Views) : List (ClosedReason × Bool) :=
  let market (p : MarketSnapshot → Bool) : Bool := v.market.any (fun m => p m.snapshot)
  [(.otcOrExcludedInstrument, decide (asset.kind ≠ .otc)),
    (.unsupportedAssetClass, decide (asset.kind = .ordinaryCommonStock)),
    (.notActiveOrTradable, asset.active && asset.tradable),
    (.notActiveOrTradable, decide (asset.halted = some false)),
    (.notActiveOrTradable, decide (Recent knownAt asset.observedAt)),
    (.identityNotClosed, identityClosed D asset v.identity),
    (.corporateActionQuarantine, v.identity.any (fun i => v.quarantine.any (fun q =>
      decide (q.securityId = asset.securityId) && decide (q.decision.symbolAsOf = asset.symbol) &&
        decide (q.decision.masterVersion = masterVersionFor D i.record) && decide (q.decision.outcome = .eligible) &&
        decide (Recent knownAt q.decision.decisionAt)))),
    (.quoteMissingOrStale, v.market.isSome),
    (.marketDataConflict, market (fun m => decide (m.symbol = asset.symbol) && decide (.marketDataConflict ∉ m.reasons))),
    (.priceBelowMinimum, market (fun m => atLeast minPrice m.last)),
    (.advBelowMinimum, market (fun m => atLeast minAdv20Usd m.adv20Usd)),
    (.insufficientTradingHistory, market (fun m => decide (minTradingHistorySessions ≤ m.barDates.length))),
    (.quoteMissingOrStale, market (fun m => decide (m.freshness = .fresh))),
    (.spreadTooWide, market (fun m => decide (.spreadTooWide ∉ m.reasons)))]

/-- The reason of the first filter that fails. -/
def firstFailing (filters : List (ClosedReason × Bool)) : Option ClosedReason :=
  (filters.find? (fun f => !f.2)).map Prod.fst

/-- The reason of a security. -/
def judgedReason (knownAt : UtcTimestamp) (asset : AssetObservation) (v : Views) : Option ClosedReason :=
  firstFailing (hardFilters D knownAt asset v)

@[simp] theorem firstFailing_nil : firstFailing [] = none := rfl

theorem firstFailing_cons (r : ClosedReason) (b : Bool) (fs : List (ClosedReason × Bool)) :
    firstFailing ((r, b) :: fs) = if b then firstFailing fs else some r := by
  cases b <;> simp [firstFailing]

theorem firstFailing_eq_none {fs : List (ClosedReason × Bool)} : firstFailing fs = none ↔ ∀ f ∈ fs, f.2 = true := by
  simp [firstFailing]

theorem atLeast_iff {minimum : Decimal} {x : Option Decimal} :
    atLeast minimum x = true ↔ ∃ y ∈ x, minimum.value ≤ y.value := by
  cases x <;> simp [atLeast]

variable {D}

theorem identityClosed_iff {asset : AssetObservation} {x : Option IdentityView} :
    identityClosed D asset x = true ↔ ∃ i ∈ x, IdentityMatches D asset i := by
  cases x with
  | none => simp [identityClosed]
  | some i =>
    simp only [identityClosed, IdentityMatches, IdentityView.resolved, Bool.and_eq_true, decide_eq_true_eq,
      Option.mem_def, Option.some.injEq, exists_eq_left', and_assoc]
    rw [eq_comm (a := asset.identityHash)]

/-- A security passes all filters where it is eligible. -/
theorem judgedReason_eq_none {knownAt : UtcTimestamp} {asset : AssetObservation} {v : Views} :
    judgedReason D knownAt asset v = none ↔ Eligible D knownAt asset v := by
  have hprice : minPrice.value = 5 := by decide +kernel
  have hadv : minAdv20Usd.value = 20000000 := by decide +kernel
  rw [judgedReason, firstFailing_eq_none]
  simp only [hardFilters, List.forall_mem_cons, List.not_mem_nil, false_imp_iff, implies_true, and_true,
    identityClosed_iff, decide_eq_true_eq, Bool.and_eq_true, Option.any_eq_true, atLeast_iff, hprice, hadv,
    Option.isSome_iff_exists]
  constructor
  · rintro ⟨-, hkind, hact, hhalt, hobs, hid, ⟨i, hi, q, hq, hqm⟩, ⟨m, hm⟩, h1, h2, h3, h4, h5, h6⟩
    simp only [hm, Option.some.injEq, exists_eq_left'] at h1 h2 h3 h4 h5 h6
    obtain ⟨⟨⟨⟨q1, q2⟩, q3⟩, q4⟩, q5⟩ := hqm
    exact ⟨hkind, hact, hhalt, hobs, hid, ⟨i, hi, q, hq, q1, q2, q3, q4, q5⟩,
      ⟨m, hm, ⟨h1.1, h1.2, h2, h3, h4, h5, h6⟩⟩⟩
  · rintro ⟨hkind, hact, hhalt, hobs, hid, ⟨i, hi, q, hq, q1, q2, q3, q4, q5⟩, ⟨m, hm, hw⟩⟩
    refine ⟨by rw [hkind]; decide, hkind, hact, hhalt, hobs, hid, ⟨i, hi, q, hq, ⟨⟨⟨⟨q1, q2⟩, q3⟩, q4⟩, q5⟩⟩, ⟨m, hm⟩,
      ⟨m, hm, hw.symbol, hw.noConflict⟩, ⟨m, hm, hw.price⟩, ⟨m, hm, hw.adv⟩, ⟨m, hm, hw.history⟩, ⟨m, hm, hw.fresh⟩,
      ⟨m, hm, hw.spread⟩⟩

/-! ### The filters as they are evaluated -/

theorem staleBefore_ok {knownAt : UtcTimestamp} (h : maxAuthorityStaleness ≤ knownAt.micros) :
    ∃ cutoff, staleBefore knownAt = .ok cutoff ∧ ∀ t, t < cutoff ↔ ¬ Recent knownAt t := by
  have hlt := knownAt.lt
  have hin : 0 ≤ (knownAt.micros : Int) + -(maxAuthorityStaleness : Int) ∧
      (knownAt.micros : Int) + -(maxAuthorityStaleness : Int) < maxMicros := by omega
  refine ⟨⟨((knownAt.micros : Int) + -(maxAuthorityStaleness : Int)).toNat, by omega⟩, ?_, ?_⟩
  · simp only [staleBefore, UtcTimestamp.shift, dif_pos hin]
  · intro t
    rw [UtcTimestamp.lt_iff, Recent]
    show t.micros < ((knownAt.micros : Int) + -(maxAuthorityStaleness : Int)).toNat ↔ _
    omega

theorem quarantineClear_eq {knownAt cutoff : UtcTimestamp} (hcut : ∀ t, t < cutoff ↔ ¬ Recent knownAt t)
    (asset : AssetObservation) (v : Views) :
    quarantineClear D asset cutoff v.identity v.quarantine =
      v.identity.any (fun i => v.quarantine.any (fun q =>
        decide (q.securityId = asset.securityId) && decide (q.decision.symbolAsOf = asset.symbol) &&
          decide (q.decision.masterVersion = masterVersionFor D i.record) && decide (q.decision.outcome = .eligible) &&
          decide (Recent knownAt q.decision.decisionAt))) := by
  cases v.identity with
  | none => rfl
  | some i =>
    cases v.quarantine with
    | none => rfl
    | some q =>
      have hrecent : (!decide (q.decision.decisionAt < cutoff)) = decide (Recent knownAt q.decision.decisionAt) := by
        rw [← decide_not]
        simp only [hcut, not_not]
      simp only [quarantineClear, Option.any_some, hrecent]

/-- The filters on the market view are the last ones. -/
theorem marketReason_eq (asset : AssetObservation) (x : Option MarketView) :
    marketReason asset x = firstFailing
      [(.quoteMissingOrStale, x.isSome),
        (.marketDataConflict, x.any (fun m => decide (m.snapshot.symbol = asset.symbol) &&
          decide (.marketDataConflict ∉ m.snapshot.reasons))),
        (.priceBelowMinimum, x.any (fun m => atLeast minPrice m.snapshot.last)),
        (.advBelowMinimum, x.any (fun m => atLeast minAdv20Usd m.snapshot.adv20Usd)),
        (.insufficientTradingHistory, x.any (fun m => decide (minTradingHistorySessions ≤ m.snapshot.barDates.length))),
        (.quoteMissingOrStale, x.any (fun m => decide (m.snapshot.freshness = .fresh))),
        (.spreadTooWide, x.any (fun m => decide (.spreadTooWide ∉ m.snapshot.reasons)))] := by
  cases x with
  | none => rfl
  | some m =>
    simp only [marketReason, firstFailing_cons, firstFailing_nil, Option.isSome_some, Option.any_some, if_true,
      Bool.and_eq_true, decide_eq_true_eq, MarketView.freshnessOk, MarketView.spreadOk,
      MarketView.tradingHistorySessions, ne_eq, ite_not]
    by_cases h1 : m.snapshot.symbol = asset.symbol
    · by_cases h2 : ClosedReason.marketDataConflict ∈ m.snapshot.reasons
      · simp [h1, h2]
      · by_cases h5 : m.snapshot.barDates.length < minTradingHistorySessions
        · simp [h1, h2, h5, not_le.mpr h5]
        · simp [h1, h2, h5, not_lt.mp h5]
    · simp [h1]

/-- The code ends with the reason of the first filter that fails. -/
theorem evaluateReason_eq {knownAt : UtcTimestamp} (h : maxAuthorityStaleness ≤ knownAt.micros)
    (asset : AssetObservation) (v : Views) :
    evaluateReason D asset v knownAt = .ok (judgedReason D knownAt asset v) := by
  obtain ⟨cutoff, hcutoff, hcut⟩ := staleBefore_ok h
  have hkind : kindReason asset.kind = firstFailing
      [(.otcOrExcludedInstrument, decide (asset.kind ≠ .otc)),
        (.unsupportedAssetClass, decide (asset.kind = .ordinaryCommonStock))] := by
    cases asset.kind <;> rfl
  unfold evaluateReason judgedReason hardFilters
  rw [firstFailing_cons, firstFailing_cons, hkind, firstFailing_cons, firstFailing_cons]
  by_cases hotc : asset.kind = .otc
  · simp [hotc]
  by_cases hord : asset.kind = .ordinaryCommonStock
  swap
  · simp [hotc, hord]
  simp only [hord, ne_eq, reduceCtorEq, not_false_eq_true, decide_true, if_true, firstFailing_nil]
  rw [firstFailing_cons, firstFailing_cons, firstFailing_cons, firstFailing_cons, firstFailing_cons,
    ← quarantineClear_eq hcut, ← marketReason_eq, hcutoff]
  cases asset.active <;> cases asset.tradable <;> try rfl
  by_cases hhalt : asset.halted = some false
  swap
  · simp [hhalt]
  by_cases hobs : Recent knownAt asset.observedAt
  swap
  · simp [hhalt, bind, Except.bind, (hcut _).mpr hobs, hobs, pure, Except.pure]
  have hobs' : ¬ asset.observedAt < cutoff := fun hlt => (hcut _).mp hlt hobs
  cases identityClosed D asset v.identity <;>
    cases hq : quarantineClear D asset cutoff v.identity v.quarantine <;>
    simp [hhalt, hobs, hobs', hq, bind, Except.bind, pure, Except.pure]

/-! ### Entries -/

theorem ascii_of_isHex {c : Char} (h : isHex c = true) : c.val ≤ 127 := by
  simp only [isHex, isDigit, Bool.or_eq_true, Bool.and_eq_true, decide_eq_true_eq] at h
  rcases h with ⟨-, h⟩ | ⟨-, h⟩
  · exact UInt32.le_trans h (by decide)
  · exact UInt32.le_trans h (by decide)

theorem Hash.utf8ByteSize_text (h : Hash) : h.text.utf8ByteSize = 64 := by
  obtain ⟨text, hlen, hall⟩ := h
  rw [Json.utf8ByteSize_of_ascii (fun c hc => ascii_of_isHex (List.all_eq_true.mp hall c hc)), hlen]

/-- The version text of an identity has the form that an entry asks for. -/
theorem isMasterVersion_masterVersionFor (r : SecurityIdentityRecord) : IsMasterVersion (masterVersionFor D r) := by
  have hprefix : "p4b.securities.v1:".utf8ByteSize = 18 := by decide
  have hsize : (masterVersionFor D r).utf8ByteSize = 82 := by
    unfold masterVersionFor
    rw [String.utf8ByteSize_append, Hash.utf8ByteSize_text, hprefix]
  refine ⟨?_, Pattern.fullmatch_lit_between (D.identity r).ok.1 (D.identity r).ok.2⟩
  rw [hsize]
  decide

/-- The views are about the asset. -/
structure Views.About (v : Views) (asset : AssetObservation) : Prop where
  identity : ∀ i ∈ v.identity, i.securityId = asset.securityId
  market : ∀ m ∈ v.market, m.securityId = asset.securityId
  events : ∀ q ∈ v.quarantine, q.decision.eventIds.length ≤ maxEventLineages

theorem boundIdentity_of_matches {asset : AssetObservation} {v : Views} (hv : v.About asset) {i : IdentityView}
    (hi : i ∈ v.identity) (hm : IdentityMatches D asset i) : boundIdentity asset v = some i := by
  rw [boundIdentity, Option.mem_def.mp hi, Option.filter_some, if_pos]
  simp [hv.identity i hi, hm.2.1]

theorem mem_of_boundQuarantine {asset : AssetObservation} {v : Views} {q : QuarantineView}
    (h : boundQuarantine D asset v = some q) : q ∈ v.quarantine := by
  obtain ⟨i, -, hq⟩ := Option.bind_eq_some_iff.mp h
  exact (Option.filter_eq_some_iff.mp hq).1

/-- An eligible security is bound to its identity, its decision and its market snapshot. -/
theorem bound_of_eligible {knownAt : UtcTimestamp} {asset : AssetObservation} {v : Views} (hv : v.About asset)
    (h : Eligible D knownAt asset v) :
    (boundIdentity asset v).isSome ∧ (boundMarket asset v).isSome ∧ (boundQuarantine D asset v).isSome := by
  obtain ⟨i, hi, hid⟩ := h.identity
  obtain ⟨i', hi', q, hq, hsid, hsym, hversion, -, -⟩ := h.quarantine
  obtain rfl : i = i' := Option.some.inj ((Option.mem_def.mp hi).symm.trans hi')
  obtain ⟨m, hm, hwithin⟩ := h.market
  have hbound := boundIdentity_of_matches hv hi hid
  refine ⟨by rw [hbound]; rfl, ?_, ?_⟩
  · rw [boundMarket, Option.mem_def.mp hm, Option.filter_some, if_pos (by simp [hv.market m hm, hwithin.symbol])]
    rfl
  · rw [boundQuarantine, hbound, Option.bind_some, Option.mem_def.mp hq, Option.filter_some,
      if_pos (by simp [hsid, hsym, hversion])]
    rfl

/-- The entry of a security with its reason. -/
def judgedEntry (D : Digests) (knownAt : UtcTimestamp) (asset : AssetObservation) (v : Views) : UniverseEntry :=
  entryFields D asset (judgedReason D knownAt asset v) v

theorem sortOn_dedup_of_pairwise {κ : Type} [LinearOrder κ] {dec : DecidableEq κ} {l : List κ}
    (h : l.Pairwise (· < ·)) : l = (@List.dedup κ dec l).sortOn id := by
  have hn : l.Nodup := h.imp (fun hab => ne_of_lt hab)
  rw [hn.dedup]
  exact (List.sortOn_of_pairwise (h.imp le_of_lt)).symm

/-- The constructor lets the entry of every security through, whatever it is bound to. -/
theorem construct_judgedEntry (knownAt : UtcTimestamp) {asset : AssetObservation} {v : Views} (hv : v.About asset) :
    (judgedEntry D knownAt asset v).construct = .ok (judgedEntry D knownAt asset v) := by
  have heligible : (judgedEntry D knownAt asset v).eligible = true → Eligible D knownAt asset v := by
    intro h
    exact judgedReason_eq_none.mp (Option.isNone_iff_eq_none.mp h)
  have hevents : (judgedEntry D knownAt asset v).quarantineEventIds =
      (boundQuarantine D asset v).elim [] (fun q => q.decision.eventIds) := rfl
  have hpost : (judgedEntry D knownAt asset v).postInit = .ok () := by
    simp only [UniverseEntry.postInit, bind_ok, require_ok, exists_const]
    refine ⟨?_, ?_, ?_, ?_, ?_, ?_, ?_, rfl, ?_⟩
    · exact fun h => Option.isNone_iff_eq_none.mp h
    · intro h hn
      have hn : judgedReason D knownAt asset v = none := hn
      simp [judgedEntry, entryFields, hn] at h
    · intro h
      obtain ⟨hi, hm, -⟩ := bound_of_eligible hv (heligible h)
      obtain ⟨i, hi⟩ := Option.isSome_iff_exists.mp hi
      obtain ⟨m, hm⟩ := Option.isSome_iff_exists.mp hm
      simp [judgedEntry, entryFields, hi, hm]
    · intro version hversion
      obtain ⟨i, -, rfl⟩ := Option.map_eq_some_iff.mp hversion
      exact isMasterVersion_masterVersionFor i.record
    · rw [hevents]
      cases boundQuarantine D asset v with
      | none => rfl
      | some q => exact sortOn_dedup_of_pairwise q.decision.events_ok
    · intro h
      have hnone := Option.map_eq_none_iff.mp h
      simp [judgedEntry, entryFields, hnone]
    · intro h
      obtain ⟨-, -, hq⟩ := bound_of_eligible hv (heligible h)
      obtain ⟨q, hq⟩ := Option.isSome_iff_exists.mp hq
      simp [judgedEntry, entryFields, hq]
    · rw [hevents]
      cases hq : boundQuarantine D asset v with
      | none => simp
      | some q => exact hv.events q (mem_of_boundQuarantine hq)
  simp only [UniverseEntry.construct, hpost, bind, Except.bind, pure, Except.pure]

/-- Where the staleness bound cannot be formed, only the filters before it can end the judgement. -/
theorem judgedReason_of_evaluateReason {knownAt : UtcTimestamp} {asset : AssetObservation} {v : Views}
    {reason : Option ClosedReason} (h : evaluateReason D asset v knownAt = .ok reason) :
    reason = judgedReason D knownAt asset v := by
  by_cases hle : maxAuthorityStaleness ≤ knownAt.micros
  · rw [evaluateReason_eq hle] at h
    exact (Except.ok.inj h).symm
  have hstale : ∃ e, staleBefore knownAt = .error e := by
    have hout : ¬ (0 ≤ (knownAt.micros : Int) + -(maxAuthorityStaleness : Int) ∧
        (knownAt.micros : Int) + -(maxAuthorityStaleness : Int) < maxMicros) := by omega
    simp only [staleBefore, UtcTimestamp.shift, dif_neg hout]
    exact ⟨_, rfl⟩
  obtain ⟨e, hstale⟩ := hstale
  unfold evaluateReason at h
  rw [hstale] at h
  unfold judgedReason hardFilters
  rw [firstFailing_cons, firstFailing_cons, firstFailing_cons, firstFailing_cons]
  by_cases hotc : asset.kind = .otc
  · simpa [hotc, kindReason, eq_comm] using h
  by_cases hord : asset.kind = .ordinaryCommonStock
  swap
  · have hk : kindReason asset.kind = some .unsupportedAssetClass := by
      revert hotc hord
      cases asset.kind <;> simp [kindReason]
    simpa [hk, hotc, hord, eq_comm] using h
  cases hact : asset.active <;> cases htrad : asset.tradable <;> by_cases hhalt : asset.halted = some false <;>
    simp_all [kindReason, bind, Except.bind]

theorem judgedEntry_of_evaluateEntry {knownAt : UtcTimestamp} {asset : AssetObservation} {v : Views}
    {e : UniverseEntry} (h : evaluateEntry D asset v knownAt = .ok e) : e = judgedEntry D knownAt asset v := by
  obtain ⟨reason, hreason, h⟩ := bind_ok.mp h
  obtain ⟨_, -, h⟩ := bind_ok.mp h
  rw [judgedEntry, ← judgedReason_of_evaluateReason hreason]
  exact (Except.ok.inj h).symm

theorem evaluateEntry_eq {knownAt : UtcTimestamp} (h : maxAuthorityStaleness ≤ knownAt.micros)
    {asset : AssetObservation} {v : Views} (hv : v.About asset) :
    evaluateEntry D asset v knownAt = .ok (judgedEntry D knownAt asset v) := by
  simp only [evaluateEntry, evaluateReason_eq h, bind, Except.bind]
  exact construct_judgedEntry knownAt hv

end SevenLens.Universe
