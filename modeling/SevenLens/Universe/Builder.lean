import SevenLens.Universe.Contracts

/-! # The universe builder

`buildUniverse` checks a monthly input as a whole, judges every asset observation by the hard
filters in a fixed order, and publishes the entries sorted by security.  The checks make up
`checkInput`; a failed one refuses the whole input, while a failed filter only gives one
entry its reason.

The records of a security are looked up by its id (`UniverseInput.views`); an entry is made
from the asset and these views alone. -/

namespace SevenLens.Universe

open Securities Screening MarketData

/-! ### Observations and views -/

inductive AssetKind where
  | ordinaryCommonStock | etf | preferred | warrant | unit | closedEndFund | etn | leveragedInverseEtf | otc | other
deriving DecidableEq, Repr

/-- One asset observation, with the identity that its source records were bound to. -/
structure AssetObservation where
  securityId : SecurityId
  symbol : SecuritySymbol
  kind : AssetKind
  active : Bool
  tradable : Bool
  exchange : ListingExchange
  observedAt : UtcTimestamp
  halted : Option Bool
  identityHash : Hash
deriving DecidableEq

/-- A resolved identity, with the query it was resolved for. -/
structure IdentityView where
  record : SecurityIdentityRecord
  asOf : UtcTimestamp
  knownAt : UtcTimestamp
deriving DecidableEq

namespace IdentityView

def securityId (i : IdentityView) : SecurityId := i.record.securityId

def resolved (i : IdentityView) : Bool := i.record.status = .active

end IdentityView

structure QuarantineView where
  decision : QuarantineDecision
deriving DecidableEq

def QuarantineView.securityId (q : QuarantineView) : SecurityId := q.decision.securityId

structure MarketView where
  snapshot : MarketSnapshot
deriving DecidableEq

namespace MarketView

def securityId (m : MarketView) : SecurityId := m.snapshot.securityId

def tradingHistorySessions (m : MarketView) : Nat := m.snapshot.barDates.length

def freshnessOk (m : MarketView) : Bool := m.snapshot.freshness = .fresh

def spreadOk (m : MarketView) : Bool := .spreadTooWide ∉ m.snapshot.reasons

end MarketView

/-- What there is about one security besides its asset observation. -/
structure Views where
  identity : Option IdentityView
  quarantine : Option QuarantineView
  market : Option MarketView
deriving DecidableEq

/-! ### The filters -/

section

variable (D : Digests)

/-- `_kind_reason` -/
def kindReason : AssetKind → Option ClosedReason
  | .ordinaryCommonStock => none
  | .otc => some .otcOrExcludedInstrument
  | _ => some .unsupportedAssetClass

/-- `_MAX_AUTHORITY_STALENESS` -/
def maxAuthorityStaleness : Nat := 7 * dayMicros

/-- `known_at.value - _MAX_AUTHORITY_STALENESS` -/
def staleBefore (knownAt : UtcTimestamp) : Except Failure UtcTimestamp :=
  match knownAt.shift (-maxAuthorityStaleness) with
  | .ok t => .ok t
  | .error e => .error (.raised e)

/-- The identity is resolved for the asset as it was observed. -/
def identityClosed (asset : AssetObservation) : Option IdentityView → Bool
  | none => false
  | some i => i.resolved && decide (i.record.symbol = asset.symbol) && decide (i.record.exchange = asset.exchange) &&
      decide (asset.identityHash = D.identity i.record)

/-- The decision is about the asset and the identity, lets it enter, and is not stale. -/
def quarantineClear (asset : AssetObservation) (cutoff : UtcTimestamp) :
    Option IdentityView → Option QuarantineView → Bool
  | some i, some q => decide (q.securityId = asset.securityId) && decide (q.decision.symbolAsOf = asset.symbol) &&
      decide (q.decision.masterVersion = masterVersionFor D i.record) && decide (q.decision.outcome = .eligible) &&
      !decide (q.decision.decisionAt < cutoff)
  | _, _ => false

/-- The amount is there and not below the minimum. -/
def atLeast (minimum : Decimal) : Option Decimal → Bool
  | none => false
  | some x => !decide (x.value < minimum.value)

/-- The filters on the market view. -/
def marketReason (asset : AssetObservation) : Option MarketView → Option ClosedReason
  | none => some .quoteMissingOrStale
  | some m =>
    if m.snapshot.symbol ≠ asset.symbol then some .marketDataConflict
    else if .marketDataConflict ∈ m.snapshot.reasons then some .marketDataConflict
    else if ¬ atLeast minPrice m.snapshot.last then some .priceBelowMinimum
    else if ¬ atLeast minAdv20Usd m.snapshot.adv20Usd then some .advBelowMinimum
    else if m.tradingHistorySessions < minTradingHistorySessions then some .insufficientTradingHistory
    else if ¬ m.freshnessOk then some .quoteMissingOrStale
    else if ¬ m.spreadOk then some .spreadTooWide
    else none

/-- `_evaluate_entry`: the reason it ends with. -/
def evaluateReason (asset : AssetObservation) (v : Views) (knownAt : UtcTimestamp) :
    Except Failure (Option ClosedReason) :=
  match kindReason asset.kind with
  | some reason => .ok (some reason)
  | none =>
    if asset.active = false ∨ asset.tradable = false then .ok (some .notActiveOrTradable)
    else if asset.halted ≠ some false then .ok (some .notActiveOrTradable)
    else do
      let cutoff ← staleBefore knownAt
      if asset.observedAt < cutoff then return some .notActiveOrTradable
      else if ¬ identityClosed D asset v.identity then return some .identityNotClosed
      else if ¬ quarantineClear D asset cutoff v.identity v.quarantine then return some .corporateActionQuarantine
      else return marketReason asset v.market

/-- The identity, if it is one of the asset. -/
def boundIdentity (asset : AssetObservation) (v : Views) : Option IdentityView :=
  v.identity.filter (fun i => decide (i.securityId = asset.securityId) && decide (i.record.symbol = asset.symbol))

/-- The market view, if it is one of the asset. -/
def boundMarket (asset : AssetObservation) (v : Views) : Option MarketView :=
  v.market.filter (fun m => decide (m.securityId = asset.securityId) && decide (m.snapshot.symbol = asset.symbol))

/-- The decision, if it is one of the asset and of its bound identity. -/
def boundQuarantine (asset : AssetObservation) (v : Views) : Option QuarantineView :=
  (boundIdentity asset v).bind (fun i => v.quarantine.filter (fun q =>
    decide (q.securityId = asset.securityId) && decide (q.decision.symbolAsOf = asset.symbol) &&
      decide (q.decision.masterVersion = masterVersionFor D i.record)))

/-- The fields that `_entry` passes to the constructor. -/
def entryFields (asset : AssetObservation) (reason : Option ClosedReason) (v : Views) : UniverseEntry where
  securityId := asset.securityId
  symbol := asset.symbol
  eligible := reason.isNone
  reason := reason
  identityHash := (boundIdentity asset v).map (fun i => D.identity i.record)
  masterVersion := (boundIdentity asset v).map (fun i => masterVersionFor D i.record)
  marketSnapshotHash := (boundMarket asset v).map (fun m => m.snapshot.snapshotHash)
  wholeShareFeasibility := .notEvaluated
  quarantineDecisionHash := (boundQuarantine D asset v).map (fun q => D.decision q.decision)
  quarantineEventIds := (boundQuarantine D asset v).elim [] (fun q => q.decision.eventIds)

/-- `_evaluate_entry` -/
def evaluateEntry (asset : AssetObservation) (v : Views) (knownAt : UtcTimestamp) : Except Failure UniverseEntry := do
  let reason ← evaluateReason D asset v knownAt
  (entryFields D asset reason v).construct

/-! ### The input -/

structure UniverseInput where
  asOf : TradingDate
  knownAt : UtcTimestamp
  securityMasterVersion : String
  assets : List AssetObservation
  identities : List IdentityView
  quarantines : List QuarantineView
  markets : List MarketView
  sessions : List MarketSession
  policyHash : Hash
  schemaVersion : SchemaVersion

namespace UniverseInput

variable (input : UniverseInput)

def identityOf (sid : SecurityId) : Option IdentityView := input.identities.find? (fun i => decide (i.securityId = sid))

def quarantineOf (sid : SecurityId) : Option QuarantineView :=
  input.quarantines.find? (fun q => decide (q.securityId = sid))

def marketOf (sid : SecurityId) : Option MarketView := input.markets.find? (fun m => decide (m.securityId = sid))

/-- What there is about a security. -/
def views (sid : SecurityId) : Views := ⟨input.identityOf sid, input.quarantineOf sid, input.marketOf sid⟩

/-- The session on a day of the month of the input's date. -/
def sessionOn (day : Nat) : Option MarketSession :=
  input.sessions.find? (fun s => decide (s.tradingDate.year = input.asOf.year ∧
    s.tradingDate.month = input.asOf.month ∧ s.tradingDate.day = day))

/-- One day of the calendar: every day before the date has to be closed. -/
def checkDay (day : Nat) : Except Failure Unit :=
  match input.sessionOn day with
  | none => refuse "NYSE calendar cannot prove the first open session"
  | some session =>
    require (day < input.asOf.day → session.dayKind = .closed) "universe as_of is not the first open NYSE session"

/-- The calendar shows that the date is the first open session of its month. -/
def checkCalendar : Except Failure Unit := do
  require (input.sessions.map MarketSession.tradingDate).Nodup "sessions must not repeat a trading date"
  (List.range input.asOf.day).forM (fun k => input.checkDay (k + 1))
  -- the loop variable goes one day beyond the date
  requireOr .overflowError (¬ (input.asOf.year = 9999 ∧ input.asOf.month = 12 ∧ input.asOf.day = 31))
    "date value out of range"
  require (∀ session ∈ input.sessionOn input.asOf.day, session.isOpen = true)
    "universe as_of must be an open NYSE session"

/-- `_assert_unique` -/
def assertUnique (label : String) (ids : List SecurityId) : Except Failure Unit :=
  require ids.Nodup (label ++ " must not repeat a security")

/-- The records are about candidates. -/
def assertCandidates (label : String) (ids : List SecurityId) : Except Failure Unit :=
  require (∀ sid ∈ ids, sid ∈ input.assets.map AssetObservation.securityId)
    (label ++ " contains a security outside the asset candidate set")

def checkIdentity (i : IdentityView) : Except Failure Unit := do
  require (i.asOf = input.asOf.start ∧ i.knownAt = input.knownAt)
    "identity view does not match the universe point-in-time query"
  require (i.record.status = .active → i.record.answersAsOf input.asOf.start input.knownAt = true)
    "active identity is not point-in-time visible"

def checkQuarantine (q : QuarantineView) : Except Failure Unit := do
  require (q.decision.decisionAt ≤ input.knownAt) "quarantine decisions after known_at are not admissible"
  require (∀ i ∈ input.identityOf q.securityId, q.decision.masterVersion = masterVersionFor D i.record)
    "quarantine decision master version does not match the identity"

def checkMarket (m : MarketView) : Except Failure Unit := do
  require (m.snapshot.asOf.day = input.asOf.days) "market snapshots must match the universe first open session"
  require (m.snapshot.knownAt ≤ input.knownAt) "market snapshots after known_at are not admissible"

/-- The checks before a security is judged. -/
def check : Except Failure Unit := do
  input.checkCalendar
  require (OnOrAfter input.asOf input.knownAt) "universe known_at must be on or after the first open session"
  require (input.securityMasterVersion ≠ "") "security_master_version requires non-empty text"
  require (∀ asset ∈ input.assets, asset.observedAt ≤ input.knownAt)
    "asset observations after known_at are not admissible"
  assertUnique "assets" (input.assets.map AssetObservation.securityId)
  assertUnique "identities" (input.identities.map IdentityView.securityId)
  assertUnique "quarantines" (input.quarantines.map QuarantineView.securityId)
  assertUnique "markets" (input.markets.map MarketView.securityId)
  input.assertCandidates "identities" (input.identities.map IdentityView.securityId)
  input.assertCandidates "quarantines" (input.quarantines.map QuarantineView.securityId)
  input.assertCandidates "markets" (input.markets.map MarketView.securityId)
  input.identities.forM input.checkIdentity
  input.quarantines.forM (input.checkQuarantine D)
  input.markets.forM input.checkMarket

/-- The content of the snapshot with these entries. -/
def body (entries : List UniverseEntry) : UniverseBody where
  asOf := input.asOf
  knownAt := input.knownAt
  securityMasterVersion := input.securityMasterVersion
  marketSnapshotRefs := (input.markets.map (fun m => m.snapshot.snapshotHash)).dedup.sortOn id
  entries := entries.sortOn UniverseEntry.securityId
  policyHash := input.policyHash
  schemaVersion := input.schemaVersion

end UniverseInput

/-- `build_universe` -/
def buildUniverse (sha256 : String → Hash) (input : UniverseInput) : Except Failure (UniverseSnapshot sha256) := do
  input.check D
  let entries ← input.assets.mapM (fun asset => evaluateEntry D asset (input.views asset.securityId) input.knownAt)
  buildUniverseSnapshot sha256 (input.body entries)

end

end SevenLens.Universe
