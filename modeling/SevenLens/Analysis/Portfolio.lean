import SevenLens.Analysis.Readers

/-! # Portfolio snapshots and analysis inputs

The contracts that describe a portfolio: positions, open orders, fills, borrow statuses and the
remaining limits, the snapshot that holds them together with its hash, and the frozen input of an
analysis.  Each contract has the checks of its constructor (`postInit`) and the table of its fields
on the wire; the two are written apart in the source, with their own bounds. -/

namespace SevenLens.Analysis

open Securities

/-! ### Kinds -/

inductive AnalysisWindow where
  | primary | secondary | emergency
deriving DecidableEq, Repr

instance : StrEnum AnalysisWindow where
  value
    | .primary => "PRIMARY"
    | .secondary => "SECONDARY"
    | .emergency => "EMERGENCY"
  members := [.primary, .secondary, .emergency]
  mem_members e := by cases e <;> decide
  nodup_values := by decide

inductive PositionSide where
  | long | short | flat
deriving DecidableEq, Repr

instance : StrEnum PositionSide where
  value
    | .long => "LONG"
    | .short => "SHORT"
    | .flat => "FLAT"
  members := [.long, .short, .flat]
  mem_members e := by cases e <;> decide
  nodup_values := by decide

inductive BorrowAvailability where
  | available | unavailable | unknown
deriving DecidableEq, Repr

instance : StrEnum BorrowAvailability where
  value
    | .available => "AVAILABLE"
    | .unavailable => "UNAVAILABLE"
    | .unknown => "UNKNOWN"
  members := [.available, .unavailable, .unknown]
  mem_members e := by cases e <;> decide
  nodup_values := by decide

/-- `_reject_negative_zero` -/
def rejectNegativeZero (field : String) (d : Decimal) : Except Failure Unit :=
  require (¬ NegativeZero d) (field ++ " must not be negative zero")

/-! ### Metadata -/

namespace ContractMeta

structure Args where
  schemaVersion : SchemaVersion
  runId : RunId
  createdAt : UtcTimestamp
  producerVersion : String
deriving DecidableEq

def postInit (R : Rules) (a : Args) : Except Failure Unit := do
  require (a.schemaVersion = schemaVersion) "unsupported analysis schema version"
  R.version "producer_version" a.producerVersion

end ContractMeta

abbrev ContractMeta (R : Rules) : Type := Accepted (ContractMeta.postInit R)

def ContractMeta.wire (R : Rules) : Wire (ContractMeta R) :=
  .contract _
    (.field "schema_version" Args.schemaVersion (Wire.schema R) <|
      .field "run_id" Args.runId (Wire.runId R) <|
      .field "created_at" Args.createdAt (Wire.timestamp R) <|
      .field "producer_version" Args.producerVersion (Wire.version R "producer_version") .nil)
    (fun ⟨schemaVersion, runId, createdAt, producerVersion, _⟩ => ⟨schemaVersion, runId, createdAt, producerVersion⟩)
    (of_decide_eq_true rfl) (fun _ => rfl) (fun _ => rfl)

/-! ### Positions -/

namespace PortfolioPosition

structure Args where
  symbol : String
  side : PositionSide
  quantity : Decimal
  signedWeight : Decimal
  averageEntryPrice : Decimal
  currentPrice : Decimal
  marketValue : Decimal
  unrealizedPnl : Decimal
  realizedPnlToday : Decimal
  openedAt : UtcTimestamp
  sameDay : Bool
deriving DecidableEq

/-- One round of the loop over the decimal fields. -/
def bounded (field : String) (scale : Nat) (low high : ℚ) (d : Decimal) : Except Failure Unit := do
  require (d.exponent = -scale ∧ low ≤ d.value ∧ d.value ≤ high)
    (field ++ " must be an exact bounded Decimal with scale " ++ toString scale)
  rejectNegativeZero field d

def postInit (R : Rules) (a : Args) : Except Failure Unit := do
  R.symbol a.symbol
  bounded "quantity" 6 0.000001 1000000000 a.quantity
  bounded "signed_weight" 6 (-1) 1 a.signedWeight
  bounded "average_entry_price" 2 0.01 10000000 a.averageEntryPrice
  bounded "current_price" 2 0.01 10000000 a.currentPrice
  bounded "market_value" 2 0 1000000000000 a.marketValue
  bounded "unrealized_pnl" 2 (-1000000000000) 1000000000000 a.unrealizedPnl
  bounded "realized_pnl_today" 2 (-1000000000000) 1000000000000 a.realizedPnlToday
  require (a.side = .long → 0 < a.signedWeight.value) "LONG position requires positive signed_weight"
  require (a.side = .short → a.signedWeight.value < 0) "SHORT position requires negative signed_weight"
  require (a.side ≠ .flat) "snapshot positions cannot be FLAT"

end PortfolioPosition

abbrev PortfolioPosition (R : Rules) : Type := Accepted (PortfolioPosition.postInit R)

def PortfolioPosition.wire (R : Rules) : Wire (PortfolioPosition R) :=
  .contract _
    (.field "same_day" Args.sameDay (Wire.exactBool "same_day") <|
      .field "symbol" Args.symbol (Wire.symbol R) <|
      .field "side" Args.side (Wire.exactEnum "side") <|
      .field "quantity" Args.quantity (Wire.decimal "quantity" 6 0 1000000000 (by decide)) <|
      .field "signed_weight" Args.signedWeight (Wire.decimal "signed_weight" 6 (-1) 1 (by decide)) <|
      .field "average_entry_price" Args.averageEntryPrice
        (Wire.decimal "average_entry_price" 2 0.01 10000000 (by decide)) <|
      .field "current_price" Args.currentPrice (Wire.decimal "current_price" 2 0.01 10000000 (by decide)) <|
      .field "market_value" Args.marketValue (Wire.decimal "market_value" 2 0 1000000000000 (by decide)) <|
      .field "unrealized_pnl" Args.unrealizedPnl
        (Wire.decimal "unrealized_pnl" 2 (-1000000000000) 1000000000000 (by decide)) <|
      .field "realized_pnl_today" Args.realizedPnlToday
        (Wire.decimal "realized_pnl_today" 2 (-1000000000000) 1000000000000 (by decide)) <|
      .field "opened_at" Args.openedAt (Wire.timestamp R) .nil)
    (fun ⟨sameDay, symbol, side, quantity, signedWeight, averageEntryPrice, currentPrice, marketValue, unrealizedPnl,
        realizedPnlToday, openedAt, _⟩ =>
      ⟨symbol, side, quantity, signedWeight, averageEntryPrice, currentPrice, marketValue, unrealizedPnl,
        realizedPnlToday, openedAt, sameDay⟩)
    (of_decide_eq_true rfl) (fun _ => rfl) (fun _ => rfl)

/-! ### Open orders, fills and borrow statuses -/

namespace OpenOrderSummary

structure Args where
  referenceId : String
  symbol : String
  side : PositionSide
  remainingQuantity : Decimal
deriving DecidableEq

def postInit (R : Rules) (a : Args) : Except Failure Unit := do
  R.ref "reference_id" a.referenceId
  R.symbol a.symbol
  require (a.side ≠ .flat) "open order side cannot be FLAT"
  require (a.remainingQuantity.exponent = -6 ∧ 0 < a.remainingQuantity.value)
    "remaining_quantity must be a positive scale-6 Decimal"

end OpenOrderSummary

abbrev OpenOrderSummary (R : Rules) : Type := Accepted (OpenOrderSummary.postInit R)

def OpenOrderSummary.wire (R : Rules) : Wire (OpenOrderSummary R) :=
  .contract _
    (.field "reference_id" Args.referenceId (Wire.ref R "reference_id") <|
      .field "symbol" Args.symbol (Wire.symbol R) <|
      .field "side" Args.side (Wire.exactEnum "side") <|
      .field "remaining_quantity" Args.remainingQuantity
        (Wire.decimal "remaining_quantity" 6 0.000001 1000000000 (by decide)) .nil)
    (fun ⟨referenceId, symbol, side, remainingQuantity, _⟩ => ⟨referenceId, symbol, side, remainingQuantity⟩)
    (of_decide_eq_true rfl) (fun _ => rfl) (fun _ => rfl)

namespace SameDayFillSummary

structure Args where
  referenceId : String
  symbol : String
  side : PositionSide
  quantity : Decimal
  price : Decimal
  occurredAt : UtcTimestamp
deriving DecidableEq

def postInit (R : Rules) (a : Args) : Except Failure Unit := do
  R.ref "reference_id" a.referenceId
  R.symbol a.symbol
  require (a.side ≠ .flat) "fill side cannot be FLAT"
  require (a.quantity.exponent = -6 ∧ 0 < a.quantity.value) "quantity must be a positive scale-6 Decimal"
  require (a.price.exponent = -2 ∧ 0 < a.price.value) "price must be a positive scale-2 Decimal"

end SameDayFillSummary

abbrev SameDayFillSummary (R : Rules) : Type := Accepted (SameDayFillSummary.postInit R)

def SameDayFillSummary.wire (R : Rules) : Wire (SameDayFillSummary R) :=
  .contract _
    (.field "reference_id" Args.referenceId (Wire.ref R "reference_id") <|
      .field "symbol" Args.symbol (Wire.symbol R) <|
      .field "side" Args.side (Wire.exactEnum "side") <|
      .field "quantity" Args.quantity (Wire.decimal "quantity" 6 0.000001 1000000000 (by decide)) <|
      .field "price" Args.price (Wire.decimal "price" 2 0.01 10000000 (by decide)) <|
      .field "occurred_at" Args.occurredAt (Wire.timestamp R) .nil)
    (fun ⟨referenceId, symbol, side, quantity, price, occurredAt, _⟩ =>
      ⟨referenceId, symbol, side, quantity, price, occurredAt⟩)
    (of_decide_eq_true rfl) (fun _ => rfl) (fun _ => rfl)

namespace BorrowStatus

structure Args where
  symbol : String
  availability : BorrowAvailability
  locatedQuantity : Decimal
deriving DecidableEq

def postInit (R : Rules) (a : Args) : Except Failure Unit := do
  R.symbol a.symbol
  require (a.locatedQuantity.exponent = -6 ∧ 0 ≤ a.locatedQuantity.value)
    "located_quantity must be a non-negative scale-6 Decimal"
  rejectNegativeZero "located_quantity" a.locatedQuantity
  require (a.availability ≠ .available → a.locatedQuantity.value = 0)
    "unavailable or unknown borrow must have zero located_quantity"

end BorrowStatus

abbrev BorrowStatus (R : Rules) : Type := Accepted (BorrowStatus.postInit R)

def BorrowStatus.wire (R : Rules) : Wire (BorrowStatus R) :=
  .contract _
    (.field "symbol" Args.symbol (Wire.symbol R) <|
      .field "availability" Args.availability (Wire.exactEnum "availability") <|
      .field "located_quantity" Args.locatedQuantity
        (Wire.decimal "located_quantity" 6 0 1000000000 (by decide)) .nil)
    (fun ⟨symbol, availability, locatedQuantity, _⟩ => ⟨symbol, availability, locatedQuantity⟩)
    (of_decide_eq_true rfl) (fun _ => rfl) (fun _ => rfl)

/-! ### Remaining limits -/

namespace RemainingLimits

structure Args where
  remainingSlots : Int
  longGrossRoom : Decimal
  shortGrossRoom : Decimal
  totalGrossRoom : Decimal
  netLowerRoom : Decimal
  netUpperRoom : Decimal
  singleNameRoom : Decimal
  turnoverRoom : Decimal
deriving DecidableEq

/-- One round of the loop over the rooms. -/
def room (field : String) (d : Decimal) : Except Failure Unit :=
  require (d.exponent = -6 ∧ -2 ≤ d.value ∧ d.value ≤ 2 ∧ ¬ NegativeZero d)
    (field ++ " must be a bounded scale-6 Decimal")

/-- The source goes through the rooms in the order of a set, which is not fixed. -/
def postInit (a : Args) : Except Failure Unit := do
  require (0 ≤ a.remainingSlots ∧ a.remainingSlots ≤ 15) "remaining_slots must be an exact bounded integer"
  room "long_gross_room" a.longGrossRoom
  room "short_gross_room" a.shortGrossRoom
  room "total_gross_room" a.totalGrossRoom
  room "net_lower_room" a.netLowerRoom
  room "net_upper_room" a.netUpperRoom
  room "single_name_room" a.singleNameRoom
  room "turnover_room" a.turnoverRoom

end RemainingLimits

abbrev RemainingLimits : Type := Accepted RemainingLimits.postInit

def RemainingLimits.wire : Wire RemainingLimits :=
  let room := fun field => Wire.decimal field 6 (-2) 2 (by decide)
  .contract _
    (.field "remaining_slots" Args.remainingSlots (Wire.integer "remaining_slots" 0 15) <|
      .field "long_gross_room" Args.longGrossRoom (room "long_gross_room") <|
      .field "short_gross_room" Args.shortGrossRoom (room "short_gross_room") <|
      .field "total_gross_room" Args.totalGrossRoom (room "total_gross_room") <|
      .field "net_lower_room" Args.netLowerRoom (room "net_lower_room") <|
      .field "net_upper_room" Args.netUpperRoom (room "net_upper_room") <|
      .field "single_name_room" Args.singleNameRoom (room "single_name_room") <|
      .field "turnover_room" Args.turnoverRoom (room "turnover_room") .nil)
    (fun ⟨remainingSlots, longGrossRoom, shortGrossRoom, totalGrossRoom, netLowerRoom, netUpperRoom, singleNameRoom,
        turnoverRoom, _⟩ =>
      ⟨remainingSlots, longGrossRoom, shortGrossRoom, totalGrossRoom, netLowerRoom, netUpperRoom, singleNameRoom,
        turnoverRoom⟩)
    (of_decide_eq_true rfl) (fun _ => rfl) (fun _ => rfl)

/-! ### Snapshots -/

namespace PortfolioSnapshot

structure Args (R : Rules) where
  asOf : UtcTimestamp
  nav : Decimal
  cash : Decimal
  buyingPower : Decimal
  positions : List (PortfolioPosition R)
  openOrders : List (OpenOrderSummary R)
  sameDayFills : List (SameDayFillSummary R)
  borrowStatuses : List (BorrowStatus R)
  remainingLimits : RemainingLimits
  contentHash : Hash
deriving DecidableEq

variable {R : Rules}

/-- The fields that the hash covers, before further ones. -/
def contentFields {τ : Type} (rest : Json.Fields mapping (Args R) τ) :=
  Json.Fields.field "as_of" Args.asOf (Wire.timestamp R) <|
    .field "nav" Args.nav (Wire.decimal "nav" 2 0.01 1000000000000 (by decide)) <|
    .field "cash" Args.cash (Wire.decimal "cash" 2 0 1000000000000 (by decide)) <|
    .field "buying_power" Args.buyingPower (Wire.decimal "buying_power" 2 0 1000000000000 (by decide)) <|
    .field "positions" Args.positions (Wire.sequence "positions" (PortfolioPosition.wire R) 15 false false) <|
    .field "open_orders" Args.openOrders (Wire.sequence "open_orders" (OpenOrderSummary.wire R) 64 false false) <|
    .field "same_day_fills" Args.sameDayFills
      (Wire.sequence "same_day_fills" (SameDayFillSummary.wire R) 128 false false) <|
    .field "borrow_statuses" Args.borrowStatuses
      (Wire.sequence "borrow_statuses" (BorrowStatus.wire R) 64 false false) <|
    .field "remaining_limits" Args.remainingLimits RemainingLimits.wire rest

/-- `_content_wire` -/
def contentWire (a : Args R) : Json := Json.dict ((contentFields .nil).write a)

/-- `compute_content_hash` -/
def computeContentHash (a : Args R) : Except Failure Hash := do
  let text ← toJson (contentWire a)
  return R.sha256 text

/-- One round of the loop over the sums of money. -/
def money (field : String) (d : Decimal) : Except Failure Unit :=
  require (d.exponent = -2 ∧ 0 ≤ d.value) (field ++ " must be a non-negative scale-2 Decimal")

/-- One round of the loop over the lists. -/
def boundedItems {α : Type} (field : String) (maximum : Nat) (l : List α) : Except Failure Unit :=
  require (l.length ≤ maximum) (field ++ " must contain only bounded exact contract values")

/-- One round of the loop over the keys. -/
def uniqueItems (field key : String) (identifiers : List String) : Except Failure Unit :=
  require identifiers.Nodup (field ++ " must have unique " ++ key ++ " values")

def postInit (a : Args R) : Except Failure Unit := do
  money "nav" a.nav
  money "cash" a.cash
  money "buying_power" a.buyingPower
  rejectNegativeZero "cash" a.cash
  rejectNegativeZero "buying_power" a.buyingPower
  require (0 < a.nav.value) "nav must be positive"
  boundedItems "positions" 15 a.positions
  boundedItems "open_orders" 64 a.openOrders
  boundedItems "same_day_fills" 128 a.sameDayFills
  boundedItems "borrow_statuses" 64 a.borrowStatuses
  uniqueItems "positions" "symbol" (a.positions.map (·.val.symbol))
  uniqueItems "open_orders" "reference_id" (a.openOrders.map (·.val.referenceId))
  uniqueItems "same_day_fills" "reference_id" (a.sameDayFills.map (·.val.referenceId))
  uniqueItems "borrow_statuses" "symbol" (a.borrowStatuses.map (·.val.symbol))
  let hash ← computeContentHash a
  require (a.contentHash = hash) "portfolio snapshot content_hash does not match sanitized content"

end PortfolioSnapshot

abbrev PortfolioSnapshot (R : Rules) : Type := Accepted (PortfolioSnapshot.postInit (R := R))

def PortfolioSnapshot.wire (R : Rules) : Wire (PortfolioSnapshot R) :=
  .contract _ (contentFields (.field "content_hash" Args.contentHash (Wire.hash "content_hash") .nil))
    (fun ⟨asOf, nav, cash, buyingPower, positions, openOrders, sameDayFills, borrowStatuses, remainingLimits,
        contentHash, _⟩ =>
      ⟨asOf, nav, cash, buyingPower, positions, openOrders, sameDayFills, borrowStatuses, remainingLimits,
        contentHash⟩)
    (of_decide_eq_true rfl) (fun _ => rfl) (fun _ => rfl)

/-! ### Analysis inputs -/

/-- The hash of the symbols of an input: holdings and candidates. -/
def universeHash (R : Rules) (holdings candidates : List String) : Except Failure Hash := do
  let text ← toJson (.dict [("holdings", .arr (holdings.map .str)), ("candidates", .arr (candidates.map .str))])
  return R.sha256 text

namespace AnalysisInput

structure Args (R : Rules) where
  contractMeta : ContractMeta R
  inputId : RunId
  asOf : UtcTimestamp
  window : AnalysisWindow
  deadline : UtcTimestamp
  portfolioSnapshot : PortfolioSnapshot R
  holdingSymbols : List String
  candidateSymbols : List String
  focusSymbols : List String
  evidenceRefs : List String
  dataSnapshotRefs : List String
  universeHash : Hash
deriving DecidableEq

variable {R : Rules}

/-- The symbols of the positions of the snapshot. -/
def holdings (a : Args R) : List String := a.portfolioSnapshot.val.positions.map (·.val.symbol)

/-- The time between the two instants of the input, in microseconds. -/
def elapsed (a : Args R) : Int := (a.deadline.micros : Int) - a.asOf.micros

/-- The checks that depend on the window. -/
def windowChecks (a : Args R) : Except Failure Unit := do
  if a.window = .emergency then
    require (a.candidateSymbols = []) "emergency input must have zero candidates"
    require (a.focusSymbols ≠ [] ∧ a.focusSymbols ⊆ holdings a) "emergency focus must be non-empty existing holdings"
    require (elapsed a ≤ 180 * 1000000) "emergency deadline must be at most three minutes"
  else
    require (a.candidateSymbols.length ≤ if a.window = .primary then 12 else 5)
      "candidate count exceeds the analysis window bound"
    require (elapsed a ≤ 900 * 1000000) "normal deadline must be at most fifteen minutes"

def postInit (a : Args R) : Except Failure Unit := do
  require (a.asOf = a.portfolioSnapshot.val.asOf) "analysis input and portfolio snapshot must have the same as_of"
  R.symbols "holding_symbols" 15 a.holdingSymbols
  R.symbols "candidate_symbols" 12 a.candidateSymbols
  R.symbols "focus_symbols" 27 a.focusSymbols
  R.refs "evidence_refs" maxSequenceItems false a.evidenceRefs
  R.refs "data_snapshot_refs" maxSequenceItems false a.dataSnapshotRefs
  require (a.holdingSymbols ⊆ holdings a ∧ holdings a ⊆ a.holdingSymbols)
    "holding_symbols must exactly equal portfolio snapshot position symbols"
  require (∀ s ∈ holdings a, s ∉ a.candidateSymbols) "candidate symbols must not overlap holdings"
  require (a.focusSymbols ⊆ holdings a ++ a.candidateSymbols) "focus symbols must belong to holdings or candidates"
  require (0 < elapsed a) "deadline must be after as_of"
  windowChecks a
  let hash ← Analysis.universeHash R a.holdingSymbols a.candidateSymbols
  require (a.universeHash = hash) "universe_hash does not match the exact input universe"

end AnalysisInput

abbrev AnalysisInput (R : Rules) : Type := Accepted (AnalysisInput.postInit (R := R))

def AnalysisInput.wire (R : Rules) : Wire (AnalysisInput R) :=
  .contract _
    (.field "meta" Args.contractMeta (ContractMeta.wire R) <|
      .field "input_id" Args.inputId (Wire.runId R) <|
      .field "as_of" Args.asOf (Wire.timestamp R) <|
      .field "window" Args.window (Wire.exactEnum "window") <|
      .field "deadline" Args.deadline (Wire.timestamp R) <|
      .field "portfolio_snapshot" Args.portfolioSnapshot (PortfolioSnapshot.wire R) <|
      .field "holding_symbols" Args.holdingSymbols (Wire.symbols R "holding_symbols" 15) <|
      .field "candidate_symbols" Args.candidateSymbols (Wire.symbols R "candidate_symbols" 12) <|
      .field "focus_symbols" Args.focusSymbols (Wire.symbols R "focus_symbols" 27) <|
      .field "evidence_refs" Args.evidenceRefs (Wire.refs R "evidence_refs" maxSequenceItems false) <|
      .field "data_snapshot_refs" Args.dataSnapshotRefs (Wire.refs R "data_snapshot_refs" maxSequenceItems false) <|
      .field "universe_hash" Args.universeHash (Wire.hash "universe_hash") .nil)
    (fun ⟨contractMeta, inputId, asOf, window, deadline, portfolioSnapshot, holdingSymbols, candidateSymbols, focusSymbols,
        evidenceRefs, dataSnapshotRefs, universeHash, _⟩ =>
      ⟨contractMeta, inputId, asOf, window, deadline, portfolioSnapshot, holdingSymbols, candidateSymbols, focusSymbols,
        evidenceRefs, dataSnapshotRefs, universeHash⟩)
    (of_decide_eq_true rfl) (fun _ => rfl) (fun _ => rfl)

end SevenLens.Analysis
