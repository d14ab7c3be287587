import SevenLens.Ledger
import SevenLens.Ports

/-! # Reconciliation

`Reconciler` compares the broker's account, order, fill and position views with the local
tables and records the result; it never repairs.  `collect` builds the result out of passes
over the local mirrors, the broker's open and recently closed orders, the positions and the
account.  `reconcile` (the source's `run`) records the result, turns a transport failure or an
inconsistent ledger into a mismatch of its own, and pauses entries on any mismatch.

A mismatch is built where it is found, so a detail that its constructor refuses raises there. -/

namespace SevenLens

open Calls

/-- Expected account identity and tolerances. -/
structure AccountReconciliationPolicy where
  expectedAccountId : String
  cashToleranceCents : Nat
  navToleranceCents : Nat
  account_ok : IsBoundedText 100 expectedAccountId

/-- What a reconciler is built with. -/
structure ReconcilerConfig where
  accountPolicy : Option AccountReconciliationPolicy
  /-- A price provider is given. -/
  priceProvider : Bool
  /-- The unit of work has an `account_baselines` repository. -/
  accountBaselines : Bool

/-- Membership in `_TERMINAL_INTENT_STATUSES`. -/
def OrderStatus.isTerminal : OrderStatus → Bool
  | filled | canceled | expired | rejected => true
  | _ => false

/-- What a pass has found so far. -/
structure Findings where
  mismatches : List ReconciliationMismatch
  checkedOrders : Nat
  checkedFills : Nat

namespace Findings

def empty : Findings := ⟨[], 0, 0⟩

def countOrder (f : Findings) : Findings := { f with checkedOrders := f.checkedOrders + 1 }

def countFill (f : Findings) : Findings := { f with checkedFills := f.checkedFills + 1 }

/-- Append one mismatch. -/
def report (f : Findings) (kind : MismatchKind) (detail : String) : Proc Findings :=
  Prog.ofExcept ((ReconciliationMismatch.create kind detail).map
    (fun m => { f with mismatches := f.mismatches ++ [m] }))

/-- Append one mismatch when the condition holds. -/
def reportIf (f : Findings) (c : Prop) [Decidable c] (kind : MismatchKind) (detail : String) :
    Proc Findings :=
  if c then f.report kind detail else pure f

end Findings

open Findings

/-! ### The order passes -/

/-- Report every intent in one unresolved status. -/
def checkUnresolved (f : Findings) (status : OrderStatus) : Proc Findings := do
  (← listByStatus status).foldlM
    (fun f intent => f.report .intentStatusMismatch intent.clientOrderId.value) f

/-- Report the broker's fills that are not recorded. -/
def checkBrokerFills (localFills brokerFills : List Fill) (f : Findings) : Proc Findings :=
  brokerFills.foldlM (fun f fill =>
    f.countFill.reportIf (fill.executionId ∉ localFills.map Fill.executionId)
      .missingLocalFill fill.executionId) f

/-- The broker order contradicts the parameters of the intent. -/
def parametersDiffer (order : BrokerOrder) (intent : OrderIntent) : Bool :=
  order.symbol != intent.symbol || order.side != intent.side || order.quantity != intent.quantity ||
    order.limitPrice != intent.limitPrice

/-- Compare one mirror that is not terminal with the broker's order. -/
def checkOpenMirror (f : Findings) (mirror : BrokerOrder) : Proc Findings := do
  let f := f.countOrder
  match ← getOrder mirror.clientOrderId with
  | none => f.report .missingBrokerOrder mirror.brokerOrderId
  | some order =>
      let intent ← getIntent mirror.clientOrderId
      let f ← f.reportIf (intent.any (parametersDiffer order)) .parameterMismatch mirror.brokerOrderId
      let f ← f.reportIf (intent.any (fun i => i.status.isTerminal && order.isOpen))
        .intentStatusMismatch mirror.brokerOrderId
      let f ← f.reportIf (order.status ≠ mirror.status) .statusMismatch mirror.brokerOrderId
      let localFills ← listFills mirror.brokerOrderId
      let brokerFills ← listBrokerFills mirror.brokerOrderId
      checkBrokerFills localFills brokerFills f

/-- Report a terminal mirror that the broker still holds open. -/
def checkClosedMirror (checked : List String) (f : Findings) (mirror : BrokerOrder) : Proc Findings := do
  if mirror.brokerOrderId ∈ checked then pure f
  else
    match ← getOrder mirror.clientOrderId with
    | none => pure f
    | some order =>
        if order.isOpen then f.countOrder.report .statusMismatch mirror.brokerOrderId else pure f

/-- Check one order of the broker's open list and remember it. -/
def checkOpenOrder (known : List ClientOrderId) (acc : Findings × List BrokerOrder) (order : BrokerOrder) :
    Proc (Findings × List BrokerOrder) := do
  let f ← acc.1.countOrder.reportIf (order.clientOrderId ∉ known) .unknownBrokerOrder order.brokerOrderId
  pure (f, order :: acc.2)

/-- The passes over unresolved intents, local mirrors and the broker's open orders, with the
orders the broker has reported. -/
def orderPasses (f : Findings) : Proc (Findings × List BrokerOrder) := do
  let f ← checkUnresolved f .reviewRequired
  let f ← checkUnresolved f .unknown
  let localMirrors ← listOpenBrokerOrders
  let f ← localMirrors.foldlM checkOpenMirror f
  let all ← listAllBrokerOrders
  let f ← all.foldlM (checkClosedMirror (localMirrors.map BrokerOrder.brokerOrderId)) f
  let known ← listAllBrokerOrders
  let opened ← listOpenOrders
  opened.foldlM (checkOpenOrder (known.map BrokerOrder.clientOrderId)) (f, [])

/-! ### The closed history -/

/-- The earliest update this run re-examines: one day before the latest recorded run, or
before the trading date when there is none. -/
def historyHorizon (tradingDate : TradingDate) (latest : Option ReconciliationResult) :
    Except PyError UtcTimestamp :=
  match latest with
  | some run => run.observedAt.shift (-dayMicros)
  | none =>
      let start := (tradingDate.startMicros : Int) - dayMicros
      if h : 0 ≤ start ∧ start < maxMicros then .ok ⟨start.toNat, by omega⟩
      else .error ⟨.overflowError, "date value out of range"⟩

/-- An order already reported makes this entry of the history redundant. -/
def isRedundant (reported : List BrokerOrder) (order : BrokerOrder) : Bool :=
  (reported.find? (fun o => o.brokerOrderId = order.brokerOrderId)).any (fun o =>
    decide (order.updatedAt < o.updatedAt) || (order.updatedAt == o.updatedAt && order.status == o.status))

/-- Check one entry of the closed history. -/
def checkHistory (acc : Findings × List BrokerOrder) (order : BrokerOrder) :
    Proc (Findings × List BrokerOrder) := do
  if isRedundant acc.2 order then pure acc
  else if order.isOpen then pure acc
  else
    let reported := order :: acc.2
    let f := acc.1.countOrder
    match ← getBrokerOrder order.clientOrderId with
    | none =>
        let f ← f.report .unknownBrokerOrder order.brokerOrderId
        pure (f, reported)
    | some mirror =>
        let f ← f.reportIf (order.status ≠ mirror.status) .statusMismatch mirror.brokerOrderId
        let localFills ← listFills mirror.brokerOrderId
        let brokerFills ← listBrokerFills order.brokerOrderId
        let f ← checkBrokerFills localFills brokerFills f
        pure (f, reported)

def historyPass (tradingDate : TradingDate) (acc : Findings × List BrokerOrder) : Proc Findings := do
  let latest ← latestRun
  let horizon ← Prog.ofExcept (historyHorizon tradingDate latest)
  let recent ← listRecentOrders horizon
  let acc ← recent.foldlM checkHistory acc
  pure acc.1

/-! ### Positions -/

/-- The broker's quantity of a symbol; a later entry of its list replaces an earlier one. -/
def brokerQuantity (positions : List PaperPosition) (s : Symbol) : Option Nat :=
  (positions.reverse.find? (fun p => p.symbol = s)).map PaperPosition.quantity

/-- The symbols either side knows, in order. -/
def positionSymbols (projected : List (Symbol × Nat)) (positions : List PaperPosition) : List Symbol :=
  (projected.map Prod.fst ++ positions.map PaperPosition.symbol).dedup.insertionSort
    (fun s t => s.value ≤ t.value)

def checkPosition (projected : List (Symbol × Nat)) (positions : List PaperPosition) (f : Findings)
    (s : Symbol) : Proc Findings :=
  if (quantityOf projected s).isSome ≠ (brokerQuantity positions s).isSome then
    f.report .positionSymbolMismatch s.value
  else f.reportIf (quantityOf projected s ≠ brokerQuantity positions s) .positionQuantityMismatch s.value

/-- Replay the ledger and compare the positions. -/
def positionPass (f : Findings) : Proc (Findings × LedgerProjection) := do
  let fills ← listAllFills
  let mirrors ← listAllBrokerOrders
  let projection ← Prog.ofExcept (projectLedger fills (byBrokerOrderId mirrors))
  let positions ← listPositions
  let f ← (positionSymbols projection.positions positions).foldlM
    (checkPosition projection.positions positions) f
  pure (f, projection)

/-! ### The account -/

/-- The fills behind the cutoff of the baseline, or from its effective time on. -/
def isPostBaseline (baseline : AccountBaseline) (fill : Fill) : Bool :=
  match baseline.cutoffOccurredAt, baseline.cutoffExecutionId with
  | some t, some e => decide (t < fill.occurredAt) || (fill.occurredAt == t && decide (e < fill.executionId))
  | some t, none => decide (t < fill.occurredAt)
  | none, _ => decide (baseline.effectiveAt ≤ fill.occurredAt)

/-- Debit a buy and credit a sell. -/
def addCashDelta (orders : String → Option BrokerOrder) (cash : Int) (fill : Fill) : Except PyError Int :=
  match orders fill.brokerOrderId with
  | none => .error ⟨.ledgerInvariant, "fill references an unknown broker order"⟩
  | some order =>
      let amount : Int := fill.quantity.value * fill.price.cents
      let cash := if order.side = .buy then cash - amount else cash + amount
      if maxAbsCents < cash.natAbs then
        .error ⟨.ledgerInvariant, "projected cash delta exceeds the allowed range"⟩
      else .ok cash

/-- `f"expected {expected} got {actual}"`. -/
def expectedGot (expected : Int) (actual : Nat) : String :=
  "expected " ++ toString expected ++ " got " ++ toString actual

/-- Mark every projected symbol. -/
def markPrices (positions : List (Symbol × Nat)) : Proc (List (Symbol × Price)) :=
  positions.foldlM (fun prices p => do return prices ++ [(p.1, ← currentPrice p.1)]) []

def priceOf (prices : List (Symbol × Price)) (s : Symbol) : Option Price :=
  (prices.find? (fun p => p.1 = s)).map Prod.snd

/-- The broker's equity is off by more than the tolerance. -/
def checkNav (policy : AccountReconciliationPolicy) (account : PaperAccount) (nav : Int) (f : Findings) :
    Proc Findings :=
  f.reportIf (policy.navToleranceCents < ((account.equity.cents : Int) - nav).natAbs)
    .navMismatch (expectedGot nav account.equity.cents)

/-- The detail for a mark price that is not available. -/
def unavailableDetail (message : String) : String :=
  if isBlank message then "mark price unavailable" else slice 200 message

/-- Compare the net account value; a missing mark price is a mismatch. -/
def navPass (cfg : ReconcilerConfig) (policy : AccountReconciliationPolicy) (account : PaperAccount)
    (projection : LedgerProjection) (expectedCash : Int) (f : Findings) : Proc Findings :=
  Prog.tryCatch
    (do
      if cfg.priceProvider = false then
        if projection.positions ≠ [] then
          f.report .accountReconciliationUnavailable "missing mark price provider"
        else checkNav policy account expectedCash f
      else
        let prices ← markPrices projection.positions
        let nav ← Prog.ofExcept
          (accountEquityFromCashAndPositions expectedCash projection.lots (priceOf prices))
        checkNav policy account nav f)
    (fun e =>
      if e.kind = .markPriceUnavailable then
        f.report .accountReconciliationUnavailable (unavailableDetail e.message)
      else Prog.raise e)

/-- Compare cash and net account value with the opening baseline. -/
def baselinePass (cfg : ReconcilerConfig) (policy : AccountReconciliationPolicy) (account : PaperAccount)
    (projection : LedgerProjection) (baseline : AccountBaseline) (f : Findings) : Proc Findings := do
  let fills ← listAllFills
  let mirrors ← listAllBrokerOrders
  let delta ← Prog.ofExcept
    ((fills.filter (isPostBaseline baseline)).foldlM (addCashDelta (byBrokerOrderId mirrors)) 0)
  let expectedCash : Int := baseline.openingCashCents + delta
  let f ← f.reportIf (policy.cashToleranceCents < ((account.cash.cents : Int) - expectedCash).natAbs)
    .cashMismatch (expectedGot expectedCash account.cash.cents)
  navPass cfg policy account projection expectedCash f

/-- Account identity, cash and net account value.  The source also reports a negative buying
power, which the type of amounts excludes. -/
def accountPass (cfg : ReconcilerConfig) (account : PaperAccount) (projection : LedgerProjection)
    (f : Findings) : Proc Findings :=
  match cfg.accountPolicy with
  | none => pure f
  | some policy => do
      let f ← f.reportIf (account.accountId ≠ policy.expectedAccountId) .accountIdMismatch
        (slice 100 account.accountId)
      let baseline ← if cfg.accountBaselines then getBaseline account.accountId else pure none
      match baseline with
      | none => f.report .accountReconciliationUnavailable "missing opening cash baseline"
      | some baseline => baselinePass cfg policy account projection baseline f

/-! ### The run -/

/-- All passes, in order. -/
def collectFindings (cfg : ReconcilerConfig) (tradingDate : TradingDate) : Proc Findings := do
  beginReconciliationSnapshot
  let account ← brokerAccount
  let f ← Findings.empty.reportIf (account.environment ≠ .paper) .nonPaperAccount
    "broker account does not assert PAPER"
  let acc ← orderPasses f
  let f ← historyPass tradingDate acc
  let (f, projection) ← positionPass f
  accountPass cfg account projection f

def ReconcilerConfig.scope (cfg : ReconcilerConfig) : ReconciliationScope :=
  if cfg.accountPolicy.isSome then .fullScope else .partialScope

/-- Build a result with the time of observation and a fresh run id. -/
def createResult (tradingDate : TradingDate) (f : Findings) (scope : ReconciliationScope) :
    Proc ReconciliationResult := do
  let now ← clock
  let runId ← uuid4
  Prog.ofExcept (ReconciliationResult.create tradingDate f.mismatches f.checkedOrders f.checkedFills now
    runId scope)

def collect (cfg : ReconcilerConfig) (tradingDate : TradingDate) : Proc ReconciliationResult := do
  let f ← collectFindings cfg tradingDate
  createResult tradingDate f cfg.scope

/-- The detail for an inconsistent ledger. -/
def ledgerDetail (message : String) : String :=
  let detail := if isBlank message then "ledger invariant failure" else slice 200 message
  let detail := strip (slice 200 (String.ofList (detail.toList.filter (· ≠ Char.ofNat 0))))
  if detail = "" then "ledger invariant failure" else detail

/-- A result with one mismatch and nothing checked. -/
def failedResult (tradingDate : TradingDate) (kind : MismatchKind) (detail : String) :
    Proc ReconciliationResult := do
  let f ← Findings.empty.report kind detail
  createResult tradingDate f .partialScope

/-- Collect; a failed broker query or an inconsistent ledger is evidence of a mismatch. -/
def collectOrFail (cfg : ReconcilerConfig) (tradingDate : TradingDate) : Proc ReconciliationResult :=
  Prog.tryCatch (collect cfg tradingDate) (fun e =>
    if e.kind = .brokerTransport then
      failedResult tradingDate .brokerQueryFailure "broker query failed during reconciliation"
    else if e.kind = .ledgerInvariant then
      failedResult tradingDate .localLedgerInvariant (ledgerDetail e.message)
    else Prog.raise e)

/-- Pause entries and audit the pause. -/
def pauseOnMismatch : Proc Unit := do
  let _ ← setEntriesPaused .uow true (some "reconciliation mismatch")
  let now ← clock
  let commandId ← uuid4
  let record ← Prog.ofExcept (ControlCommandRecord.create commandId .pauseEntries
    "automatic pause on reconciliation mismatch" "reconciler" none now (some now))
  let _ ← addCommand .uow record
  pure ()

/-- Record the run and pause entries on any mismatch. -/
def recordResult (result : ReconciliationResult) : Proc ReconciliationResult := do
  let _ ← addRun result
  if result.status = .mismatch then pauseOnMismatch else pure ()
  commit
  pure result

/-- `Reconciler.run`: collect, record the run, and pause entries on any mismatch. -/
def reconcile (cfg : ReconcilerConfig) (tradingDate : TradingDate) : Proc ReconciliationResult := do
  recordResult (← collectOrFail cfg tradingDate)

end SevenLens
