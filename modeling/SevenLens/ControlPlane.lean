import SevenLens.Engine
import SevenLens.Reconciliation

/-! # The control plane

`ControlPlane` applies operator commands: pause, resume, cancel of all open orders, and the
flatten of every position.  Resume is refused unless the latest recorded reconciliation is
clean and of full scope and no intent is unresolved.  A flatten resolves ambiguous intents,
cancels and refreshes the live ones, compares the broker's positions with the fill ledger and
only then creates and submits its exits; a failure at any stage is audited and committed
together with whatever the stage had written. -/

namespace SevenLens

open Calls

section Audit

/-- Append one command to the audit log. -/
def record (command : ControlCommand) (reason actor : String) (applied : Bool) : Proc Unit := do
  let now ← clock
  let commandId ← uuid4
  let r ← Prog.ofExcept (ControlCommandRecord.create commandId command reason actor none now
    (if applied then some now else none))
  let _ ← addCommand .uow r
  pure ()

/-- The detail of a partial failure. -/
def partialFailureDetail (completed total : Nat) (e : PyError) (completedIds : List String)
    (reason : String) : String :=
  let ids := if completedIds = [] then "" else " completed_ids=" ++ ",".intercalate completedIds
  slice 200 ("PARTIAL_FAILURE " ++ toString completed ++ "/" ++ toString total ++ " " ++ e.kind.name ++
    ids ++ "; " ++ strip reason)

def recordPartialFailure (command : ControlCommand) (reason actor : String) (completed total : Nat)
    (e : PyError) (completedIds : List String) : Proc Unit :=
  record command (partialFailureDetail completed total e completedIds reason) actor false

/-- Audit a failed stage, commit, and raise what the stage reports. -/
def failStage {α : Type} (command : ControlCommand) (reason actor : String) (completed total : Nat)
    (completedIds : List String) (e report : PyError) : Proc α := do
  recordPartialFailure command reason actor completed total e completedIds
  commit
  Prog.raise report

/-- Run `f` over a list; an exception ends the sweep and is handled with what was done before. -/
def sweep {α β : Type} (f : α → Proc β) (onError : List β → PyError → Proc β) :
    List β → List α → Proc (List β)
  | done, [] => pure done
  | done, a :: rest => do
      let b ← Prog.tryCatch (f a) (onError done)
      sweep f onError (done ++ [b]) rest

/-- The intents in any of some statuses, status by status. -/
def listByStatuses (statuses : List OrderStatus) : Proc (List OrderIntent) :=
  statuses.foldlM (fun l s => do return l ++ (← listByStatus s)) []

def liveStatuses : List OrderStatus := [.acknowledged, .partiallyFilled, .cancelPending]

end Audit

/-! ### Pause and resume -/

/-- Idempotently stop new entries. -/
def pauseEntries (reason actor : String) : Proc ControlStateSnapshot := do
  let snapshot ← setEntriesPaused .uow true (some reason)
  record .pauseEntries reason actor true
  commit
  pure snapshot

/-- The checks of a resume and its writes, under the lock of the control row. -/
def resumeChecked (actor : String) : Proc ControlStateSnapshot := do
  let latest ← latestRun
  if latest.any ReconciliationResult.isResumeSafe = false then
    fail .resumeBlocked "resume requires a latest full-scope CLEAN reconciliation run"
  else if (← listByStatus .unknown) ≠ [] then
    fail .resumeBlocked "resume blocked while UNKNOWN intents remain unresolved"
  else if (← listByStatus .reviewRequired) ≠ [] then
    fail .resumeBlocked "resume blocked while REVIEW_REQUIRED intents remain unresolved"
  else
    let snapshot ← setEntriesPaused .uow false none
    record .resumeEntries "resume after full-scope CLEAN reconciliation" actor true
    pure snapshot

/-- Resume entries; it fails closed under the lock that new submissions take. -/
def resumeEntries (actor : String) : Proc ControlStateSnapshot := do
  let _ ← lockControl .uow
  let snapshot ← Prog.tryCatch (resumeChecked actor)
    (fun e => do
      rollback
      Prog.raise e)
  commit
  pure snapshot

section ControlPlane

variable (cfg : EngineConfig) (uuid5 : NameUuid)

/-! ### Cancel -/

def clientIds (l : List OrderIntent) : List String := l.map (fun i => i.clientOrderId.value)

/-- Request cancellation of every live intent. -/
def cancelOpenOrders (reason actor : String) : Proc (List OrderIntent) := do
  let candidates ← listByStatuses liveStatuses
  let canceled ← sweep (fun i => requestCancel cfg uuid5 i.clientOrderId)
    (fun done e => failStage .cancelOpenOrders reason actor done.length candidates.length (clientIds done) e
      ⟨.controlPlane, "cancel open orders partially failed; inspect the per-order ledger and retry"⟩)
    [] candidates
  record .cancelOpenOrders reason actor true
  commit
  pure canceled

/-! ### Flatten -/

def flattenStrategy : String := "control-flatten"

def flattenWindow : String := "emergency"

def flattenConfirmation : String := "FLATTEN_PAPER"

def flattenCollarBps : Nat := 500

def flattenCancelHours : Nat := 4

/-- `_UNRESOLVED_FLATTEN_STATUSES`. -/
def unresolvedFlattenStatuses : List OrderStatus :=
  [.submitting, .unknown, .acknowledged, .partiallyFilled, .cancelPending, .reviewRequired]

/-- The fill with the latest time, then execution id; of equal ones the first. -/
def latestFill : List Fill → Option Fill
  | [] => none
  | f :: l => match latestFill l with
    | none => some f
    | some g => if f.occurredAt < g.occurredAt ∨ (f.occurredAt = g.occurredAt ∧ f.executionId < g.executionId)
        then some g else some f

/-- The fills of a symbol; a fill without a local order raises. -/
def matchingFills (orders : String → Option BrokerOrder) (s : Symbol) (fills : List Fill) :
    Except PyError (List Fill) :=
  fills.foldlM (fun l f => match orders f.brokerOrderId with
    | none => .error ⟨.controlPlane, "flatten found a fill without a local broker order"⟩
    | some order => .ok (if order.symbol = s then l ++ [f] else l)) []

/-- `LedgerFlattenPriceProvider.current_price`: the price of the last recorded fill. -/
def ledgerPrice (s : Symbol) : Proc Price := do
  let mirrors ← listAllBrokerOrders
  let fills ← listAllFills
  let matching ← Prog.ofExcept (matchingFills (byBrokerOrderId mirrors) s fills)
  match latestFill matching with
  | none => fail .controlPlane "flatten found no local fill price for a projected position"
  | some f => pure f.price

/-- The configured price provider, or the ledger. -/
def flattenPrice (priceProvider : Bool) (s : Symbol) : Proc Price :=
  if priceProvider then currentPrice s else ledgerPrice s

/-- Broker and ledger hold the same quantities of the same symbols. -/
def positionsAgree (projected : List (Symbol × Nat)) (positions : List PaperPosition) : Bool :=
  (projected.map Prod.fst ++ positions.map PaperPosition.symbol).all
    (fun s => quantityOf projected s == brokerQuantity positions s)

def assertPositionsAgree (projected : List (Symbol × Nat)) : Proc Unit := do
  if positionsAgree projected (← listPositions) then pure ()
  else fail .controlPlane "flatten aborted: the broker position view disagrees with the local ledger"

def assertFlattenAssetsTradable (projected : List (Symbol × Nat)) : Proc Unit :=
  projected.foldlM (fun _ p => do
    if (← getAsset p.1).any PaperAsset.isTradableEquity then pure ()
    else
      fail .controlPlane
        ("flatten aborted: the broker cannot trade a projected position as US equity " ++ p.1.value)) ()

/-- What the preflight of a flatten has settled. -/
structure FlattenPlan where
  positions : List (Symbol × Nat × PriceCollar)
  now : UtcTimestamp
  cancelAt : UtcTimestamp
  generation : Nat

/-- Replay the ledger. -/
def flattenProjection : Proc LedgerProjection := do
  let mirrors ← listAllBrokerOrders
  let fills ← listAllFills
  Prog.ofExcept (projectLedger fills (byBrokerOrderId mirrors))

/-- The projected positions in the order of their symbols. -/
def flattenPositions (projection : LedgerProjection) : List (Symbol × Nat) :=
  projection.positions.insertionSort (fun p q => p.1.value ≤ q.1.value)

/-- Compare with the broker, price every position and take a generation. -/
def flattenPlan (priceProvider : Bool) (projection : LedgerProjection) : Proc FlattenPlan := do
  assertPositionsAgree projection.positions
  assertFlattenAssetsTradable projection.positions
  let now ← clock
  let cancelAt ← Prog.ofExcept (now.shift (flattenCancelHours * hourMicros))
  let positions ← (flattenPositions projection).foldlM (fun l p => do
    let price ← flattenPrice priceProvider p.1
    return l ++ [(p.1, p.2, (⟨price, flattenCollarBps, by decide⟩ : PriceCollar))]) []
  let generation ← bumpFlattenGeneration .uow
  pure ⟨positions, now, cancelAt, generation⟩

/-- `RunId.new()`. -/
def newRunId : Proc RunId := do
  let u ← uuid4
  if h : u.int ≠ 0 then pure ⟨u, h⟩ else fail .valueError "RunId must not be the nil UUID"

/-- `OrderQuantity(n)`. -/
def orderQuantity (n : Nat) : Except PyError OrderQuantity :=
  if h : 1 ≤ n then .ok ⟨n, h⟩
  else .error ⟨.valueError, "quantity must be a positive whole number of shares"⟩

/-- Build the exit of one position. -/
def flattenExit (tradingDate : TradingDate) (plan : FlattenPlan) (p : Symbol × Nat × PriceCollar) :
    Proc OrderIntent := do
  let quantity ← Prog.ofExcept (orderQuantity p.2.1)
  let runId ← newRunId
  let intentId ← uuid4
  Prog.ofExcept (OrderIntent.create flattenStrategy tradingDate flattenWindow plan.generation p.1 .sell
    quantity .riskExit p.2.2.lowerLimit p.2.2 plan.now plan.cancelAt runId plan.now intentId)

/-- Create, approve and submit the exit of one position. -/
def submitExit (tradingDate : TradingDate) (plan : FlattenPlan) (p : Symbol × Nat × PriceCollar) :
    Proc OrderIntent := do
  let intent ← flattenExit tradingDate plan p
  let _ ← addIntent intent
  let _ ← transitionStatus intent.clientOrderId .riskApproved
  let _ ← transitionStatus intent.clientOrderId .outboxPending
  let result ← submitFromOutbox cfg uuid5 intent.clientOrderId
  if result.status = .acknowledged ∨ result.status = .partiallyFilled ∨ result.status = .filled then
    pure result
  else
    fail .controlPlane ("flatten exit was not accepted by the broker for " ++ result.symbol.value ++ ": " ++
      result.status.value)

/-- Resolve, cancel and refresh everything that is in flight. -/
def flattenSettle (reason actor : String) : Proc Unit := do
  let ambiguous ← listByStatuses [.submitting, .unknown]
  let _ ← sweep (fun i => resolve cfg uuid5 i.clientOrderId)
    (fun done e => failStage .flattenPaper reason actor done.length ambiguous.length [] e
      ⟨.controlPlane, "flatten partially failed while resolving ambiguous orders; entries remain paused"⟩)
    [] ambiguous
  let open' ← listByStatuses liveStatuses
  let _ ← sweep (fun i => requestCancel cfg uuid5 i.clientOrderId)
    (fun done e => failStage .flattenPaper reason actor done.length open'.length (clientIds done) e
      ⟨.controlPlane, "flatten partially failed while canceling open orders; entries remain paused"⟩)
    [] open'
  let pending ← listByStatuses liveStatuses
  let _ ← sweep (fun i => applyFills cfg uuid5 i.clientOrderId)
    (fun done e => failStage .flattenPaper reason actor done.length pending.length [] e
      ⟨.controlPlane, "flatten partially failed while refreshing canceled orders; entries remain paused"⟩)
    [] pending
  let unresolved ← listByStatuses unresolvedFlattenStatuses
  if unresolved ≠ [] then
    failStage .flattenPaper reason actor 0 unresolved.length []
      ⟨.controlPlane, "one or more broker orders remain unresolved after cancellation"⟩
      ⟨.controlPlane,
        "flatten aborted: one or more broker orders remain unresolved after cancellation"⟩
  else pure ()

/-- What a failed preflight raises. -/
def preflightError (e : PyError) : PyError :=
  if e.kind = .controlPlane ∨ e.kind = .resumeBlocked then e
  else ⟨.controlPlane, "flatten preflight failed; entries remain paused"⟩

/-- Cancel open orders and sell every position of the ledger. -/
def flattenPaper (priceProvider : Bool) (tradingDate : TradingDate) (reason actor confirmation : String) :
    Proc (List OrderIntent) := do
  if confirmation ≠ flattenConfirmation then
    fail .controlPlane "flatten requires the explicit FLATTEN_PAPER confirmation"
  else if (← controlState .uow).entriesPaused = false then
    fail .controlPlane "flatten requires entries to be paused first"
  else
    flattenSettle cfg uuid5 reason actor
    let projection ← Prog.tryCatch flattenProjection
      (fun e => failStage .flattenPaper reason actor 0 0 [] e (preflightError e))
    let total := projection.positions.length
    let plan ← Prog.tryCatch (flattenPlan priceProvider projection)
      (fun e => failStage .flattenPaper reason actor 0 total [] e (preflightError e))
    let submitted ← sweep (submitExit cfg uuid5 tradingDate plan)
      (fun done e => failStage .flattenPaper reason actor done.length total (clientIds done) e
        ⟨.controlPlane, "flatten partially failed while submitting exits; entries remain paused"⟩)
      [] plan.positions
    record .flattenPaper reason actor true
    commit
    pure submitted

end ControlPlane

end SevenLens
