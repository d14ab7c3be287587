import SevenLens.TradeUpdates

/-! # The execution engine

`ExecutionEngine` moves one intent at a time through the broker.  `submitting` is durable
before any submission; an ambiguous answer becomes `unknown`, which is resolved by a query
for the deterministic client order id; a broker order that contradicts the intent is
recorded as a conflict and never mirrored.

New entries (intents that are not risk exits) pass the pause twice before the reservation
and once under the lock of the control row, together with a check for unresolved intents. -/

namespace SevenLens

open Calls

/-- Where the engine finds a control repository. -/
structure EngineConfig where
  /-- The unit of work of the caller has a `control` repository, on its own connection. -/
  uowControl : Bool
  /-- The connection of the control repository given to the constructor. -/
  control : Option Handle
deriving DecidableEq

/-- The control repository of the caller is preferred to the one of the constructor. -/
def EngineConfig.guardControl (cfg : EngineConfig) : Option Handle :=
  if cfg.uowControl then some .uow else cfg.control

def executionConflictCommandNamespace : Uuid := ⟨0xa4f5d73e85f14dbba9c93e06f078a10c, by decide⟩

/-- A stable audit identity for one execution conflict. -/
def executionConflictCommandId (uuid5 : NameUuid) (c : ClientOrderId) (conflict : String) : Uuid :=
  uuid5 executionConflictCommandNamespace (c.value ++ "\x1f" ++ conflict)

/-- Assign `i` under its client order id in an insertion-ordered dictionary. -/
def assign (l : List OrderIntent) (i : OrderIntent) : List OrderIntent :=
  if l.any (fun j => j.clientOrderId = i.clientOrderId) then
    l.map (fun j => if j.clientOrderId = i.clientOrderId then i else j)
  else l ++ [i]

section Engine

variable (cfg : EngineConfig) (uuid5 : NameUuid)

def requireIntent (c : ClientOrderId) : Proc OrderIntent := do
  match ← getIntent c with
  | none => fail .executionState "client order id has no order intent"
  | some intent => pure intent

/-! ### The entry gate -/

def pausedMessage : String :=
  "entries are paused; new intents cannot submit until a CLEAN reconciliation resumes them"

/-- Gate new entries on the pause; risk exits bypass it. -/
def assertEntriesAllowed (intent : OrderIntent) : Proc Unit :=
  match cfg.control with
  | none => pure ()
  | some h => do
      let state ← controlState h
      if state.entriesPaused = false then pure ()
      else if intent.intentType = .riskExit then pure ()
      else fail .executionPaused pausedMessage

/-- The broker trades the symbol as an active US equity. -/
def PaperAsset.isTradableEquity (a : PaperAsset) : Bool :=
  a.status == .active && a.tradable && a.assetClass == .usEquity

def assertAssetTradable (intent : OrderIntent) : Proc Unit := do
  let asset ← getAsset intent.symbol
  if asset.any PaperAsset.isTradableEquity then pure ()
  else
    fail .executionState
      ("asset gate: the broker does not trade symbol as a US equity " ++ intent.symbol.value ++
        "; the intent was not submitted")

/-- Some intent is durably `unknown` or in review. -/
def hasUnresolvedIntents : Proc Bool := do
  if (← listByStatus .unknown) ≠ [] then pure true
  else
    if (← listByStatus .reviewRequired) ≠ [] then pure true else pure false

/-- `submission_guard` around the two checks and `body`: the control row of connection `h` is
held until the block ends, by a rollback when it raises and by a commit when it returns. -/
def guarded {α : Type} (h : Handle) (body : Proc α) : Proc α := do
  let state ← lockControl h
  let result ← Prog.tryCatch
    (do
      if state.entriesPaused then fail .executionPaused pausedMessage
      else
        if ← hasUnresolvedIntents then
          fail .executionPaused "reconciliation required; unresolved broker truth blocks new entries"
        else body)
    (fun e => do
      rollbackOn h
      Prog.raise e)
  commitOn h
  pure result

/-- Linearize a new entry before a concurrent pause becomes visible. -/
def entrySubmissionGuard {α : Type} (intent : OrderIntent) (body : Proc α) : Proc α :=
  if intent.intentType = .riskExit then body
  else
    match cfg.guardControl with
    | none => body
    | some h => guarded h body

/-! ### Conflicts -/

def recordPause (h : Handle) (conflict : String) : Proc Unit :=
  Prog.tryCatch
    (do
      let _ ← setEntriesPaused h true (some ("reconciliation required; " ++ conflict))
      -- Only the unit of work of the caller is committed here.
      if cfg.uowControl then commit else pure ())
    (fun _ => do
      if cfg.uowControl then Prog.suppress rollback else pure ()
      fail .controlPersistence "failed to persist entries_paused")

def recordPauseAudit (h : Handle) (intent : OrderIntent) (conflict : String) : Proc Unit := do
  Prog.tryCatch
    (do
      let now ← clock
      let record ← Prog.ofExcept (ControlCommandRecord.create
        (executionConflictCommandId uuid5 intent.clientOrderId conflict) .pauseEntries
        ("automatic pause on " ++ conflict) "execution_engine" none now (some now))
      let _ ← addCommand h record
      pure ())
    (fun _ => do
      if cfg.uowControl then Prog.suppress rollback else pure ()
      fail .controlPersistence "failed to persist pause audit command; durable pause remains")
  if cfg.uowControl then
    Prog.tryCatch commit
      (fun _ => do
        Prog.suppress rollback
        fail .controlPersistence "failed to commit pause audit; durable pause remains")
  else pure ()

/-- Durably block new entries after an ambiguous broker outcome. -/
def pauseForReconciliationRequired (intent : OrderIntent) (conflict : String) : Proc Unit :=
  if intent.intentType = .riskExit then pure ()
  else
    match cfg.guardControl with
    | none => pure ()
    | some h => do
        recordPause cfg h conflict
        recordPauseAudit cfg uuid5 h intent conflict

def ambiguousOutcome : String := "ambiguous broker outcome"

/-- Commit the unresolved marker before the shared entry pause. -/
def persistReviewAndPause (intent : OrderIntent) (conflict : String) : Proc OrderIntent := do
  match ← getIntent intent.clientOrderId with
  | none =>
      fail .controlPersistence "cannot persist unresolved broker conflict: order intent is missing"
  | some current =>
      let current ←
        if current.status = .reviewRequired then pure current
        else
          Prog.tryCatch
            (do
              let marked ← transitionStatus intent.clientOrderId .reviewRequired
              commit
              pure marked)
            (fun _ => do
              Prog.suppress rollback
              fail .controlPersistence "failed to persist REVIEW_REQUIRED after broker conflict")
      pauseForReconciliationRequired cfg uuid5 current conflict
      pure current

/-- Persist the conflict, then raise it as a mirror mismatch. -/
def raiseConflict {α : Type} (intent : OrderIntent) (conflict message : String) : Proc α := do
  let _ ← persistReviewAndPause cfg uuid5 intent conflict
  fail .brokerMirrorMismatch message

/-- The fields in which a broker order contradicts the intent. -/
def mismatchFields (intent : OrderIntent) (order : BrokerOrder) (localMirror localByBrokerId : Option BrokerOrder) :
    List String :=
  (if order.clientOrderId = intent.clientOrderId then [] else ["client_order_id"]) ++
  (if order.symbol = intent.symbol then [] else ["symbol"]) ++
  (if order.side = intent.side then [] else ["side"]) ++
  (if order.quantity = intent.quantity then [] else ["quantity"]) ++
  (if order.limitPrice = intent.limitPrice then [] else ["limit_price"]) ++
  (if localMirror.any (fun m => m.brokerOrderId ≠ order.brokerOrderId) ∨
      localByBrokerId.any (fun m => m.clientOrderId ≠ intent.clientOrderId) then ["broker_order_id"]
    else [])

def assertMirrorMatches (intent : OrderIntent) (order : BrokerOrder) : Proc Unit := do
  let localMirror ← getBrokerOrder intent.clientOrderId
  let localByBrokerId ← getBrokerOrderById order.brokerOrderId
  let fields := mismatchFields intent order localMirror localByBrokerId
  if fields = [] then pure ()
  else
    raiseConflict cfg uuid5 intent "broker mirror mismatch"
      ("broker order parameters contradict the order intent; mismatch_fields=" ++ ",".intercalate fields)

/-! ### Absorbing a broker order -/

/-- Check the whole response before the mirror is written. -/
def checkFills (intent : OrderIntent) (order : BrokerOrder) : List Fill → List Fill → Proc Unit
  | [], _ => pure ()
  | fill :: fills, seen =>
      match seen.find? (fun g => g.executionId = fill.executionId) with
      | some g =>
          if g ≠ fill then
            raiseConflict cfg uuid5 intent "conflicting fill"
              "broker response contains conflicting fills for one execution id; reconciliation required"
          else checkFills intent order fills seen
      | none =>
          if fill.brokerOrderId ≠ order.brokerOrderId then
            raiseConflict cfg uuid5 intent "conflicting fill"
              "broker fill is bound to a different order; reconciliation required"
          else do
            let existing ← getFillByExecutionId fill.executionId
            if existing.any (fun g => g ≠ fill) then
              raiseConflict cfg uuid5 intent "conflicting fill"
                "broker fill conflicts with an existing execution id; reconciliation required"
            else checkFills intent order fills (fill :: seen)

def addFills (intent : OrderIntent) : List Fill → Proc Unit
  | [] => pure ()
  | fill :: fills => do
      let inserted ← addFill fill
      if inserted then addFills intent fills
      else
        let existing ← getFillByExecutionId fill.executionId
        if existing ≠ some fill then
          raiseConflict cfg uuid5 intent "conflicting fill"
            "broker fill conflicts with an existing execution id; reconciliation required"
        else addFills intent fills

/-- Mirror the broker order; an identity conflict is made durable and raised. -/
def mirrorBrokerOrder (intent : OrderIntent) (order : BrokerOrder) : Proc Unit :=
  Prog.tryCatch
    (do
      let _ ← recordBrokerOrder order
      pure ())
    (fun e =>
      if e.kind = .brokerOrderIdentityConflict then do
        Prog.suppress rollback
        raiseConflict cfg uuid5 intent "broker order identity conflict"
          "broker order identity is already bound to another local order; reconciliation required"
      else Prog.raise e)

/-- The intent status a broker status leads to; the intent never regresses to acknowledged. -/
def refreshTarget (status : BrokerOrderStatus) (current : OrderStatus) : OrderStatus :=
  let target := intentStatusByBrokerStatus status
  if target = .acknowledged ∧ (current = .partiallyFilled ∨ current = .cancelPending) then current
  else target

/-- Move the intent along with the broker order. -/
def followBrokerOrder (intent : OrderIntent) (target : OrderStatus) : Proc OrderIntent :=
  if target ≠ intent.status then
    if orderTransitionAllowed intent.status target then transitionStatus intent.clientOrderId target
    else
      fail .executionState "broker order state has no legal intent transition; reconciliation must arbitrate"
  else pure intent

def refreshFromBrokerOrder (intent : OrderIntent) (order : BrokerOrder) : Proc OrderIntent := do
  let fills ← listBrokerFills order.brokerOrderId
  checkFills cfg uuid5 intent order fills []
  mirrorBrokerOrder cfg uuid5 intent order
  addFills cfg uuid5 intent fills
  let refreshed ← followBrokerOrder intent (refreshTarget order.status intent.status)
  commit
  pure refreshed

def recordAccepted (intent : OrderIntent) (order : BrokerOrder) : Proc OrderIntent := do
  assertMirrorMatches cfg uuid5 intent order
  refreshFromBrokerOrder cfg uuid5 intent order

/-! ### Submission -/

/-- Reserve `unknown` durably and pause after an ambiguous answer. -/
def becomeUnknown (intent : OrderIntent) : Proc OrderIntent := do
  let unknown ← transitionStatus intent.clientOrderId .unknown
  commit
  pauseForReconciliationRequired cfg uuid5 intent ambiguousOutcome
  pure unknown

/-- The answer of the broker to a submission. -/
def afterSubmit (submitting : OrderIntent) : Except PyError SubmitResult → Proc OrderIntent
  | .error e =>
      if e.kind = .brokerTransport then becomeUnknown cfg uuid5 submitting
      else if e.kind = .brokerConflict then do
        let _ ← becomeUnknown cfg uuid5 submitting
        fail .brokerMirrorMismatch "broker reports a conflicting order for our deterministic client id"
      else Prog.raise e
  | .ok (.rejected _) => do
      let rejected ← transitionStatus submitting.clientOrderId .rejected
      commit
      pure rejected
  | .ok (.accepted order) => recordAccepted cfg uuid5 submitting order

def submitWhileGuarded (submitting : OrderIntent) : Proc OrderIntent := do
  let result ← Prog.tryCatch (do return .ok (← submitOrder submitting)) (fun e => pure (.error e))
  afterSubmit cfg uuid5 submitting result

def completeSubmission (submitting : OrderIntent) : Proc OrderIntent :=
  Prog.tryCatch (entrySubmissionGuard cfg submitting (submitWhileGuarded cfg uuid5 submitting))
    (fun e =>
      if e.kind = .executionPaused then
        -- A pause raced with the reservation: the broker is not called.
        if submitting.status = .submitting then do
          let unknown ← transitionStatus submitting.clientOrderId .unknown
          commit
          pauseForReconciliationRequired cfg uuid5 unknown ambiguousOutcome
          pure unknown
        else pure submitting
      else Prog.raise e)

/-- Submit one intent of the outbox; any other status is an idempotent no-op. -/
def submitFromOutbox (c : ClientOrderId) : Proc OrderIntent := do
  let intent ← requireIntent c
  if intent.status ≠ .outboxPending then pure intent
  else
    assertEntriesAllowed cfg intent
    assertAssetTradable intent
    assertEntriesAllowed cfg intent
    let submitting ← transitionStatus c .submitting
    commit
    completeSubmission cfg uuid5 submitting

/-! ### Resolution, fills, cancels and expiry -/

/-- Resolve a `submitting` or `unknown` intent by querying the broker. -/
def resolve (c : ClientOrderId) : Proc OrderIntent := do
  let intent ← requireIntent c
  if intent.status ≠ .submitting ∧ intent.status ≠ .unknown then pure intent
  else
    match ← getOrder c with
    | none =>
        let now ← clock
        if intent.cancelAt ≤ now then
          let unknown ← if intent.status = .submitting then transitionStatus c .unknown else pure intent
          commit
          pure unknown
        else completeSubmission cfg uuid5 intent
    | some order =>
        assertMirrorMatches cfg uuid5 intent order
        recordAccepted cfg uuid5 intent order

def missingMirrorMessage : String := "intent claims broker acceptance but no local mirror exists"

def missingOrderMessage : String := "broker no longer knows an order we recorded as accepted"

/-- Read the broker's order of a mirrored intent and absorb it. -/
def absorbBrokerOrder (intent : OrderIntent) : Proc OrderIntent := do
  match ← getOrder intent.clientOrderId with
  | none => fail .brokerMirrorMismatch missingOrderMessage
  | some order =>
      assertMirrorMatches cfg uuid5 intent order
      refreshFromBrokerOrder cfg uuid5 intent order

/-- Absorb broker fills and status for a live intent. -/
def applyFills (c : ClientOrderId) : Proc OrderIntent := do
  let intent ← requireIntent c
  if intent.status ≠ .acknowledged ∧ intent.status ≠ .partiallyFilled ∧ intent.status ≠ .cancelPending then
    pure intent
  else
    match ← getBrokerOrder c with
    | none => fail .executionState missingMirrorMessage
    | some _ => absorbBrokerOrder cfg uuid5 intent

/-- Cancel an open intent; safe to retry while it is pending. -/
def requestCancel (c : ClientOrderId) : Proc OrderIntent := do
  let intent ← requireIntent c
  let intent ←
    if intent.status = .cancelPending then pure intent
    else if intent.status = .acknowledged ∨ intent.status = .partiallyFilled then do
      let pending ← transitionStatus c .cancelPending
      commit
      pure pending
    else
      fail .executionState "cancel requires an acknowledged, partially filled, or cancel-pending intent"
  match ← getBrokerOrder c with
  | none => fail .executionState missingMirrorMessage
  | some mirror =>
      let _ ← cancelOrder mirror.brokerOrderId
      absorbBrokerOrder cfg uuid5 intent

/-- Cancelling at the broker and absorbing its order, once the cancel is pending. -/
def cancelAtBroker (c : ClientOrderId) (intent : OrderIntent) : Proc OrderIntent :=
  (getBrokerOrder c).bind fun m => match m with
    | none => fail .executionState missingMirrorMessage
    | some mirror => (cancelOrder mirror.brokerOrderId).bind fun _ => absorbBrokerOrder cfg uuid5 intent

theorem requestCancel_eq (c : ClientOrderId) : requestCancel cfg uuid5 c =
    (requireIntent c).bind fun intent =>
      if intent.status = .cancelPending then cancelAtBroker cfg uuid5 c intent
      else if intent.status = .acknowledged ∨ intent.status = .partiallyFilled then
        (transitionStatus c .cancelPending).bind fun pending =>
          commit.bind fun _ => cancelAtBroker cfg uuid5 c pending
      else fail .executionState "cancel requires an acknowledged, partially filled, or cancel-pending intent" := rfl

/-- One status of the first sweep of `expire_overdue`: resolve what is overdue. -/
def resolveOverdue (now : UtcTimestamp) (closed : List OrderIntent) (status : OrderStatus) :
    Proc (List OrderIntent) := do
  (← listByStatus status).foldlM (fun closed intent => do
    if intent.cancelAt ≤ now then
      return assign closed (← resolve cfg uuid5 intent.clientOrderId)
    else return closed) closed

/-- One status of the second sweep: intents that never reached the broker expire locally. -/
def expireStatus (now : UtcTimestamp) (closed : List OrderIntent) (status : OrderStatus) :
    Proc (List OrderIntent) := do
  (← listByStatus status).foldlM (fun closed intent => do
    if intent.cancelAt ≤ now then
      return assign closed (← transitionStatus intent.clientOrderId .expired)
    else return closed) closed

/-- Cancel one overdue order; a transport failure or a conflict leaves it for recovery. -/
def cancelOne (closed : List OrderIntent) (intent : OrderIntent) : Proc (List OrderIntent) :=
  Prog.tryCatch (do return assign closed (← requestCancel cfg uuid5 intent.clientOrderId))
    (fun e =>
      if e.kind = .brokerTransport ∨ e.kind = .executionState ∨ e.kind = .brokerMirrorMismatch then
        pure closed
      else Prog.raise e)

/-- One status of the third sweep: every open order is handled once. -/
def cancelOverdue (now : UtcTimestamp) (acc : List OrderIntent × List ClientOrderId)
    (status : OrderStatus) : Proc (List OrderIntent × List ClientOrderId) := do
  (← listByStatus status).foldlM (fun acc intent => do
    if intent.clientOrderId ∈ acc.2 then return acc
    else if intent.cancelAt ≤ now then
      return (← cancelOne cfg uuid5 acc.1 intent, intent.clientOrderId :: acc.2)
    else return (acc.1, intent.clientOrderId :: acc.2)) acc

/-- Enforce the window cutoff without contradicting the broker. -/
def expireOverdue : Proc (List OrderIntent) := do
  let now ← clock
  let closed ← [OrderStatus.submitting, .unknown].foldlM (resolveOverdue cfg uuid5 now) []
  let closed ← [OrderStatus.created, .riskApproved, .outboxPending].foldlM (expireStatus now) closed
  let handled ← [OrderStatus.acknowledged, .partiallyFilled, .cancelPending].foldlM
    (cancelOverdue cfg uuid5 now) (closed, [])
  if handled.1 ≠ [] then
    commit
    pure handled.1
  else pure handled.1

/-- After a restart, resolve every `submitting` or `unknown` intent once. -/
def recover : Proc (List OrderIntent) := do
  let submitting ← listByStatus .submitting
  let unknown ← listByStatus .unknown
  let byId := (submitting ++ unknown).foldl assign []
  byId.foldlM (fun resolved intent => do
    return resolved ++ [← resolve cfg uuid5 intent.clientOrderId]) []

end Engine

end SevenLens
