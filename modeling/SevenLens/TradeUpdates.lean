import SevenLens.Ports

/-! # The trade-update consumer

`TradeUpdateConsumer.apply` consumes one broker update at a time.  A fill is recorded and
committed first; the mirror and the intent are derived afterwards and rolled back when the
closed lifecycle cannot represent them.  Every such conflict is made durable before it is
raised: the intent moves to review, entries are paused, and an audit command is appended. -/

namespace SevenLens

open Calls

inductive TradeUpdateOutcome where
  | applied | duplicate | stale | unknownOrder
deriving DecidableEq, Repr

/-- One broker observation of an order, ordered by the broker timestamp. -/
@[ext] structure OrderStatusUpdate where
  clientOrderId : ClientOrderId
  brokerOrderId : String
  status : BrokerOrderStatus
  filledQuantity : Nat
  observedAt : UtcTimestamp
  id_ok : IsBoundedText 100 brokerOrderId

instance : DecidableEq OrderStatusUpdate := fun _ _ => decidable_of_iff' _ OrderStatusUpdate.ext_iff

/-- A broker update: one execution or one status observation. -/
inductive TradeUpdate where
  | fill (fill : Fill)
  | status (update : OrderStatusUpdate)
deriving DecidableEq

/-- `uuid5`: a name-based identifier in a namespace. -/
abbrev NameUuid := Uuid → String → Uuid

def conflictPauseCommandNamespace : Uuid := ⟨0x2a4d9c4c0bd24b7f9f0a5e4ef4e03b22, by decide⟩

/-- One audit identity for one unresolved order and conflict. -/
def conflictPauseCommandId (uuid5 : NameUuid) (c : ClientOrderId) (conflict : String) : Uuid :=
  uuid5 conflictPauseCommandNamespace (c.value ++ "\x1f" ++ conflict)

/-! ### Making a conflict durable -/

/-- Persist the unresolved intent before relying on the global pause. -/
def persistConflictMarker (c : ClientOrderId) (conflict : String) : Proc Unit := do
  match ← getIntent c with
  | none =>
      fail .tradeUpdate
        ("cannot persist unresolved intent after " ++ conflict ++ "; order intent is missing")
  | some intent =>
      if intent.status = .unknown ∨ intent.status = .reviewRequired then pure ()
      else
        Prog.tryCatch
          (do
            let _ ← transitionStatus c .reviewRequired
            commit)
          (fun _ => do
            Prog.suppress rollback
            fail .tradeUpdate ("failed to persist unresolved intent after " ++ conflict))

/-- The bounded fallback after a failed marker: a fresh connection writes the pause. -/
def markerFallback (conflict : String) (e : PyError) : Proc Unit :=
  if e.kind = .tradeUpdate then do
    Prog.tryCatch (persistSafetyPause ("reconciliation required; " ++ conflict))
      (fun _ => fail .tradeUpdate
        ("failed to persist unresolved intent and entries_paused after " ++ conflict ++
          "; safety persistence failed"))
    fail .tradeUpdate
      ("failed to persist unresolved intent after " ++ conflict ++
        "; bounded safety pause fallback persisted entries_paused")
  else Prog.raise e

/-- Set and commit the shared pause. -/
def persistPause (conflict : String) : Proc Unit :=
  Prog.tryCatch
    (do
      let _ ← setEntriesPaused .uow true (some ("reconciliation required; " ++ conflict))
      commit)
    (fun _ => do
      Prog.suppress rollback
      fail .tradeUpdate ("failed to persist entries_paused after " ++ conflict))

/-- Append the audit command of the pause. -/
def addPauseAudit (uuid5 : NameUuid) (c : ClientOrderId) (conflict : String) : Proc Unit := do
  let now := (← controlState .uow).updatedAt
  let record ← Prog.ofExcept (ControlCommandRecord.create (conflictPauseCommandId uuid5 c conflict)
    .pauseEntries ("automatic pause on " ++ conflict) "trade_update_consumer" none now (some now))
  let _ ← addCommand .uow record
  pure ()

/-- Append and commit the audit command of the pause. -/
def persistPauseAudit (uuid5 : NameUuid) (c : ClientOrderId) (conflict : String) : Proc Unit := do
  Prog.tryCatch (addPauseAudit uuid5 c conflict)
    (fun _ => do
      Prog.suppress rollback
      fail .tradeUpdate ("failed to persist pause audit after " ++ conflict ++ "; durable pause remains"))
  Prog.tryCatch commit
    (fun _ => do
      Prog.suppress rollback
      fail .tradeUpdate ("failed to commit pause audit after " ++ conflict ++ "; durable pause remains"))

/-- Persist an unresolved marker, then the pause and its audit command. -/
def persistConflictPause (uuid5 : NameUuid) (c : ClientOrderId) (conflict : String) : Proc Unit := do
  Prog.tryCatch (persistConflictMarker c conflict) (markerFallback conflict)
  persistPause conflict
  persistPauseAudit uuid5 c conflict

/-- Roll the derived state back, make the conflict durable and surface a typed error. -/
def surfaceConflict (uuid5 : NameUuid) (c : ClientOrderId) (conflict : String) (e : PyError) :
    Proc TradeUpdateOutcome := do
  Prog.suppress rollback
  persistConflictPause uuid5 c conflict
  if e.kind = .tradeUpdate then Prog.raise e
  else fail .tradeUpdate "trade update cannot be applied fail-safely; reconciliation required"

/-! ### Fills -/

/-- The broker status an open order with `newFilled` executed shares should have. -/
def fillCandidate (mirror : BrokerOrder) (newFilled : Nat) : BrokerOrderStatus :=
  if newFilled = mirror.quantity.value then .filled
  else if 0 < newFilled then .partiallyFilled
  else mirror.status

/-- The broker status a mirror takes when its filled quantity becomes `newFilled`. -/
def fillBrokerTarget (mirror : BrokerOrder) (newFilled : Nat) : Except PyError BrokerOrderStatus :=
  if mirror.status.isTerminal = true ∨ mirror.status.isReview = true then .ok mirror.status
  else if mirror.status = .pendingCancel then .ok .pendingCancel
  else if fillCandidate mirror newFilled = mirror.status then .ok mirror.status
  else if brokerOrderTransitionAllowed mirror.status (fillCandidate mirror newFilled) then
    .ok (fillCandidate mirror newFilled)
  else .error ⟨.tradeUpdate,
    "fill update has no legal broker transition; reconciliation must arbitrate"⟩

/-- The intent status that follows a fill. -/
def fillIntentTarget (brokerTarget : BrokerOrderStatus) (current : OrderStatus) : OrderStatus :=
  match brokerTarget with
  | .filled => .filled
  | .partiallyFilled => .partiallyFilled
  | .pendingCancel => .cancelPending
  | _ => current

/-- Move the intent after a fill, if it exists and its status changes. -/
def transitionAfterFill (c : ClientOrderId) (brokerTarget : BrokerOrderStatus) : Proc Unit := do
  match ← getIntent c with
  | none => pure ()
  | some intent =>
      let target := fillIntentTarget brokerTarget intent.status
      if target ≠ intent.status then
        if orderTransitionAllowed intent.status target then
          let _ ← transitionStatus c target
          pure ()
        else
          fail .tradeUpdate "fill update has no legal intent transition; reconciliation must arbitrate"
      else pure ()

/-- Derive the mirror and the intent from the recorded fills. -/
def deriveFromFill (mirror : BrokerOrder) (fill : Fill) : Proc TradeUpdateOutcome := do
  let total := fillTotal (← listFills mirror.brokerOrderId)
  let newFilled := if total < mirror.filledQuantity then mirror.filledQuantity else total
  if mirror.quantity.value < newFilled then
    fail .tradeUpdate "trade update fills exceed the recorded order quantity"
  else
    let newObserved := if mirror.updatedAt < fill.occurredAt then some fill.occurredAt else none
    let brokerTarget ← Prog.ofExcept (fillBrokerTarget mirror newFilled)
    if brokerTarget = mirror.status ∧ newFilled = mirror.filledQuantity ∧ newObserved = none then
      pure .applied
    else
      let _ ← updateBrokerOrderStatus mirror.brokerOrderId brokerTarget newFilled newObserved
      transitionAfterFill mirror.clientOrderId brokerTarget
      commit
      pure .applied

def applyFill (uuid5 : NameUuid) (fill : Fill) : Proc TradeUpdateOutcome := do
  match ← getBrokerOrderById fill.brokerOrderId with
  | none => pure .unknownOrder
  | some mirror =>
      let inserted ← addFill fill
      if inserted = false then
        let existing ← getFillByExecutionId fill.executionId
        if existing ≠ some fill then
          Prog.suppress rollback
          persistConflictPause uuid5 mirror.clientOrderId "conflicting fill"
          fail .tradeUpdate "duplicate execution id has a conflicting fill; reconciliation required"
        else
          commit
          pure .duplicate
      else
        -- The execution fact is durable before any derived state is attempted.
        commit
        Prog.tryCatch (deriveFromFill mirror fill)
          (surfaceConflict uuid5 mirror.clientOrderId "conflicting fill")

/-! ### Status observations -/

/-- The checks an observation passes before the mirror is written. -/
def checkStatus (mirror : BrokerOrder) (u : OrderStatusUpdate) : Except PyError Unit :=
  if u.observedAt = mirror.updatedAt then
    .error ⟨.tradeUpdate, "equal broker timestamp with a conflicting payload; ordering is ambiguous"⟩
  else if u.filledQuantity < mirror.filledQuantity then
    .error ⟨.tradeUpdate, "status update would regress filled quantity; reconciliation required"⟩
  else if mirror.quantity.value < u.filledQuantity then
    .error ⟨.tradeUpdate,
      "status update exceeds the recorded order quantity; reconciliation required"⟩
  else if u.status = .filled ∧ u.filledQuantity ≠ mirror.quantity.value then
    .error ⟨.tradeUpdate,
      "a filled status must carry exactly the full order quantity; reconciliation required"⟩
  else if u.status ≠ mirror.status then assertBrokerOrderTransition mirror.status u.status
  else .ok ()

/-- Transition the intent, routing an externally canceled order legally. -/
def transitionIntent (c : ClientOrderId) (current target : OrderStatus) : Proc Unit := do
  if orderTransitionAllowed current target = false then
    if target = .canceled ∧ orderTransitionAllowed current .cancelPending then
      let _ ← transitionStatus c .cancelPending
      let _ ← transitionStatus c target
      pure ()
    else
      fail .tradeUpdate
        "trade update state has no legal intent transition; reconciliation must arbitrate"
  else
    let _ ← transitionStatus c target
    pure ()

/-- The intent status an observation leads to; a live order never regresses the intent. -/
def statusIntentTarget (status : BrokerOrderStatus) (current : OrderStatus) : OrderStatus :=
  let target := intentStatusByBrokerStatus status
  if target = .acknowledged ∧ (current = .partiallyFilled ∨ current = .cancelPending) then current
  else target

/-- Move the intent after an observation, if its status changes. -/
def transitionAfterStatus (c : ClientOrderId) (current target : OrderStatus) : Proc Unit :=
  if target ≠ current then transitionIntent c current target else pure ()

/-- Write an observation to the mirror and the intent. -/
def deriveFromStatus (intent : OrderIntent) (mirror : BrokerOrder) (u : OrderStatusUpdate) :
    Proc TradeUpdateOutcome := do
  Prog.ofExcept (checkStatus mirror u)
  let _ ← updateBrokerOrderStatus mirror.brokerOrderId u.status u.filledQuantity (some u.observedAt)
  transitionAfterStatus u.clientOrderId intent.status (statusIntentTarget u.status intent.status)
  commit
  pure .applied

def applyStatus (uuid5 : NameUuid) (u : OrderStatusUpdate) : Proc TradeUpdateOutcome := do
  match ← getIntent u.clientOrderId with
  | none => pure .unknownOrder
  | some intent =>
      match ← getBrokerOrder u.clientOrderId with
      | none => pure .unknownOrder
      | some mirror =>
          if mirror.brokerOrderId ≠ u.brokerOrderId then pure .unknownOrder
          else if u.observedAt < mirror.updatedAt then pure .stale
          else if u.status = mirror.status ∧ u.filledQuantity = mirror.filledQuantity then
            pure .duplicate
          else
            Prog.tryCatch (deriveFromStatus intent mirror u)
              (surfaceConflict uuid5 u.clientOrderId "conflicting status")

/-- `TradeUpdateConsumer.apply`. -/
def applyUpdate (uuid5 : NameUuid) : TradeUpdate → Proc TradeUpdateOutcome
  | .fill f => applyFill uuid5 f
  | .status u => applyStatus uuid5 u

end SevenLens
