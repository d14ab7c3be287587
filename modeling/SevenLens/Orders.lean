import SevenLens.Library.Pattern
import SevenLens.Values

/-! # Order intents and broker orders

The execution domain: the closed lifecycle of an order intent, the closed mirror lifecycle
of a broker order, and the records that carry them.  A record holds the proofs of what its
constructor checks, so a value of the type is a value the constructor accepts; the checks
that can fail at run time (`OrderIntent.create`, `ClientOrderId.compose`,
`PriceCollar.contains`) return an exception. -/

namespace SevenLens

/-! ### Order lifecycle -/

inductive OrderSide where
  | buy | sell
deriving DecidableEq, Repr

namespace OrderSide

def value : OrderSide → String
  | buy => "BUY"
  | sell => "SELL"

/-- `side.value.lower()`. -/
def lower : OrderSide → String
  | buy => "buy"
  | sell => "sell"

end OrderSide

inductive OrderIntentType where
  | rebalance | riskExit
deriving DecidableEq, Repr

/-- Authoritative internal lifecycle states of one order intent. -/
inductive OrderStatus where
  | created | riskApproved | outboxPending | submitting | acknowledged | partiallyFilled | filled
  | cancelPending | canceled | rejected | expired | unknown | reviewRequired
deriving DecidableEq, Repr

namespace OrderStatus

def value : OrderStatus → String
  | created => "CREATED"
  | riskApproved => "RISK_APPROVED"
  | outboxPending => "OUTBOX_PENDING"
  | submitting => "SUBMITTING"
  | acknowledged => "ACKNOWLEDGED"
  | partiallyFilled => "PARTIALLY_FILLED"
  | filled => "FILLED"
  | cancelPending => "CANCEL_PENDING"
  | canceled => "CANCELED"
  | rejected => "REJECTED"
  | expired => "EXPIRED"
  | unknown => "UNKNOWN"
  | reviewRequired => "REVIEW_REQUIRED"

end OrderStatus

open OrderStatus in
/-- The closed lifecycle map of an order intent. -/
def orderStatusTransitions : OrderStatus → List OrderStatus
  | created => [riskApproved, rejected, expired]
  | riskApproved => [outboxPending, expired]
  | outboxPending => [submitting, expired]
  | submitting =>
      [acknowledged, partiallyFilled, filled, rejected, expired, unknown, cancelPending, canceled,
        reviewRequired]
  | acknowledged => [partiallyFilled, filled, cancelPending, expired, reviewRequired]
  | partiallyFilled => [partiallyFilled, filled, cancelPending, expired, reviewRequired]
  | cancelPending => [partiallyFilled, filled, canceled, expired, reviewRequired]
  | unknown =>
      [acknowledged, partiallyFilled, filled, cancelPending, canceled, rejected, expired,
        reviewRequired]
  | filled => [reviewRequired]
  | canceled => [reviewRequired]
  | rejected => [reviewRequired]
  | expired => [reviewRequired]
  | reviewRequired => []

def orderTransitionAllowed (current target : OrderStatus) : Bool :=
  (orderStatusTransitions current).contains target

/-! ### Broker order lifecycle -/

/-- Broker-side order statuses this system records. -/
inductive BrokerOrderStatus where
  | received | accepted | acceptedForBidding | partiallyFilled | filled | pendingCancel | canceled
  | expired | rejected | doneForDay | replaced | pendingReplace | stopped | suspended | calculated
deriving DecidableEq, Repr

namespace BrokerOrderStatus

def value : BrokerOrderStatus → String
  | received => "RECEIVED"
  | accepted => "ACCEPTED"
  | acceptedForBidding => "ACCEPTED_FOR_BIDDING"
  | partiallyFilled => "PARTIALLY_FILLED"
  | filled => "FILLED"
  | pendingCancel => "PENDING_CANCEL"
  | canceled => "CANCELED"
  | expired => "EXPIRED"
  | rejected => "REJECTED"
  | doneForDay => "DONE_FOR_DAY"
  | replaced => "REPLACED"
  | pendingReplace => "PENDING_REPLACE"
  | stopped => "STOPPED"
  | suspended => "SUSPENDED"
  | calculated => "CALCULATED"

/-- Membership in `TERMINAL_BROKER_ORDER_STATUSES`. -/
def isTerminal : BrokerOrderStatus → Bool
  | filled | canceled | expired | rejected => true
  | _ => false

/-- Membership in `REVIEW_BROKER_ORDER_STATUSES`. -/
def isReview : BrokerOrderStatus → Bool
  | doneForDay | replaced | pendingReplace | stopped | suspended | calculated => true
  | _ => false

end BrokerOrderStatus

open BrokerOrderStatus in
def reviewBrokerOrderStatuses : List BrokerOrderStatus :=
  [doneForDay, replaced, pendingReplace, stopped, suspended, calculated]

open BrokerOrderStatus in
/-- The closed lifecycle map of a broker order. -/
def brokerOrderStatusTransitions : BrokerOrderStatus → List BrokerOrderStatus
  | received =>
      [accepted, acceptedForBidding, partiallyFilled, filled, pendingCancel, canceled, expired,
        rejected] ++ reviewBrokerOrderStatuses
  | accepted =>
      [partiallyFilled, filled, pendingCancel, canceled, expired, rejected] ++
        reviewBrokerOrderStatuses
  | acceptedForBidding =>
      [partiallyFilled, filled, pendingCancel, canceled, expired, rejected] ++
        reviewBrokerOrderStatuses
  | partiallyFilled =>
      [partiallyFilled, filled, pendingCancel, canceled, expired, rejected] ++
        reviewBrokerOrderStatuses
  | pendingCancel =>
      [pendingCancel, partiallyFilled, filled, canceled, expired, rejected] ++
        reviewBrokerOrderStatuses
  | _ => []

def brokerOrderTransitionAllowed (current target : BrokerOrderStatus) : Bool :=
  (brokerOrderStatusTransitions current).contains target

/-- The message of a rejected broker transition. -/
def brokerOrderTransitionMessage (current target : BrokerOrderStatus) : String :=
  "broker order status " ++ current.value ++ " -> " ++ target.value ++ " is not representable"

def assertBrokerOrderTransition (current target : BrokerOrderStatus) : Except PyError Unit :=
  if brokerOrderTransitionAllowed current target then .ok ()
  else .error ⟨.invalidBrokerOrderTransition, brokerOrderTransitionMessage current target⟩

/-- The intent status a broker status stands for.  The engine and the trade-update consumer
hold one copy of this map each, with the same entries. -/
def intentStatusByBrokerStatus : BrokerOrderStatus → OrderStatus
  | .received => .acknowledged
  | .accepted => .acknowledged
  | .acceptedForBidding => .acknowledged
  | .partiallyFilled => .partiallyFilled
  | .filled => .filled
  | .pendingCancel => .cancelPending
  | .canceled => .canceled
  | .expired => .expired
  | .rejected => .rejected
  | .doneForDay => .reviewRequired
  | .replaced => .reviewRequired
  | .pendingReplace => .reviewRequired
  | .stopped => .reviewRequired
  | .suspended => .reviewRequired
  | .calculated => .reviewRequired

/-! ### Symbols, quantities and prices -/

def isUpper (c : Char) : Bool := 'A' ≤ c && c ≤ 'Z'

def isLowerOrDigit (c : Char) : Bool := ('a' ≤ c && c ≤ 'z') || ('0' ≤ c && c ≤ '9')

def isDigit (c : Char) : Bool := '0' ≤ c && c ≤ '9'

theorem isDigit_eq (c : Char) : isDigit c = c.isDigit := rfl

def isNonZeroDigit (c : Char) : Bool := '1' ≤ c && c ≤ '9'

/-- The class `[A-Z0-9.\-]`. -/
def isSymbolChar (c : Char) : Bool := isUpper c || isDigit c || c == '.' || c == '-'

/-- The class `[a-z0-9_-]`. -/
def isNameChar (c : Char) : Bool := isLowerOrDigit c || c == '_' || c == '-'

def symbolPattern : Pattern := .cat [.cls isUpper, .upTo 9 isSymbolChar]

def strategyPattern : Pattern := .cat [.cls isLowerOrDigit, .upTo 31 isNameChar]

def windowPattern : Pattern := .cat [.cls isLowerOrDigit, .upTo 63 isNameChar]

def clientOrderIdPattern : Pattern :=
  .cat [.lit "slv1-", strategyPattern,
    .lit "-", .cls isDigit, .cls isDigit, .cls isDigit, .cls isDigit,
    .lit "-", .cls isDigit, .cls isDigit, .lit "-", .cls isDigit, .cls isDigit,
    .lit "-", windowPattern, .lit "-t", .cls isNonZeroDigit, .upTo 9 isDigit,
    .lit "-", symbolPattern, .lit "-", .alt (.lit "buy") (.lit "sell")]

/-- A US-listed ticker in canonical uppercase broker form. -/
structure Symbol where
  value : String
  ok : symbolPattern.fullmatch value = true
deriving DecidableEq, Repr

/-- A positive whole-share quantity. -/
structure OrderQuantity where
  value : Nat
  pos : 1 ≤ value
deriving DecidableEq, Repr

/-- An exact two-decimal price, in cents. -/
structure Price where
  cents : Nat
  ok : 1 ≤ cents ∧ cents ≤ 1000000000
deriving DecidableEq, Repr

/-- An exact two-decimal non-negative amount, in cents. -/
structure UsdAmount where
  cents : Nat
  ok : cents ≤ 1000000000000
deriving DecidableEq, Repr

/-- Bounds a limit price may take around a reference quote. -/
structure PriceCollar where
  reference : Price
  offsetBps : Nat
  ok : 1 ≤ offsetBps ∧ offsetBps ≤ 500
deriving DecidableEq, Repr

namespace PriceCollar

/-- The reference less the offset, rounded down to a cent and never below one cent. -/
def lowerLimit (c : PriceCollar) : Price where
  cents := max (c.reference.cents * (10000 - c.offsetBps) / 10000) 1
  ok := by
    have h := c.reference.ok
    have : c.reference.cents * (10000 - c.offsetBps) / 10000 ≤ c.reference.cents := by
      apply Nat.div_le_of_le_mul
      rw [Nat.mul_comm]
      exact Nat.mul_le_mul_right _ (by omega)
    omega

/-- The reference plus the offset in cents, rounded up. -/
def upperCents (c : PriceCollar) : Nat := (c.reference.cents * (10000 + c.offsetBps) + 9999) / 10000

/-- The upper limit; a ceiling beyond the largest price raises. -/
def upperLimit (c : PriceCollar) : Except PyError Price :=
  if h : 1 ≤ c.upperCents ∧ c.upperCents ≤ 1000000000 then .ok ⟨c.upperCents, h⟩
  else .error ⟨.valueError, "price must be greater than zero and at most 10,000,000.00"⟩

/-- Whether a price lies inside the collar.  The comparison is a chain: the upper limit is
not computed for a price below the lower one. -/
def contains (c : PriceCollar) (price : Price) : Except PyError Bool :=
  if c.lowerLimit.cents ≤ price.cents then
    c.upperLimit.map (fun upper => decide (price.cents ≤ upper.cents))
  else .ok false

end PriceCollar

/-! ### Order intents -/

def maxTargetVersion : Nat := 10000000000

/-- The deterministic idempotency key of one order intent. -/
structure ClientOrderId where
  value : String
  ok : value.length ≤ 128 ∧ clientOrderIdPattern.fullmatch value = true
deriving DecidableEq, Repr

namespace ClientOrderId

def ofText (value : String) : Except PyError ClientOrderId :=
  if h : value.length ≤ 128 ∧ clientOrderIdPattern.fullmatch value = true then .ok ⟨value, h⟩
  else .error ⟨.valueError, "client order id must use the canonical slv1 composition format"⟩

/-- Build the canonical id from its exact components. -/
def compose (strategy : String) (tradingDate : TradingDate) (window : String) (targetVersion : Nat)
    (symbol : Symbol) (side : OrderSide) : Except PyError ClientOrderId :=
  if strategyPattern.fullmatch strategy = false then
    .error ⟨.valueError, "strategy must use lowercase letters, digits, '_' or '-' (max 32)"⟩
  else if windowPattern.fullmatch window = false then
    .error ⟨.valueError, "window must use lowercase letters, digits, '_' or '-' (max 64)"⟩
  else if targetVersion < 1 ∨ maxTargetVersion < targetVersion then
    .error ⟨.valueError, "target_version must be a positive integer up to 10,000,000,000"⟩
  else
    ofText ("slv1-" ++ strategy ++ "-" ++ tradingDate.isoformat ++ "-" ++ window ++ "-t" ++
      toString targetVersion ++ "-" ++ symbol.value ++ "-" ++ side.lower)

end ClientOrderId

/-- A request that may become one Paper order. -/
@[ext] structure OrderIntent where
  intentId : Uuid
  clientOrderId : ClientOrderId
  strategy : String
  tradingDate : TradingDate
  window : String
  targetVersion : Nat
  symbol : Symbol
  side : OrderSide
  quantity : OrderQuantity
  intentType : OrderIntentType
  limitPrice : Price
  collar : PriceCollar
  earliestSubmitAt : UtcTimestamp
  cancelAt : UtcTimestamp
  status : OrderStatus
  runId : RunId
  createdAt : UtcTimestamp
  intentId_ne : intentId.int ≠ 0
  cancel_after : earliestSubmitAt < cancelAt
  in_collar : collar.contains limitPrice = .ok true
  id_eq : ClientOrderId.compose strategy tradingDate window targetVersion symbol side =
    .ok clientOrderId

instance : DecidableEq OrderIntent := fun _ _ => decidable_of_iff' _ OrderIntent.ext_iff

namespace OrderIntent

/-- A fresh intent in `created`; risk approval is a later transition. -/
def create (strategy : String) (tradingDate : TradingDate) (window : String) (targetVersion : Nat)
    (symbol : Symbol) (side : OrderSide) (quantity : OrderQuantity) (intentType : OrderIntentType)
    (limitPrice : Price) (collar : PriceCollar) (earliestSubmitAt cancelAt : UtcTimestamp)
    (runId : RunId) (createdAt : UtcTimestamp) (intentId : Uuid) : Except PyError OrderIntent :=
  match hid : ClientOrderId.compose strategy tradingDate window targetVersion symbol side with
  | .error e => .error e
  | .ok clientOrderId =>
      if hne : intentId.int ≠ 0 then
        if hafter : earliestSubmitAt < cancelAt then
          match hin : collar.contains limitPrice with
          | .error e => .error e
          | .ok false => .error ⟨.valueError, "limit_price must lie inside the price collar"⟩
          | .ok true =>
              .ok { intentId, clientOrderId, strategy, tradingDate, window, targetVersion, symbol,
                    side, quantity, intentType, limitPrice, collar, earliestSubmitAt, cancelAt,
                    status := .created, runId, createdAt, intentId_ne := hne,
                    cancel_after := hafter, in_collar := hin, id_eq := hid }
        else .error ⟨.valueError, "cancel_at must be after earliest_submit_at"⟩
      else .error ⟨.valueError, "intent_id must be a non-nil UUID"⟩

/-- A new intent waits for its approval. -/
theorem create_status {strategy : String} {tradingDate : TradingDate} {window : String} {targetVersion : Nat}
    {symbol : Symbol} {side : OrderSide} {quantity : OrderQuantity} {intentType : OrderIntentType}
    {limitPrice : Price} {collar : PriceCollar} {earliestSubmitAt cancelAt : UtcTimestamp} {runId : RunId}
    {createdAt : UtcTimestamp} {intentId : Uuid} {i : OrderIntent}
    (h : create strategy tradingDate window targetVersion symbol side quantity intentType limitPrice collar
      earliestSubmitAt cancelAt runId createdAt intentId = .ok i) : i.status = .created := by
  unfold create at h
  split at h
  · cases h
  · split at h
    · split at h
      · split at h
        · cases h
        · cases h
        · cases h
          rfl
      · cases h
    · cases h

/-- The same intent in another status; identity fields never change. -/
def withStatus (i : OrderIntent) (target : OrderStatus) : OrderIntent := { i with status := target }

@[simp] theorem withStatus_status (i : OrderIntent) (t : OrderStatus) :
    (i.withStatus t).status = t := rfl

@[simp] theorem withStatus_clientOrderId (i : OrderIntent) (t : OrderStatus) :
    (i.withStatus t).clientOrderId = i.clientOrderId := rfl

@[simp] theorem withStatus_self (i : OrderIntent) : i.withStatus i.status = i := rfl

@[simp] theorem withStatus_withStatus (i : OrderIntent) (s t : OrderStatus) :
    (i.withStatus s).withStatus t = i.withStatus t := rfl

end OrderIntent

/-! ### Broker orders and fills -/

/-- The local mirror of one broker-side Paper order. -/
structure BrokerOrder where
  brokerOrderId : String
  clientOrderId : ClientOrderId
  symbol : Symbol
  side : OrderSide
  quantity : OrderQuantity
  filledQuantity : Nat
  limitPrice : Price
  status : BrokerOrderStatus
  submittedAt : UtcTimestamp
  updatedAt : UtcTimestamp
  id_ok : IsIdText 100 brokerOrderId
  filled_le : filledQuantity ≤ quantity.value
deriving DecidableEq

/-- Neither terminal nor in review. -/
def BrokerOrder.isOpen (o : BrokerOrder) : Bool := !o.status.isTerminal && !o.status.isReview

/-- The columns of a broker order that never change. -/
structure BrokerOrder.SameBase (o p : BrokerOrder) : Prop where
  brokerOrderId : o.brokerOrderId = p.brokerOrderId
  clientOrderId : o.clientOrderId = p.clientOrderId
  symbol : o.symbol = p.symbol
  side : o.side = p.side
  quantity : o.quantity = p.quantity
  limitPrice : o.limitPrice = p.limitPrice
  submittedAt : o.submittedAt = p.submittedAt

namespace BrokerOrder.SameBase

theorem refl (o : BrokerOrder) : o.SameBase o := ⟨rfl, rfl, rfl, rfl, rfl, rfl, rfl⟩

theorem trans {o p q : BrokerOrder} (h : o.SameBase p) (h' : p.SameBase q) : o.SameBase q :=
  ⟨h.1.trans h'.1, h.2.trans h'.2, h.3.trans h'.3, h.4.trans h'.4, h.5.trans h'.5, h.6.trans h'.6,
    h.7.trans h'.7⟩

theorem eq_of {o p q : BrokerOrder} (h : o.SameBase q) (h' : p.SameBase q)
    (hs : o.status = p.status) (hn : o.filledQuantity = p.filledQuantity)
    (ht : o.updatedAt = p.updatedAt) : o = p := by
  obtain ⟨h₁, h₂, h₃, h₄, h₅, h₆, h₇⟩ := h
  obtain ⟨k₁, k₂, k₃, k₄, k₅, k₆, k₇⟩ := h'
  cases o; cases p
  simp_all

end BrokerOrder.SameBase

/-- One broker execution against a broker order; immutable once recorded. -/
structure Fill where
  executionId : String
  brokerOrderId : String
  quantity : OrderQuantity
  price : Price
  occurredAt : UtcTimestamp
  execution_ok : IsIdText 100 executionId
  order_ok : IsIdText 100 brokerOrderId
deriving DecidableEq

/-- Total quantity of a list of fills. -/
def fillTotal (fills : List Fill) : Nat := (fills.map (fun f => f.quantity.value)).sum

@[simp] theorem fillTotal_nil : fillTotal [] = 0 := rfl

@[simp] theorem fillTotal_cons (f : Fill) (l : List Fill) :
    fillTotal (f :: l) = f.quantity.value + fillTotal l := by
  simp [fillTotal]

@[simp] theorem fillTotal_append (l m : List Fill) :
    fillTotal (l ++ m) = fillTotal l + fillTotal m := by
  simp [fillTotal]

end SevenLens
