import SevenLens.Library.Prog
import SevenLens.Store

/-! # Ports

The calls the services make: to the store, to the Paper broker, to the clock, to the price
provider and to the generator of random identifiers.  A service is a `Proc`, a program over
these calls that raises `PyError`. -/

namespace SevenLens

open Calls

/-! ### The Paper broker port -/

inductive BrokerEnvironment where
  | paper
deriving DecidableEq, Repr

inductive RejectionReason where
  | insufficientCash | symbolNotTradeable | outsideTradingWindow | orderParametersRejected
deriving DecidableEq, Repr

inductive AssetClass where
  | usEquity | usOption | crypto | future
deriving DecidableEq, Repr

inductive AssetStatus where
  | active | inactive
deriving DecidableEq, Repr

/-- Typed tradability of one symbol on the Paper account. -/
structure PaperAsset where
  symbol : Symbol
  assetClass : AssetClass
  status : AssetStatus
  tradable : Bool
deriving DecidableEq, Repr

/-- The broker's own view of the Paper account. -/
@[ext] structure PaperAccount where
  accountId : String
  environment : BrokerEnvironment
  cash : UsdAmount
  equity : UsdAmount
  buyingPower : UsdAmount
  account_ok : IsBoundedText 100 accountId
deriving Repr

instance : DecidableEq PaperAccount := fun _ _ => decidable_of_iff' _ PaperAccount.ext_iff

/-- The broker's own view of one open position. -/
@[ext] structure PaperPosition where
  symbol : Symbol
  quantity : Nat
  averageEntryPrice : Price
  pos : 1 ≤ quantity
deriving Repr

instance : DecidableEq PaperPosition := fun _ _ => decidable_of_iff' _ PaperPosition.ext_iff

inductive SubmitResult where
  | accepted (order : BrokerOrder)
  | rejected (reason : RejectionReason)
deriving DecidableEq

inductive BrokerCall where
  | account
  | submitOrder (intent : OrderIntent)
  | getOrder (c : ClientOrderId)
  | listRecentOrders (since : UtcTimestamp)
  | listOpenOrders
  | listPositions
  | listFills (brokerOrderId : String)
  | getAsset (symbol : Symbol)
  | cancelOrder (brokerOrderId : String)
deriving DecidableEq

def BrokerCall.Ans : BrokerCall → Type
  | account => PaperAccount
  | submitOrder _ => SubmitResult
  | getOrder _ => Option BrokerOrder
  | listRecentOrders _ => List BrokerOrder
  | listOpenOrders => List BrokerOrder
  | listPositions => List PaperPosition
  | listFills _ => List Fill
  | getAsset _ => Option PaperAsset
  | cancelOrder _ => Bool

/-! ### All calls -/

/-- The connection a store call uses: the caller's unit of work, or the connection behind a
control repository given to the engine at construction. -/
inductive Handle where
  | uow | ctl
deriving DecidableEq, Repr

inductive Call where
  | store (h : Handle) (c : StoreCall)
  /-- `lock_control_state_for_submission`: read the control row and hold it exclusively. -/
  | lockControl (h : Handle)
  | commit (h : Handle)
  | rollback (h : Handle)
  /-- Write the pause through a fresh connection. -/
  | persistSafetyPause (reason : String)
  | beginReconciliationSnapshot
  | broker (c : BrokerCall)
  | clock
  | currentPrice (symbol : Symbol)
  | uuid4
deriving DecidableEq

def Call.Ans : Call → Type
  | store _ c => c.Ans
  | lockControl _ => ControlStateSnapshot
  | commit _ => Unit
  | rollback _ => Unit
  | persistSafetyPause _ => Unit
  | beginReconciliationSnapshot => Unit
  | broker c => c.Ans
  | clock => UtcTimestamp
  | currentPrice _ => Price
  | uuid4 => Uuid

def ports : Sig := ⟨Call, Call.Ans⟩

instance : DecidableEq ports.Call := inferInstanceAs (DecidableEq Call)

/-- A service program. -/
abbrev Proc := Prog ports PyError

/-- Issue one call. -/
def ask (c : Call) : Proc c.Ans := Prog.perform (S := ports) c

/-- Raise an exception of the given class. -/
def fail {α : Type} (kind : ErrorKind) (message : String) : Proc α := Prog.raise ⟨kind, message⟩

/-! ### The order repository -/

section Orders

def orderStatement (c : StoreCall) : Proc c.Ans := ask (.store .uow c)

def addIntent (i : OrderIntent) : Proc OrderIntent := orderStatement (.addIntent i)

def getIntent (c : ClientOrderId) : Proc (Option OrderIntent) := orderStatement (.getIntent c)

def listByStatus (s : OrderStatus) : Proc (List OrderIntent) := orderStatement (.listByStatus s)

def transitionStatus (c : ClientOrderId) (target : OrderStatus) : Proc OrderIntent :=
  orderStatement (.transitionStatus c target)

def recordBrokerOrder (o : BrokerOrder) : Proc BrokerOrder := orderStatement (.recordBrokerOrder o)

def getBrokerOrder (c : ClientOrderId) : Proc (Option BrokerOrder) :=
  orderStatement (.getBrokerOrder c)

def getBrokerOrderById (b : String) : Proc (Option BrokerOrder) :=
  orderStatement (.getBrokerOrderById b)

def updateBrokerOrderStatus (b : String) (status : BrokerOrderStatus) (filled : Nat)
    (observedAt : Option UtcTimestamp) : Proc BrokerOrder :=
  orderStatement (.updateBrokerOrderStatus b status filled observedAt)

def addFill (f : Fill) : Proc Bool := orderStatement (.addFill f)

def getFillByExecutionId (e : String) : Proc (Option Fill) := orderStatement (.getFillByExecutionId e)

def listFills (b : String) : Proc (List Fill) := orderStatement (.listFills b)

def listOpenBrokerOrders : Proc (List BrokerOrder) := orderStatement .listOpenBrokerOrders

def listAllBrokerOrders : Proc (List BrokerOrder) := orderStatement .listAllBrokerOrders

def listAllFills : Proc (List Fill) := orderStatement .listAllFills

end Orders

/-! ### Control, reconciliation and the unit of work -/

def controlState (h : Handle) : Proc ControlStateSnapshot := ask (.store h .controlState)

def setEntriesPaused (h : Handle) (paused : Bool) (reason : Option String) : Proc ControlStateSnapshot :=
  ask (.store h (.setEntriesPaused paused reason))

def addCommand (h : Handle) (r : ControlCommandRecord) : Proc (Option UtcTimestamp) :=
  ask (.store h (.addCommand r))

def bumpFlattenGeneration (h : Handle) : Proc Nat := ask (.store h .bumpFlattenGeneration)

def lockControl (h : Handle) : Proc ControlStateSnapshot := ask (.lockControl h)

def addRun (r : ReconciliationResult) : Proc UtcTimestamp := ask (.store .uow (.addRun r))

def latestRun : Proc (Option ReconciliationResult) := ask (.store .uow .latestRun)

def getBaseline (accountId : String) : Proc (Option AccountBaseline) :=
  ask (.store .uow (.getBaseline accountId))

def commitOn (h : Handle) : Proc Unit := ask (.commit h)

def rollbackOn (h : Handle) : Proc Unit := ask (.rollback h)

def commit : Proc Unit := commitOn .uow

def rollback : Proc Unit := rollbackOn .uow

def persistSafetyPause (reason : String) : Proc Unit := ask (.persistSafetyPause reason)

def beginReconciliationSnapshot : Proc Unit := ask .beginReconciliationSnapshot

/-! ### The broker, the clock, prices and identifiers -/

def brokerAccount : Proc PaperAccount := ask (.broker .account)

def submitOrder (i : OrderIntent) : Proc SubmitResult := ask (.broker (.submitOrder i))

def getOrder (c : ClientOrderId) : Proc (Option BrokerOrder) := ask (.broker (.getOrder c))

def listRecentOrders (since : UtcTimestamp) : Proc (List BrokerOrder) :=
  ask (.broker (.listRecentOrders since))

def listOpenOrders : Proc (List BrokerOrder) := ask (.broker .listOpenOrders)

def listPositions : Proc (List PaperPosition) := ask (.broker .listPositions)

def listBrokerFills (b : String) : Proc (List Fill) := ask (.broker (.listFills b))

def getAsset (s : Symbol) : Proc (Option PaperAsset) := ask (.broker (.getAsset s))

def cancelOrder (b : String) : Proc Bool := ask (.broker (.cancelOrder b))

def clock : Proc UtcTimestamp := ask .clock

def currentPrice (s : Symbol) : Proc Price := ask (.currentPrice s)

def uuid4 : Proc Uuid := ask .uuid4

end SevenLens
