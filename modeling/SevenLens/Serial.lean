import SevenLens.ControlPlane
import SevenLens.EntryGate

/-! # Operations one at a time

The operations of all services, each in a unit of work of its own and without interference,
with the rule of PostgreSQL that a database error aborts the transaction: until it ends, its
statements raise, and its commit discards it.  Services that catch every exception and commit
(the control plane) are exposed to this rule.

`Lawful op` lists, once for all operations, what each of them does to the order tables: which
moves of an intent it makes and on what evidence, which broker orders it mirrors, when it
commits and when it submits.  Ghosts of `Tx` hold the evidence: the broker order shown last,
the submission refused last, the fills listed last, the intent whose mirror the running
transaction has recorded and the tables the operation has started from. -/

namespace SevenLens

open Calls Prog

/-! ### Operations -/

/-- The operations of the services, by the arguments their callers give. -/
inductive Operation where
  | add (i : OrderIntent)
  | engine (cfg : EngineConfig) (op : EngineOp)
  | consume (u : TradeUpdate)
  | reconcile (cfg : ReconcilerConfig) (d : TradingDate)
  | pause (reason actor : String)
  | resume (actor : String)
  | cancelOpen (cfg : EngineConfig) (reason actor : String)
  | flatten (cfg : EngineConfig) (priceProvider : Bool) (d : TradingDate) (reason actor confirmation : String)

/-- Run an operation for its effect. -/
def Operation.proc (uuid5 : NameUuid) : Operation → Proc Unit
  | add i => (SevenLens.addIntent i).bind fun _ => commit
  | engine cfg op => op.proc cfg uuid5
  | consume u => (applyUpdate uuid5 u).bind fun _ => ret ()
  | reconcile cfg d => (SevenLens.reconcile cfg d).bind fun _ => ret ()
  | pause reason actor => (pauseEntries reason actor).bind fun _ => ret ()
  | resume actor => (resumeEntries actor).bind fun _ => ret ()
  | cancelOpen cfg reason actor => (cancelOpenOrders cfg uuid5 reason actor).bind fun _ => ret ()
  | flatten cfg priceProvider d reason actor confirmation =>
      (flattenPaper cfg uuid5 priceProvider d reason actor confirmation).bind fun _ => ret ()

/-- How the engine of an operation finds its control repository. -/
def Operation.config : Operation → Option EngineConfig
  | engine cfg _ | cancelOpen cfg _ _ | flatten cfg _ _ _ _ _ => some cfg
  | _ => none

/-- A flatten, which alone takes a new generation. -/
def Operation.isFlatten : Operation → Bool
  | flatten _ _ _ _ _ _ => true
  | _ => false

/-- Intent `i` may be reserved: a submission from the outbox has found it there. -/
def Operation.Reserves (origin : Db) (i : OrderIntent) : Operation → Prop
  | engine _ (.submitFromOutbox c) => i.clientOrderId = c ∧ origin.intents.get c = some i
  | flatten _ _ _ _ _ _ => True
  | _ => False

/-- Intent `i` may be submitted: a submission from the outbox has reserved it. -/
def Operation.Submits (origin : Db) (i : OrderIntent) : Operation → Prop
  | engine _ (.submitFromOutbox c) =>
      ∃ j, origin.intents.get c = some j ∧ j.status = .outboxPending ∧ i = j.withStatus .submitting
  | _ => True

/-- The engine adds no intents. -/
def Operation.isEngine : Operation → Bool
  | engine _ _ => true
  | _ => false

/-! ### Transactions that abort -/

/-- A running operation. -/
structure Tx where
  world : World
  /-- A database error has aborted the transaction of the connection. -/
  aborted : Handle → Bool
  /-- Ghost: the order the broker showed last. -/
  shown : Option BrokerOrder
  /-- Ghost: the intent whose submission the broker refused last. -/
  refused : Option ClientOrderId
  /-- Ghost: the fills the broker listed last. -/
  listed : List Fill
  /-- Ghost: the intent whose mirror the transaction has recorded last. -/
  absorbed : Option ClientOrderId
  /-- Ghost: the tables at the start of the operation. -/
  origin : Db

namespace Tx

/-- Fresh connections. -/
def start (db : Db) : Tx := ⟨.start db, fun _ => false, none, none, [], none, db⟩

/-- What statements of the unit of work see. -/
def view (s : Tx) : Db := s.world.view .uow

/-- A call has passed without effect. -/
def pass (s : Tx) : Tx := { s with world := s.world.next }

/-- The transaction of a connection has ended. -/
def ended (s : Tx) (h : Handle) (w : World) : Tx where
  world := w
  aborted := Function.update s.aborted h false
  shown := if h = .uow then none else s.shown
  refused := if h = .uow then none else s.refused
  listed := s.listed
  absorbed := if h = .uow then none else s.absorbed
  origin := s.origin

/-- The evidence an answer of the broker gives. -/
def told (s : Tx) : (b : BrokerCall) → Except PyError b.Ans → Tx
  | .getOrder _, .ok o => { s.pass with shown := o }
  | .submitOrder _, .ok (.accepted o) => { s.pass with shown := some o }
  | .submitOrder i, .ok (.rejected _) => { s.pass with refused := some i.clientOrderId }
  | .listFills _, .ok l => { s.pass with listed := l }
  | _, _ => s.pass

/-- A statement has been answered. -/
def stated (s : Tx) (h : Handle) (c : StoreCall) (r : Except PyError c.Ans) (w : World) : Tx :=
  match r with
  | .error e => { s with world := w, aborted := if e.kind = .database then Function.update s.aborted h true
      else s.aborted }
  | .ok _ => match h, c with
    | .uow, .transitionStatus _ _ => { s with world := w, shown := none, refused := none }
    | .uow, .recordBrokerOrder o => { s with world := w, absorbed := some o.clientOrderId }
    | _, _ => { s with world := w }

end Tx

/-- What a statement of an aborted transaction raises. -/
def abortedError : PyError :=
  ⟨.database, "current transaction is aborted, commands ignored until end of transaction block"⟩

/-- Answer a call, with transactions that abort. -/
def transact (env : Env) : Prog.Handler ports PyError Tx := fun c s => match c with
  | .store h c =>
      if s.aborted h then (.error abortedError, s.pass)
      else
        let out := handler env (.store h c) s.world
        (out.1, s.stated h c out.1 out.2)
  | .lockControl h =>
      if s.aborted h then (.error abortedError, s.pass)
      else (.ok (s.world.view h).control, s.pass)
  | .commit h =>
      (.ok (), s.ended h (if s.aborted h then s.world.next.rollback h else s.world.next.commit h))
  | .rollback h => (.ok (), s.ended h (s.world.next.rollback h))
  | .persistSafetyPause reason =>
      let out := handler env (.persistSafetyPause reason) s.world
      (out.1, { s with world := out.2 })
  | .beginReconciliationSnapshot =>
      match s.world.session.uow with
      | [] => (.ok (), s.ended .uow s.world.next)
      | _ :: _ => (.error ⟨.unitOfWorkState,
          "reconciliation snapshot must begin before any unit-of-work writes"⟩, s.pass)
  | .broker b => (env.broker s.world.tick b, s.told b (env.broker s.world.tick b))
  | .clock => (.ok (env.clock s.world.tick), s.pass)
  | .currentPrice x => (env.price s.world.tick x, s.pass)
  | .uuid4 => (.ok (env.uuid s.world.tick), s.pass)

/-! ### What the operations do -/

/-- The intent may be mirrored: it has been submitted and is not closed. -/
def OrderStatus.isSubmitted : OrderStatus → Bool
  | submitting | unknown | acknowledged | partiallyFilled | cancelPending => true
  | _ => false

/-- The filled quantity of a mirror after a new fill. -/
def filledWith (db : Db) (r : MirrorRow) (f : Fill) : Nat :=
  let total := fillTotal (db.fillsOf r.brokerOrderId) + f.quantity.value
  if total < r.order.filledQuantity then r.order.filledQuantity else total

/-- An update, delivered to the tables, gives the mirror of intent `k` the status `t`. -/
def Delivers (db : Db) (k : ClientOrderId) (t : BrokerOrderStatus) : TradeUpdate → Prop
  | .status u => u.clientOrderId = k ∧ u.status = t ∧ ∃ r, db.mirrorOf k = some r ∧
      r.brokerOrderId = u.brokerOrderId ∧ ¬ u.observedAt < r.order.updatedAt ∧
      ¬ (u.status = r.order.status ∧ u.filledQuantity = r.order.filledQuantity) ∧ checkStatus r.order u = .ok ()
  | .fill f => ∃ r, db.mirrors.get f.brokerOrderId = some r ∧ r.clientOrderId = k ∧
      db.fills.get f.executionId = none ∧ filledWith db r f ≤ r.order.quantity.value ∧
      fillBrokerTarget r.order (filledWith db r f) = .ok t

/-- Moves of intent `i` to status `t`, by their evidence. -/
inductive MoveLaw (op : Operation) (s : Tx) (i : OrderIntent) : OrderStatus → Prop
  /-- Reservation of a submission. -/
  | reserve (h : i.status = .outboxPending) (hop : op.Reserves s.origin i) : MoveLaw op s i .submitting
  /-- The outcome of a submission is not known. -/
  | ambiguous (h : i.status = .submitting ∨ i.status = .unknown) (hs : s.absorbed ≠ some i.clientOrderId) :
      MoveLaw op s i .unknown
  /-- The broker has refused the submission. -/
  | refuse (h : i.status = .submitting ∨ i.status = .unknown) (hs : s.absorbed ≠ some i.clientOrderId)
      (hr : s.refused = some i.clientOrderId) : MoveLaw op s i .rejected
  /-- A conflict. -/
  | review : MoveLaw op s i .reviewRequired
  /-- The window has closed before the intent was submitted. -/
  | overdue (h : i.status = .created ∨ i.status = .riskApproved ∨ i.status = .outboxPending) :
      MoveLaw op s i .expired
  /-- A cancel is requested. -/
  | cancel (h : i.status = .acknowledged ∨ i.status = .partiallyFilled) : MoveLaw op s i .cancelPending
  /-- The intent follows the broker order just mirrored. -/
  | follow {o : BrokerOrder} {m : MirrorRow} (hs : s.absorbed = some i.clientOrderId) (ho : s.shown = some o)
      (hc : o.clientOrderId = i.clientOrderId) (hm : s.view.mirrorOf i.clientOrderId = some m)
      (hst : m.order.status = o.status) (hi : i.status.isSubmitted = true) :
      MoveLaw op s i (refreshTarget o.status i.status)
  /-- The intent follows its mirror, which the stream has updated. -/
  | stream {u : TradeUpdate} {m : MirrorRow} {t : OrderStatus} (hop : op = .consume u)
      (hu : Delivers s.origin i.clientOrderId m.order.status u)
      (hi : s.origin.intents.get i.clientOrderId = some i ∨ m.order.status = .canceled)
      (hm : s.view.mirrorOf i.clientOrderId = some m)
      (ht : t = fillIntentTarget m.order.status i.status ∨ t = statusIntentTarget m.order.status i.status ∨
        (m.order.status = .canceled ∧ (t = .cancelPending ∨ t = .canceled))) : MoveLaw op s i t
  /-- An exit of a flatten goes to the outbox. -/
  | approve : MoveLaw op s i .riskApproved
  | enqueue : MoveLaw op s i .outboxPending

/-- No intent whose mirror the transaction has recorded still waits for its submission. -/
def Whole (s : Tx) : Prop :=
  ∀ k ∈ s.absorbed, ∀ i, s.view.intents.get k = some i → i.status ≠ .submitting ∧ i.status ≠ .unknown

/-- A commit makes only consistent rows durable. -/
def Safe (s : Tx) : Prop := s.aborted .uow = true ∨ Whole s

/-- The mirror of a broker order may be recorded. -/
structure RecordLaw (s : Tx) (o : BrokerOrder) : Prop where
  shown : s.shown = some o
  whole : Whole s
  intent : ∃ i, s.view.intents.get o.clientOrderId = some i ∧ i.status.isSubmitted = true ∧
    o.symbol = i.symbol ∧ o.side = i.side ∧ o.quantity = i.quantity ∧ o.limitPrice = i.limitPrice

/-- A fill that the broker lists for the order just mirrored. -/
structure FillLaw (s : Tx) (f : Fill) : Prop where
  listed : f ∈ s.listed
  order : ∃ o, s.shown = some o ∧ f.brokerOrderId = o.brokerOrderId ∧ s.absorbed = some o.clientOrderId

/-- An intent may be submitted. -/
structure SubmitLaw (op : Operation) (s : Tx) (i : OrderIntent) : Prop where
  current : s.view.intents.get i.clientOrderId = some i
  reserved : i.status = .submitting ∨ i.status = .unknown
  durable : s.world.db.intents.get i.clientOrderId = some i
  gated : ∃ cfg, op.config = some cfg ∧ (i.intentType = .rebalance → cfg.guardControl.isSome →
    ∀ j ∈ s.view.intents.rows, j.status ≠ .unknown ∧ j.status ≠ .reviewRequired)
  outbox : op.Submits s.origin i

/-- The statements of the unit of work that write orders or resume entries. -/
def StatementLaw (op : Operation) (s : Tx) : StoreCall → Prop
  | .addIntent i => i.status ≠ .filled ∧ i.status ≠ .canceled ∧ (s.shown = none ∨ i.status = .created) ∧
      op.isEngine = false
  | .transitionStatus k t => ∃ i, s.view.intents.get k = some i ∧ MoveLaw op s i t
  | .recordBrokerOrder o => RecordLaw s o
  | .updateBrokerOrderStatus _ _ _ _ => ∃ u, op = .consume u
  | .addFill f => (∃ u, op = .consume u) ∨ FillLaw s f
  | .setEntriesPaused false _ => (∃ actor, op = .resume actor) ∧ s.view = s.world.db
  | .bumpFlattenGeneration => op.isFlatten = true
  | _ => True

/-- What an operation may call, and in which state. -/
def Lawful (op : Operation) (s : Tx) : Call → Prop
  | .store .uow c => s.aborted .uow = true ∨ StatementLaw op s c
  | .store .ctl c => c.isQuiet = true
  | .commit .uow => Safe s
  | .broker (.submitOrder i) => SubmitLaw op s i
  | _ => True

/-- One operation without interference.  `adm` says what the broker may answer. -/
def serial (op : Operation) (adm : Tx → (b : BrokerCall) → Except PyError b.Ans → Prop) :
    System ports PyError Tx where
  Step s c r s' := ∃ env : Env, env.Mild ∧ (∀ b, c = .broker b → adm s b (env.broker s.world.tick b)) ∧
    r = (transact env c s).1 ∧ s' = (transact env c s).2
  Ok := Lawful op

end SevenLens
