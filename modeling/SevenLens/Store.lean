import SevenLens.Library.Table
import SevenLens.Records
import Mathlib.Data.List.Sort

/-! # The authoritative store

The PostgreSQL tables behind the order, control, reconciliation and baseline repositories.
`Db` is the content of the tables, a `Write` is one row written by a statement, and
`exec now c db` is what statement `c` answers in a transaction that sees `db`: the value
returned and the rows written, or the exception that the repository or a database guard
raises, in which case nothing is written.

The guard triggers and the check constraints of the migrations are part of `exec`.  The
status maps of the triggers are separate definitions from the maps of the order domain, as
they are in the source. -/

namespace SevenLens

/-! ### Guard functions of the schema -/

/-- The largest `BIGINT` and the largest `INTEGER`. -/
def bigintMax : Nat := 2 ^ 63 - 1

def integerMax : Nat := 2 ^ 31 - 1

open OrderStatus in
/-- `order_status_transition_is_valid` of migration 0015. -/
def orderStatusTransitionIsValid (current target : OrderStatus) : Bool :=
  match current with
  | created => [riskApproved, rejected, expired].contains target
  | riskApproved => [outboxPending, expired].contains target
  | outboxPending => [submitting, expired].contains target
  | submitting =>
      [acknowledged, partiallyFilled, filled, rejected, expired, unknown, cancelPending, canceled,
        reviewRequired].contains target
  | acknowledged =>
      [partiallyFilled, filled, cancelPending, expired, reviewRequired].contains target
  | partiallyFilled =>
      [partiallyFilled, filled, cancelPending, expired, reviewRequired].contains target
  | cancelPending => [partiallyFilled, filled, canceled, expired, reviewRequired].contains target
  | filled => target == reviewRequired
  | canceled => target == reviewRequired
  | rejected => target == reviewRequired
  | expired => target == reviewRequired
  | unknown =>
      [acknowledged, partiallyFilled, filled, cancelPending, canceled, rejected, expired,
        reviewRequired].contains target
  | reviewRequired => false

open BrokerOrderStatus in
/-- `broker_order_status_transition_is_valid` of migration 0007. -/
def brokerOrderStatusTransitionIsValid (current target : BrokerOrderStatus) : Bool :=
  match current with
  | received =>
      [accepted, acceptedForBidding, partiallyFilled, filled, pendingCancel, canceled, expired,
        rejected, doneForDay, replaced, pendingReplace, stopped, suspended, calculated].contains target
  | accepted =>
      [partiallyFilled, filled, pendingCancel, canceled, expired, rejected, doneForDay, replaced,
        pendingReplace, stopped, suspended, calculated].contains target
  | acceptedForBidding =>
      [partiallyFilled, filled, pendingCancel, canceled, expired, rejected, doneForDay, replaced,
        pendingReplace, stopped, suspended, calculated].contains target
  | partiallyFilled =>
      [partiallyFilled, filled, pendingCancel, canceled, expired, rejected, doneForDay, replaced,
        pendingReplace, stopped, suspended, calculated].contains target
  | pendingCancel =>
      [pendingCancel, partiallyFilled, filled, canceled, expired, rejected, doneForDay, replaced,
        pendingReplace, stopped, suspended, calculated].contains target
  | _ => false

/-- The trigger map of intents is the map of the order domain. -/
theorem orderStatusTransitionIsValid_eq (s t : OrderStatus) :
    orderStatusTransitionIsValid s t = orderTransitionAllowed s t := by
  cases s <;> cases t <;> rfl

/-- The trigger map of broker orders is the map of the order domain. -/
theorem brokerOrderStatusTransitionIsValid_eq (s t : BrokerOrderStatus) :
    brokerOrderStatusTransitionIsValid s t = brokerOrderTransitionAllowed s t := by
  cases s <;> cases t <;> rfl

/-! ### Rows and tables -/

/-- A row of `broker_orders`, with what its column types and guards ensure.  A row whose
`broker_updated_at` is `NULL` is read back with its submission time as watermark. -/
structure MirrorRow where
  order : BrokerOrder
  watermarkKnown : Bool
  unknown_eq : watermarkKnown = false → order.updatedAt = order.submittedAt
  exact : order.status = .filled → order.filledQuantity = order.quantity.value
  fits : order.quantity.value ≤ bigintMax
deriving DecidableEq

namespace MirrorRow

def brokerOrderId (r : MirrorRow) : String := r.order.brokerOrderId

def clientOrderId (r : MirrorRow) : ClientOrderId := r.order.clientOrderId

end MirrorRow

/-- The content of the tables. -/
structure Db where
  intents : Table OrderIntent.clientOrderId
  mirrors : Table MirrorRow.brokerOrderId
  fills : Table Fill.executionId
  control : ControlStateSnapshot
  commands : Table ControlCommandRecord.commandId
  runs : List ReconciliationResult
  baselineRevisions : List AccountBaseline
  accountBaselines : List AccountBaseline
  client_unique : (mirrors.rows.map MirrorRow.clientOrderId).Nodup

theorem Db.no_mirrors_unique :
    ((Table.empty : Table MirrorRow.brokerOrderId).rows.map MirrorRow.clientOrderId).Nodup := List.nodup_nil

theorem Db.no_reason_ok : ∀ r ∈ (none : Option String), IsBoundedText 200 r := fun _ h => nomatch h

/-- One row written by a statement. -/
inductive Write where
  | addIntent (i : OrderIntent)
  | putIntent (i : OrderIntent)
  | addMirror (r : MirrorRow)
  | putMirror (r : MirrorRow)
  | addFill (f : Fill)
  | putControl (c : ControlStateSnapshot)
  | addCommand (c : ControlCommandRecord)
  | addRun (r : ReconciliationResult)

namespace Db

/-- The recorded fills of one broker order. -/
def fillsOf (db : Db) (brokerOrderId : String) : List Fill :=
  db.fills.rows.filter (fun f => f.brokerOrderId = brokerOrderId)

/-- The mirror row of one client order id. -/
def mirrorOf (db : Db) (c : ClientOrderId) : Option MirrorRow :=
  db.mirrors.rows.find? (fun r => r.clientOrderId = c)

/-- Some intent is in status `s`. -/
def hasStatus (db : Db) (s : OrderStatus) : Bool := db.intents.rows.any (fun i => i.status == s)

/-- Write one row. -/
def apply (db : Db) : Write → Db
  | .addIntent i => { db with intents := db.intents.add i }
  | .putIntent i => { db with intents := db.intents.put i }
  | .addMirror r =>
      if h : db.mirrors.get r.brokerOrderId = none ∧
          r.clientOrderId ∉ db.mirrors.rows.map MirrorRow.clientOrderId then
        { db with
          mirrors := db.mirrors.add r
          client_unique := by
            rw [Table.add_rows h.1, List.map_append, List.nodup_append]
            refine ⟨db.client_unique, by simp, fun a ha b hb => ?_⟩
            rw [List.map_cons, List.map_nil, List.mem_singleton] at hb
            rintro rfl
            exact h.2 (hb ▸ ha) }
      else db
  | .putMirror r =>
      if h : ∀ o, db.mirrors.get r.brokerOrderId = some o → o.clientOrderId = r.clientOrderId then
        { db with
          mirrors := db.mirrors.put r
          client_unique := by
            rw [Table.map_put MirrorRow.clientOrderId h]
            exact db.client_unique }
      else db
  | .addFill f => { db with fills := db.fills.add f }
  | .putControl c => { db with control := c }
  | .addCommand c => { db with commands := db.commands.add c }
  | .addRun r => { db with runs := db.runs ++ [r] }

/-- Write rows in order. -/
def applyAll (db : Db) (ws : List Write) : Db := ws.foldl apply db

@[simp] theorem applyAll_nil (db : Db) : db.applyAll [] = db := rfl

@[simp] theorem applyAll_cons (db : Db) (w : Write) (ws : List Write) :
    db.applyAll (w :: ws) = (db.apply w).applyAll ws := rfl

theorem applyAll_append (db : Db) (ws vs : List Write) :
    db.applyAll (ws ++ vs) = (db.applyAll ws).applyAll vs := List.foldl_append

end Db

/-! ### Statements -/

/-- The statements of the repositories. -/
inductive StoreCall where
  | addIntent (i : OrderIntent)
  | getIntent (c : ClientOrderId)
  | listByStatus (s : OrderStatus)
  | transitionStatus (c : ClientOrderId) (target : OrderStatus)
  | recordBrokerOrder (o : BrokerOrder)
  | getBrokerOrder (c : ClientOrderId)
  | getBrokerOrderById (brokerOrderId : String)
  | updateBrokerOrderStatus (brokerOrderId : String) (status : BrokerOrderStatus)
      (filledQuantity : Nat) (observedAt : Option UtcTimestamp)
  | addFill (f : Fill)
  | getFillByExecutionId (executionId : String)
  | listFills (brokerOrderId : String)
  | listOpenBrokerOrders
  | listAllBrokerOrders
  | listAllFills
  | controlState
  | setEntriesPaused (paused : Bool) (reason : Option String)
  | bumpFlattenGeneration
  | addCommand (r : ControlCommandRecord)
  | addRun (r : ReconciliationResult)
  | latestRun
  | getBaseline (accountId : String)
deriving DecidableEq

/-- The answer to a statement. -/
def StoreCall.Ans : StoreCall → Type
  | addIntent _ => OrderIntent
  | getIntent _ => Option OrderIntent
  | listByStatus _ => List OrderIntent
  | transitionStatus _ _ => OrderIntent
  | recordBrokerOrder _ => BrokerOrder
  | getBrokerOrder _ => Option BrokerOrder
  | getBrokerOrderById _ => Option BrokerOrder
  | updateBrokerOrderStatus _ _ _ _ => BrokerOrder
  | addFill _ => Bool
  | getFillByExecutionId _ => Option Fill
  | listFills _ => List Fill
  | listOpenBrokerOrders => List BrokerOrder
  | listAllBrokerOrders => List BrokerOrder
  | listAllFills => List Fill
  | controlState => ControlStateSnapshot
  | setEntriesPaused _ _ => ControlStateSnapshot
  | bumpFlattenGeneration => Nat
  | addCommand _ => Option UtcTimestamp
  | addRun _ => UtcTimestamp
  | latestRun => Option ReconciliationResult
  | getBaseline _ => Option AccountBaseline

/-- The row with new mutable columns; `none` leaves the watermark alone. -/
def MirrorRow.refreshed (r : MirrorRow) (status : BrokerOrderStatus) (filled : Nat)
    (observedAt : Option UtcTimestamp) (h : filled ≤ r.order.quantity.value)
    (hf : status = .filled → filled = r.order.quantity.value) : MirrorRow where
  order :=
    { r.order with
      status, filledQuantity := filled, updatedAt := observedAt.getD r.order.updatedAt
      filled_le := h }
  watermarkKnown := r.watermarkKnown || observedAt.isSome
  unknown_eq := by
    intro hk
    rw [Bool.or_eq_false_iff] at hk
    obtain rfl : observedAt = none := by simpa using hk.2
    exact r.unknown_eq hk.1
  exact := hf
  fits := r.fits

/-- The `UPDATE` of a mirror under the guard triggers and the check constraint of
`broker_orders`. -/
def MirrorRow.refresh (r : MirrorRow) (status : BrokerOrderStatus) (filled : Nat)
    (observedAt : Option UtcTimestamp) : Except PyError MirrorRow :=
  if r.watermarkKnown = true ∧ ∃ t ∈ observedAt, t < r.order.updatedAt then
    .error ⟨.database, "broker_updated_at must never move backwards"⟩
  else if status ≠ r.order.status ∧ brokerOrderStatusTransitionIsValid r.order.status status = false then
    .error ⟨.database, "broker order status transition is not representable"⟩
  else if filled < r.order.filledQuantity then
    .error ⟨.database, "filled_quantity must never move backwards"⟩
  else if hf : status = .filled ∧ filled ≠ r.order.quantity.value then
    .error ⟨.database, "a filled mirror must be exactly filled"⟩
  else if h : filled ≤ r.order.quantity.value then
    .ok (r.refreshed status filled observedAt h (fun e => by_contra fun hn => hf ⟨e, hn⟩))
  else .error ⟨.database, "violates check constraint broker_orders_check"⟩

/-- The identity columns of two broker orders agree. -/
def BrokerOrder.sameIdentity (o p : BrokerOrder) : Bool :=
  o.clientOrderId == p.clientOrderId && o.symbol == p.symbol && o.side == p.side &&
    o.quantity == p.quantity && o.limitPrice == p.limitPrice && o.submittedAt == p.submittedAt

/-- The pause reason passes the checks of `pause_entries` and of the state snapshot. -/
def IsPauseReason (r : String) : Prop := IsBoundedText 200 r ∧ hasNul r = false

instance (r : String) : Decidable (IsPauseReason r) := inferInstanceAs (Decidable (_ ∧ _))

/-- `ORDER BY effective_at DESC, created_at DESC LIMIT 1`. -/
def latestBaseline (l : List AccountBaseline) : Option AccountBaseline :=
  l.foldl (fun best b => match best with
    | none => some b
    | some a =>
        if a.effectiveAt < b.effectiveAt ∨ (a.effectiveAt = b.effectiveAt ∧ a.createdAt < b.createdAt)
        then some b else some a) none

namespace Db

variable (db : Db)

def getIntent (c : ClientOrderId) : Option OrderIntent := db.intents.get c

/-- `ORDER BY client_order_id`. -/
def listByStatus (s : OrderStatus) : List OrderIntent :=
  (db.intents.rows.filter (fun i => i.status == s)).insertionSort
    (fun a b => a.clientOrderId.value ≤ b.clientOrderId.value)

def getBrokerOrder (c : ClientOrderId) : Option BrokerOrder := (db.mirrorOf c).map MirrorRow.order

def getBrokerOrderById (b : String) : Option BrokerOrder := (db.mirrors.get b).map MirrorRow.order

/-- `ORDER BY broker_order_id`. -/
def listAllBrokerOrders : List BrokerOrder :=
  (db.mirrors.rows.map MirrorRow.order).insertionSort (fun a b => a.brokerOrderId ≤ b.brokerOrderId)

/-- Mirrors whose broker status is not terminal, review statuses included. -/
def listOpenBrokerOrders : List BrokerOrder :=
  db.listAllBrokerOrders.filter (fun o => !o.status.isTerminal)

/-- The latest run; rows are recorded in the order of `recorded_at`. -/
def latestRun : Option ReconciliationResult := db.runs.getLast?

def addIntent (now : UtcTimestamp) (i : OrderIntent) : Except PyError (OrderIntent × List Write) :=
  if bigintMax < i.quantity.value then .error ⟨.database, "bigint out of range"⟩
  else match db.intents.get i.clientOrderId with
    | some old =>
        if old.intentId ≠ i.intentId then
          .error ⟨.persistenceInvariant, "client order id is bound to a different order intent"⟩
        else .ok (old, [])
    | none =>
        if db.intents.rows.any (fun j => j.intentId == i.intentId) then
          .error ⟨.database, "duplicate key value violates unique constraint order_intents_pkey"⟩
        else .ok ({ i with createdAt := now }, [.addIntent { i with createdAt := now }])

/-- The `UPDATE` of an intent status under its guard trigger. -/
def transitionStatus (c : ClientOrderId) (target : OrderStatus) :
    Except PyError (OrderIntent × List Write) :=
  match db.intents.get c with
  | none => .error ⟨.persistenceInvariant, "order intent disappeared during transition"⟩
  | some i =>
      if target ≠ i.status ∧ orderStatusTransitionIsValid i.status target = false then
        .error ⟨.database, "order intent status transition is not permitted"⟩
      else .ok (i.withStatus target, [.putIntent (i.withStatus target)])

/-- Refresh the mutable columns of the row with this broker order id. -/
def refreshMirror (b : String) (status : BrokerOrderStatus) (filled : Nat)
    (observedAt : Option UtcTimestamp) : Except PyError (BrokerOrder × List Write) :=
  match db.mirrors.get b with
  | none => .error ⟨.persistenceInvariant, "broker order disappeared during refresh"⟩
  | some r => (r.refresh status filled observedAt).map (fun r' => (r'.order, [.putMirror r']))

/-- Insert or idempotently refresh a broker mirror without rebinding identity. -/
def recordBrokerOrder (o : BrokerOrder) : Except PyError (BrokerOrder × List Write) :=
  if hq : bigintMax < o.quantity.value then .error ⟨.database, "bigint out of range"⟩
  else if hf : o.status = .filled ∧ o.filledQuantity ≠ o.quantity.value then
    .error ⟨.database, "a filled mirror must be exactly filled"⟩
  else match db.mirrors.get o.brokerOrderId with
    | some r =>
        if r.order.sameIdentity o then
          db.refreshMirror o.brokerOrderId o.status o.filledQuantity (some o.updatedAt)
        else .error ⟨.brokerOrderIdentityConflict,
          "broker order id is already bound to a different local order"⟩
    | none =>
        if (db.mirrorOf o.clientOrderId).isSome then
          .error ⟨.brokerOrderIdentityConflict,
            "client order id is already bound to a different broker order"⟩
        else if (db.intents.get o.clientOrderId).isNone then
          .error ⟨.database, "violates foreign key constraint broker_orders_client_order_id_fkey"⟩
        else
          .ok (o, [.addMirror ⟨o, true, by simp, fun e => by_contra fun hn => hf ⟨e, hn⟩,
            Nat.le_of_not_lt hq⟩])

/-- Append one fill; a repeated execution id is a no-op. -/
def addFill (f : Fill) : Except PyError (Bool × List Write) :=
  if bigintMax < f.quantity.value then .error ⟨.database, "bigint out of range"⟩
  else if (db.fills.get f.executionId).isSome then .ok (false, [])
  else if (db.mirrors.get f.brokerOrderId).isNone then
    .error ⟨.database, "violates foreign key constraint fills_broker_order_id_fkey"⟩
  else .ok (true, [.addFill f])

/-- `pause_entries` and `resume_entries` of migration 0019. -/
def setEntriesPaused (now : UtcTimestamp) (paused : Bool) (reason : Option String) :
    Except PyError (ControlStateSnapshot × List Write) :=
  match paused, reason with
  | true, none => .error ⟨.database, "control pause reason is invalid"⟩
  | true, some r =>
      if h : IsPauseReason r then
        let c : ControlStateSnapshot :=
          ⟨true, some r, now, db.control.flattenGeneration, rfl, by simpa using h.1⟩
        .ok (c, [.putControl c])
      else .error ⟨.database, "control pause reason is invalid"⟩
  | false, some _ =>
      .error ⟨.persistenceInvariant, "paused_reason must be null when entries are resumed"⟩
  | false, none =>
      if db.latestRun.any ReconciliationResult.isResumeSafe = false then
        .error ⟨.database, "entries cannot resume without a latest FULL CLEAN reconciliation"⟩
      else if db.hasStatus .unknown || db.hasStatus .reviewRequired then
        .error ⟨.database, "entries cannot resume while unresolved order intents remain"⟩
      else
        let c : ControlStateSnapshot :=
          ⟨false, none, now, db.control.flattenGeneration, rfl, by simp⟩
        .ok (c, [.putControl c])

/-- `bump_flatten_generation` of migration 0019. -/
def bumpFlattenGeneration (now : UtcTimestamp) : Except PyError (Nat × List Write) :=
  if bigintMax ≤ db.control.flattenGeneration then .error ⟨.database, "bigint out of range"⟩
  else
    let generation := db.control.flattenGeneration + 1
    .ok (generation, [.putControl { db.control with flattenGeneration := generation, updatedAt := now }])

/-- Append one command; a semantic replay of its id is a no-op. -/
def addCommand (r : ControlCommandRecord) : Except PyError (Option UtcTimestamp × List Write) :=
  match db.commands.get r.commandId with
  | none => .ok (r.appliedAt, [.addCommand r])
  | some old =>
      if old.command = r.command ∧ old.reason = r.reason ∧ old.actor = r.actor ∧ old.runId = r.runId then
        .ok (old.appliedAt, [])
      else .error ⟨.persistenceInvariant, "control command id is already bound to a different command"⟩

/-- `length(btrim(detail)) > 0`. -/
def isBtrimBlank (s : String) : Bool := s.toList.all (· == ' ')

/-- Insert one run and the detail of every mismatch. -/
def addRun (now : UtcTimestamp) (r : ReconciliationResult) : Except PyError (UtcTimestamp × List Write) :=
  if integerMax < r.checkedOrders ∨ integerMax < r.checkedFills then
    .error ⟨.database, "integer out of range"⟩
  else if db.runs.any (fun q => q.runId == r.runId) then
    .error ⟨.database, "duplicate key value violates unique constraint reconciliation_runs_pkey"⟩
  else if r.mismatches.any (fun m => isBtrimBlank m.detail) then
    .error ⟨.database, "violates check constraint reconciliation_mismatches_detail_check"⟩
  else .ok (now, [.addRun r])

def getBaseline (accountId : String) : Except PyError (Option AccountBaseline) :=
  if isBlank accountId then .error ⟨.valueError, "account_id must be non-empty text"⟩
  else if hasNul accountId then
    .error ⟨.database, "PostgreSQL text fields cannot contain NUL (0x00) bytes"⟩
  else match latestBaseline (db.baselineRevisions.filter (fun b => b.accountId == accountId)) with
    | some b => .ok (some b)
    | none => .ok (db.accountBaselines.find? (fun b => b.accountId == accountId))

/-- The effect of a statement issued at `now` by a transaction that sees `db`. -/
def exec (now : UtcTimestamp) : (c : StoreCall) → Except PyError (c.Ans × List Write)
  | .addIntent i => db.addIntent now i
  | .getIntent c => .ok (db.getIntent c, [])
  | .listByStatus s => .ok (db.listByStatus s, [])
  | .transitionStatus c t => db.transitionStatus c t
  | .recordBrokerOrder o => db.recordBrokerOrder o
  | .getBrokerOrder c => .ok (db.getBrokerOrder c, [])
  | .getBrokerOrderById b => .ok (db.getBrokerOrderById b, [])
  | .updateBrokerOrderStatus b s n t => db.refreshMirror b s n t
  | .addFill f => db.addFill f
  | .getFillByExecutionId e => .ok (db.fills.get e, [])
  | .listFills b => .ok (db.fillsOf b, [])
  | .listOpenBrokerOrders => .ok (db.listOpenBrokerOrders, [])
  | .listAllBrokerOrders => .ok (db.listAllBrokerOrders, [])
  | .listAllFills => .ok (db.fills.rows, [])
  | .controlState => .ok (db.control, [])
  | .setEntriesPaused p r => db.setEntriesPaused now p r
  | .bumpFlattenGeneration => db.bumpFlattenGeneration now
  | .addCommand r => db.addCommand r
  | .addRun r => db.addRun now r
  | .latestRun => .ok (db.latestRun, [])
  | .getBaseline a => (db.getBaseline a).map (fun b => (b, []))

/-! ### Mirrors by client order id -/

theorem get_of_mirrorOf {db : Db} {c : ClientOrderId} {r : MirrorRow} (h : db.mirrorOf c = some r) :
    db.mirrors.get r.brokerOrderId = some r ∧ r.clientOrderId = c :=
  ⟨Table.get_of_mem (List.mem_of_find?_eq_some h), by simpa using List.find?_some h⟩

theorem mirrorOf_of_get {db : Db} {b : String} {r : MirrorRow} (h : db.mirrors.get b = some r) :
    db.mirrorOf r.clientOrderId = some r := by
  have hr : r ∈ db.mirrors.rows := Table.mem_of_get h
  cases hf : db.mirrorOf r.clientOrderId with
  | none => simpa using List.find?_eq_none.mp hf r hr
  | some q =>
      have hq : q.clientOrderId = r.clientOrderId := by simpa using List.find?_some hf
      rw [List.inj_on_of_nodup_map db.client_unique (List.mem_of_find?_eq_some hf) hr hq]

/-! ### What a written row changes -/

section Apply

variable {db}

@[simp] theorem apply_putIntent_intents (i : OrderIntent) :
    (db.apply (.putIntent i)).intents = db.intents.put i := rfl

@[simp] theorem apply_putIntent_mirrors (i : OrderIntent) :
    (db.apply (.putIntent i)).mirrors = db.mirrors := rfl

@[simp] theorem apply_putIntent_fills (i : OrderIntent) :
    (db.apply (.putIntent i)).fills = db.fills := rfl

@[simp] theorem apply_putIntent_control (i : OrderIntent) :
    (db.apply (.putIntent i)).control = db.control := rfl

@[simp] theorem apply_addFill_intents (f : Fill) : (db.apply (.addFill f)).intents = db.intents := rfl

@[simp] theorem apply_addFill_mirrors (f : Fill) : (db.apply (.addFill f)).mirrors = db.mirrors := rfl

@[simp] theorem apply_addFill_fills (f : Fill) : (db.apply (.addFill f)).fills = db.fills.add f := rfl

@[simp] theorem apply_addFill_control (f : Fill) : (db.apply (.addFill f)).control = db.control := rfl

@[simp] theorem apply_putControl_intents (c : ControlStateSnapshot) :
    (db.apply (.putControl c)).intents = db.intents := rfl

@[simp] theorem apply_putControl_mirrors (c : ControlStateSnapshot) :
    (db.apply (.putControl c)).mirrors = db.mirrors := rfl

@[simp] theorem apply_putControl_fills (c : ControlStateSnapshot) :
    (db.apply (.putControl c)).fills = db.fills := rfl

@[simp] theorem apply_putControl_control (c : ControlStateSnapshot) :
    (db.apply (.putControl c)).control = c := rfl

@[simp] theorem apply_addCommand_intents (c : ControlCommandRecord) :
    (db.apply (.addCommand c)).intents = db.intents := rfl

@[simp] theorem apply_addCommand_mirrors (c : ControlCommandRecord) :
    (db.apply (.addCommand c)).mirrors = db.mirrors := rfl

@[simp] theorem apply_addCommand_fills (c : ControlCommandRecord) :
    (db.apply (.addCommand c)).fills = db.fills := rfl

@[simp] theorem apply_addCommand_control (c : ControlCommandRecord) :
    (db.apply (.addCommand c)).control = db.control := rfl

@[simp] theorem apply_putMirror_intents (r : MirrorRow) :
    (db.apply (.putMirror r)).intents = db.intents := by
  simp only [apply]
  split <;> rfl

@[simp] theorem apply_putMirror_fills (r : MirrorRow) :
    (db.apply (.putMirror r)).fills = db.fills := by
  simp only [apply]
  split <;> rfl

@[simp] theorem apply_putMirror_control (r : MirrorRow) :
    (db.apply (.putMirror r)).control = db.control := by
  simp only [apply]
  split <;> rfl

/-- A replacement that keeps the client order id takes effect. -/
theorem apply_putMirror_mirrors {r r' : MirrorRow} (h : db.mirrors.get r'.brokerOrderId = some r)
    (hc : r.clientOrderId = r'.clientOrderId) :
    (db.apply (.putMirror r')).mirrors = db.mirrors.put r' := by
  have hput : ∀ o, db.mirrors.get r'.brokerOrderId = some o → o.clientOrderId = r'.clientOrderId := by
    intro o ho
    obtain rfl : r = o := Option.some.inj (h.symm.trans ho)
    exact hc
  simp only [apply, dif_pos hput]

theorem mirrorOf_eq_some_iff {c : ClientOrderId} {r : MirrorRow} :
    db.mirrorOf c = some r ↔ r ∈ db.mirrors.rows ∧ r.clientOrderId = c := by
  constructor
  · intro h
    exact ⟨List.mem_of_find?_eq_some h, (get_of_mirrorOf h).2⟩
  · rintro ⟨hr, rfl⟩
    exact mirrorOf_of_get (Table.get_of_mem hr)

/-- The mirrors by client order id after a replacement. -/
theorem mirrorOf_apply_putMirror {r r' : MirrorRow} (h : db.mirrors.get r'.brokerOrderId = some r)
    (hc : r.clientOrderId = r'.clientOrderId) (k : ClientOrderId) :
    (db.apply (.putMirror r')).mirrorOf k = if r'.clientOrderId = k then some r' else db.mirrorOf k := by
  ext m
  rw [mirrorOf_eq_some_iff, apply_putMirror_mirrors h hc, Table.mem_put_iff h]
  split
  · rename_i hk
    constructor
    · rintro ⟨rfl | ⟨hm, hne⟩, hmk⟩
      · rfl
      · have hr : r ∈ db.mirrors.rows := Table.mem_of_get h
        have hmr : m = r := List.inj_on_of_nodup_map db.client_unique hm hr (hmk.trans (hc.trans hk).symm)
        subst hmr
        exact absurd (Table.key_of_get h) hne
    · rintro ⟨⟩
      exact ⟨Or.inl rfl, hk⟩
  · rename_i hk
    rw [mirrorOf_eq_some_iff]
    constructor
    · rintro ⟨rfl | ⟨hm, -⟩, hmk⟩
      · exact absurd hmk hk
      · exact ⟨hm, hmk⟩
    · rintro ⟨hm, hmk⟩
      refine ⟨Or.inr ⟨hm, fun hb => hk ?_⟩, hmk⟩
      have hmr : m = r := Table.eq_of_mem_of_key hm (Table.mem_of_get h) (hb.trans (Table.key_of_get h).symm)
      rw [← hc, ← hmr, hmk]

/-- The mirrors by client order id after an insertion. -/
theorem mirrorOf_apply_addMirror {r : MirrorRow} (h : db.mirrors.get r.brokerOrderId = none)
    (hc : db.mirrorOf r.clientOrderId = none) (k : ClientOrderId) :
    (db.apply (.addMirror r)).mirrorOf k = if r.clientOrderId = k then some r else db.mirrorOf k := by
  have hnew : r.clientOrderId ∉ db.mirrors.rows.map MirrorRow.clientOrderId := by
    rintro hmem
    obtain ⟨q, hq, hqc⟩ := List.mem_map.mp hmem
    rw [mirrorOf_eq_some_iff.mpr ⟨hq, hqc⟩] at hc
    cases hc
  have hrows : (db.apply (.addMirror r)).mirrors = db.mirrors.add r := by
    simp only [apply, dif_pos (And.intro h hnew)]
  ext m
  rw [mirrorOf_eq_some_iff, hrows, Table.mem_add_iff h]
  split
  · rename_i hk
    constructor
    · rintro ⟨hm | rfl, hmk⟩
      · rw [hk, mirrorOf_eq_some_iff.mpr ⟨hm, hmk⟩] at hc
        cases hc
      · rfl
    · rintro ⟨⟩
      exact ⟨Or.inr rfl, hk⟩
  · rename_i hk
    rw [mirrorOf_eq_some_iff]
    constructor
    · rintro ⟨hm | rfl, hmk⟩
      · exact ⟨hm, hmk⟩
      · exact absurd hmk hk
    · rintro ⟨hm, hmk⟩
      exact ⟨Or.inl hm, hmk⟩

@[simp] theorem apply_addMirror_intents (r : MirrorRow) : (db.apply (.addMirror r)).intents = db.intents := by
  simp only [apply]
  split <;> rfl

@[simp] theorem apply_addMirror_fills (r : MirrorRow) : (db.apply (.addMirror r)).fills = db.fills := by
  simp only [apply]
  split <;> rfl

end Apply

/-! ### Guarded updates -/

theorem transitionStatus_eq_ok {db : Db} {c : ClientOrderId} {t : OrderStatus} {i : OrderIntent}
    (hi : db.intents.get c = some i) (ht : t = i.status ∨ orderTransitionAllowed i.status t = true) :
    db.transitionStatus c t = .ok (i.withStatus t, [.putIntent (i.withStatus t)]) := by
  have hn : ¬ (t ≠ i.status ∧ orderStatusTransitionIsValid i.status t = false) := by
    rintro ⟨hne, hf⟩
    rw [orderStatusTransitionIsValid_eq] at hf
    rcases ht with h | h
    · exact hne h
    · rw [h] at hf
      cases hf
  simp only [transitionStatus, hi, if_neg hn]

theorem transitionStatus_eq_error {db : Db} {c : ClientOrderId} {t : OrderStatus} {i : OrderIntent}
    (hi : db.intents.get c = some i) (hne : t ≠ i.status)
    (ht : orderTransitionAllowed i.status t = false) :
    db.transitionStatus c t =
      .error ⟨.database, "order intent status transition is not permitted"⟩ := by
  rw [← orderStatusTransitionIsValid_eq] at ht
  simp only [transitionStatus, hi, if_pos (And.intro hne ht)]

theorem setEntriesPaused_eq_ok (db : Db) (now : UtcTimestamp) {reason : String}
    (hr : IsPauseReason reason) : ∃ cs : ControlStateSnapshot, cs.entriesPaused = true ∧
      db.setEntriesPaused now true (some reason) = .ok (cs, [.putControl cs]) := by
  refine ⟨⟨true, some reason, now, db.control.flattenGeneration, rfl, by simpa using hr.1⟩, rfl, ?_⟩
  simp only [setEntriesPaused, dif_pos hr]

theorem setEntriesPaused_writes {db : Db} {now : UtcTimestamp} {paused : Bool} {reason : Option String}
    {p : ControlStateSnapshot × List Write} (h : db.setEntriesPaused now paused reason = .ok p) :
    p.1.entriesPaused = paused ∧ p.2 = [.putControl p.1] := by
  unfold setEntriesPaused at h
  split at h
  · cases h
  · split at h
    · cases h
      exact ⟨rfl, rfl⟩
    · cases h
  · cases h
  · split at h
    · cases h
    · split at h
      · cases h
      · cases h
        exact ⟨rfl, rfl⟩

theorem bumpFlattenGeneration_writes {db : Db} {now : UtcTimestamp} {p : Nat × List Write}
    (h : db.bumpFlattenGeneration now = .ok p) :
    ∃ c : ControlStateSnapshot, c.entriesPaused = db.control.entriesPaused ∧ p.2 = [.putControl c] := by
  unfold bumpFlattenGeneration at h
  split at h
  · cases h
  · cases h
    exact ⟨{ db.control with flattenGeneration := db.control.flattenGeneration + 1, updatedAt := now }, rfl, rfl⟩

theorem addRun_writes {db : Db} {now : UtcTimestamp} {r : ReconciliationResult}
    {p : UtcTimestamp × List Write} (h : db.addRun now r = .ok p) : p.2 = [.addRun r] := by
  unfold addRun at h
  repeat' split at h
  all_goals cases h
  rfl

theorem refreshMirror_writes {db : Db} {b : String} {s : BrokerOrderStatus} {n : Nat}
    {t : Option UtcTimestamp} {o : BrokerOrder} {ws : List Write}
    (h : db.refreshMirror b s n t = .ok (o, ws)) : ∃ r, ws = [.putMirror r] := by
  unfold refreshMirror at h
  split at h
  · cases h
  · rename_i r _
    cases hr : r.refresh s n t with
    | error e =>
        rw [hr] at h
        cases h
    | ok r' =>
        rw [hr] at h
        cases h
        exact ⟨r', rfl⟩

/-- What a refresh of a mirror writes. -/
theorem refreshMirror_inv {db : Db} {b : String} {s : BrokerOrderStatus} {n : Nat}
    {t : Option UtcTimestamp} {p : BrokerOrder × List Write} (h : db.refreshMirror b s n t = .ok p) :
    ∃ r r' : MirrorRow, db.mirrors.get b = some r ∧ p.2 = [.putMirror r'] ∧ r'.order.SameBase r.order ∧
      r'.order.status = s ∧ r'.order.filledQuantity = n ∧
      (s = r.order.status ∨ brokerOrderTransitionAllowed r.order.status s = true) := by
  unfold refreshMirror at h
  split at h
  · cases h
  · rename_i r hr
    cases hx : r.refresh s n t with
    | error e =>
        rw [hx] at h
        cases h
    | ok r' =>
        rw [hx] at h
        cases h
        unfold MirrorRow.refresh at hx
        split at hx
        · cases hx
        · split at hx
          · cases hx
          · rename_i hstatus
            split at hx
            · cases hx
            · split at hx
              · cases hx
              · split at hx
                · cases hx
                  refine ⟨r, _, hr, rfl, ⟨rfl, rfl, rfl, rfl, rfl, rfl, rfl⟩, rfl, rfl, ?_⟩
                  rw [brokerOrderStatusTransitionIsValid_eq] at hstatus
                  by_contra hn
                  obtain ⟨hne, hf⟩ := not_or.mp hn
                  exact hstatus ⟨hne, by simpa using hf⟩
                · cases hx

/-- Recording a broker order writes one mirror. -/
theorem recordBrokerOrder_writes {db : Db} {o : BrokerOrder} {p : BrokerOrder × List Write}
    (h : db.recordBrokerOrder o = .ok p) : ∃ m, p.2 = [.addMirror m] ∨ p.2 = [.putMirror m] := by
  unfold recordBrokerOrder at h
  repeat' split at h
  any_goals cases h
  · obtain ⟨m, hm⟩ := refreshMirror_writes h
    exact ⟨m, Or.inr hm⟩
  · exact ⟨_, Or.inl rfl⟩

/-- What recording a broker order writes: its mirror, new or refreshed. -/
theorem recordBrokerOrder_inv {db : Db} {o : BrokerOrder} {p : BrokerOrder × List Write}
    (h : db.recordBrokerOrder o = .ok p) :
    ∃ m : MirrorRow, m.order.SameBase o ∧ m.order.status = o.status ∧
      m.order.filledQuantity = o.filledQuantity ∧ (db.applyAll p.2).intents = db.intents ∧
      (db.applyAll p.2).fills = db.fills ∧
      ∀ k, (db.applyAll p.2).mirrorOf k = if o.clientOrderId = k then some m else db.mirrorOf k := by
  unfold recordBrokerOrder at h
  split at h
  · cases h
  · split at h
    · cases h
    · split at h
      · rename_i r hr
        split at h
        · rename_i hsame
          obtain ⟨r₀, m, hr₀, hp, hbase, hst, hn, -⟩ := refreshMirror_inv h
          obtain rfl : r = r₀ := Option.some.inj (hr.symm.trans hr₀)
          have hkey : r.brokerOrderId = o.brokerOrderId := Table.key_of_get hr
          simp only [BrokerOrder.sameIdentity, Bool.and_eq_true, beq_iff_eq] at hsame
          obtain ⟨⟨⟨⟨⟨hc, hs⟩, hside⟩, hq⟩, hl⟩, ht⟩ := hsame
          have hmc : m.clientOrderId = o.clientOrderId := hbase.clientOrderId.trans hc
          have hget : db.mirrors.get m.brokerOrderId = some r := by
            show db.mirrors.get m.order.brokerOrderId = some r
            have hro : r.order.brokerOrderId = o.brokerOrderId := hkey
            rw [hbase.brokerOrderId, hro]
            exact hr
          refine ⟨m, hbase.trans ⟨hkey, hc, hs, hside, hq, hl, ht⟩, hst, hn, ?_, ?_, fun k => ?_⟩
          · simp [hp]
          · simp [hp]
          · rw [hp, applyAll_cons, applyAll_nil, mirrorOf_apply_putMirror hget hbase.clientOrderId.symm, hmc]
        · cases h
      · rename_i hr
        split at h
        · cases h
        · rename_i hnone
          split at h
          · cases h
          · have hmirror : db.mirrorOf o.clientOrderId = none := by simpa using hnone
            generalize hm : MirrorRow.mk o true _ _ _ = m at h
            cases h
            have ho : m.order = o := by rw [← hm]
            have hget : db.mirrors.get m.brokerOrderId = none := by rw [← hm]; exact hr
            have hmc : m.clientOrderId = o.clientOrderId := by rw [← hm]; rfl
            refine ⟨m, ho ▸ BrokerOrder.SameBase.refl m.order, by rw [ho], by rw [ho], ?_, ?_, fun k => ?_⟩
            · simp
            · simp
            · rw [applyAll_cons, applyAll_nil, mirrorOf_apply_addMirror hget (hmc ▸ hmirror), hmc]

theorem transitionStatus_inv {db : Db} {c : ClientOrderId} {t : OrderStatus}
    {p : OrderIntent × List Write} (h : db.transitionStatus c t = .ok p) :
    ∃ i, db.intents.get c = some i ∧ p = (i.withStatus t, [.putIntent (i.withStatus t)]) := by
  unfold transitionStatus at h
  split at h
  · cases h
  · rename_i i hi
    split at h
    · cases h
    · cases h
      exact ⟨i, hi, rfl⟩

theorem transitionStatus_allowed {db : Db} {c : ClientOrderId} {t : OrderStatus} {i : OrderIntent}
    {p : OrderIntent × List Write} (hi : db.intents.get c = some i) (h : db.transitionStatus c t = .ok p) :
    t = i.status ∨ orderTransitionAllowed i.status t = true := by
  by_cases ht : t = i.status
  · exact Or.inl ht
  · refine Or.inr ?_
    cases ha : orderTransitionAllowed i.status t with
    | true => rfl
    | false =>
        rw [transitionStatus_eq_error hi ht ha] at h
        cases h

theorem transitionStatus_writes {db : Db} {c : ClientOrderId} {t : OrderStatus} {i : OrderIntent}
    {a : OrderIntent} {ws : List Write} (hi : db.intents.get c = some i)
    (h : db.transitionStatus c t = .ok (a, ws)) : ws = [.putIntent (i.withStatus t)] := by
  simp only [transitionStatus, hi] at h
  split at h
  · cases h
  · cases h
    rfl

/-- What adding an intent writes. -/
theorem addIntent_cases {db : Db} {now : UtcTimestamp} {i : OrderIntent} {p : OrderIntent × List Write}
    (h : db.addIntent now i = .ok p) :
    ((∃ old, db.intents.get i.clientOrderId = some old) ∧ p.2 = []) ∨
      (db.intents.get i.clientOrderId = none ∧ p.2 = [.addIntent { i with createdAt := now }]) := by
  unfold addIntent at h
  split at h
  · cases h
  · split at h
    · rename_i old hold
      split at h
      · cases h
      · cases h
        exact Or.inl ⟨⟨old, hold⟩, rfl⟩
    · rename_i hnone
      split at h
      · cases h
      · cases h
        exact Or.inr ⟨hnone, rfl⟩

theorem addIntent_present {db : Db} {now : UtcTimestamp} {i : OrderIntent} {p : OrderIntent × List Write}
    (h : db.addIntent now i = .ok p) : ∃ j, (db.applyAll p.2).intents.get i.clientOrderId = some j := by
  rcases addIntent_cases h with ⟨⟨old, hold⟩, hp⟩ | ⟨hnone, hp⟩
  · rw [hp]
    exact ⟨old, hold⟩
  · rw [hp]
    exact ⟨_, Table.get_add_self hnone⟩

theorem addFill_cases (db : Db) (f : Fill) :
    (∃ e, db.addFill f = .error e ∧ e.kind = .database) ∨ db.addFill f = .ok (false, []) ∨
      db.addFill f = .ok (true, [.addFill f]) := by
  unfold addFill
  split
  · exact Or.inl ⟨_, rfl, rfl⟩
  · split
    · exact Or.inr (Or.inl rfl)
    · split
      · exact Or.inl ⟨_, rfl, rfl⟩
      · exact Or.inr (Or.inr rfl)

theorem addFill_new {db : Db} {f : Fill} {ws : List Write} (h : db.addFill f = .ok (true, ws)) :
    db.fills.get f.executionId = none := by
  unfold addFill at h
  split at h
  · cases h
  · split at h
    · cases h
    · rename_i hnone
      simpa using hnone

theorem fillsOf_apply_addFill {db : Db} {f : Fill} (h : db.fills.get f.executionId = none) :
    (db.apply (.addFill f)).fillsOf f.brokerOrderId = db.fillsOf f.brokerOrderId ++ [f] := by
  simp [fillsOf, Table.add_rows h]

theorem addCommand_writes {db : Db} {r : ControlCommandRecord} {a : Option UtcTimestamp}
    {ws : List Write} (h : db.addCommand r = .ok (a, ws)) : ws = [] ∨ ws = [.addCommand r] := by
  unfold addCommand at h
  split at h
  · cases h
    exact Or.inr rfl
  · split at h
    · cases h
      exact Or.inl rfl
    · cases h

end Db

/-- What the triggers and the check constraint of `broker_orders` accept. -/
theorem MirrorRow.refresh_eq_ok {r : MirrorRow} {s : BrokerOrderStatus} {n : Nat}
    {t : Option UtcTimestamp} (hw : ∀ x ∈ t, r.order.updatedAt ≤ x)
    (hs : s = r.order.status ∨ brokerOrderTransitionAllowed r.order.status s = true)
    (hn : r.order.filledQuantity ≤ n) (hf : s = .filled → n = r.order.quantity.value)
    (hq : n ≤ r.order.quantity.value) : r.refresh s n t = .ok (r.refreshed s n t hq hf) := by
  have h₁ : ¬ (r.watermarkKnown = true ∧ ∃ x ∈ t, x < r.order.updatedAt) := by
    rintro ⟨-, x, hx, hlt⟩
    exact absurd (hw x hx) (not_le.mpr hlt)
  have h₂ : ¬ (s ≠ r.order.status ∧ brokerOrderStatusTransitionIsValid r.order.status s = false) := by
    rintro ⟨hne, hv⟩
    rw [brokerOrderStatusTransitionIsValid_eq] at hv
    rcases hs with h | h
    · exact hne h
    · rw [h] at hv
      cases hv
  have h₄ : ¬ (s = .filled ∧ n ≠ r.order.quantity.value) := fun h => h.2 (hf h.1)
  rw [MirrorRow.refresh, if_neg h₁, if_neg h₂, if_neg (not_lt.mpr hn), dif_neg h₄, dif_pos hq]

end SevenLens
