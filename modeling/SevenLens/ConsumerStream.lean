import SevenLens.ConsumerStep

/-! # The trade-update stream

A stream of updates is delivered to the consumer one after the other; an update that raises
does not stop the stream.  The invariants here hold along every stream, from every state of
the tables: mirrors only move forward, the fill ledger only grows, and the store never
rejects a derived mutation. -/

namespace SevenLens

open Calls Prog

/-- Deliver updates one after the other and collect what the consumer returned or raised. -/
def deliver (env : Env) (uuid5 : NameUuid) :
    World → List TradeUpdate → List (Except PyError TradeUpdateOutcome) × World
  | w, [] => ([], w)
  | w, u :: us =>
      let out := run (handler env) (applyUpdate uuid5 u) w
      let rest := deliver env uuid5 out.2 us
      (out.1 :: rest.1, rest.2)

variable {env : Env} {uuid5 : NameUuid} {w : World}

theorem deliver_append (us vs : List TradeUpdate) :
    deliver env uuid5 w (us ++ vs) =
      ((deliver env uuid5 w us).1 ++ (deliver env uuid5 (deliver env uuid5 w us).2 vs).1,
        (deliver env uuid5 (deliver env uuid5 w us).2 vs).2) := by
  induction us generalizing w with
  | nil => rfl
  | cons u us ih => simp only [List.cons_append, deliver, ih]

/-- The rule for stream invariants: what every update of a stream keeps, the stream keeps. -/
theorem deliver_invariant {P : Db → Prop} {us : List TradeUpdate}
    (hstep : ∀ u ∈ us, ∀ db r db', P db → Consumed db u r db' → P db') (hw : w.Idle) (hP : P w.db) :
    (deliver env uuid5 w us).2.Idle ∧ P (deliver env uuid5 w us).2.db := by
  induction us generalizing w with
  | nil => exact ⟨hw, hP⟩
  | cons u us ih =>
      have hrun : run (handler env) (applyUpdate uuid5 u) w = (_, _) := rfl
      obtain ⟨hidle, hcons, -⟩ := applyUpdate_consumed hw hrun
      exact ih (fun v hv => hstep v (List.mem_cons_of_mem _ hv)) hidle
        (hstep u List.mem_cons_self _ _ _ hP hcons)

/-! ### Mirrors move forward -/

/-- A mirror row moved forward: quantities and watermark do not decrease, and a status that
is terminal or in review stays. -/
structure RowForward (r r' : MirrorRow) : Prop where
  client : r'.clientOrderId = r.clientOrderId
  filled : r.order.filledQuantity ≤ r'.order.filledQuantity
  watermark : r.order.updatedAt ≤ r'.order.updatedAt
  frozen : r.order.status.isTerminal = true ∨ r.order.status.isReview = true →
    r'.order.status = r.order.status

namespace RowForward

theorem refl (r : MirrorRow) : RowForward r r := ⟨rfl, le_rfl, le_rfl, fun _ => rfl⟩

theorem trans {r s t : MirrorRow} (h : RowForward r s) (h' : RowForward s t) : RowForward r t where
  client := h'.client.trans h.client
  filled := h.filled.trans h'.filled
  watermark := h.watermark.trans h'.watermark
  frozen := by
    intro hr
    have hs := h.frozen hr
    rw [h'.frozen (hs ▸ hr), hs]

end RowForward

/-- Every mirror moved forward and no fill was lost. -/
structure Forward (db db' : Db) : Prop where
  mirrors : ∀ b r, db.mirrors.get b = some r → ∃ r', db'.mirrors.get b = some r' ∧ RowForward r r'
  fills : ∀ f ∈ db.fills.rows, f ∈ db'.fills.rows

namespace Forward

theorem refl (db : Db) : Forward db db :=
  ⟨fun _ r h => ⟨r, h, RowForward.refl r⟩, fun _ h => h⟩

theorem trans {a b c : Db} (h : Forward a b) (h' : Forward b c) : Forward a c where
  mirrors := by
    intro k r hr
    obtain ⟨s, hs, hrs⟩ := h.mirrors k r hr
    obtain ⟨t, ht, hst⟩ := h'.mirrors k s hs
    exact ⟨t, ht, hrs.trans hst⟩
  fills := fun f hf => h'.fills f (h.fills f hf)

/-- Equal mirrors and at least the same fills. -/
theorem of_mirrors_eq {db db' : Db} (hm : db'.mirrors = db.mirrors)
    (hf : ∀ f ∈ db.fills.rows, f ∈ db'.fills.rows) : Forward db db' :=
  ⟨fun _ r h => ⟨r, hm ▸ h, RowForward.refl r⟩, hf⟩

/-- One mirror row replaced by a row that moved forward. -/
theorem of_derived {db db' : Db} {r r' : MirrorRow} {t : OrderStatus → OrderStatus}
    (hd : Derived db r' t db') (hr : db.mirrors.get r.brokerOrderId = some r) (hb : r'.brokerOrderId = r.brokerOrderId)
    (hfwd : RowForward r r') : Forward db db' where
  mirrors := by
    intro b q hq
    rw [hd.mirrors, Table.get_put]
    by_cases hk : r'.brokerOrderId = b
    · obtain rfl : q = r := by
        rw [← hk, hb, hr] at hq
        exact (Option.some.inj hq).symm
      exact ⟨r', by rw [if_pos hk, hq]; rfl, hfwd⟩
    · exact ⟨q, by rw [if_neg hk, hq], RowForward.refl q⟩
  fills := fun f hf => hd.fills ▸ hf

theorem apply_addFill (db : Db) (f : Fill) : Forward db (db.apply (.addFill f)) := by
  refine of_mirrors_eq rfl fun g hg => ?_
  rw [Db.apply_addFill_fills, Table.add]
  split
  · exact hg
  · exact List.mem_append_left _ hg

end Forward

/-- A frozen status has no successor. -/
theorem eq_of_frozen {s t : BrokerOrderStatus} (hs : s.isTerminal = true ∨ s.isReview = true)
    (h : t = s ∨ brokerOrderTransitionAllowed s t = true) : t = s := by
  rcases h with h | h
  · exact h
  · revert hs h
    cases s <;> simp [BrokerOrderStatus.isTerminal, BrokerOrderStatus.isReview,
      brokerOrderTransitionAllowed, brokerOrderStatusTransitions]

theorem fillDerived_forward {db db' : Db} {row : MirrorRow} {f : Fill}
    (hrow : db.mirrors.get row.brokerOrderId = some row) (h : FillDerived db row f db') :
    Forward db db' := by
  cases h with
  | same => exact Forward.refl db
  | moved hq hf ht hi hd =>
      refine Forward.of_derived hd hrow rfl ?_
      refine ⟨rfl, db.le_fillLevel row, ?_, fun hz => eq_of_frozen hz (fillBrokerTarget_legal ht).1⟩
      show row.order.updatedAt ≤ (fillObserved row.order f).getD row.order.updatedAt
      unfold fillObserved
      split
      · exact le_of_lt ‹_›
      · exact le_rfl

theorem statusDerived_forward {db db' : Db} {row : MirrorRow} {i : OrderIntent} {u : OrderStatusUpdate}
    (hrow : db.mirrors.get row.brokerOrderId = some row) (hle : row.order.updatedAt ≤ u.observedAt)
    (h : StatusDerived db row i u db') : Forward db db' := by
  cases h with
  | moved hcheck hi hq hf hd =>
      obtain ⟨-, hn, -, -, hs⟩ := checkStatus_ok hcheck
      exact Forward.of_derived hd hrow rfl ⟨rfl, hn, hle, fun hz => eq_of_frozen hz hs⟩

/-- One consumed update moves the tables forward. -/
theorem consumed_forward {db db' : Db} {u : TradeUpdate} {r : Except PyError TradeUpdateOutcome}
    (h : Consumed db u r db') : Forward db db' := by
  cases h with
  | unknownFill => exact Forward.refl db
  | unstorable => exact Forward.refl db
  | repeated => exact Forward.refl db
  | unknownStatus => exact Forward.refl db
  | stale => exact Forward.refl db
  | repeatedStatus => exact Forward.refl db
  | clashing hm hg hne he hgate => exact Forward.of_mirrors_eq hgate.mirrors (fun f hf => hgate.fills ▸ hf)
  | refusedStatus hi hm hle hr he hgate =>
      exact Forward.of_mirrors_eq hgate.mirrors (fun f hf => hgate.fills ▸ hf)
  | refusedFill hm hnew hr he hgate =>
      exact (Forward.apply_addFill db _).trans
        (Forward.of_mirrors_eq hgate.mirrors (fun f hf => hgate.fills ▸ hf))
  | filled hm hnew hd =>
      refine (Forward.apply_addFill db _).trans (fillDerived_forward ?_ hd)
      rw [Table.key_of_get hm, Db.apply_addFill_mirrors, hm]
  | observed hi hm hb hle hd => exact statusDerived_forward (Db.get_of_mirrorOf hm).1 hle hd

theorem deliver_idle (hw : w.Idle) (us : List TradeUpdate) : (deliver env uuid5 w us).2.Idle :=
  (deliver_invariant (P := fun _ => True) (fun _ _ _ _ _ h _ => h) hw trivial).1

theorem deliver_forward (hw : w.Idle) (us : List TradeUpdate) :
    Forward w.db (deliver env uuid5 w us).2.db :=
  (deliver_invariant (P := Forward w.db) (fun _ _ _ _ _ h hc => h.trans (consumed_forward hc)) hw
    (Forward.refl _)).2

/-- A consumed update raises nothing but `TradeUpdateError`, except for an execution whose
quantity the ledger cannot store. -/
theorem consumed_error {db db' : Db} {u : TradeUpdate} {r : Except PyError TradeUpdateOutcome}
    {e : PyError} (h : Consumed db u r db') (hr : r = .error e) :
    e.kind = .tradeUpdate ∨ ∃ f, u = .fill f ∧ bigintMax < f.quantity.value := by
  cases h with
  | unstorable hq he => exact Or.inr ⟨_, rfl, hq⟩
  | clashing hm hg hne he hgate =>
      cases hr
      exact Or.inl he
  | refusedFill hm hnew href he hgate =>
      cases hr
      exact Or.inl he
  | refusedStatus hi hm hle href he hgate =>
      cases hr
      exact Or.inl he
  | unknownFill => cases hr
  | repeated => cases hr
  | filled => cases hr
  | unknownStatus => cases hr
  | stale => cases hr
  | repeatedStatus => cases hr
  | observed => cases hr

/-- **The stream invariant.**  After any updates `us`, delivered in any order with any
duplication, the tables only move forward under any further updates `vs`, and the ledger
holds one fill for an execution id.  The next update `u` has no derived mutation rejected:
the store rejects at most the review marker of an intent that has not reached the broker,
the repeated audit command of a conflict, and an execution too large for its column; and
only the last of these surfaces as anything but a `TradeUpdateError`. -/
theorem deliver_forward_guarded (env : Env) (uuid5 : NameUuid) (db : Db) (us vs : List TradeUpdate)
    (u : TradeUpdate) :
    let w := (deliver env uuid5 (.start db) us).2
    let out := run (handler env) (applyUpdate uuid5 u) w
    Forward w.db (deliver env uuid5 w vs).2.db ∧ (w.db.fills.rows.map Fill.executionId).Nodup ∧
      (∀ call ∈ out.2.rejected, call ∈ w.rejected ∨ w.db.Rejection u call) ∧
      (∀ e, out.1 = .error e →
        e.kind = .tradeUpdate ∨ ∃ f, u = .fill f ∧ bigintMax < f.quantity.value) := by
  intro w out
  have hw : w.Idle := deliver_idle (World.start_idle db) us
  have hrun : run (handler env) (applyUpdate uuid5 u) w = (out.1, out.2) := rfl
  obtain ⟨-, hcons, hrej⟩ := applyUpdate_consumed hw hrun
  exact ⟨deliver_forward hw vs, w.db.fills.nodup, hrej, fun e he => consumed_error hcons he⟩

/-! ### A concrete order

One order of ten shares, used to evaluate the model. -/

/-- The instant `n` microseconds into year 1. -/
def instant (n : Fin 1000) : UtcTimestamp := ⟨n, by have := n.isLt; unfold maxMicros; omega⟩

instance neZeroEleven : NeZero 11 := ⟨by decide⟩

instance neZeroHundred : NeZero 100 := ⟨by decide⟩

def sampleDate : TradingDate := ⟨2026, 8, 17, TradingDate.year_2026, TradingDate.august, by decide⟩

def sampleSymbol : Symbol := ⟨"AAPL", by decide⟩

def samplePrice : Price := ⟨10000, by decide⟩

def sampleId : ClientOrderId := ⟨"slv1-seven-lens-2026-08-17-open-t1-AAPL-buy", by decide +kernel⟩

def tenQuantity : OrderQuantity := ⟨10, by decide⟩

def fourQuantity : OrderQuantity := ⟨4, by decide⟩

def sampleIntent (status : OrderStatus) : OrderIntent where
  intentId := .one
  clientOrderId := sampleId
  strategy := "seven-lens"
  tradingDate := sampleDate
  window := "open"
  targetVersion := 1
  symbol := sampleSymbol
  side := .buy
  quantity := tenQuantity
  intentType := .rebalance
  limitPrice := samplePrice
  collar := ⟨samplePrice, 100, by decide⟩
  earliestSubmitAt := instant 0
  cancelAt := instant 900
  status
  runId := ⟨.one, Uuid.one_ne⟩
  createdAt := instant 0
  intentId_ne := Uuid.one_ne
  cancel_after := by decide
  in_collar := by decide
  id_eq := by decide +kernel

theorem orderId_ok : IsIdText 100 "b-1" := by decide

theorem orderText_ok : IsBoundedText 100 "b-1" := orderId_ok.1

theorem execution_one_ok : IsIdText 100 "x-1" := by decide

theorem execution_two_ok : IsIdText 100 "x-2" := by decide

/-- The broker order of the intent, with `filled` executed shares as of instant `n`. -/
def sampleOrder (status : BrokerOrderStatus) (filled : Fin 11) (n : Fin 1000) : BrokerOrder where
  brokerOrderId := "b-1"
  clientOrderId := sampleId
  symbol := sampleSymbol
  side := .buy
  quantity := tenQuantity
  filledQuantity := filled
  limitPrice := samplePrice
  status
  submittedAt := instant 1
  updatedAt := instant n
  id_ok := orderId_ok
  filled_le := Nat.le_of_lt_succ filled.isLt

theorem fourShares_open :
    BrokerOrderStatus.partiallyFilled = .filled → 4 = tenQuantity.value := fun h => nomatch h

/-- The mirror of a freshly accepted order. -/
def sampleRow : MirrorRow :=
  ⟨sampleOrder .accepted 0 1, true, by simp, by simp [sampleOrder], by decide⟩

def sampleFill (executionId : String) (quantity : OrderQuantity) (n : Fin 1000)
    (h : IsIdText 100 executionId) : Fill :=
  ⟨executionId, "b-1", quantity, samplePrice, instant n, h, orderId_ok⟩

def sampleStatus (status : BrokerOrderStatus) (filled : Nat) (n : Fin 1000) : OrderStatusUpdate :=
  ⟨sampleId, "b-1", status, filled, instant n, orderText_ok⟩

/-- Tables with one intent, its mirror and no fills; entries are not paused. -/
def sampleDb (status : OrderStatus) (row : MirrorRow) : Db where
  intents := Table.empty.add (sampleIntent status)
  mirrors := Table.empty.add row
  fills := Table.empty
  control := ⟨false, none, instant 0, 0, rfl, Db.no_reason_ok⟩
  commands := Table.empty
  runs := []
  baselineRevisions := []
  accountBaselines := []
  client_unique := by simp [Table.add, Table.empty]

/-- An environment whose broker is not reachable. -/
def sampleEnv : Env where
  clock _ := instant 10
  broker _ _ := .error ⟨.brokerTransport, "unreachable"⟩
  price _ _ := .error ⟨.markPriceUnavailable, "unreachable"⟩
  uuid n := ⟨n % 2 ^ 64 + 1, by omega⟩

def sampleUuid5 : NameUuid := fun _ _ => .one

/-- A conflicting observation of an order whose intent is still in the outbox has its review
marker rejected, and an execution of `2 ^ 63` shares surfaces as a database error. -/
theorem deliver_rejects_marker :
    (run (handler sampleEnv) (applyUpdate sampleUuid5 (.status (sampleStatus .accepted 3 1)))
      (.start (sampleDb .outboxPending sampleRow))).2.rejected =
        [.store .uow (.transitionStatus sampleId .reviewRequired)] ∧
    (run (handler sampleEnv)
      (applyUpdate sampleUuid5 (.fill (sampleFill "e-1" ⟨2 ^ 63, by decide⟩ 2 (by decide))))
      (.start (sampleDb .acknowledged sampleRow))).1 = .error ⟨.database, "bigint out of range"⟩ := by
  decide +kernel

end SevenLens
