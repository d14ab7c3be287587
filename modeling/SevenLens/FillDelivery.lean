import Mathlib.Algebra.BigOperators.Group.Finset.Basic
import Mathlib.Algebra.Order.BigOperators.Group.Finset
import Mathlib.Order.Bounds.Basic
import SevenLens.ConsumerStream

/-! # Delivery of fills

Fills of one open order may arrive in any order and any number of times.  The state they
lead to is determined by the set of fills delivered: `FillOutcome` states it in terms of the
executions that were not recorded before, and `deliverFills_confluent` proves that every
delivery reaches it. -/

namespace SevenLens

open Calls Prog

variable {env : Env} {uuid5 : NameUuid} {w : World}

/-- The broker statuses in which executions are still expected. -/
def BrokerOrderStatus.isFillable : BrokerOrderStatus → Bool
  | .received | .accepted | .acceptedForBidding | .partiallyFilled => true
  | _ => false

/-- The mirror row and the intent of one order are in step with its recorded fills: the
order is open, or it is filled. -/
structure InStep (db : Db) (row : MirrorRow) (i : OrderIntent) : Prop where
  row_get : db.mirrors.get row.brokerOrderId = some row
  intent_get : db.intents.get row.clientOrderId = some i
  level : row.order.filledQuantity = fillTotal (db.fillsOf row.brokerOrderId)
  status : (row.order.status.isFillable = true ∧ (i.status = .acknowledged ∨ i.status = .partiallyFilled)) ∨
    (row.order.status = .filled ∧ i.status = .filled)

/-- The broker status of an order with `n` of `quantity` shares executed, when some are. -/
def brokerStatusFor (n quantity : Nat) : BrokerOrderStatus :=
  if n = quantity then .filled else .partiallyFilled

/-- The intent status of an order with `n` of `quantity` shares executed, when some are. -/
def intentStatusFor (n quantity : Nat) : OrderStatus :=
  if n = quantity then .filled else .partiallyFilled

theorem fillCandidate_eq {m : BrokerOrder} {n : Nat} (hn : 0 < n) :
    fillCandidate m n = brokerStatusFor n m.quantity.value := by
  simp only [fillCandidate, brokerStatusFor, if_pos hn]

theorem isFillable_spec {s : BrokerOrderStatus} (hs : s.isFillable = true) :
    ¬ (s.isTerminal = true ∨ s.isReview = true) ∧ s ≠ .pendingCancel ∧
      brokerOrderTransitionAllowed s .filled = true ∧
      brokerOrderTransitionAllowed s .partiallyFilled = true := by
  revert hs
  cases s <;> decide

/-- An open order follows its fills without conflict. -/
theorem fillBrokerTarget_eq {m : BrokerOrder} {n : Nat} (hn : 0 < n)
    (hs : m.status.isFillable = true) :
    fillBrokerTarget m n = .ok (brokerStatusFor n m.quantity.value) := by
  obtain ⟨hfrozen, hcancel, hfilled, hpartly⟩ := isFillable_spec hs
  have hallowed : brokerOrderTransitionAllowed m.status (brokerStatusFor n m.quantity.value) = true := by
    unfold brokerStatusFor
    split
    · exact hfilled
    · exact hpartly
  rw [fillBrokerTarget, if_neg hfrozen, if_neg hcancel, fillCandidate_eq hn, if_pos hallowed]
  split
  · rename_i h
    rw [h]
  · rfl

theorem fillIntentTarget_eq (n q : Nat) (s : OrderStatus) :
    fillIntentTarget (brokerStatusFor n q) s = intentStatusFor n q := by
  unfold brokerStatusFor intentStatusFor
  split <;> rfl

theorem intentStatusFor_allowed {s : OrderStatus} (hs : s = .acknowledged ∨ s = .partiallyFilled)
    (n q : Nat) : orderTransitionAllowed s (intentStatusFor n q) = true := by
  unfold intentStatusFor
  rcases hs with rfl | rfl <;> split <;> rfl

theorem statusFor_inStep (n q : Nat) :
    ((brokerStatusFor n q).isFillable = true ∧
      (intentStatusFor n q = .acknowledged ∨ intentStatusFor n q = .partiallyFilled)) ∨
    (brokerStatusFor n q = .filled ∧ intentStatusFor n q = .filled) := by
  unfold brokerStatusFor intentStatusFor
  split
  · exact Or.inr ⟨rfl, rfl⟩
  · exact Or.inl ⟨rfl, Or.inr rfl⟩

/-- The filled quantity after one more fill of an order in step. -/
theorem fillLevel_addFill {db : Db} {row : MirrorRow} {f : Fill}
    (hlevel : row.order.filledQuantity = fillTotal (db.fillsOf row.brokerOrderId))
    (hb : f.brokerOrderId = row.brokerOrderId) (hnew : db.fills.get f.executionId = none) :
    (db.apply (.addFill f)).fillLevel row = row.order.filledQuantity + f.quantity.value := by
  have := Db.fillsOf_apply_addFill hnew
  rw [hb] at this
  rw [Db.fillLevel, this, fillTotal_append, ← hlevel]
  simp

/-- What the executions `s`, none of them recorded in `db`, make of an order with mirror row
`row` and intent `i`: the tables `db'` with row `row'` and intent `i'`. -/
structure FillOutcome (db : Db) (row : MirrorRow) (i : OrderIntent) (s : Finset Fill)
    (db' : Db) (row' : MirrorRow) (i' : OrderIntent) : Prop where
  mirrors : db'.mirrors = db.mirrors.put row'
  intents : db'.intents = db.intents.put i'
  control : db'.control = db.control
  ledger : ∀ f, f ∈ db'.fills.rows ↔ f ∈ db.fills.rows ∨ f ∈ s
  base : row'.order.SameBase row.order
  filled : row'.order.filledQuantity = row.order.filledQuantity + ∑ f ∈ s, f.quantity.value
  watermark : IsGreatest (insert row.order.updatedAt (Fill.occurredAt '' (s : Set Fill))) row'.order.updatedAt
  known : row'.watermarkKnown = (row.watermarkKnown || decide (row.order.updatedAt < row'.order.updatedAt))
  status : row'.order.status =
    if s = ∅ then row.order.status else brokerStatusFor row'.order.filledQuantity row.order.quantity.value
  intent : i' =
    if s = ∅ then i else i.withStatus (intentStatusFor row'.order.filledQuantity row.order.quantity.value)

namespace FillOutcome

variable {db db₁ db' : Db} {row row₁ row' : MirrorRow} {i i₁ i' : OrderIntent} {s : Finset Fill}

theorem refl (hs : InStep db row i) : FillOutcome db row i ∅ db row i where
  mirrors := (Table.put_self hs.row_get).symm
  intents := by
    have hkey : i.clientOrderId = row.clientOrderId := Table.key_of_get hs.intent_get
    exact (Table.put_self (hkey.symm ▸ hs.intent_get)).symm
  control := rfl
  ledger := by simp
  base := BrokerOrder.SameBase.refl _
  filled := by simp
  watermark := by simp [isGreatest_singleton]
  known := by simp
  status := by simp
  intent := by simp

theorem intent_key (h : FillOutcome db row i s db' row' i') : i'.clientOrderId = i.clientOrderId := by
  rw [h.intent]
  split <;> rfl

/-- One more execution before the others. -/
theorem cons {f : Fill} (h : FillOutcome db row i {f} db₁ row₁ i₁)
    (h' : FillOutcome db₁ row₁ i₁ s db' row' i') (hf : f ∉ s) :
    FillOutcome db row i (insert f s) db' row' i' where
  mirrors := by
    rw [h'.mirrors, h.mirrors]
    exact Table.put_put _ h'.base.brokerOrderId.symm
  intents := by
    rw [h'.intents, h.intents]
    exact Table.put_put _ h'.intent_key.symm
  control := h'.control.trans h.control
  ledger := by
    intro g
    rw [h'.ledger, h.ledger, Finset.mem_insert, Finset.mem_singleton, or_assoc]
  base := h'.base.trans h.base
  filled := by
    rw [h'.filled, h.filled, Finset.sum_insert hf, Finset.sum_singleton, Nat.add_assoc]
  watermark := by
    obtain ⟨hm, hu⟩ := h.watermark
    obtain ⟨hm', hu'⟩ := h'.watermark
    have hle : row₁.order.updatedAt ≤ row'.order.updatedAt := hu' (Set.mem_insert _ _)
    simp only [Finset.coe_singleton, Set.image_singleton] at hm hu
    rw [Finset.coe_insert, Set.image_insert_eq]
    constructor
    · rcases hm' with hm' | hm'
      · rw [hm']
        rcases hm with hm | hm
        · exact Or.inl hm
        · exact Or.inr (Or.inl hm)
      · exact Or.inr (Or.inr hm')
    · rintro x (rfl | rfl | hx)
      · exact (hu (Set.mem_insert _ _)).trans hle
      · exact (hu (Or.inr rfl)).trans hle
      · exact hu' (Or.inr hx)
  known := by
    have h₁ : row.order.updatedAt ≤ row₁.order.updatedAt := h.watermark.2 (Set.mem_insert _ _)
    have h₂ : row₁.order.updatedAt ≤ row'.order.updatedAt := h'.watermark.2 (Set.mem_insert _ _)
    have hiff : row.order.updatedAt < row'.order.updatedAt ↔
        row.order.updatedAt < row₁.order.updatedAt ∨ row₁.order.updatedAt < row'.order.updatedAt := by
      constructor
      · intro hlt
        rcases h₁.lt_or_eq with e | e
        · exact Or.inl e
        · exact Or.inr (e ▸ hlt)
      · rintro (e | e)
        · exact e.trans_le h₂
        · exact h₁.trans_lt e
    rw [h'.known, h.known, Bool.or_assoc, ← Bool.decide_or]
    simp only [hiff]
  status := by
    rw [if_neg (Finset.insert_ne_empty f s), h'.status]
    split
    · rename_i he
      have hn : row'.order.filledQuantity = row₁.order.filledQuantity := by simpa [he] using h'.filled
      rw [h.status, if_neg (Finset.singleton_ne_empty f), hn]
    · rw [h.base.quantity]
  intent := by
    rw [if_neg (Finset.insert_ne_empty f s), h'.intent]
    have hi := h.intent
    rw [if_neg (Finset.singleton_ne_empty f)] at hi
    split
    · rename_i he
      have hn : row'.order.filledQuantity = row₁.order.filledQuantity := by simpa [he] using h'.filled
      rw [hi, hn]
    · rw [hi, OrderIntent.withStatus_withStatus, h.base.quantity]

/-- The outcome is determined by the executions. -/
theorem unique {db₂ : Db} {row₂ : MirrorRow} {i₂ : OrderIntent}
    (h : FillOutcome db row i s db' row' i') (h₂ : FillOutcome db row i s db₂ row₂ i₂) :
    row' = row₂ ∧ i' = i₂ := by
  have hn : row'.order.filledQuantity = row₂.order.filledQuantity := h.filled.trans h₂.filled.symm
  have ht : row'.order.updatedAt = row₂.order.updatedAt := h.watermark.unique h₂.watermark
  have hs : row'.order.status = row₂.order.status := by rw [h.status, h₂.status, hn]
  have ho : row'.order = row₂.order := h.base.eq_of h₂.base hs hn ht
  refine ⟨?_, by rw [h.intent, h₂.intent, hn]⟩
  have hk : row'.watermarkKnown = row₂.watermarkKnown := by rw [h.known, h₂.known, ht]
  cases row'
  cases row₂
  simp_all

end FillOutcome

/-- A fill that was not recorded before, on an order in step with room for it, is applied. -/
theorem consumed_freshFill {db db' : Db} {row : MirrorRow} {i : OrderIntent} {f : Fill}
    {r : Except PyError TradeUpdateOutcome} (hs : InStep db row i)
    (hb : f.brokerOrderId = row.brokerOrderId) (hnew : db.fills.get f.executionId = none)
    (hroom : row.order.filledQuantity + f.quantity.value ≤ row.order.quantity.value)
    (h : Consumed db (.fill f) r db') :
    r = .ok .applied ∧ ∃ row' i', FillOutcome db row i {f} db' row' i' ∧ InStep db' row' i' := by
  have hrow : db.mirrors.get f.brokerOrderId = some row := hb ▸ hs.row_get
  have hlevel := fillLevel_addFill hs.level hb hnew
  have hpos := f.quantity.pos
  have hopen : row.order.status.isFillable = true ∧
      (i.status = .acknowledged ∨ i.status = .partiallyFilled) := by
    rcases hs.status with h | ⟨h, -⟩
    · exact h
    · have := row.exact h
      omega
  have htarget := fillBrokerTarget_eq (m := row.order)
    (n := (db.apply (.addFill f)).fillLevel row) (by omega) hopen.1
  cases h with
  | unknownFill hm => rw [hrow] at hm; cases hm
  | unstorable hq he =>
      have := row.fits
      omega
  | repeated hf => rw [hnew] at hf; cases hf
  | clashing hm hg hne he hgate => rw [hnew] at hg; cases hg
  | @refusedFill _ row₂ _ _ hm _ hr he hgate =>
      obtain rfl : row = row₂ := Option.some.inj (hrow.symm.trans hm)
      rcases hr with hq | ⟨e, he⟩ | ⟨t, j, ht, hj, hne, ha⟩
      · omega
      · rw [htarget] at he
        cases he
      · obtain rfl : i = j := Option.some.inj (hs.intent_get.symm.trans hj)
        obtain rfl := Except.ok.inj (htarget.symm.trans ht)
        rw [fillIntentTarget_eq, intentStatusFor_allowed hopen.2] at ha
        cases ha
  | @filled _ row₂ _ hm _ hd =>
      obtain rfl : row = row₂ := Option.some.inj (hrow.symm.trans hm)
      cases hd with
      | same hl =>
          rw [hlevel] at hl
          omega
      | @moved t _ hq hf ht hi hd =>
          obtain rfl := Except.ok.inj (htarget.symm.trans ht)
          refine ⟨rfl, row.refreshed _ _ (fillObserved row.order f) hq hf, i.withStatus (intentStatusFor
            ((db.apply (.addFill f)).fillLevel row) row.order.quantity.value), ?_⟩
          have hintents : db'.intents = db.intents.put (i.withStatus (intentStatusFor
              ((db.apply (.addFill f)).fillLevel row) row.order.quantity.value)) := by
            have hi' : (db.apply (.addFill f)).intents.get row.clientOrderId = some i := hs.intent_get
            rw [hd.intents, ← fillIntentTarget_eq _ _ i.status]
            exact Db.movedIntents_of_get _ hi'
          have hobserved : (fillObserved row.order f).getD row.order.updatedAt =
              max row.order.updatedAt f.occurredAt := by
            unfold fillObserved
            split
            · rename_i hlt
              exact (max_eq_right (le_of_lt hlt)).symm
            · rename_i hle
              exact (max_eq_left (not_lt.mp hle)).symm
          have hfills : db'.fillsOf row.brokerOrderId = db.fillsOf row.brokerOrderId ++ [f] := by
            rw [← hb, ← Db.fillsOf_apply_addFill hnew]
            simp only [Db.fillsOf, hd.fills]
          constructor
          · refine ⟨hd.mirrors, hintents, hd.control, ?_, ⟨rfl, rfl, rfl, rfl, rfl, rfl, rfl⟩, ?_, ?_, ?_,
              ?_, ?_⟩
            · intro g
              rw [hd.fills, Db.apply_addFill_fills, Table.mem_add_iff hnew, Finset.mem_singleton]
            · rw [Finset.sum_singleton]
              exact hlevel
            · rw [Finset.coe_singleton, Set.image_singleton]
              show IsGreatest _ ((fillObserved row.order f).getD row.order.updatedAt)
              rw [hobserved]
              exact isGreatest_pair
            · show (row.watermarkKnown || (fillObserved row.order f).isSome) = (row.watermarkKnown ||
                decide (row.order.updatedAt < (fillObserved row.order f).getD row.order.updatedAt))
              unfold fillObserved
              split
              · rename_i hlt
                simp [hlt]
              · simp
            · rw [if_neg (Finset.singleton_ne_empty f)]
              rfl
            · rw [if_neg (Finset.singleton_ne_empty f)]
              rfl
          · have hkey : i.clientOrderId = row.clientOrderId := Table.key_of_get hs.intent_get
            refine ⟨?_, ?_, ?_, statusFor_inStep _ _⟩
            · rw [hd.mirrors]
              exact Table.get_put_self hs.row_get
            · show db'.intents.get row.clientOrderId = _
              rw [hintents, ← hkey]
              exact Table.get_put_self (hkey.symm ▸ hs.intent_get)
            · show (db.apply (.addFill f)).fillLevel row = fillTotal (db'.fillsOf row.brokerOrderId)
              rw [hlevel, hfills, fillTotal_append, ← hs.level]
              simp

/-- A fill of the order that is recorded already changes nothing. -/
theorem consumed_recordedFill {db db' : Db} {row : MirrorRow} {i : OrderIntent} {f : Fill}
    {r : Except PyError TradeUpdateOutcome} (hs : InStep db row i)
    (hb : f.brokerOrderId = row.brokerOrderId) (hf : f ∈ db.fills.rows)
    (h : Consumed db (.fill f) r db') : r = .ok .duplicate ∧ db' = db := by
  have hget : db.fills.get f.executionId = some f := Table.get_of_mem hf
  cases h with
  | unknownFill hm =>
      rw [hb, hs.row_get] at hm
      cases hm
  | unstorable hq he =>
      have hmem : f.quantity.value ∈ (db.fillsOf row.brokerOrderId).map (fun f => f.quantity.value) :=
        List.mem_map_of_mem (List.mem_filter.mpr ⟨hf, by simpa using hb⟩)
      have hle : f.quantity.value ≤ fillTotal (db.fillsOf row.brokerOrderId) := List.le_sum_of_mem hmem
      have := row.fits
      have := row.order.filled_le
      have := hs.level
      omega
  | repeated => exact ⟨rfl, rfl⟩
  | clashing hm hg hne he hgate =>
      rw [hget] at hg
      exact absurd (Option.some.inj hg).symm hne
  | filled hm hnew hd =>
      rw [hget] at hnew
      cases hnew
  | refusedFill hm hnew hr he hgate =>
      rw [hget] at hnew
      cases hnew

/-- The delivered fills that are not recorded yet. -/
def freshFills (db : Db) (fs : List Fill) : Finset Fill := fs.toFinset.filter (fun f => f ∉ db.fills.rows)

theorem mem_freshFills {db : Db} {fs : List Fill} {f : Fill} :
    f ∈ freshFills db fs ↔ f ∈ fs ∧ f ∉ db.fills.rows := by
  simp [freshFills]

theorem freshFills_congr {db : Db} {fs gs : List Fill} (h : ∀ f, f ∈ fs ↔ f ∈ gs) :
    freshFills db fs = freshFills db gs := by
  ext f
  rw [mem_freshFills, mem_freshFills, h]

/-- The fills `fs` are executions of one order: the payload of an execution id is consistent,
among them and with the ledger, and the order has room for those not recorded yet. -/
structure Deliverable (db : Db) (row : MirrorRow) (fs : List Fill) : Prop where
  order : ∀ f ∈ fs, f.brokerOrderId = row.brokerOrderId
  payload : ∀ f ∈ fs, ∀ g ∈ fs, f.executionId = g.executionId → f = g
  recorded : ∀ f ∈ fs, ∀ g ∈ db.fills.rows, f.executionId = g.executionId → f = g
  room : row.order.filledQuantity + ∑ f ∈ freshFills db fs, f.quantity.value ≤ row.order.quantity.value

theorem freshFills_cons_recorded {db : Db} {f : Fill} (fs : List Fill) (hf : f ∈ db.fills.rows) :
    freshFills db (f :: fs) = freshFills db fs := by
  ext g
  rw [mem_freshFills, mem_freshFills, List.mem_cons]
  constructor
  · rintro ⟨rfl | hg, hn⟩
    · exact absurd hf hn
    · exact ⟨hg, hn⟩
  · exact fun h => ⟨Or.inr h.1, h.2⟩

theorem freshFills_cons_fresh {db db₁ : Db} {f : Fill} (fs : List Fill) (hf : f ∉ db.fills.rows)
    (hdb : ∀ g, g ∈ db₁.fills.rows ↔ g ∈ db.fills.rows ∨ g ∈ ({f} : Finset Fill)) :
    freshFills db (f :: fs) = insert f (freshFills db₁ fs) ∧ f ∉ freshFills db₁ fs := by
  constructor
  · ext g
    rw [mem_freshFills, Finset.mem_insert, mem_freshFills, List.mem_cons, hdb, Finset.mem_singleton, not_or]
    constructor
    · rintro ⟨rfl | hg, hn⟩
      · exact Or.inl rfl
      · by_cases he : g = f
        · exact Or.inl he
        · exact Or.inr ⟨hg, hn, he⟩
    · rintro (rfl | ⟨hg, hn, -⟩)
      · exact ⟨Or.inl rfl, hf⟩
      · exact ⟨Or.inr hg, hn⟩
  · rw [mem_freshFills, hdb]
    simp

namespace Deliverable

variable {db db₁ : Db} {row row₁ : MirrorRow} {i i₁ : OrderIntent} {f : Fill} {fs : List Fill}

theorem get_eq_none (hd : Deliverable db row (f :: fs)) (hf : f ∉ db.fills.rows) :
    db.fills.get f.executionId = none := by
  rw [Table.get_eq_none_iff]
  rintro g hg hkey
  rw [hd.recorded f List.mem_cons_self g hg hkey.symm] at hf
  exact hf hg

theorem room_head (hd : Deliverable db row (f :: fs)) (hf : f ∉ db.fills.rows) :
    row.order.filledQuantity + f.quantity.value ≤ row.order.quantity.value := by
  have hmem : f ∈ freshFills db (f :: fs) := mem_freshFills.mpr ⟨List.mem_cons_self, hf⟩
  have hone : f.quantity.value ≤ ∑ g ∈ freshFills db (f :: fs), g.quantity.value :=
    Finset.single_le_sum (fun g _ => Nat.zero_le g.quantity.value) hmem
  have := hd.room
  omega

theorem tail_recorded (hd : Deliverable db row (f :: fs)) (hf : f ∈ db.fills.rows) :
    Deliverable db row fs where
  order g hg := hd.order g (List.mem_cons_of_mem _ hg)
  payload g hg k hk := hd.payload g (List.mem_cons_of_mem _ hg) k (List.mem_cons_of_mem _ hk)
  recorded g hg := hd.recorded g (List.mem_cons_of_mem _ hg)
  room := freshFills_cons_recorded fs hf ▸ hd.room

theorem tail_fresh (hd : Deliverable db row (f :: fs)) (hf : f ∉ db.fills.rows)
    (hout : FillOutcome db row i {f} db₁ row₁ i₁) : Deliverable db₁ row₁ fs where
  order g hg := (hd.order g (List.mem_cons_of_mem _ hg)).trans hout.base.brokerOrderId.symm
  payload g hg k hk := hd.payload g (List.mem_cons_of_mem _ hg) k (List.mem_cons_of_mem _ hk)
  recorded := by
    intro g hg k hk hkey
    rw [hout.ledger, Finset.mem_singleton] at hk
    rcases hk with hk | rfl
    · exact hd.recorded g (List.mem_cons_of_mem _ hg) k hk hkey
    · exact hd.payload g (List.mem_cons_of_mem _ hg) k List.mem_cons_self hkey
  room := by
    obtain ⟨hfresh, hnotMem⟩ := freshFills_cons_fresh fs hf hout.ledger
    have hroom := hd.room
    have hfilled := hout.filled
    rw [Finset.sum_singleton] at hfilled
    rw [hfresh, Finset.sum_insert hnotMem] at hroom
    rw [hout.base.quantity]
    omega

end Deliverable

/-- Every delivery of deliverable fills succeeds with the outcome of the fresh ones. -/
theorem deliver_fillOutcome (hw : w.Idle) {row : MirrorRow} {i : OrderIntent} (hs : InStep w.db row i)
    {fs : List Fill} (hd : Deliverable w.db row fs) {rs : List (Except PyError TradeUpdateOutcome)}
    {w' : World} (h : deliver env uuid5 w (fs.map .fill) = (rs, w')) :
    (∀ r ∈ rs, ∃ o, r = .ok o) ∧
    ∃ row' i', FillOutcome w.db row i (freshFills w.db fs) w'.db row' i' ∧ InStep w'.db row' i' := by
  induction fs generalizing w row i rs with
  | nil =>
      cases h
      exact ⟨by simp, row, i, FillOutcome.refl hs, hs⟩
  | cons f fs ih =>
      obtain ⟨r, w₁, hrun⟩ : ∃ r w₁, run (handler env) (applyUpdate uuid5 (.fill f)) w = (r, w₁) :=
        ⟨_, _, rfl⟩
      obtain ⟨rs₁, w₂, hrest⟩ : ∃ rs₁ w₂, deliver env uuid5 w₁ (fs.map .fill) = (rs₁, w₂) := ⟨_, _, rfl⟩
      rw [List.map_cons, deliver, hrun, hrest] at h
      cases h
      obtain ⟨hidle, hcons, -⟩ := applyUpdate_consumed hw hrun
      have hb := hd.order f List.mem_cons_self
      by_cases hf : f ∈ w.db.fills.rows
      · obtain ⟨rfl, hdb⟩ := consumed_recordedFill hs hb hf hcons
        obtain ⟨hok, row', i', hout, hs'⟩ := ih hidle (hdb ▸ hs) (hdb ▸ hd.tail_recorded hf) hrest
        rw [hdb, ← freshFills_cons_recorded fs hf] at hout
        exact ⟨by simpa using hok, row', i', hout, hs'⟩
      · obtain ⟨rfl, row₁, i₁, hout₁, hs₁⟩ :=
          consumed_freshFill hs hb (hd.get_eq_none hf) (hd.room_head hf) hcons
        obtain ⟨hfresh, hnotMem⟩ := freshFills_cons_fresh fs hf hout₁.ledger
        obtain ⟨hok, row', i', hout, hs'⟩ := ih hidle hs₁ (hd.tail_fresh hf hout₁) hrest
        exact ⟨by simpa using hok, row', i', hfresh ▸ hout₁.cons hout hnotMem, hs'⟩

/-- Mirror and intent say what `n` executed shares of `q` say. -/
def Agrees (n q : Nat) (s : BrokerOrderStatus) (t : OrderStatus) : Prop :=
  (n = q → s = .filled ∧ t = .filled) ∧ (0 < n → n < q → s = .partiallyFilled ∧ t = .partiallyFilled)

theorem agrees_statusFor (n q : Nat) : Agrees n q (brokerStatusFor n q) (intentStatusFor n q) := by
  unfold brokerStatusFor intentStatusFor
  refine ⟨fun h => by simp [h], fun _ h => ?_⟩
  rw [if_neg (Nat.ne_of_lt h), if_neg (Nat.ne_of_lt h)]
  exact ⟨rfl, rfl⟩

theorem FillOutcome.agrees {db db' : Db} {row row' : MirrorRow} {i i' : OrderIntent} {s : Finset Fill}
    (h : FillOutcome db row i s db' row' i')
    (hs : s = ∅ → Agrees row.order.filledQuantity row.order.quantity.value row.order.status i.status) :
    Agrees row'.order.filledQuantity row.order.quantity.value row'.order.status i'.status := by
  rw [h.status, h.intent]
  by_cases he : s = ∅
  · have hn : row'.order.filledQuantity = row.order.filledQuantity := by simpa [he] using h.filled
    rw [if_pos he, if_pos he, hn]
    exact hs he
  · rw [if_neg he, if_neg he]
    exact agrees_statusFor _ _

/-- **Fill delivery is confluent.**  Fills of one open order, delivered as `fs` or in any
other order and repetition `gs`, never raise and lead to the same mirrors, the same intents
and the same fill set.  The mirror's quantity is the total of the recorded fills, its
watermark the latest of the old watermark and the fills not recorded before, and mirror and
intent say what the quantity says, unless they did not before and no fill was new. -/
theorem deliverFills_confluent (env : Env) (uuid5 : NameUuid) (db : Db) (row : MirrorRow) (i : OrderIntent)
    (fs gs : List Fill) (hrow : db.mirrors.get row.brokerOrderId = some row)
    (hi : db.intents.get row.clientOrderId = some i) (hopen : row.order.status.isFillable = true)
    (hlive : i.status = .acknowledged ∨ i.status = .partiallyFilled)
    (hlevel : row.order.filledQuantity = fillTotal (db.fillsOf row.brokerOrderId))
    (hfs : Deliverable db row fs) (hsame : ∀ f, f ∈ fs ↔ f ∈ gs) :
    let out := deliver env uuid5 (.start db) (fs.map .fill)
    let out' := deliver env uuid5 (.start db) (gs.map .fill)
    (∀ r ∈ out.1, ∃ o, r = .ok o) ∧ (∀ r ∈ out'.1, ∃ o, r = .ok o) ∧
    out.2.db.mirrors = out'.2.db.mirrors ∧ out.2.db.intents = out'.2.db.intents ∧
    out.2.db.control = out'.2.db.control ∧
    (∀ f, f ∈ out.2.db.fills.rows ↔ f ∈ db.fills.rows ∨ f ∈ fs) ∧
    (∀ f, f ∈ out'.2.db.fills.rows ↔ f ∈ out.2.db.fills.rows) ∧
    ∃ row' i', out.2.db.mirrors.get row.brokerOrderId = some row' ∧
      out.2.db.intents.get row.clientOrderId = some i' ∧
      row'.order.filledQuantity = fillTotal (out.2.db.fillsOf row.brokerOrderId) ∧
      IsGreatest (insert row.order.updatedAt (Fill.occurredAt '' {f | f ∈ fs ∧ f ∉ db.fills.rows}))
        row'.order.updatedAt ∧
      (Agrees row.order.filledQuantity row.order.quantity.value row.order.status i.status ∨
        (∃ f ∈ fs, f ∉ db.fills.rows) →
        Agrees row'.order.filledQuantity row.order.quantity.value row'.order.status i'.status) := by
  intro out out'
  have hs : InStep db row i := ⟨hrow, hi, hlevel, Or.inl ⟨hopen, hlive⟩⟩
  have hfresh : freshFills db gs = freshFills db fs := freshFills_congr fun f => (hsame f).symm
  have hgs : Deliverable db row gs := by
    refine ⟨fun f hf => hfs.order f ((hsame f).mpr hf), fun f hf g hg => ?_, fun f hf => ?_, hfresh ▸ hfs.room⟩
    · exact hfs.payload f ((hsame f).mpr hf) g ((hsame g).mpr hg)
    · exact hfs.recorded f ((hsame f).mpr hf)
  have hrun : deliver env uuid5 (.start db) (fs.map .fill) = (out.1, out.2) := rfl
  have hrun' : deliver env uuid5 (.start db) (gs.map .fill) = (out'.1, out'.2) := rfl
  obtain ⟨hok, row', i', hout, hin⟩ := deliver_fillOutcome (World.start_idle db) hs hfs hrun
  obtain ⟨hok', row₂, i₂, hout', -⟩ := deliver_fillOutcome (World.start_idle db) hs hgs hrun'
  have hfresh' : freshFills (World.start db).db gs = freshFills (World.start db).db fs := hfresh
  rw [hfresh'] at hout'
  obtain ⟨rfl, rfl⟩ := hout.unique hout'
  have hb : row'.brokerOrderId = row.brokerOrderId := hout.base.brokerOrderId
  have hc : row'.clientOrderId = row.clientOrderId := hout.base.clientOrderId
  have hledger : ∀ f, f ∈ out.2.db.fills.rows ↔ f ∈ db.fills.rows ∨ f ∈ fs := by
    intro f
    rw [hout.ledger, mem_freshFills]
    tauto
  refine ⟨hok, hok', hout.mirrors.trans hout'.mirrors.symm, hout.intents.trans hout'.intents.symm,
    hout.control.trans hout'.control.symm, hledger, fun f => (hout'.ledger f).trans (hout.ledger f).symm,
    row', i', ?_, ?_, ?_, ?_, fun hag => hout.agrees fun he => ?_⟩
  · rw [← hb]
    exact hin.row_get
  · rw [← hc]
    exact hin.intent_get
  · rw [← hb]
    exact hin.level
  · have hset : {f | f ∈ fs ∧ f ∉ db.fills.rows} = (freshFills db fs : Set Fill) := by
      ext f
      exact mem_freshFills.symm
    rw [hset]
    exact hout.watermark
  · rcases hag with hag | ⟨f, hf, hn⟩
    · exact hag
    · have hmem : f ∈ freshFills db fs := mem_freshFills.mpr ⟨hf, hn⟩
      have he' : freshFills db fs = ∅ := he
      rw [he'] at hmem
      cases hmem

/-- Executions of four and six shares complete the sample order in either order. -/
def fourShares : Fill := sampleFill "e-1" fourQuantity 5 (by decide)

def sixShares : Fill := sampleFill "e-2" ⟨6, by decide⟩ 3 (by decide)

theorem deliverFills_confluent_complete :
    (deliver sampleEnv sampleUuid5 (.start (sampleDb .acknowledged sampleRow))
      ([fourShares, sixShares].map .fill)).2.db.mirrors =
    (deliver sampleEnv sampleUuid5 (.start (sampleDb .acknowledged sampleRow))
      ([sixShares, fourShares, sixShares].map .fill)).2.db.mirrors :=
  (deliverFills_confluent sampleEnv sampleUuid5 (sampleDb .acknowledged sampleRow) sampleRow
    (sampleIntent .acknowledged) [fourShares, sixShares] [sixShares, fourShares, sixShares]
    (by decide +kernel) (by decide +kernel) (by decide) (Or.inl rfl) (by decide +kernel)
    ⟨by decide, by decide, by decide, by decide⟩ (by
      intro f
      simp only [List.mem_cons, List.not_mem_nil, or_false]
      tauto)).2.2.1

/-- The sample order with four shares recorded from an execution later than its watermark, as
polling records it when the broker stamps the order before the execution. -/
def earlyWatermarkRow : MirrorRow :=
  ⟨sampleOrder .partiallyFilled 4 1, true, by simp, fourShares_open, by decide⟩

def earlyWatermarkDb : Db := (sampleDb .partiallyFilled earlyWatermarkRow).apply (.addFill fourShares)

/-- Delivering that execution again leaves the watermark where it was, before the execution. -/
theorem repeatedFill_keeps_watermark :
    (earlyWatermarkDb.mirrors.get "b-1" = some earlyWatermarkRow ∧
      earlyWatermarkDb.intents.get sampleId = some (sampleIntent .partiallyFilled) ∧
      earlyWatermarkRow.order.filledQuantity = fillTotal (earlyWatermarkDb.fillsOf "b-1")) ∧
    Deliverable earlyWatermarkDb earlyWatermarkRow [fourShares] ∧
    let out := deliver sampleEnv sampleUuid5 (.start earlyWatermarkDb) [.fill fourShares]
    out.1 = [.ok .duplicate] ∧
      (out.2.db.getBrokerOrder sampleId).map BrokerOrder.updatedAt = some (instant 1) ∧
      max earlyWatermarkRow.order.updatedAt fourShares.occurredAt = instant 5 := by
  refine ⟨by decide +kernel, ⟨by decide, by decide, by decide, by decide⟩, by decide +kernel⟩

end SevenLens
