import Mathlib.Algebra.Order.BigOperators.Group.List
import Mathlib.Data.List.Chain
import Mathlib.Data.List.Perm.Subperm
import SevenLens.FillDelivery

/-! # The mirror and the broker's history

The broker's own account of one order is a chain of observations, each with the executions
that explain its cumulative quantity.  The consumer sees an arbitrary part of it in an
arbitrary order.  `Behind` relates the mirror to the unseen history and is kept by every
update the history can emit, raised conflicts included. -/

namespace SevenLens

open Calls Prog

/-- One broker observation of an order and the executions since the one before. -/
structure Observation where
  status : BrokerOrderStatus
  filledQuantity : Nat
  observedAt : UtcTimestamp
  fills : List Fill

/-- `b` may be the observation after `a`. -/
structure Observation.Follows (a b : Observation) : Prop where
  status : b.status = a.status ∨ brokerOrderTransitionAllowed a.status b.status = true
  later : a.observedAt < b.observedAt
  filled : b.filledQuantity = a.filledQuantity + fillTotal b.fills

/-- A consistent history of one broker order.  Like every `BrokerOrder`, it never reports more
than the ordered quantity. -/
structure BrokerHistory where
  clientOrderId : ClientOrderId
  brokerOrderId : String
  quantity : OrderQuantity
  first : Observation
  rest : List Observation
  id_ok : IsBoundedText 100 brokerOrderId
  start : first.filledQuantity = fillTotal first.fills
  chain : (first :: rest).IsChain Observation.Follows
  backed : ∀ o ∈ first :: rest, ∀ f ∈ o.fills, f.brokerOrderId = brokerOrderId ∧ f.occurredAt ≤ o.observedAt
  distinct : (((first :: rest).flatMap Observation.fills).map Fill.executionId).Nodup
  within : ∀ o ∈ first :: rest, o.filledQuantity ≤ quantity.value
  exact : ∀ o ∈ first :: rest, o.status = .filled ↔ o.filledQuantity = quantity.value

namespace BrokerHistory

variable (h : BrokerHistory)

def observations : List Observation := h.first :: h.rest

/-- Every execution of the history. -/
def fills : List Fill := h.observations.flatMap Observation.fills

/-- The observation the history ends in. -/
def final : Observation := h.observations.getLast (List.cons_ne_nil _ _)

/-- The update that reports observation `o`. -/
def report (o : Observation) : OrderStatusUpdate :=
  ⟨h.clientOrderId, h.brokerOrderId, o.status, o.filledQuantity, o.observedAt, h.id_ok⟩

/-- The update is an execution or an observation of the history. -/
def Emits (u : TradeUpdate) : Prop :=
  (∃ f ∈ h.fills, u = .fill f) ∨ ∃ o ∈ h.observations, u = .status (h.report o)

variable {h}

/-- Along a chain the quantities add up, and a terminal status is the last one. -/
theorem chain_getLast {a : Observation} {l : List Observation}
    (hc : (a :: l).IsChain Observation.Follows) :
    ((a :: l).getLast (List.cons_ne_nil a l)).filledQuantity =
      a.filledQuantity + fillTotal (l.flatMap Observation.fills) ∧
    ∀ o ∈ a :: l, o.filledQuantity ≤ ((a :: l).getLast (List.cons_ne_nil a l)).filledQuantity ∧
      (o.status.isTerminal = true → ((a :: l).getLast (List.cons_ne_nil a l)).status = o.status) := by
  induction l generalizing a with
  | nil => simp
  | cons b l ih =>
      rw [List.isChain_cons_cons] at hc
      obtain ⟨hab, hc⟩ := hc
      obtain ⟨hsum, hall⟩ := ih hc
      rw [List.getLast_cons (List.cons_ne_nil b l)]
      refine ⟨?_, fun o ho => ?_⟩
      · rw [hsum, hab.filled, List.flatMap_cons, fillTotal_append, Nat.add_assoc]
      · rcases List.mem_cons.mp ho with rfl | ho
        · obtain ⟨hle, hterm⟩ := hall b List.mem_cons_self
          refine ⟨by have := hab.filled; omega, fun ht => ?_⟩
          have hb : b.status = o.status := eq_of_frozen (Or.inl ht) hab.status
          rw [hterm (hb ▸ ht), hb]
        · exact hall o ho

theorem final_filled : h.final.filledQuantity = fillTotal h.fills := by
  have hfills : h.fills = h.first.fills ++ h.rest.flatMap Observation.fills := List.flatMap_cons
  rw [hfills, fillTotal_append, ← h.start]
  exact (chain_getLast h.chain).1

theorem filled_le_final {o : Observation} (ho : o ∈ h.observations) :
    o.filledQuantity ≤ h.final.filledQuantity := ((chain_getLast h.chain).2 o ho).1

theorem final_status {o : Observation} (ho : o ∈ h.observations) (ht : o.status.isTerminal = true) :
    h.final.status = o.status := ((chain_getLast h.chain).2 o ho).2 ht

theorem final_mem : h.final ∈ h.observations := List.getLast_mem _

end BrokerHistory

/-- Recorded fills that are part of the history do not exceed its final quantity. -/
theorem fillTotal_le_final {h : BrokerHistory} {l : List Fill} (hl : (l.map Fill.executionId).Nodup)
    (hsub : ∀ f ∈ l, f ∈ h.fills) : fillTotal l ≤ h.final.filledQuantity := by
  obtain ⟨m, hperm, hsub⟩ := List.subperm_of_subset hl.of_map hsub
  rw [h.final_filled]
  calc fillTotal l = fillTotal m := (hperm.symm.map _).sum_eq
    _ ≤ fillTotal h.fills := (hsub.map _).sum_le_sum (by simp)

/-- The local view of the order is behind the history: its recorded fills are executions of
the history, its quantity is at most the final one, and a terminal status is the final one. -/
structure Behind (h : BrokerHistory) (db : Db) : Prop where
  ledger : ∀ f ∈ db.fills.rows, f.brokerOrderId = h.brokerOrderId → f ∈ h.fills
  mirror : ∃ row, db.mirrors.get h.brokerOrderId = some row ∧ row.order.quantity = h.quantity ∧
    row.order.filledQuantity ≤ h.final.filledQuantity ∧
    (row.order.status.isTerminal = true → row.order.status = h.final.status)

namespace Behind

variable {h : BrokerHistory} {db db' : Db}

theorem fillTotal_le (hb : Behind h db) : fillTotal (db.fillsOf h.brokerOrderId) ≤ h.final.filledQuantity := by
  apply fillTotal_le_final
  · exact db.fills.nodup.sublist (List.filter_sublist.map _)
  · intro f hf
    rw [Db.fillsOf, List.mem_filter, decide_eq_true_iff] at hf
    exact hb.ledger f hf.1 hf.2

/-- A change that keeps the mirrors and records executions of the history only. -/
theorem of_mirrors_eq (hb : Behind h db) (hm : db'.mirrors = db.mirrors)
    (hf : ∀ f ∈ db'.fills.rows, f.brokerOrderId = h.brokerOrderId → f ∈ db.fills.rows ∨ f ∈ h.fills) :
    Behind h db' where
  ledger f hmem hid := (hf f hmem hid).elim (fun hold => hb.ledger f hold hid) id
  mirror := hm ▸ hb.mirror

theorem addFill (hb : Behind h db) {f : Fill} (hf : f ∈ h.fills) (hnew : db.fills.get f.executionId = none) :
    Behind h (db.apply (.addFill f)) := by
  refine hb.of_mirrors_eq rfl fun g hg _ => ?_
  rw [Db.apply_addFill_fills, Table.mem_add_iff hnew] at hg
  rcases hg with hg | rfl
  · exact Or.inl hg
  · exact Or.inr hf

/-- A mirror row written for the order. -/
theorem of_derived (hb : Behind h db) {row : MirrorRow} {t : OrderStatus → OrderStatus}
    (hd : Derived db row t db') (hkey : row.brokerOrderId = h.brokerOrderId)
    (hq : row.order.quantity = h.quantity) (hn : row.order.filledQuantity ≤ h.final.filledQuantity)
    (ht : row.order.status.isTerminal = true → row.order.status = h.final.status) : Behind h db' where
  ledger := hd.fills ▸ hb.ledger
  mirror := by
    obtain ⟨old, hold, -⟩ := hb.mirror
    refine ⟨row, ?_, hq, hn, ht⟩
    rw [hd.mirrors, ← hkey]
    exact Table.get_put_self (hkey.symm ▸ hold)

/-- The status derived from the recorded fills is not ahead of the history. -/
theorem terminal_of_fillTarget {row : MirrorRow} {n : Nat} {t : BrokerOrderStatus}
    (hq : row.order.quantity = h.quantity) (hn : n ≤ h.final.filledQuantity)
    (hrow : row.order.status.isTerminal = true → row.order.status = h.final.status)
    (ht : fillBrokerTarget row.order n = .ok t) (hterm : t.isTerminal = true) : t = h.final.status := by
  rcases (fillBrokerTarget_legal ht).2 hterm with rfl | ⟨rfl, hfull⟩
  · exact hrow hterm
  · have hle := h.within _ h.final_mem
    have hfinal : h.final.filledQuantity = h.quantity.value := by
      rw [hq] at hfull
      omega
    exact ((h.exact _ h.final_mem).mpr hfinal).symm

theorem of_fillDerived (hb : Behind h db) {row : MirrorRow} {f : Fill}
    (hid : row.brokerOrderId = h.brokerOrderId) (hm : db.mirrors.get row.brokerOrderId = some row)
    (hd : FillDerived db row f db') : Behind h db' := by
  obtain ⟨row₂, hrow, hquantity, hfilled, hterm⟩ := hb.mirror
  obtain rfl : row = row₂ := Option.some.inj (hm.symm.trans (hid ▸ hrow))
  cases hd with
  | same => exact hb
  | moved hq hfull ht hi hd =>
      have hlevel : db.fillLevel row ≤ h.final.filledQuantity :=
        max_le hfilled (hid ▸ hb.fillTotal_le)
      exact hb.of_derived hd hid hquantity hlevel (terminal_of_fillTarget hquantity hlevel hterm ht)

end Behind

/-- An execution of the history keeps the local view behind it. -/
theorem behind_fill {h : BrokerHistory} {f : Fill} (hf : f ∈ h.fills) {db db' : Db}
    {r : Except PyError TradeUpdateOutcome} (hb : Behind h db) (hc : Consumed db (.fill f) r db') :
    Behind h db' := by
  have hid : f.brokerOrderId = h.brokerOrderId := by
    obtain ⟨o, ho, hmem⟩ := List.mem_flatMap.mp hf
    exact (h.backed o ho f hmem).1
  cases hc with
  | unknownFill => exact hb
  | unstorable => exact hb
  | repeated => exact hb
  | clashing hm hg hne he hgate =>
      exact hb.of_mirrors_eq hgate.mirrors fun g hg _ => Or.inl (hgate.fills ▸ hg)
  | filled hm hnew hd =>
      have hkey := Table.key_of_get hm
      exact (hb.addFill hf hnew).of_fillDerived (hkey.trans hid) (hkey.symm ▸ hm) hd
  | refusedFill hm hnew hr he hgate =>
      exact (hb.addFill hf hnew).of_mirrors_eq hgate.mirrors fun g hg _ => Or.inl (hgate.fills ▸ hg)

/-- An observation of the history keeps the local view behind it. -/
theorem behind_report {h : BrokerHistory} {o : Observation} (ho : o ∈ h.observations) {db db' : Db}
    {r : Except PyError TradeUpdateOutcome} (hb : Behind h db)
    (hc : Consumed db (.status (h.report o)) r db') : Behind h db' := by
  cases hc with
  | unknownStatus => exact hb
  | stale => exact hb
  | repeatedStatus => exact hb
  | refusedStatus hi hm hle hr he hgate =>
      exact hb.of_mirrors_eq hgate.mirrors fun g hg _ => Or.inl (hgate.fills ▸ hg)
  | @observed _ row i _ hi hm hid hle hd =>
      obtain ⟨row₂, hrow, hquantity, -⟩ := hb.mirror
      have hid : row.brokerOrderId = h.brokerOrderId := hid
      obtain rfl : row = row₂ := Option.some.inj ((Db.get_of_mirrorOf hm).1.symm.trans (hid ▸ hrow))
      cases hd with
      | moved hcheck hob hq hf hd =>
          exact hb.of_derived hd hid hquantity (h.filled_le_final ho) fun ht => (h.final_status ho ht).symm

/-- **The mirror is never ahead of the broker.**  The mirror was recorded from some observation
of a consistent history, with executions of the history in the ledger.  Whatever part of the
history is delivered, in whatever order and repetition, the mirror's quantity is at most the
final quantity of the history, and a terminal status of the mirror is its final status. -/
theorem mirror_never_ahead (env : Env) (uuid5 : NameUuid) (h : BrokerHistory) (db : Db) (row : MirrorRow)
    (o : Observation) (ho : o ∈ h.observations) (hrow : db.mirrors.get h.brokerOrderId = some row)
    (hquantity : row.order.quantity = h.quantity) (hstatus : row.order.status = o.status)
    (hfilled : row.order.filledQuantity = o.filledQuantity)
    (hledger : ∀ f ∈ db.fills.rows, f.brokerOrderId = h.brokerOrderId → f ∈ h.fills)
    (us : List TradeUpdate) (hus : ∀ u ∈ us, h.Emits u) :
    ∃ row', (deliver env uuid5 (.start db) us).2.db.mirrors.get h.brokerOrderId = some row' ∧
      row'.order.filledQuantity ≤ h.final.filledQuantity ∧
      (row'.order.status.isTerminal = true → row'.order.status = h.final.status) := by
  have hstart : Behind h db := by
    refine ⟨hledger, row, hrow, hquantity, hfilled ▸ h.filled_le_final ho, fun ht => ?_⟩
    rw [hstatus] at ht ⊢
    exact (h.final_status ho ht).symm
  have hstep : ∀ u ∈ us, ∀ db r db', Behind h db → Consumed db u r db' → Behind h db' := by
    intro u hu db r db' hb hc
    rcases hus u hu with ⟨f, hf, rfl⟩ | ⟨o, ho, rfl⟩
    · exact behind_fill hf hb hc
    · exact behind_report ho hb hc
  have hend : Behind h (deliver env uuid5 (.start db) us).2.db :=
    (deliver_invariant hstep (World.start_idle db) hstart).2
  obtain ⟨row', hget, -, hle, hterm⟩ := hend.mirror
  exact ⟨row', hget, hle, hterm⟩

/-- The sample order is accepted, and filled by two executions. -/
def sampleHistory : BrokerHistory where
  clientOrderId := sampleId
  brokerOrderId := "b-1"
  quantity := tenQuantity
  first := ⟨.accepted, 0, instant 1, []⟩
  rest := [⟨.filled, 10, instant 6, [fourShares, sixShares]⟩]
  id_ok := orderText_ok
  start := rfl
  chain := by
    rw [List.isChain_cons_cons]
    exact ⟨⟨Or.inr rfl, by decide, rfl⟩, List.isChain_singleton _⟩
  backed := by simp [fourShares, sixShares, sampleFill]; decide
  distinct := by decide
  within := by simp [tenQuantity]
  exact := by simp [tenQuantity]

/-- With the first execution lost, the mirror reports six shares and stays open. -/
theorem mirror_never_ahead_sample :
    ∃ row', (deliver sampleEnv sampleUuid5 (.start (sampleDb .acknowledged sampleRow))
        [.fill sixShares]).2.db.mirrors.get "b-1" = some row' ∧
      row'.order.filledQuantity ≤ sampleHistory.final.filledQuantity ∧
      (row'.order.status.isTerminal = true → row'.order.status = sampleHistory.final.status) :=
  mirror_never_ahead sampleEnv sampleUuid5 sampleHistory (sampleDb .acknowledged sampleRow) sampleRow
    ⟨.accepted, 0, instant 1, []⟩ List.mem_cons_self (by decide +kernel) rfl rfl rfl
    (by simp [sampleDb, Table.empty]) [.fill sixShares] (by
      intro u hu
      rw [List.mem_singleton] at hu
      exact Or.inl ⟨sixShares, by simp [BrokerHistory.fills, BrokerHistory.observations, sampleHistory], hu⟩)

end SevenLens
