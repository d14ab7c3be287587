import SevenLens.Orders
import Mathlib.Data.List.Sort
import Mathlib.Algebra.BigOperators.Group.List.Basic
import Mathlib.Tactic.Ring

/-! # The fill ledger

`project_ledger` replays the recorded fills in the order of their execution into a signed
cash delta and the open FIFO lots.  Buys open lots and debit cash, sells consume lots in open
order and credit cash.  A repeated execution, an unknown broker order, an order filled beyond
its quantity, a sell beyond the position and a cash delta out of range raise.

`projectLedger_held`: the position of a symbol is what the fills bought less what they sold. -/

namespace SevenLens

def maxAbsCents : Nat := 1000000000000

/-- The remaining quantity and cost of one FIFO lot. -/
@[ext] structure OpenLot where
  symbol : Symbol
  quantity : Nat
  price : Price
  openedAt : UtcTimestamp
  pos : 1 ≤ quantity

instance : DecidableEq OpenLot := fun _ _ => decidable_of_iff' _ OpenLot.ext_iff

/-- The cash delta and the open lots after replaying the fill ledger. -/
structure LedgerProjection where
  cashDeltaCents : Int
  lots : List OpenLot
  cash_ok : cashDeltaCents.natAbs ≤ maxAbsCents
deriving DecidableEq

/-- Add `n` to the entry of `s` in an insertion-ordered dictionary. -/
def addPosition (s : Symbol) (n : Nat) (l : List (Symbol × Nat)) : List (Symbol × Nat) :=
  if l.any (fun p => p.1 = s) then l.map (fun p => if p.1 = s then (s, p.2 + n) else p)
  else l ++ [(s, n)]

/-- The projected quantity of every symbol that has an open lot. -/
def LedgerProjection.positions (p : LedgerProjection) : List (Symbol × Nat) :=
  p.lots.foldl (fun l lot => addPosition lot.symbol lot.quantity l) []

/-- `dict.get` on an insertion-ordered dictionary of quantities. -/
def quantityOf (l : List (Symbol × Nat)) (s : Symbol) : Option Nat :=
  (l.find? (fun p => p.1 = s)).map Prod.snd

/-- The dictionary of the broker orders by their id; a later order replaces an earlier one. -/
def byBrokerOrderId (orders : List BrokerOrder) (b : String) : Option BrokerOrder :=
  orders.reverse.find? (fun o => o.brokerOrderId = b)

/-! ### Replay -/

/-- The state of the replay. -/
structure Replay where
  cash : Int
  lots : List OpenLot
  seen : List String
  filledByOrder : String → Nat

/-- Sell `remaining` shares of `symbol` at `price`, from the lots in open order. -/
def consume (symbol : Symbol) (price : Price) : List OpenLot → Nat → Int → List OpenLot × Nat × Int
  | [], remaining, cash => ([], remaining, cash)
  | lot :: lots, remaining, cash =>
      if remaining = 0 ∨ lot.symbol ≠ symbol then
        let (kept, rest) := consume symbol price lots remaining cash
        (lot :: kept, rest)
      else if h : lot.quantity ≤ remaining then
        consume symbol price lots (remaining - lot.quantity) (cash + lot.quantity * price.cents)
      else
        let (kept, rest) := consume symbol price lots 0 (cash + remaining * price.cents)
        ({ lot with quantity := lot.quantity - remaining, pos := by omega } :: kept, rest)

/-- Replay one fill. -/
def replayFill (orders : String → Option BrokerOrder) (s : Replay) (fill : Fill) : Except PyError Replay :=
  if fill.executionId ∈ s.seen then .error ⟨.ledgerInvariant, "duplicate execution id in fill ledger"⟩
  else match orders fill.brokerOrderId with
    | none => .error ⟨.ledgerInvariant, "fill references an unknown broker order"⟩
    | some order =>
        let cumulative := s.filledByOrder fill.brokerOrderId + fill.quantity.value
        if order.quantity.value < cumulative then
          .error ⟨.ledgerInvariant, "fill quantity exceeds the recorded order quantity"⟩
        else
          let s := { s with
            seen := fill.executionId :: s.seen
            filledByOrder := Function.update s.filledByOrder fill.brokerOrderId cumulative }
          match order.side with
          | .buy =>
              let cash : Int := s.cash - fill.quantity.value * fill.price.cents
              if maxAbsCents < cash.natAbs then
                .error ⟨.ledgerInvariant, "projected cash delta exceeds the allowed range"⟩
              else
                .ok { s with
                  cash
                  lots := s.lots ++ [⟨order.symbol, fill.quantity.value, fill.price, fill.occurredAt,
                    fill.quantity.pos⟩] }
          | .sell =>
              match consume order.symbol fill.price s.lots fill.quantity.value s.cash with
              | (lots, 0, cash) => .ok { s with lots, cash }
              | (_, _ + 1, _) => .error ⟨.ledgerInvariant, "sell fill exceeds the projected position"⟩

/-- The canonical replay order: by time of execution, then by execution id. -/
def Fill.before (f g : Fill) : Prop :=
  f.occurredAt < g.occurredAt ∨ (f.occurredAt = g.occurredAt ∧ f.executionId ≤ g.executionId)

instance : DecidableRel Fill.before := fun _ _ => inferInstanceAs (Decidable (_ ∨ _))

def OpenLot.before (l m : OpenLot) : Prop :=
  l.symbol.value < m.symbol.value ∨ (l.symbol.value = m.symbol.value ∧ l.openedAt ≤ m.openedAt)

instance : DecidableRel OpenLot.before := fun _ _ => inferInstanceAs (Decidable (_ ∨ _))

/-- Replay fills into cash and FIFO lots; every anomaly fails closed. -/
def projectLedger (fills : List Fill) (orders : String → Option BrokerOrder) :
    Except PyError LedgerProjection := do
  let s ← (fills.insertionSort Fill.before).foldlM (replayFill orders) ⟨0, [], [], fun _ => 0⟩
  if h : s.cash.natAbs ≤ maxAbsCents then
    .ok ⟨s.cash, s.lots.insertionSort OpenLot.before, h⟩
  else .error ⟨.ledgerInvariant, "projected cash delta exceeds the allowed range"⟩

/-- The value of the open lots at mark prices; a symbol without a price raises. -/
def marketValue (lots : List OpenLot) (prices : Symbol → Option Price) : Except PyError Nat :=
  lots.foldlM (fun total lot => match prices lot.symbol with
    | none => .error ⟨.valueError, "missing price for symbol " ++ lot.symbol.value⟩
    | some price => .ok (total + lot.quantity * price.cents)) 0

/-- Net account value from checkpointed cash and the open lots at mark prices. -/
def accountEquityFromCashAndPositions (expectedCashCents : Int) (lots : List OpenLot)
    (prices : Symbol → Option Price) : Except PyError Int :=
  if maxAbsCents < expectedCashCents.natAbs then
    .error ⟨.valueError, "expected cash must be a bounded integer number of cents"⟩
  else do
    let value ← marketValue lots prices
    let total := expectedCashCents + value
    if maxAbsCents < total.natAbs then
      .error ⟨.valueError, "account valuation exceeds the allowed range"⟩
    else .ok total

/-! ### Positions -/

/-- The shares of `s` in open lots. -/
def held (lots : List OpenLot) (s : Symbol) : Nat :=
  (lots.map (fun l => if l.symbol = s then l.quantity else 0)).sum

/-- The shares of `s` that fills traded on one side. -/
def traded (orders : String → Option BrokerOrder) (side : OrderSide) (s : Symbol) (fills : List Fill) : Nat :=
  (fills.map (fun f => if (orders f.brokerOrderId).any (fun o => o.side = side ∧ o.symbol = s)
    then f.quantity.value else 0)).sum

/-- What the fills of the ledger add to the cash: a buy debits and a sell credits. -/
def cashFlow (orders : String → Option BrokerOrder) (f : Fill) : Int :=
  if (orders f.brokerOrderId).any (fun o => o.side = .buy) then -(f.quantity.value * f.price.cents : Int)
  else f.quantity.value * f.price.cents

@[simp] theorem held_nil (s : Symbol) : held [] s = 0 := rfl

@[simp] theorem held_cons (l : OpenLot) (lots : List OpenLot) (s : Symbol) :
    held (l :: lots) s = (if l.symbol = s then l.quantity else 0) + held lots s := by
  simp [held]

@[simp] theorem held_append (l m : List OpenLot) (s : Symbol) : held (l ++ m) s = held l s + held m s := by
  simp [held]

theorem held_perm {l m : List OpenLot} (h : l.Perm m) (s : Symbol) : held l s = held m s :=
  (h.map _).sum_eq

theorem traded_perm {orders : String → Option BrokerOrder} {side : OrderSide} {s : Symbol}
    {l m : List Fill} (h : l.Perm m) : traded orders side s l = traded orders side s m :=
  (h.map _).sum_eq

/-- Selling takes the sold shares from the lots of the symbol and leaves the others alone. -/
theorem consume_held {symbol : Symbol} {price : Price} {lots kept : List OpenLot} {n m : Nat}
    {cash cash' : Int} (h : consume symbol price lots n cash = (kept, m, cash')) (s : Symbol) :
    m ≤ n ∧ held kept s + (if symbol = s then n - m else 0) = held lots s := by
  induction lots generalizing n cash kept with
  | nil =>
      cases h
      simp
  | cons lot lots ih =>
      rw [consume] at h
      split at h
      · rename_i hskip
        cases hc : consume symbol price lots n cash with
        | mk k rest =>
            obtain ⟨m', c'⟩ := rest
            rw [hc] at h
            cases h
            obtain ⟨hle, hk⟩ := ih hc
            refine ⟨hle, ?_⟩
            rw [held_cons, held_cons]
            omega
      · rename_i hskip
        obtain ⟨hn, hsym⟩ := not_or.mp hskip
        have hsym : lot.symbol = symbol := not_not.mp hsym
        split at h
        · rename_i hle
          obtain ⟨hm, hk⟩ := ih h
          refine ⟨by omega, ?_⟩
          rw [held_cons, hsym]
          by_cases hs : symbol = s
          · rw [if_pos hs] at hk ⊢
            rw [if_pos hs]
            omega
          · rw [if_neg hs] at hk ⊢
            rw [if_neg hs]
            omega
        · rename_i hlt
          cases hc : consume symbol price lots 0 (cash + n * price.cents) with
          | mk k rest =>
              obtain ⟨m', c'⟩ := rest
              rw [hc] at h
              cases h
              obtain ⟨hm, hk⟩ := ih hc
              have hm : m = 0 := Nat.le_zero.mp hm
              subst hm
              refine ⟨Nat.zero_le _, ?_⟩
              rw [held_cons, held_cons]
              show (if lot.symbol = s then lot.quantity - n else 0) + held k s + _ = _
              rw [hsym]
              have hpos := lot.pos
              by_cases hs : symbol = s
              · simp only [if_pos hs] at hk ⊢
                omega
              · simp only [if_neg hs] at hk ⊢
                omega

@[simp] theorem traded_nil (orders : String → Option BrokerOrder) (side : OrderSide) (s : Symbol) :
    traded orders side s [] = 0 := rfl

theorem traded_cons (orders : String → Option BrokerOrder) (side : OrderSide) (s : Symbol) (f : Fill)
    (l : List Fill) :
    traded orders side s (f :: l) = traded orders side s [f] + traded orders side s l := by
  simp [traded]

/-- One replayed fill belongs to a known order and moves the position of its symbol. -/
theorem replayFill_held {orders : String → Option BrokerOrder} {r r' : Replay} {f : Fill}
    (h : replayFill orders r f = .ok r') :
    (orders f.brokerOrderId).isSome ∧
      ∀ s, held r'.lots s + traded orders .sell s [f] = held r.lots s + traded orders .buy s [f] := by
  unfold replayFill at h
  split at h
  · cases h
  split at h
  · cases h
  rename_i order ho
  refine ⟨by rw [ho]; rfl, fun s => ?_⟩
  simp only [] at h
  split at h
  · cases h
  split at h
  · rename_i hside
    split at h
    · cases h
    · cases h
      simp only [traded, ho, hside, List.map_cons, List.map_nil, List.sum_cons, List.sum_nil, held_append,
        held_cons, held_nil, Option.any_some, reduceCtorEq, false_and, decide_false, Bool.false_eq_true,
        if_false, true_and, decide_eq_true_eq]
      omega
  · rename_i hside
    split at h
    · rename_i lots cash hc
      cases h
      have hk := (consume_held hc s).2
      simp only [traded, ho, hside, List.map_cons, List.map_nil, List.sum_cons, List.sum_nil,
        Option.any_some, reduceCtorEq, false_and, decide_false, Bool.false_eq_true,
        if_false, true_and, decide_eq_true_eq]
      simp only [Nat.sub_zero] at hk
      omega
    · cases h

theorem replay_held {orders : String → Option BrokerOrder} {l : List Fill} {r r' : Replay}
    (h : l.foldlM (replayFill orders) r = .ok r') :
    (∀ f ∈ l, (orders f.brokerOrderId).isSome) ∧
      ∀ s, held r'.lots s + traded orders .sell s l = held r.lots s + traded orders .buy s l := by
  induction l generalizing r with
  | nil =>
      cases h
      exact ⟨by simp, fun s => rfl⟩
  | cons f l ih =>
      rw [List.foldlM_cons] at h
      cases hf : replayFill orders r f with
      | error e =>
          rw [hf] at h
          cases h
      | ok r₁ =>
          rw [hf] at h
          obtain ⟨hknown, hstep⟩ := replayFill_held hf
          obtain ⟨hrest, hheld⟩ := ih h
          refine ⟨?_, fun s => ?_⟩
          · intro g hg
            rcases List.mem_cons.mp hg with rfl | hg
            · exact hknown
            · exact hrest g hg
          · rw [traded_cons orders .sell, traded_cons orders .buy]
            have := hstep s
            have := hheld s
            omega

theorem projectLedger_inv {fills : List Fill} {orders : String → Option BrokerOrder} {p : LedgerProjection}
    (h : projectLedger fills orders = .ok p) : ∃ r,
      (fills.insertionSort Fill.before).foldlM (replayFill orders) ⟨0, [], [], fun _ => 0⟩ = .ok r ∧
        p.cashDeltaCents = r.cash ∧ p.lots = r.lots.insertionSort OpenLot.before := by
  unfold projectLedger at h
  cases hr : (fills.insertionSort Fill.before).foldlM (replayFill orders) ⟨0, [], [], fun _ => 0⟩ with
  | error e =>
      rw [hr] at h
      cases h
  | ok r =>
      rw [hr] at h
      simp only [bind, Except.bind] at h
      split at h
      · cases h
        exact ⟨r, rfl, rfl, rfl⟩
      · cases h

/-- **The position of a symbol is what the fills bought less what they sold**, and every fill
belongs to a known order. -/
theorem projectLedger_held {fills : List Fill} {orders : String → Option BrokerOrder} {p : LedgerProjection}
    (h : projectLedger fills orders = .ok p) :
    (∀ f ∈ fills, (orders f.brokerOrderId).isSome) ∧
      ∀ s, held p.lots s + traded orders .sell s fills = traded orders .buy s fills := by
  obtain ⟨r, hr, -, hlots⟩ := projectLedger_inv h
  obtain ⟨hknown, hheld⟩ := replay_held hr
  have hperm := List.perm_insertionSort Fill.before fills
  refine ⟨fun f hf => hknown f (hperm.mem_iff.mpr hf), fun s => ?_⟩
  have := hheld s
  rw [traded_perm hperm, traded_perm hperm, held_nil] at this
  rw [hlots, held_perm (List.perm_insertionSort OpenLot.before r.lots)]
  omega

/-- Every exception of the replay is a ledger invariant. -/
theorem projectLedger_error {fills : List Fill} {orders : String → Option BrokerOrder} {e : PyError}
    (h : projectLedger fills orders = .error e) : e.kind = .ledgerInvariant := by
  have hfill : ∀ (r : Replay) (f : Fill) (e : PyError), replayFill orders r f = .error e →
      e.kind = .ledgerInvariant := by
    intro r f e h
    simp only [replayFill] at h
    repeat' split at h
    all_goals cases h
    all_goals rfl
  have hreplay : ∀ (l : List Fill) (r : Replay) (e : PyError), l.foldlM (replayFill orders) r = .error e →
      e.kind = .ledgerInvariant := by
    intro l
    induction l with
    | nil =>
        intro r e h
        cases h
    | cons f l ih =>
        intro r e h
        rw [List.foldlM_cons] at h
        cases hf : replayFill orders r f with
        | error e' =>
            rw [hf] at h
            cases h
            exact hfill r f e hf
        | ok r' =>
            rw [hf] at h
            exact ih r' e h
  unfold projectLedger at h
  cases hr : (fills.insertionSort Fill.before).foldlM (replayFill orders) ⟨0, [], [], fun _ => 0⟩ with
  | error e' =>
      rw [hr] at h
      cases h
      exact hreplay _ _ _ hr
  | ok r =>
      rw [hr] at h
      simp only [bind, Except.bind] at h
      split at h
      · cases h
      · cases h
        rfl

/-! ### The dictionary of positions -/

@[simp] theorem quantityOf_nil (s : Symbol) : quantityOf [] s = none := rfl

theorem quantityOf_cons (p : Symbol × Nat) (l : List (Symbol × Nat)) (s : Symbol) :
    quantityOf (p :: l) s = if p.1 = s then some p.2 else quantityOf l s := by
  by_cases h : p.1 = s <;> simp [quantityOf, h]

theorem quantityOf_append_singleton (l : List (Symbol × Nat)) (p : Symbol × Nat) (s : Symbol) :
    quantityOf (l ++ [p]) s = (quantityOf l s).or (quantityOf [p] s) := by
  induction l with
  | nil => rfl
  | cons q l ih =>
      rw [List.cons_append, quantityOf_cons, quantityOf_cons, ih]
      split <;> rfl

theorem quantityOf_map_add (l : List (Symbol × Nat)) (s t : Symbol) (n : Nat) :
    quantityOf (l.map (fun p => if p.1 = s then (s, p.2 + n) else p)) t =
      if s = t then (quantityOf l t).map (· + n) else quantityOf l t := by
  induction l with
  | nil => simp
  | cons p l ih =>
      rw [List.map_cons, quantityOf_cons, quantityOf_cons, ih]
      by_cases hp : p.1 = s
      · subst hp
        simp only [if_true]
        by_cases hst : p.1 = t <;> simp [hst]
      · simp only [if_neg hp]
        by_cases hst : s = t
        · subst hst
          simp [hp]
        · simp [hst]

theorem quantityOf_eq_none {l : List (Symbol × Nat)} {s : Symbol} :
    quantityOf l s = none ↔ l.any (fun p => p.1 = s) = false := by
  simp [quantityOf]

theorem quantityOf_addPosition (l : List (Symbol × Nat)) (s t : Symbol) (n : Nat) :
    quantityOf (addPosition s n l) t =
      if s = t then some ((quantityOf l t).getD 0 + n) else quantityOf l t := by
  unfold addPosition
  split
  · rename_i hany
    rw [quantityOf_map_add]
    split
    · rename_i hst
      subst hst
      cases hq : quantityOf l s with
      | none =>
          rw [quantityOf_eq_none, hany] at hq
          cases hq
      | some m => rfl
    · rfl
  · rename_i hany
    rw [quantityOf_append_singleton, quantityOf_cons]
    split
    · rename_i hst
      subst hst
      rw [quantityOf_eq_none.mpr (Bool.not_eq_true _ ▸ hany)]
      simp
    · simp

theorem addPosition_keys_nodup {l : List (Symbol × Nat)} (h : (l.map Prod.fst).Nodup) (s : Symbol) (n : Nat) :
    ((addPosition s n l).map Prod.fst).Nodup := by
  unfold addPosition
  split
  · have hkeys : (l.map (fun p => if p.1 = s then (s, p.2 + n) else p)).map Prod.fst = l.map Prod.fst := by
      rw [List.map_map]
      refine List.map_congr_left fun p _ => ?_
      by_cases hp : p.1 = s <;> simp [hp]
    rw [hkeys]
    exact h
  · rename_i hany
    rw [List.map_append, List.nodup_append]
    refine ⟨h, by simp, fun a ha b hb e => hany ?_⟩
    obtain ⟨p, hp, rfl⟩ := List.mem_map.mp ha
    refine List.any_eq_true.mpr ⟨p, hp, ?_⟩
    simpa [e] using hb

/-- Every projected symbol has one entry. -/
theorem LedgerProjection.positions_nodup (p : LedgerProjection) : (p.positions.map Prod.fst).Nodup := by
  have hfold : ∀ (lots : List OpenLot) (l : List (Symbol × Nat)), (l.map Prod.fst).Nodup →
      ((lots.foldl (fun l lot => addPosition lot.symbol lot.quantity l) l).map Prod.fst).Nodup := by
    intro lots
    induction lots with
    | nil => exact fun l h => h
    | cons lot lots ih => exact fun l h => ih _ (addPosition_keys_nodup h _ _)
  exact hfold p.lots [] (by simp)

/-- The entry of a symbol is the shares in its open lots. -/
theorem LedgerProjection.quantityOf_positions (p : LedgerProjection) (s : Symbol) :
    (quantityOf p.positions s).getD 0 = held p.lots s := by
  have hfold : ∀ (lots : List OpenLot) (l : List (Symbol × Nat)),
      (quantityOf (lots.foldl (fun l lot => addPosition lot.symbol lot.quantity l) l) s).getD 0 =
        (quantityOf l s).getD 0 + held lots s := by
    intro lots
    induction lots with
    | nil => exact fun l => rfl
    | cons lot lots ih =>
        intro l
        rw [List.foldl_cons, ih, quantityOf_addPosition, held_cons]
        split
        · rw [Option.getD_some]
          omega
        · omega
  rw [positions, hfold p.lots []]
  simp

end SevenLens
