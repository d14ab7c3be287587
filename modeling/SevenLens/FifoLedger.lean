import SevenLens.Ledger
import Mathlib.Data.List.Induction
import Mathlib.Data.String.Basic

/-! # The ledger is first in, first out

A reference for `project_ledger`: the buys of a symbol in the order of their execution, without the
first shares that were sold.  `projectLedger_fifo` says when the replay succeeds and that its lots
are those of the reference.  A sell goes through the lots of all symbols; what it leaves of the lots
of one symbol is what dropping shares from the front leaves (`consume_lotsOf`), and the final sort by
symbol keeps the lots of a symbol in their order (`lotsOf_insertionSort`). -/

namespace SevenLens

/-! ### The reference -/

/-- Quantity, price and time of a lot. -/
abbrev Share : Type := Nat × Price × UtcTimestamp

def OpenLot.share (lot : OpenLot) : Share := (lot.quantity, lot.price, lot.openedAt)

/-- The open lots of a symbol. -/
def lotsOf (s : Symbol) (lots : List OpenLot) : List Share :=
  (lots.filter (fun lot => lot.symbol = s)).map OpenLot.share

/-- The fill belongs to an order of this side and symbol. -/
def IsTrade (orders : String → Option BrokerOrder) (side : OrderSide) (s : Symbol) (f : Fill) : Bool :=
  (orders f.brokerOrderId).any (fun o => o.side = side ∧ o.symbol = s)

/-- What the fills bought of a symbol, fill by fill. -/
def bought (orders : String → Option BrokerOrder) (s : Symbol) (fills : List Fill) : List Share :=
  (fills.filter (IsTrade orders .buy s)).map (fun f => (f.quantity.value, f.price, f.occurredAt))

/-- Leave out the first `n` shares. -/
def dropShares : Nat → List Share → List Share
  | _, [] => []
  | n, x :: l => if x.1 ≤ n then dropShares (n - x.1) l else (x.1 - n, x.2) :: l

/-- The number of shares. -/
def shareCount (l : List Share) : Nat := (l.map Prod.fst).sum

/-- The money that fills of one side moved. -/
def turnover (orders : String → Option BrokerOrder) (side : OrderSide) (fills : List Fill) : Int :=
  (fills.map (fun f => if (orders f.brokerOrderId).any (fun o => o.side = side)
    then (f.quantity.value * f.price.cents : Int) else 0)).sum

/-- The quantity that fills filled of one order. -/
def filledOf (b : String) (fills : List Fill) : Nat :=
  (fills.map (fun f => if f.brokerOrderId = b then f.quantity.value else 0)).sum

/-- When the fills, in the order of their execution, can be replayed. -/
structure Replayable (orders : String → Option BrokerOrder) (fills : List Fill) : Prop where
  distinct : (fills.map Fill.executionId).Nodup
  known : ∀ f ∈ fills, ∃ o, orders f.brokerOrderId = some o
  filled : ∀ b o, orders b = some o → filledOf b fills ≤ o.quantity.value
  covered : ∀ p, p <+: fills → ∀ s, traded orders .sell s p ≤ traded orders .buy s p
  bounded : ∀ p f, p ++ [f] <+: fills → (∃ o, orders f.brokerOrderId = some o ∧ o.side = .buy) →
    (turnover orders .sell (p ++ [f]) - turnover orders .buy (p ++ [f])).natAbs ≤ maxAbsCents

/-! ### Dropping shares -/

@[simp] theorem shareCount_nil : shareCount [] = 0 := rfl

@[simp] theorem shareCount_cons (x : Share) (l : List Share) : shareCount (x :: l) = x.1 + shareCount l := by
  simp [shareCount]

@[simp] theorem dropShares_nil (n : Nat) : dropShares n [] = [] := by
  cases n <;> rfl

theorem dropShares_cons (n : Nat) (x : Share) (l : List Share) :
    dropShares n (x :: l) = if x.1 ≤ n then dropShares (n - x.1) l else (x.1 - n, x.2) :: l := by
  rw [dropShares]

/-- Every lot has a share. -/
def AllPositive (l : List Share) : Prop := ∀ x ∈ l, 1 ≤ x.1

theorem dropShares_zero {l : List Share} (h : AllPositive l) : dropShares 0 l = l := by
  cases l with
  | nil => rfl
  | cons x l =>
      have hx := h x List.mem_cons_self
      rw [dropShares_cons, if_neg (by omega), Nat.sub_zero]

theorem dropShares_dropShares (m n : Nat) (l : List Share) :
    dropShares m (dropShares n l) = dropShares (n + m) l := by
  induction l generalizing n with
  | nil => simp
  | cons x l ih =>
      rw [dropShares_cons n, dropShares_cons (n + m)]
      by_cases h : x.1 ≤ n
      · rw [if_pos h, if_pos (by omega), ih, show n - x.1 + m = n + m - x.1 by omega]
      · rw [if_neg h, dropShares_cons]
        by_cases h' : x.1 ≤ n + m
        · rw [if_pos h', if_pos (show x.1 - n ≤ m by omega)]
          show dropShares (m - (x.1 - n)) l = _
          rw [show m - (x.1 - n) = n + m - x.1 by omega]
        · rw [if_neg h', if_neg (show ¬ x.1 - n ≤ m by omega)]
          show (x.1 - n - m, x.2) :: l = _
          rw [show x.1 - n - m = x.1 - (n + m) by omega]

/-- What is appended stays when the front has enough shares. -/
theorem dropShares_append {n : Nat} {l : List Share} (m : List Share) (h : n ≤ shareCount l) (hm : AllPositive m) :
    dropShares n (l ++ m) = dropShares n l ++ m := by
  induction l generalizing n with
  | nil =>
      obtain rfl : n = 0 := by simpa using h
      rw [List.nil_append, dropShares_zero hm, dropShares_nil, List.nil_append]
  | cons x l ih =>
      rw [shareCount_cons] at h
      rw [List.cons_append, dropShares_cons, dropShares_cons]
      by_cases hx : x.1 ≤ n
      · rw [if_pos hx, if_pos hx, ih (by omega)]
      · rw [if_neg hx, if_neg hx, List.cons_append]

/-- The times of what is left come in the order in which they were. -/
theorem dropShares_sublist (n : Nat) (l : List Share) :
    ((dropShares n l).map (fun x => x.2.2)).Sublist (l.map (fun x => x.2.2)) := by
  induction l generalizing n with
  | nil => simp
  | cons x l ih =>
      rw [dropShares_cons]
      split_ifs
      · exact (ih _).cons _
      · simp

/-! ### Lots of one symbol -/

theorem lotsOf_cons (s : Symbol) (lot : OpenLot) (lots : List OpenLot) :
    lotsOf s (lot :: lots) = if lot.symbol = s then lot.share :: lotsOf s lots else lotsOf s lots := by
  unfold lotsOf
  rw [List.filter_cons]
  by_cases h : lot.symbol = s <;> simp [h]

theorem lotsOf_append (s : Symbol) (l m : List OpenLot) : lotsOf s (l ++ m) = lotsOf s l ++ lotsOf s m := by
  simp [lotsOf]

theorem lotsOf_positive (s : Symbol) (lots : List OpenLot) : AllPositive (lotsOf s lots) := by
  intro x hx
  obtain ⟨lot, -, rfl⟩ := List.mem_map.mp hx
  exact lot.pos

theorem shareCount_lotsOf (s : Symbol) (lots : List OpenLot) : shareCount (lotsOf s lots) = held lots s := by
  induction lots with
  | nil => rfl
  | cons lot lots ih =>
      rw [lotsOf_cons, held_cons]
      split_ifs
      · rw [shareCount_cons, ih]
        rfl
      · omega

/-- A sell drops shares of its symbol, leaves the other symbols alone and earns the shares it took. -/
theorem consume_lotsOf {symbol : Symbol} {price : Price} {lots kept : List OpenLot} {n m : Nat} {cash cash' : Int}
    (h : consume symbol price lots n cash = (kept, m, cash')) :
    (∀ s, lotsOf s kept = dropShares (if symbol = s then n else 0) (lotsOf s lots)) ∧
      m = n - held lots symbol ∧ cash' = cash + (n - m : Int) * price.cents := by
  induction lots generalizing n cash kept with
  | nil =>
      cases h
      simp [lotsOf]
  | cons lot lots ih =>
      rw [consume] at h
      split at h
      · rename_i hskip
        cases hc : consume symbol price lots n cash with
        | mk k rest =>
            obtain ⟨m', c'⟩ := rest
            rw [hc] at h
            cases h
            obtain ⟨hlots, hm, hcash⟩ := ih hc
            refine ⟨fun s => ?_, ?_, hcash⟩
            · rw [lotsOf_cons, lotsOf_cons, hlots s]
              split_ifs with hs hsymbol
              · -- the lot belongs to the symbol, so nothing remains to be sold
                obtain rfl : n = 0 := hskip.resolve_right fun hne => hne (hs.trans hsymbol.symm)
                rw [dropShares_zero (lotsOf_positive s lots), dropShares_zero]
                exact fun x hx => (List.mem_cons.mp hx).elim (fun e => e ▸ lot.pos) (lotsOf_positive s lots x)
              · rw [dropShares_zero (lotsOf_positive s lots), dropShares_zero]
                exact fun x hx => (List.mem_cons.mp hx).elim (fun e => e ▸ lot.pos) (lotsOf_positive s lots x)
              · rfl
              · rfl
            · rw [held_cons]
              split_ifs with hs
              · have hzero := hskip.resolve_right fun hne => hne hs
                omega
              · omega
      · rename_i hskip
        obtain ⟨hn, hsymbol⟩ := not_or.mp hskip
        have hsymbol : lot.symbol = symbol := not_not.mp hsymbol
        have hpos := lot.pos
        split at h
        · rename_i hle
          obtain ⟨hlots, hm, hcash⟩ := ih h
          refine ⟨fun s => ?_, ?_, ?_⟩
          · rw [hlots s, lotsOf_cons, hsymbol]
            split_ifs with hs
            · rw [dropShares_cons]
              exact (if_pos hle).symm
            · rfl
          · rw [held_cons, if_pos hsymbol]
            omega
          · rw [hcash]
            push_cast [hle]
            ring
        · rename_i hlt
          cases hc : consume symbol price lots 0 (cash + n * price.cents) with
          | mk k rest =>
              obtain ⟨m', c'⟩ := rest
              rw [hc] at h
              cases h
              obtain ⟨hlots, hm, hcash⟩ := ih hc
              obtain rfl : m = 0 := by omega
              refine ⟨fun s => ?_, ?_, ?_⟩
              · rw [lotsOf_cons, lotsOf_cons, hlots s]
                show (if lot.symbol = s then (lot.quantity - n, lot.price, lot.openedAt) :: _ else _) = _
                rw [hsymbol]
                split_ifs with hs
                · rw [dropShares_zero (lotsOf_positive s lots), dropShares_cons]
                  exact (if_neg hlt).symm
                · rfl
              · rw [held_cons, if_pos hsymbol]
                omega
              · rw [hcash]
                push_cast
                ring

/-! ### The replay -/

variable {orders : String → Option BrokerOrder}

theorem bought_append (s : Symbol) (l m : List Fill) : bought orders s (l ++ m) = bought orders s l ++ bought orders s m := by
  simp [bought]

theorem bought_positive (s : Symbol) (l : List Fill) : AllPositive (bought orders s l) := by
  intro x hx
  obtain ⟨f, -, rfl⟩ := List.mem_map.mp hx
  exact f.quantity.pos

theorem traded_append (side : OrderSide) (s : Symbol) (l m : List Fill) :
    traded orders side s (l ++ m) = traded orders side s l + traded orders side s m := by
  simp [traded]

theorem turnover_append (side : OrderSide) (l m : List Fill) :
    turnover orders side (l ++ m) = turnover orders side l + turnover orders side m := by
  simp [turnover]

theorem filledOf_append (b : String) (l m : List Fill) : filledOf b (l ++ m) = filledOf b l + filledOf b m := by
  simp [filledOf]

theorem traded_singleton {o : BrokerOrder} {f : Fill} (h : orders f.brokerOrderId = some o) (side : OrderSide) (s : Symbol) :
    traded orders side s [f] = if o.side = side ∧ o.symbol = s then f.quantity.value else 0 := by
  simp [traded, h]

theorem turnover_singleton {o : BrokerOrder} {f : Fill} (h : orders f.brokerOrderId = some o) (side : OrderSide) :
    turnover orders side [f] = if o.side = side then (f.quantity.value * f.price.cents : Int) else 0 := by
  simp [turnover, h]

theorem bought_singleton {o : BrokerOrder} {f : Fill} (h : orders f.brokerOrderId = some o) (s : Symbol) :
    bought orders s [f] =
      if o.side = .buy ∧ o.symbol = s then [(f.quantity.value, f.price, f.occurredAt)] else [] := by
  simp only [bought, IsTrade, List.filter_cons, h, Option.any_some, decide_eq_true_eq, List.filter_nil]
  split_ifs <;> rfl

theorem shareCount_bought (s : Symbol) (fills : List Fill) : shareCount (bought orders s fills) = traded orders .buy s fills := by
  induction fills with
  | nil => rfl
  | cons f fills ih =>
      rw [traded_cons, ← ih, bought, List.filter_cons]
      by_cases h : IsTrade orders .buy s f = true
      · have h' := h
        unfold IsTrade at h'
        rw [if_pos h, List.map_cons, shareCount_cons, traded, List.map_cons, if_pos h']
        rfl
      · have h' := h
        unfold IsTrade at h'
        rw [if_neg h, traded, List.map_cons, if_neg h']
        exact (Nat.zero_add _).symm

/-- The state of the replay after the fills. -/
structure Replayed (orders : String → Option BrokerOrder) (fills : List Fill) (r : Replay) : Prop where
  seen : ∀ e, e ∈ r.seen ↔ e ∈ fills.map Fill.executionId
  filled : ∀ b, r.filledByOrder b = filledOf b fills
  cash : r.cash = turnover orders .sell fills - turnover orders .buy fills
  lots : ∀ s, lotsOf s r.lots = dropShares (traded orders .sell s fills) (bought orders s fills)
  covered : ∀ s, traded orders .sell s fills ≤ traded orders .buy s fills

theorem replayed_nil : Replayed orders [] ⟨0, [], [], fun _ => 0⟩ where
  seen _ := by simp
  filled _ := rfl
  cash := rfl
  lots s := (dropShares_nil _).symm
  covered _ := le_rfl

/-- What the replay of one more fill asks for. -/
structure Appends (orders : String → Option BrokerOrder) (fills : List Fill) (f : Fill) (o : BrokerOrder) : Prop where
  known : orders f.brokerOrderId = some o
  fresh : f.executionId ∉ fills.map Fill.executionId
  filled : filledOf f.brokerOrderId fills + f.quantity.value ≤ o.quantity.value
  bounded : o.side = .buy →
    (turnover orders .sell (fills ++ [f]) - turnover orders .buy (fills ++ [f])).natAbs ≤ maxAbsCents
  covered : o.side = .sell → traded orders .sell o.symbol fills + f.quantity.value ≤ traded orders .buy o.symbol fills

section Step

variable {fills : List Fill} {r r' : Replay} {f : Fill}

theorem Replayed.held (h : Replayed orders fills r) (s : Symbol) :
    held r.lots s + traded orders .sell s fills = traded orders .buy s fills := by
  have hcount : ∀ (n : Nat) (l : List Share), n ≤ shareCount l → shareCount (dropShares n l) + n = shareCount l := by
    intro n l
    induction l generalizing n with
    | nil =>
        intro hn
        simpa using hn
    | cons x l ih =>
        intro hn
        rw [shareCount_cons] at hn
        rw [dropShares_cons, shareCount_cons]
        split_ifs with hx
        · have := ih (n - x.1) (by omega)
          omega
        · rw [shareCount_cons]
          show x.1 - n + shareCount l + n = x.1 + shareCount l
          omega
  have hcovered := h.covered s
  rw [← shareCount_bought] at hcovered
  rw [← shareCount_lotsOf, h.lots, ← shareCount_bought]
  exact hcount _ _ hcovered

/-- One step of the replay: when it succeeds, and that its state is that after one more fill. -/
theorem Replayed.step (h : Replayed orders fills r) :
    (∀ r', replayFill orders r f = .ok r' → Replayed orders (fills ++ [f]) r' ∧ ∃ o, Appends orders fills f o) ∧
      ((∃ o, Appends orders fills f o) → ∃ r', replayFill orders r f = .ok r') := by
  unfold replayFill
  by_cases hseen : f.executionId ∈ r.seen
  · rw [if_pos hseen]
    exact ⟨fun _ h => (nomatch h), fun ⟨o, ho⟩ => absurd ((h.seen _).mp hseen) ho.fresh⟩
  rw [if_neg hseen]
  have hfresh : f.executionId ∉ fills.map Fill.executionId := fun hmem => hseen ((h.seen _).mpr hmem)
  cases ho : orders f.brokerOrderId with
  | none => exact ⟨fun _ h => (nomatch h), fun ⟨o, hf⟩ => absurd (ho.symm.trans hf.known) (by simp)⟩
  | some o =>
      dsimp only
      rw [h.filled]
      by_cases hfilled : o.quantity.value < filledOf f.brokerOrderId fills + f.quantity.value
      · rw [if_pos hfilled]
        refine ⟨fun _ h => (nomatch h), fun ⟨o', hf⟩ => ?_⟩
        obtain rfl := Option.some.inj (ho.symm.trans hf.known)
        exact absurd hfilled (not_lt.mpr hf.filled)
      rw [if_neg hfilled]
      have hseen' : ∀ e, e ∈ f.executionId :: r.seen ↔ e ∈ (fills ++ [f]).map Fill.executionId := by
        intro e
        rw [List.mem_cons, h.seen, List.map_append, List.mem_append, List.map_singleton, List.mem_singleton]
        exact or_comm
      have hfilled' : ∀ b, Function.update r.filledByOrder f.brokerOrderId
          (filledOf f.brokerOrderId fills + f.quantity.value) b = filledOf b (fills ++ [f]) := by
        intro b
        rw [Function.update_apply, filledOf_append]
        split_ifs with hb
        · subst hb
          simp [filledOf]
        · rw [h.filled]
          simp [filledOf, Ne.symm hb]
      have hsell := @turnover_append orders .sell fills [f]
      have hbuy := @turnover_append orders .buy fills [f]
      rw [turnover_singleton ho] at hsell hbuy
      cases hside : o.side with
      | buy =>
          dsimp only
          rw [hside, if_neg (by simp), Int.add_zero] at hsell
          rw [hside, if_pos rfl] at hbuy
          have hcash : r.cash - f.quantity.value * f.price.cents =
              turnover orders .sell (fills ++ [f]) - turnover orders .buy (fills ++ [f]) := by
            rw [h.cash, hsell, hbuy]
            ring
          rw [hcash]
          by_cases hbounded : maxAbsCents <
              (turnover orders .sell (fills ++ [f]) - turnover orders .buy (fills ++ [f])).natAbs
          · rw [if_pos hbounded]
            refine ⟨fun _ h => (nomatch h), fun ⟨o', hf⟩ => ?_⟩
            obtain rfl := Option.some.inj (ho.symm.trans hf.known)
            exact absurd hbounded (not_lt.mpr (hf.bounded hside))
          rw [if_neg hbounded]
          refine ⟨fun r' hr => ?_, fun _ => ⟨_, rfl⟩⟩
          cases hr
          refine ⟨⟨hseen', hfilled', rfl, fun s => ?_, fun s => ?_⟩,
            o, ho, hfresh, not_lt.mp hfilled, fun _ => not_lt.mp hbounded, fun hs => ?_⟩
          · rw [lotsOf_append, h.lots, traded_append, traded_singleton ho, hside, bought_append, bought_singleton ho, hside,
              lotsOf_cons, dropShares_append _ _ (by split_ifs <;> simp [AllPositive, f.quantity.pos])]
            · simp [OpenLot.share, lotsOf]
            · have hcovered := h.covered s
              rw [shareCount_bought]
              simpa using hcovered
          · have hcovered := h.covered s
            rw [traded_append, traded_append, traded_singleton ho, traded_singleton ho, hside]
            split_ifs <;> simp_all
            omega
          · rw [hside] at hs
            cases hs
      | sell =>
          dsimp only
          rw [hside, if_pos rfl] at hsell
          rw [hside, if_neg (by simp), Int.add_zero] at hbuy
          have hheld := h.held o.symbol
          cases hc : consume o.symbol f.price r.lots f.quantity.value r.cash with
          | mk kept rest =>
              obtain ⟨m, cash⟩ := rest
              obtain ⟨hlots, hm, hcash⟩ := consume_lotsOf hc
              cases m with
              | succ m =>
                  refine ⟨fun _ h => (nomatch h), fun ⟨o', hf⟩ => ?_⟩
                  obtain rfl := Option.some.inj (ho.symm.trans hf.known)
                  have hcovered := hf.covered hside
                  omega
              | zero =>
                  have hcovered : traded orders .sell o.symbol fills + f.quantity.value ≤
                      traded orders .buy o.symbol fills := by omega
                  refine ⟨fun r' hr => ?_, fun _ => ⟨_, rfl⟩⟩
                  cases hr
                  refine ⟨⟨hseen', hfilled', ?_, fun s => ?_, fun s => ?_⟩,
                    o, ho, hfresh, not_lt.mp hfilled, fun hb => ?_, fun _ => hcovered⟩
                  · show cash = _
                    rw [hcash, h.cash, hsell, hbuy]
                    push_cast
                    ring
                  · show lotsOf s kept = _
                    rw [hlots, h.lots, dropShares_dropShares, traded_append, traded_singleton ho, hside, bought_append,
                      bought_singleton ho, hside]
                    simp
                  · have hs := h.covered s
                    rw [traded_append, traded_append, traded_singleton ho, traded_singleton ho, hside]
                    by_cases hsymbol : o.symbol = s
                    · subst hsymbol
                      simpa using hcovered
                    · simpa [hsymbol] using hs
                  · rw [hside] at hb
                    cases hb

end Step

/-! ### Whole replays -/

theorem filledOf_append_singleton (b : String) (fills : List Fill) (f : Fill) :
    filledOf b (fills ++ [f]) = filledOf b fills + if f.brokerOrderId = b then f.quantity.value else 0 := by
  rw [filledOf_append]
  simp [filledOf]

/-- The fills can be replayed when all but the last one can and the last one can follow them. -/
theorem replayable_append_singleton {fills : List Fill} {f : Fill} :
    Replayable orders (fills ++ [f]) ↔ Replayable orders fills ∧ ∃ o, Appends orders fills f o := by
  constructor
  · intro h
    have hprefix : fills <+: fills ++ [f] := List.prefix_append fills [f]
    obtain ⟨o, ho⟩ := h.known f (by simp)
    have hdistinct := h.distinct
    rw [List.map_append, List.nodup_append] at hdistinct
    refine ⟨⟨hdistinct.1, fun g hg => h.known g (List.mem_append_left _ hg), fun b o' hb => ?_,
      fun p hp => h.covered p (hp.trans hprefix), fun p g hp => h.bounded p g (hp.trans hprefix)⟩, o, ho, ?_, ?_, ?_, ?_⟩
    · have hfilled := h.filled b o' hb
      rw [filledOf_append_singleton] at hfilled
      omega
    · intro hmem
      exact hdistinct.2.2 _ hmem _ (by simp) rfl
    · have hfilled := h.filled f.brokerOrderId o ho
      rw [filledOf_append_singleton, if_pos rfl] at hfilled
      exact hfilled
    · exact fun hside => h.bounded fills f (List.prefix_refl _) ⟨o, ho, hside⟩
    · intro hside
      have hcovered := h.covered _ (List.prefix_refl _) o.symbol
      rw [traded_append, traded_append, traded_singleton ho, traded_singleton ho, hside] at hcovered
      simpa using hcovered
  · rintro ⟨h, o, hf⟩
    refine ⟨?_, fun g hg => ?_, fun b o' hb => ?_, fun p hp s => ?_, fun p g hp hbuy => ?_⟩
    · rw [List.map_append, List.map_singleton, ← List.concat_eq_append, List.nodup_concat]
      exact ⟨hf.fresh, h.distinct⟩
    · rw [List.mem_append, List.mem_singleton] at hg
      obtain hg | rfl := hg
      · exact h.known g hg
      · exact ⟨o, hf.known⟩
    · rw [filledOf_append_singleton]
      split_ifs with hb'
      · subst hb'
        obtain rfl := Option.some.inj (hf.known.symm.trans hb)
        exact hf.filled
      · exact h.filled b o' hb
    · obtain rfl | hp := List.prefix_concat_iff.mp hp
      · have hs := h.covered _ (List.prefix_refl _) s
        rw [traded_append, traded_append, traded_singleton hf.known, traded_singleton hf.known]
        by_cases hsell : o.side = .sell ∧ o.symbol = s
        · obtain ⟨hside, rfl⟩ := hsell
          have hcovered := hf.covered hside
          simpa [hside] using hcovered
        · rw [if_neg hsell]
          omega
      · exact h.covered p hp s
    · obtain he | hp := List.prefix_concat_iff.mp hp
      · obtain ⟨rfl, hg⟩ := List.append_inj' he rfl
        obtain rfl : g = f := by simpa using hg
        obtain ⟨o', ho', hside⟩ := hbuy
        obtain rfl := Option.some.inj (hf.known.symm.trans ho')
        exact hf.bounded hside
      · exact h.bounded p g hp hbuy

/-- The replay succeeds exactly on fills that can be replayed, and ends in their state. -/
theorem replay_ok (fills : List Fill) :
    (∀ r, fills.foldlM (replayFill orders) ⟨0, [], [], fun _ => 0⟩ = .ok r → Replayed orders fills r) ∧
      ((∃ r, fills.foldlM (replayFill orders) ⟨0, [], [], fun _ => 0⟩ = .ok r) ↔ Replayable orders fills) := by
  induction fills using List.reverseRecOn with
  | nil =>
      refine ⟨fun r hr => ?_, fun _ => ⟨List.nodup_nil, by simp, fun _ _ _ => Nat.zero_le _, fun p hp s => ?_,
        fun p f hp => ?_⟩, fun _ => ⟨_, rfl⟩⟩
      · cases hr
        exact replayed_nil
      · rw [List.prefix_nil.mp hp]
        exact le_rfl
      · exact absurd (List.prefix_nil.mp hp) (by simp)
  | append_singleton fills f ih =>
      obtain ⟨hstate, hiff⟩ := ih
      have hfold : ∀ x, (fills ++ [f]).foldlM (replayFill orders) ⟨0, [], [], fun _ => 0⟩ = .ok x ↔
          ∃ r, fills.foldlM (replayFill orders) ⟨0, [], [], fun _ => 0⟩ = .ok r ∧ replayFill orders r f = .ok x := by
        intro x
        rw [List.foldlM_append]
        cases hr : fills.foldlM (replayFill orders) ⟨0, [], [], fun _ => 0⟩ with
        | error e =>
            constructor
            · exact fun h => nomatch h
            · rintro ⟨r, h, -⟩
              exact nomatch h
        | ok r =>
            show (replayFill orders r f >>= pure) = _ ↔ _
            rw [bind_pure]
            exact ⟨fun h => ⟨r, rfl, h⟩, fun ⟨r', hr', h⟩ => by cases hr'; exact h⟩
      refine ⟨fun x hx => ?_, ?_⟩
      · obtain ⟨r, hr, hstep⟩ := (hfold x).mp hx
        exact ((hstate r hr).step.1 x hstep).1
      · rw [replayable_append_singleton, ← hiff]
        constructor
        · rintro ⟨x, hx⟩
          obtain ⟨r, hr, hstep⟩ := (hfold x).mp hx
          exact ⟨⟨r, hr⟩, ((hstate r hr).step.1 x hstep).2⟩
        · rintro ⟨⟨r, hr⟩, hfollows⟩
          obtain ⟨x, hx⟩ := (hstate r hr).step.2 hfollows
          exact ⟨x, (hfold x).mpr ⟨r, hr, hx⟩⟩

/-! ### Sorting -/

theorem Fill.before_total (f g : Fill) : f.before g ∨ g.before f := by
  unfold Fill.before
  rcases lt_trichotomy f.occurredAt g.occurredAt with h | h | h
  · exact .inl (.inl h)
  · rcases le_total f.executionId g.executionId with h' | h'
    · exact .inl (.inr ⟨h, h'⟩)
    · exact .inr (.inr ⟨h.symm, h'⟩)
  · exact .inr (.inl h)

theorem Fill.before_trans {f g k : Fill} (h : f.before g) (h' : g.before k) : f.before k := by
  obtain h | ⟨h, hid⟩ := h
  · obtain h' | ⟨h', -⟩ := h'
    · exact .inl (h.trans h')
    · exact .inl (h' ▸ h)
  · obtain h' | ⟨h', hid'⟩ := h'
    · exact .inl (h ▸ h')
    · exact .inr ⟨h.trans h', hid.trans hid'⟩

theorem Fill.executionId_eq_of_before {f g : Fill} (h : f.before g) (h' : g.before f) : f.executionId = g.executionId := by
  obtain h | ⟨h, hid⟩ := h
  · obtain h' | ⟨h', -⟩ := h'
    · exact absurd h' h.asymm
    · exact absurd h (h' ▸ lt_irrefl _)
  · obtain h' | ⟨-, hid'⟩ := h'
    · exact absurd h' (h ▸ lt_irrefl _)
    · exact le_antisymm hid hid'

instance : Std.Total Fill.before := ⟨Fill.before_total⟩

instance : IsTrans Fill Fill.before := ⟨fun _ _ _ => Fill.before_trans⟩

/-- The canonical order does not depend on the order of arrival. -/
theorem insertionSort_before_perm {l l' : List Fill} (h : l.Perm l') (hid : (l.map Fill.executionId).Nodup) :
    l.insertionSort Fill.before = l'.insertionSort Fill.before := by
  have hl := List.perm_insertionSort Fill.before l
  have hl' := List.perm_insertionSort Fill.before l'
  refine @List.Perm.eq_of_pairwise _ Fill.before _ _ (fun f g hf hg hfg hgf => ?_)
    (List.pairwise_insertionSort _ l) (List.pairwise_insertionSort _ l') (hl.trans (h.trans hl'.symm))
  exact List.inj_on_of_nodup_map hid (hl.mem_iff.mp hf) (h.mem_iff.mpr (hl'.mem_iff.mp hg))
    (Fill.executionId_eq_of_before hfg hgf)

theorem OpenLot.before_total (l m : OpenLot) : l.before m ∨ m.before l := by
  unfold OpenLot.before
  rcases lt_trichotomy l.symbol.value m.symbol.value with h | h | h
  · exact .inl (.inl h)
  · rcases le_total l.openedAt m.openedAt with h' | h'
    · exact .inl (.inr ⟨h, h'⟩)
    · exact .inr (.inr ⟨h.symm, h'⟩)
  · exact .inr (.inl h)

theorem OpenLot.before_trans {l m n : OpenLot} (h : l.before m) (h' : m.before n) : l.before n := by
  obtain h | ⟨h, hat⟩ := h
  · obtain h' | ⟨h', -⟩ := h'
    · exact .inl (h.trans h')
    · exact .inl (h' ▸ h)
  · obtain h' | ⟨h', hat'⟩ := h'
    · exact .inl (h ▸ h')
    · exact .inr ⟨h.trans h', hat.trans hat'⟩

instance : Std.Total OpenLot.before := ⟨OpenLot.before_total⟩

instance : IsTrans OpenLot OpenLot.before := ⟨fun _ _ _ => OpenLot.before_trans⟩

/-- Selecting from a sorted list commutes with an insertion. -/
theorem filter_orderedInsert {α : Type} (r : α → α → Prop) [DecidableRel r] [IsTrans α r] (p : α → Bool) (a : α)
    {l : List α} (hl : l.Pairwise r) :
    (l.orderedInsert r a).filter p = if p a then (l.filter p).orderedInsert r a else l.filter p := by
  induction l with
  | nil => by_cases h : p a = true <;> simp [h]
  | cons b l ih =>
      obtain ⟨hb, hl⟩ := List.pairwise_cons.mp hl
      rw [List.orderedInsert]
      split_ifs with hab hpa hpa
      · rw [List.filter_cons_of_pos hpa]
        cases hfirst : (b :: l).filter p with
        | nil => rfl
        | cons c k =>
            have hc : c ∈ (b :: l).filter p := hfirst ▸ List.mem_cons_self
            have hac : r a c := by
              obtain rfl | hc := List.mem_cons.mp (List.mem_of_mem_filter hc)
              · exact hab
              · exact Trans.trans hab (hb c hc)
            rw [List.orderedInsert, if_pos hac]
      · rw [List.filter_cons_of_neg hpa]
      · rw [List.filter_cons, List.filter_cons, ih hl, if_pos hpa]
        split_ifs
        · rw [List.orderedInsert, if_neg hab]
        · rfl
      · rw [List.filter_cons, List.filter_cons, ih hl, if_neg hpa]

theorem filter_insertionSort {α : Type} (r : α → α → Prop) [DecidableRel r] [Std.Total r] [IsTrans α r] (p : α → Bool)
    (l : List α) : (l.insertionSort r).filter p = (l.filter p).insertionSort r := by
  induction l with
  | nil => rfl
  | cons a l ih =>
      rw [List.insertionSort_cons, filter_orderedInsert r p a (List.pairwise_insertionSort r l), ih, List.filter_cons]
      split_ifs <;> rfl

/-- The sort by symbol keeps the lots of a symbol, when they come in the order of their times. -/
theorem lotsOf_insertionSort (s : Symbol) {lots : List OpenLot}
    (h : ((lotsOf s lots).map (fun x => x.2.2)).Pairwise (· ≤ ·)) :
    lotsOf s (lots.insertionSort OpenLot.before) = lotsOf s lots := by
  unfold lotsOf
  rw [filter_insertionSort]
  have hsorted : (lots.filter (fun lot => lot.symbol = s)).Pairwise OpenLot.before := by
    rw [lotsOf, List.map_map, List.pairwise_map] at h
    refine h.imp_of_mem fun {l m} hl hm hle => .inr ⟨?_, hle⟩
    have hls := of_decide_eq_true (List.mem_filter.mp hl).2
    have hms := of_decide_eq_true (List.mem_filter.mp hm).2
    rw [hls, hms]
  rw [hsorted.insertionSort_eq]

theorem bought_times (s : Symbol) {fills : List Fill} (h : fills.Pairwise Fill.before) :
    ((bought orders s fills).map (fun x => x.2.2)).Pairwise (· ≤ ·) := by
  rw [bought, List.map_map, List.pairwise_map]
  refine (h.filter _).imp fun {f g} hfg => ?_
  obtain hlt | ⟨heq, -⟩ := hfg
  · exact hlt.le
  · exact heq.le

/-! ### The ledger -/

theorem projectLedger_ok {fills : List Fill} {p : LedgerProjection} :
    projectLedger fills orders = .ok p ↔ ∃ r,
      (fills.insertionSort Fill.before).foldlM (replayFill orders) ⟨0, [], [], fun _ => 0⟩ = .ok r ∧
        r.cash.natAbs ≤ maxAbsCents ∧ p.cashDeltaCents = r.cash ∧ p.lots = r.lots.insertionSort OpenLot.before := by
  unfold projectLedger
  cases hr : (fills.insertionSort Fill.before).foldlM (replayFill orders) ⟨0, [], [], fun _ => 0⟩ with
  | error e =>
      constructor
      · intro h
        cases h
      · rintro ⟨r, h, -⟩
        cases h
  | ok r =>
      show (if h : r.cash.natAbs ≤ maxAbsCents then _ else _) = _ ↔ _
      obtain ⟨cash, lots, hcash⟩ := p
      split_ifs with hbound
      · constructor
        · intro h
          cases h
          exact ⟨r, rfl, hbound, rfl, rfl⟩
        · rintro ⟨r', hr', -, hc, hl⟩
          cases hr'
          dsimp only at hc hl
          subst hc hl
          rfl
      · constructor
        · intro h
          cases h
        · rintro ⟨r', hr', hle, -⟩
          cases hr'
          exact absurd hle hbound

/-- The conditions under which a ledger is accepted: the fills can be replayed in the order of their
execution, and the cash at the end is in range. -/
def LedgerAccepted (orders : String → Option BrokerOrder) (fills : List Fill) : Prop :=
  Replayable orders (fills.insertionSort Fill.before) ∧
    (turnover orders .sell (fills.insertionSort Fill.before) -
      turnover orders .buy (fills.insertionSort Fill.before)).natAbs ≤ maxAbsCents

theorem projectLedger_accepted {fills : List Fill} :
    (∃ p, projectLedger fills orders = .ok p) ↔ LedgerAccepted orders fills := by
  obtain ⟨hstate, hiff⟩ := @replay_ok orders (fills.insertionSort Fill.before)
  constructor
  · rintro ⟨p, hp⟩
    obtain ⟨r, hr, hbound, -⟩ := projectLedger_ok.mp hp
    exact ⟨hiff.mp ⟨r, hr⟩, (hstate r hr).cash ▸ hbound⟩
  · rintro ⟨hreplay, hbound⟩
    obtain ⟨r, hr⟩ := hiff.mpr hreplay
    have hcash := (hstate r hr).cash
    exact ⟨⟨r.cash, r.lots.insertionSort OpenLot.before, hcash ▸ hbound⟩,
      projectLedger_ok.mpr ⟨r, hr, hcash ▸ hbound, rfl, rfl⟩⟩

theorem turnover_perm {side : OrderSide} {l m : List Fill} (h : l.Perm m) : turnover orders side l = turnover orders side m :=
  (h.map _).sum_eq

/-- **The ledger is the first-in-first-out reference.**  With `S` the fills in the order of their
execution, the ledger is accepted exactly when `S` can be replayed and ends with a cash delta in
range; the cash delta is what was sold less what was bought; the lots of a symbol are its buys in `S`
without the first shares sold; and the order of arrival does not matter. -/
theorem projectLedger_fifo (orders : String → Option BrokerOrder) (fills : List Fill) :
    ((∃ p, projectLedger fills orders = .ok p) ↔ LedgerAccepted orders fills) ∧
      (∀ p, projectLedger fills orders = .ok p →
        p.cashDeltaCents = turnover orders .sell fills - turnover orders .buy fills ∧
          ∀ s, lotsOf s p.lots = dropShares (traded orders .sell s fills)
            (bought orders s (fills.insertionSort Fill.before))) ∧
      ∀ fills', fills.Perm fills' → ∀ p, projectLedger fills orders = .ok p ↔ projectLedger fills' orders = .ok p := by
  refine ⟨projectLedger_accepted, fun p hp => ?_, fun fills' hperm p => ?_⟩
  · obtain ⟨r, hr, -, hcash, hlots⟩ := projectLedger_ok.mp hp
    have hreplayed := (replay_ok _).1 r hr
    have hsort := List.perm_insertionSort Fill.before fills
    refine ⟨?_, fun s => ?_⟩
    · rw [hcash, hreplayed.cash, turnover_perm hsort, turnover_perm hsort]
    · have hs := hreplayed.lots s
      rw [traded_perm hsort] at hs
      have htimes : ((lotsOf s r.lots).map (fun x => x.2.2)).Pairwise (· ≤ ·) := by
        rw [hs]
        exact (bought_times s (List.pairwise_insertionSort _ fills)).sublist (dropShares_sublist _ _)
      rw [hlots, lotsOf_insertionSort s htimes, hs]
  · -- a ledger that is accepted has distinct executions, so both arrivals sort to the same list
    have hone : ∀ {l l' : List Fill}, l.Perm l' → projectLedger l orders = .ok p → projectLedger l' orders = .ok p := by
      intro l l' h hp
      have hids := (projectLedger_accepted.mp ⟨p, hp⟩).1.distinct
      rw [((List.perm_insertionSort Fill.before l).map _).nodup_iff] at hids
      obtain ⟨r, hr, hrest⟩ := projectLedger_ok.mp hp
      rw [insertionSort_before_perm h hids] at hr
      exact projectLedger_ok.mpr ⟨r, hr, hrest⟩
    exact ⟨hone hperm, hone hperm.symm⟩

end SevenLens
