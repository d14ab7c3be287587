import SevenLens.Alpaca.Adapter
import SevenLens.ConsumerStream

/-! # The horizon of recent orders

`list_recent_orders` has to return the orders updated since an instant, from a server that filters by the
time of submission.  It asks for the orders submitted since the start of the day before, and drops those
that were not updated.  The pages together hold every order that the server selects (`listRecentOrders_eq`),
so an order is missed exactly when it was submitted earlier (`recentOrders_iff`). -/

namespace SevenLens.Alpaca

open Calls Prog

/-! ### The server -/

/-- A broker with a history of orders in ascending order of submission, each with a payload that the
adapter reads.  The filter may include the instant itself or not. -/
structure OrderServer where
  orders : List BrokerOrder
  inclusive : Bool
  payload : BrokerOrder → Json
  sorted : orders.Pairwise (fun o p => o.submittedAt ≤ p.submittedAt)
  distinct : (orders.map BrokerOrder.brokerOrderId).Nodup
  reads : ∀ o ∈ orders, brokerOrderFromPayload (payload o) = .ok o

namespace OrderServer

variable (server : OrderServer)

/-- The filter `after`. -/
def selects (after : UtcTimestamp) (o : BrokerOrder) : Bool :=
  if server.inclusive then decide (after ≤ o.submittedAt) else decide (after < o.submittedAt)

/-- What comes strictly after the order of an id. -/
def behind (id : String) : List BrokerOrder := (server.orders.dropWhile (fun o => o.brokerOrderId ≠ id)).drop 1

/-- The orders a query asks for. -/
def matching (params : List (String × String)) : List BrokerOrder :=
  match params.lookup "after_order_id" with
  | some id => server.behind id
  | none =>
    match (params.lookup "after").bind (fun text => (UtcTimestamp.fromIsoformat text).toOption) with
    | some after => server.orders.filter (server.selects after)
    | none => server.orders

/-- The page that answers a query. -/
def page (params : List (String × String)) : List BrokerOrder := (server.matching params).take orderPageSize

/-- A request may fail; a successful answer is the page that it asks for. -/
def Answers (r : Request) (x : Except PyError AlpacaResponse) : Prop :=
  ∀ a, x = .ok a → a.status / 100 = 2 → a.body = .arr ((server.page r.params).map server.payload)

variable {server : OrderServer}

/-- What comes after an order of a final part of the history. -/
theorem behind_eq {l m : List BrokerOrder} {o : BrokerOrder} (h : l ++ o :: m <:+ server.orders) :
    server.behind o.brokerOrderId = m := by
  obtain ⟨before, hbefore⟩ := h
  have hnodup := server.distinct
  rw [← hbefore, ← List.append_assoc, List.map_append, List.nodup_append] at hnodup
  obtain ⟨-, -, hdisjoint⟩ := hnodup
  have hdrop : ∀ p ∈ before ++ l, decide (p.brokerOrderId ≠ o.brokerOrderId) = true := by
    intro p hp
    refine decide_eq_true fun he => ?_
    exact hdisjoint _ (List.mem_map_of_mem hp) _ (List.mem_map_of_mem List.mem_cons_self) he
  rw [behind, ← hbefore, ← List.append_assoc, List.dropWhile_append_of_pos hdrop,
    List.dropWhile_cons_of_neg (by simp)]
  rfl

/-- The orders that the filter selects are the last ones of the history. -/
theorem selects_suffix (after : UtcTimestamp) : server.orders.filter (server.selects after) <:+ server.orders := by
  have hmono : ∀ {o p : BrokerOrder}, o.submittedAt ≤ p.submittedAt → server.selects after o = true →
      server.selects after p = true := by
    intro o p hle ho
    unfold selects at ho ⊢
    split_ifs at ho ⊢
    · exact decide_eq_true ((of_decide_eq_true ho).trans hle)
    · exact decide_eq_true ((of_decide_eq_true ho).trans_le hle)
  have hsorted := server.sorted
  generalize server.orders = l at hsorted
  induction l with
  | nil => exact List.suffix_refl _
  | cons o l ih =>
    obtain ⟨hfirst, hrest⟩ := List.pairwise_cons.mp hsorted
    by_cases ho : server.selects after o = true
    · have hall : ∀ p ∈ o :: l, server.selects after p = true := by
        intro p hp
        obtain rfl | hp := List.mem_cons.mp hp
        · exact ho
        · exact hmono (hfirst p hp) ho
      exact ⟨[], List.filter_eq_self.mpr hall⟩
    · rw [List.filter_cons_of_neg ho]
      exact (ih hrest).trans (List.suffix_cons o l)

end OrderServer

/-! ### The pages -/

theorem addNew_eq {α : Type} {id : α → String} {keep : α → Bool} {found page : List α}
    (hpage : (page.map id).Nodup) (hnew : ∀ a ∈ page, id a ∉ found.map id) :
    addNew id keep found page = found ++ page.filter keep := by
  induction page generalizing found with
  | nil => simp [addNew]
  | cons a page ih =>
    obtain ⟨ha, hpage⟩ := List.nodup_cons.mp hpage
    have hrest : ∀ b ∈ page, id b ∉ found.map id := fun b hb => hnew b (List.mem_cons_of_mem a hb)
    have hstep : addNew id keep found (a :: page) =
        addNew id keep (if keep a ∧ id a ∉ found.map id then found ++ [a] else found) page := rfl
    rw [hstep]
    by_cases hk : keep a = true
    · rw [if_pos ⟨hk, hnew a List.mem_cons_self⟩, List.filter_cons_of_pos hk, ih hpage, List.append_assoc]
      · rfl
      · intro b hb hmem
        rw [List.map_append, List.mem_append] at hmem
        obtain hmem | hmem := hmem
        · exact hrest b hb hmem
        · have hid : id b = id a := by simpa using hmem
          exact ha (hid ▸ List.mem_map_of_mem hb)
    · rw [if_neg fun h => hk h.1, List.filter_cons_of_neg hk, ih hpage hrest]

section Pages

variable {server : OrderServer}

theorem yields_getJson (path : String) (params : List (String × String)) : Yields server.Answers (getJson path params)
    (fun j => j = .null ∨ j = .arr ((server.page params).map server.payload)) := by
  refine yields_bind (P := fun a => a.status / 100 = 2 → a.body = .arr ((server.page params).map server.payload))
    (yields_perform (S := transport) fun a ha => ha a rfl) fun a ha => ?_
  split_ifs with hmissing hget htimeout hfailed
  · exact yields_ret (Or.inl rfl)
  · exact yields_raise _
  · exact yields_raise _
  · exact yields_raise _
  · exact yields_ret (Or.inr (ha (not_not.mp hfailed)))

/-- The pages of a final part of the history are the part itself. -/
theorem yields_orderPages {after body pagination : String} {keep : BrokerOrder → Bool} (n : Nat) (cursor : Option String)
    (found part : List BrokerOrder) (hpart : part <:+ server.orders)
    (hquery : server.matching (recentOrdersQuery after cursor) = part)
    (hnew : ∀ o ∈ part, o.brokerOrderId ∉ found.map BrokerOrder.brokerOrderId) :
    Yields server.Answers (orderPages (recentOrdersQuery after) keep body pagination n cursor found)
      (fun os => os = found ++ part.filter keep) := by
  induction n generalizing cursor found part with
  | zero => exact yields_raise _
  | succ n ih =>
    have hpage : server.page (recentOrdersQuery after cursor) = part.take orderPageSize := by
      rw [OrderServer.page, hquery]
    have hdistinct : (part.map BrokerOrder.brokerOrderId).Nodup := server.distinct.sublist (hpart.sublist.map _)
    refine yields_bind (yields_getJson _ _) fun j hj => ?_
    refine yields_bind (P := fun items => items = (part.take orderPageSize).map server.payload)
      (yields_ofExcept fun items hitems => ?_) fun items hitems => ?_
    · obtain rfl | rfl := hj
      · cases hitems
      · rw [← hpage]
        exact (Except.ok.inj hitems).symm
    subst hitems
    have hread : ((part.take orderPageSize).map server.payload).mapM brokerOrderFromPayload =
        .ok (part.take orderPageSize) := by
      refine Dict.mapM_of_forall₂ (List.forall₂_map_left_iff.mpr (List.forall₂_same.mpr fun o ho => ?_))
      exact server.reads o (hpart.subset (List.mem_of_mem_take ho))
    rw [hread]
    have hadd : addNew BrokerOrder.brokerOrderId keep found (part.take orderPageSize) =
        found ++ (part.take orderPageSize).filter keep :=
      addNew_eq (hdistinct.sublist ((List.take_sublist _ _).map _)) fun o ho => hnew o (List.mem_of_mem_take ho)
    refine yields_bind (P := fun page => page = part.take orderPageSize) (yields_ret rfl) fun page hpage' => ?_
    subst hpage'
    rw [hadd]
    split_ifs with hshort hstuck
    · -- the last page is the whole part
      refine yields_ret ?_
      rw [List.take_of_length_le]
      rw [List.length_take] at hshort
      omega
    · exact yields_raise _
    · -- the next page starts behind the last order of this one
      have hlong : (part.take orderPageSize).length = orderPageSize := by
        have := List.length_take_le orderPageSize part
        omega
      obtain ⟨first, last, hlast⟩ : ∃ first last, part.take orderPageSize = first ++ [last] := by
        refine ⟨_, _, (List.dropLast_append_getLast (l := part.take orderPageSize) ?_).symm⟩
        intro hnil
        rw [hnil] at hlong
        cases hlong
      have hsplit : part = first ++ last :: part.drop orderPageSize := by
        conv_lhs => rw [← List.take_append_drop orderPageSize part, hlast, List.append_assoc]
        rfl
      have hcursor : (part.take orderPageSize).getLast?.map BrokerOrder.brokerOrderId = some last.brokerOrderId := by
        rw [hlast, List.getLast?_concat]
        rfl
      have hbehind : server.matching (recentOrdersQuery after (some last.brokerOrderId)) = part.drop orderPageSize :=
        OrderServer.behind_eq (hsplit ▸ hpart)
      rw [hcursor]
      refine (ih _ _ _ ((List.drop_suffix _ _).trans hpart) hbehind ?_).mono fun os hos => ?_
      · intro o ho hmem
        rw [List.map_append, List.mem_append] at hmem
        obtain hmem | hmem := hmem
        · exact hnew o (List.mem_of_mem_drop ho) hmem
        · rw [← List.take_append_drop orderPageSize part, List.map_append, List.nodup_append] at hdistinct
          refine hdistinct.2.2 _ ?_ _ (List.mem_map_of_mem ho) rfl
          exact (List.filter_sublist.map _).subset hmem
      · rw [hos, List.append_assoc, ← List.filter_append, List.take_append_drop]

/-- What is returned: of the orders that the server selects, those updated inside the horizon. -/
theorem yields_listRecentOrders (since : UtcTimestamp) : Yields server.Answers (listRecentOrders since) (fun os =>
    ∃ after, submittedAfter since = .ok after ∧
      os = (server.orders.filter (server.selects after)).filter (fun o => decide (since ≤ o.updatedAt))) := by
  refine yields_bind (yields_ofExcept fun after hafter => hafter) fun after hafter => ?_
  have hquery : server.matching (recentOrdersQuery after.text none) = server.orders.filter (server.selects after) := by
    have hlookup : (recentOrdersQuery after.text none).lookup "after_order_id" = none ∧
        (recentOrdersQuery after.text none).lookup "after" = some after.text := by
      constructor <;> rfl
    simp only [OrderServer.matching, hlookup.1, hlookup.2, Option.bind_some, UtcTimestamp.fromIsoformat_text]
    rfl
  refine (yields_orderPages _ none [] _ (OrderServer.selects_suffix after) hquery (by simp)).mono fun os hos => ?_
  exact ⟨after, hafter, by rw [hos, List.nil_append]⟩

end Pages

/-- Every order of the history updated inside the horizon, once, and no other order. -/
def OrderServer.Covers (server : OrderServer) (since : UtcTimestamp) (os : List BrokerOrder) : Prop :=
  (os.map BrokerOrder.brokerOrderId).Nodup ∧ ∀ o, o ∈ os ↔ o ∈ server.orders ∧ since ≤ o.updatedAt

/-- **What is returned covers the horizon exactly when every order that was updated inside it was submitted
since the start of the day before.** -/
theorem recentOrders_iff {σ : Type} (server : OrderServer) (h : Handler transport PyError σ) (s : σ)
    (since : UtcTimestamp) (os : List BrokerOrder) :
    (∀ r s, server.Answers r (h r s).1) → (run h (listRecentOrders since) s).1 = .ok os →
      (server.Covers since os ↔ ∀ after, submittedAfter since = .ok after →
        ∀ o ∈ server.orders, since ≤ o.updatedAt → server.selects after o = true) := by
  intro hserves hrun
  obtain ⟨after, hafter, rfl⟩ := (@yields_listRecentOrders server since).run (I := fun _ => True)
    (fun s r _ _ => ⟨hserves r s, trivial⟩) (within_true _) trivial hrun
  have hmem : ∀ o, o ∈ (server.orders.filter (server.selects after)).filter (fun o => decide (since ≤ o.updatedAt)) ↔
      (o ∈ server.orders ∧ server.selects after o = true) ∧ since ≤ o.updatedAt := by
    intro o
    rw [List.mem_filter, List.mem_filter, decide_eq_true_eq]
  constructor
  · rintro ⟨-, hcovers⟩ after' hafter' o ho hupdated
    obtain rfl : after = after' := Except.ok.inj (hafter.symm.trans hafter')
    exact ((hmem o).mp ((hcovers o).mpr ⟨ho, hupdated⟩)).1.2
  · intro hselected
    refine ⟨server.distinct.sublist ((List.filter_sublist.trans List.filter_sublist).map _), fun o => ?_⟩
    rw [hmem]
    constructor
    · rintro ⟨⟨ho, -⟩, hupdated⟩
      exact ⟨ho, hupdated⟩
    · rintro ⟨ho, hupdated⟩
      exact ⟨⟨ho, hselected after hafter o ho hupdated⟩, hupdated⟩

/-! ### An order from before the weekend -/

/-- Midnight after `n` days. -/
def midnight (n : Fin 100) : UtcTimestamp := ⟨n * dayMicros, by
  have hn := n.isLt
  unfold maxMicros dayMicros hourMicros
  omega⟩

/-- An order submitted on day `n` and filled on day 9. -/
def oldOrder (n : Fin 100) : BrokerOrder :=
  { sampleOrder .filled 10 5 with submittedAt := midnight n, updatedAt := midnight 9 }

/-- How the server sends it. -/
def oldPayload (o : BrokerOrder) : Json :=
  .obj [("id", .str "b-1"), ("client_order_id", .str sampleId.value), ("symbol", .str "AAPL"), ("side", .str "buy"),
    ("qty", .str "10"), ("filled_qty", .str "10"), ("limit_price", .str "100"), ("status", .str "filled"),
    ("submitted_at", .str o.submittedAt.text), ("updated_at", .str "0001-01-10T00:00:00Z")]

theorem oldPayload_reads {n : Fin 100} (hn : n = 2 ∨ n = 8) : brokerOrderFromPayload (oldPayload (oldOrder n)) = .ok (oldOrder n) := by
  obtain rfl | rfl := hn
  · exact Dict.ok_of_toOption (by decide +kernel)
  · exact Dict.ok_of_toOption (by decide +kernel)

/-- A server with this order. -/
def oldServer (n : Fin 100) (hn : n = 2 ∨ n = 8) : OrderServer where
  orders := [oldOrder n]
  inclusive := true
  payload := oldPayload
  sorted := List.pairwise_singleton _ _
  distinct := List.nodup_singleton _
  reads o ho := by
    rw [List.mem_singleton.mp ho]
    exact oldPayload_reads hn

/-- The server answers every request. -/
def OrderServer.serve (server : OrderServer) : Handler transport PyError Unit := fun r s =>
  (.ok ⟨200, .arr ((server.page r.params).map server.payload), AlpacaResponse.status_200⟩, s)

theorem OrderServer.serve_answers (server : OrderServer) (r : Request) (s : Unit) : server.Answers r (server.serve r s).1 := by
  intro a ha _
  cases ha
  rfl

theorem submittedAfter_midnight : submittedAfter (midnight 9) = .ok (midnight 8) := Dict.ok_of_toOption (by decide +kernel)

/-- An order from the day before is returned. -/
theorem recentOrders_sample : (oldServer 8 (.inr rfl)).Covers (midnight 9) [oldOrder 8] := by
  refine (recentOrders_iff (oldServer 8 (.inr rfl)) (oldServer 8 (.inr rfl)).serve () (midnight 9) [oldOrder 8]
    (oldServer 8 (.inr rfl)).serve_answers (Dict.ok_of_toOption (by decide +kernel))).mpr fun after hafter o ho _ => ?_
  obtain rfl := Except.ok.inj (submittedAfter_midnight.symm.trans hafter)
  rw [List.mem_singleton.mp ho]
  decide +kernel

/-- An order that was submitted a week before the horizon and filled inside it is not returned. -/
theorem recentOrders_misses : (∀ r s, (oldServer 2 (.inl rfl)).Answers r ((oldServer 2 (.inl rfl)).serve r s).1) ∧
    (run (oldServer 2 (.inl rfl)).serve (listRecentOrders (midnight 9)) ()).1 = .ok [] ∧
      (oldOrder 2).submittedAt ≤ (oldOrder 2).updatedAt ∧ ¬ (oldServer 2 (.inl rfl)).Covers (midnight 9) [] := by
  refine ⟨(oldServer 2 (.inl rfl)).serve_answers, Dict.ok_of_toOption (by decide +kernel), by decide +kernel, ?_⟩
  rintro ⟨-, hcovers⟩
  exact List.not_mem_nil ((hcovers (oldOrder 2)).mpr ⟨List.mem_singleton.mpr rfl, le_refl (midnight 9)⟩)

end SevenLens.Alpaca
