import SevenLens.Library.Paging
import SevenLens.Alpaca.RecentOrders

/-! # Lists in pages

`list_open_orders` and `list_fills` read a list in pages.  Both are the same loop (`pageLoop`) with a
check of their own for a cursor that comes back.  From a server that cuts a list into pages the loop
returns the list, or raises once it has read as many full pages as it may (`run_pageLoop`).  From any
server it returns the first version of everything that was sent (`pageLoop_first`). -/

namespace SevenLens.Alpaca

open Calls Prog Paging

/-! ### One page -/

/-- Fetch a page and read its items. -/
def fetchPage {α : Type} (path refusal : String) (read : Json → Except PyError α) (params : List (String × String)) :
    Wire (List α) :=
  (getJson path params).bind fun payload => (Prog.ofExcept (itemsOf refusal payload)).bind fun items =>
    Prog.ofExcept (items.mapM read)

/-- The items of an answer. -/
def itemsIn : Except PyError AlpacaResponse → List Json
  | .ok ⟨_, .arr items, _⟩ => items
  | _ => []

/-- The calls of a run of the adapter, with their answers. -/
abbrev Exchange := List ((c : transport.Call) × Except PyError (transport.Ans c))

/-- Everything that the server sent. -/
def itemsSent (exchange : Exchange) : List Json := exchange.flatMap fun call => itemsIn call.2

theorem itemsSent_append (l m : Exchange) : itemsSent (l ++ m) = itemsSent l ++ itemsSent m := List.flatMap_append

section Page

variable {α σ : Type} {read : Json → Except PyError α} {path refusal : String} {h : Handler transport PyError σ}
  {params : List (String × String)} {s s' : σ}

theorem run_request (r : Request) (s : σ) : run h (request r) s = h r s := run_perform (S := transport) h r s

theorem trace_request (r : Request) (s : σ) : trace h (request r) s = [⟨r, (h r s).1⟩] := trace_perform (S := transport) h r s

theorem trace_getJson : trace h (getJson path params) s = [⟨⟨.get, path, params, none⟩, (h ⟨.get, path, params, none⟩ s).1⟩] := by
  unfold getJson requestJson
  rw [bind_eq, trace_bind, trace_request, run_request]
  rcases h ⟨.get, path, params, none⟩ s with ⟨r, s₁⟩
  cases r with
  | error e => rfl
  | ok a =>
    dsimp only
    split_ifs <;> rfl

/-- A page is fetched with one request. -/
theorem trace_fetchPage : trace h (fetchPage path refusal read params) s =
    [⟨⟨.get, path, params, none⟩, (h ⟨.get, path, params, none⟩ s).1⟩] := by
  rw [fetchPage, trace_bind, trace_getJson]
  rcases run h (getJson path params) s with ⟨r, s₁⟩
  cases r with
  | error e => rfl
  | ok payload =>
    dsimp only
    rw [trace_bind, trace_ofExcept, run_ofExcept]
    cases itemsOf refusal payload with
    | error e => rfl
    | ok items =>
      dsimp only
      rw [trace_ofExcept]
      rfl

/-- The body of an answer, unless the resource is missing. -/
theorem getJson_ok {payload : Json} (hrun : run h (getJson path params) s = (.ok payload, s')) :
    payload = .null ∨ ∃ a : AlpacaResponse, (h ⟨.get, path, params, none⟩ s).1 = .ok a ∧ a.body = payload := by
  obtain ⟨a, s₁, hcall, hrest⟩ := run_bind_eq_ok hrun
  rw [run_request] at hcall
  split_ifs at hrest
  · cases hrest
    exact .inl rfl
  · cases hrest
  · cases hrest
  · cases hrest
  · cases hrest
    exact .inr ⟨a, congrArg Prod.fst hcall, rfl⟩

/-- A page that is returned is all that the server sent for it. -/
theorem fetchPage_sent {page : List α} (hrun : run h (fetchPage path refusal read params) s = (.ok page, s')) :
    (itemsSent (trace h (fetchPage path refusal read params) s)).mapM read = .ok page := by
  obtain ⟨payload, s₁, hget, hrest⟩ := run_bind_eq_ok hrun
  obtain ⟨items, s₂, hitems, hread⟩ := run_bind_eq_ok hrest
  rw [run_ofExcept] at hitems hread
  obtain rfl | ⟨a, ha, rfl⟩ := getJson_ok hget
  · cases (Prod.mk.inj hitems).1
  · have hbody : a.body = .arr items := by
      have hok := (Prod.mk.inj hitems).1
      unfold itemsOf at hok
      split at hok
      · rename_i l heq
        rw [heq, Except.ok.inj hok]
      · cases hok
    have hsent : itemsSent [⟨⟨.get, path, params, none⟩, (h ⟨.get, path, params, none⟩ s).1⟩] = items := by
      rw [itemsSent, List.flatMap_singleton, ha]
      obtain ⟨status, body, hstatus⟩ := a
      cases hbody
      rfl
    rw [trace_fetchPage, hsent, (Prod.mk.inj hread).1]

end Page

/-! ### The loop -/

section Loop

variable {α : Type} (fetch : Option String → Wire (List α)) (id : α → String) (size : Nat)
  (stuck : List String → Option String → Prop) [∀ used next, Decidable (stuck used next)] (stop limit : PyError)

/-- Read pages until one is not full; `used` are the cursors so far, and the last one is the cursor. -/
def pageLoop : Nat → List String → List α → Wire (List α)
  | 0, _, _ => Prog.raise limit
  | n + 1, used, found => (fetch used.getLast?).bind fun page =>
    if page.length < size then Prog.ret (addFirst id found page)
    else if stuck used (page.getLast?.map id) then Prog.raise stop
    else pageLoop n (used ++ (page.getLast?.map id).toList) (addFirst id found page)

variable {fetch id size stuck stop limit} {σ : Type} {h : Handler transport PyError σ}

/-- **A list that is cut into pages is returned as it is, unless it has more pages than may be read.** -/
theorem run_pageLoop {l : List α} (hsize : 0 < size) (hdistinct : (l.map id).Nodup)
    (hstuck : ∀ used k, stuck used (some k) → k ∈ used)
    (hserved : ∀ s cursor, (∀ k ∈ cursor, k ∈ l.map id) → ∃ s', run h (fetch cursor) s = (.ok (page id size l cursor), s'))
    (n : Nat) (used : List String) (done rest : List α) (hl : l = done ++ rest)
    (hcursor : used.getLast? = cursorAfter id done) (hused : ∀ k ∈ used, k ∈ done.map id) (s : σ) :
    (run h (pageLoop fetch id size stuck stop limit n used done) s).1 =
      if pages size rest.length ≤ n then .ok l else .error limit := by
  induction n generalizing used done rest s with
  | zero =>
    rw [if_neg (not_le.mpr (pages_pos size rest.length))]
    rfl
  | succ n ih =>
    have hnodup : ((done ++ rest).map id).Nodup := hl ▸ hdistinct
    have hnamed : ∀ k ∈ used.getLast?, k ∈ l.map id := by
      intro k hk
      rw [hl, List.map_append]
      exact List.mem_append_left _ (hused k (List.mem_of_getLast? hk))
    obtain ⟨s', hrun⟩ := hserved s used.getLast? hnamed
    rw [Paging.page, hcursor, hl, remaining_cursorAfter hnodup, ← hcursor] at hrun
    have hdone : ((done ++ rest.take size).map id).Nodup :=
      hnodup.sublist (((List.Sublist.refl done).append (List.take_sublist size rest)).map id)
    rw [pageLoop, run_bind_ok h hrun, addFirst_eq hdone]
    by_cases hshort : rest.length < size
    · rw [if_pos (by rw [List.length_take]; omega), List.take_of_length_le hshort.le, pages_of_lt hshort, if_pos (by omega), ← hl]
      rfl
    · have hfull : (rest.take size).length = size := by
        rw [List.length_take]
        omega
      have hne : rest.take size ≠ [] := by
        rintro hnil
        rw [hnil] at hfull
        exact hsize.ne hfull
      obtain ⟨a, ha⟩ : ∃ a, (rest.take size).getLast? = some a := ⟨_, List.getLast?_eq_some_getLast hne⟩
      have hlast : (rest.take size).getLast?.map id = some (id a) := by rw [ha]; rfl
      have hfresh : id a ∉ used := fun hmem => cursor_fresh hdone hlast (hused _ hmem)
      have hsplit : l = (done ++ rest.take size) ++ rest.drop size := by
        rw [List.append_assoc, List.take_append_drop, hl]
      have hpages : pages size rest.length ≤ n + 1 ↔ pages size (rest.drop size).length ≤ n := by
        rw [pages_of_le hsize (not_lt.mp hshort), List.length_drop, Nat.add_le_add_iff_right]
      rw [if_neg (by omega), hlast, if_neg fun hs => hfresh (hstuck used _ hs)]
      simp only [hpages]
      refine ih (used ++ [id a]) (done ++ rest.take size) (rest.drop size) hsplit ?_ ?_ s'
      · rw [cursorAfter_append hne, hlast, List.getLast?_concat]
      · intro k hk
        rw [List.map_append, List.mem_append]
        rcases List.mem_append.mp hk with hk | hk
        · exact .inl (hused k hk)
        · rw [List.mem_singleton.mp hk]
          exact .inr (List.mem_map_of_mem (List.mem_of_getLast? ha))

/-- **Of everything that a server sent, the first version of every item is returned.** -/
theorem pageLoop_first {read : Json → Except PyError α}
    (hfetch : ∀ {s s' : σ} {cursor : Option String} {page : List α}, run h (fetch cursor) s = (.ok page, s') →
      (itemsSent (trace h (fetch cursor) s)).mapM read = .ok page)
    {n : Nat} {used : List String} {sent found os : List α} {s s' : σ} (hfound : FirstOfEach id sent found)
    (hrun : run h (pageLoop fetch id size stuck stop limit n used found) s = (.ok os, s')) :
    ∃ more, (itemsSent (trace h (pageLoop fetch id size stuck stop limit n used found) s)).mapM read = .ok more ∧
      FirstOfEach id (sent ++ more) os := by
  induction n generalizing used sent found s with
  | zero => cases hrun
  | succ n ih =>
    obtain ⟨page, s₁, hpage, hrest⟩ := run_bind_eq_ok hrun
    have hread := hfetch hpage
    have hnext := hfound.addFirst page
    rw [pageLoop, trace_bind_ok hpage, itemsSent_append, List.mapM_append, hread]
    split_ifs at hrest ⊢
    · cases hrest
      exact ⟨page, by simp [itemsSent], hnext⟩
    · cases hrest
    · obtain ⟨more, hmore, hfirst⟩ := ih hnext hrest
      refine ⟨page ++ more, ?_, by rwa [List.append_assoc] at hfirst⟩
      rw [hmore]
      rfl

end Loop

/-! ### The two lists -/

/-- A list with distinct ids, and payloads that the adapter reads as its items. -/
structure Listing (α : Type) (id : α → String) (read : Json → Except PyError α) where
  items : List α
  payload : α → Json
  distinct : (items.map id).Nodup
  reads : ∀ a ∈ items, read (payload a) = .ok a

/-- The server answers every query for the page at the start or behind an item with that page. -/
def Listing.ServedBy {α σ : Type} {id : α → String} {read : Json → Except PyError α} (listing : Listing α id read)
    (h : Handler transport PyError σ) (path : String) (query : Option String → List (String × String)) (size : Nat) : Prop :=
  ∀ s cursor, (∀ k ∈ cursor, k ∈ listing.items.map id) → ∃ a : AlpacaResponse,
    (h ⟨.get, path, query cursor, none⟩ s).1 = .ok a ∧ a.status / 100 = 2 ∧
      a.body = .arr ((page id size listing.items cursor).map listing.payload)

/-- The sorted parameters of `list_fills`. -/
def fillsQuery (brokerOrderId : String) (token : Option String) : List (String × String) :=
  [("direction", "asc"), ("order_id", brokerOrderId), ("page_size", "100")] ++ (token.map (("page_token", ·))).toList

section Lists

variable {σ : Type} {h : Handler transport PyError σ}

/-- A served page is fetched. -/
theorem run_fetchPage {α : Type} {id : α → String} {read : Json → Except PyError α} {listing : Listing α id read}
    {path refusal : String} {query : Option String → List (String × String)} {size : Nat}
    (hserved : listing.ServedBy h path query size) (s : σ) (cursor : Option String)
    (hcursor : ∀ k ∈ cursor, k ∈ listing.items.map id) :
    ∃ s', run h (fetchPage path refusal read (query cursor)) s = (.ok (page id size listing.items cursor), s') := by
  obtain ⟨a, ha, hstatus, hbody⟩ := hserved s cursor hcursor
  have hread : ((page id size listing.items cursor).map listing.payload).mapM read = .ok (page id size listing.items cursor) := by
    refine Dict.mapM_of_forall₂ (List.forall₂_map_left_iff.mpr (List.forall₂_same.mpr fun b hb => listing.reads b ?_))
    exact mem_of_mem_page hb
  have hget : run h (getJson path (query cursor)) s = (.ok a.body, (h ⟨.get, path, query cursor, none⟩ s).2) := by
    unfold getJson requestJson
    have hcall : h ⟨.get, path, query cursor, none⟩ s = (.ok a, (h ⟨.get, path, query cursor, none⟩ s).2) := Prod.ext ha rfl
    rw [bind_eq, run_bind, run_request, hcall]
    dsimp only
    have htimeout : a.status ∉ timeoutStatusCodes := by
      unfold timeoutStatusCodes
      simp only [List.mem_cons, List.not_mem_nil, or_false]
      omega
    rw [if_neg (by omega), if_neg htimeout, if_neg (by omega)]
    rfl
  refine ⟨(h ⟨.get, path, query cursor, none⟩ s).2, ?_⟩
  rw [fetchPage, run_bind_ok h hget, hbody, itemsOf, run_bind, run_ofExcept]
  dsimp only
  rw [run_ofExcept, hread]

theorem addNew_true {α : Type} (id : α → String) (found page : List α) :
    addNew id (fun _ => true) found page = addFirst id found page := by
  unfold addNew addFirst
  congr 1
  funext found a
  by_cases hmem : id a ∈ found.map id
  · rw [if_neg fun h => h.2 hmem, if_pos hmem]
  · rw [if_pos ⟨rfl, hmem⟩, if_neg hmem]

/-- A page that is not empty names a cursor. -/
theorem exists_cursor {α : Type} (id : α → String) {page : List α} (h : 0 < page.length) :
    ∃ k, page.getLast?.map id = some k :=
  ⟨_, congrArg (Option.map id) (List.getLast?_eq_some_getLast (List.length_pos_iff.mp h))⟩

/-- The loop of `list_open_orders`. -/
theorem orderPages_eq (query : Option String → List (String × String)) (body pagination : String) (n : Nat)
    (used : List String) (found : List BrokerOrder) :
    orderPages query (fun _ => true) body pagination n used.getLast? found =
      pageLoop (fun cursor => fetchPage "/v2/orders" ("Alpaca returned a non-list " ++ body ++ " body") brokerOrderFromPayload
        (query cursor)) BrokerOrder.brokerOrderId orderPageSize (fun used next => next = used.getLast?)
        (transportError ("Alpaca " ++ pagination ++ " pagination is not advancing"))
        (transportError ("Alpaca " ++ pagination ++ " pagination exceeded the bounded page limit")) n used found := by
  induction n generalizing used found with
  | zero => rfl
  | succ n ih =>
    rw [orderPages, pageLoop, fetchPage]
    simp only [bind_eq, Prog.bind_assoc]
    refine congrArg _ (funext fun payload => congrArg _ (funext fun items => congrArg _ (funext fun page => ?_)))
    rw [addNew_true]
    by_cases hshort : page.length < orderPageSize
    · rw [if_pos hshort, if_pos hshort]
      rfl
    · obtain ⟨k, hk⟩ := exists_cursor BrokerOrder.brokerOrderId (Nat.lt_of_lt_of_le (by decide : 0 < orderPageSize) (not_lt.mp hshort))
      rw [if_neg hshort, if_neg hshort, hk, ← ih, Option.toList_some, List.getLast?_concat]

/-- The loop of `list_fills`: the token has not been used before. -/
theorem fillPages_eq (brokerOrderId : String) (n : Nat) (token : Option String) (tokens : List String) (found : List Fill)
    (hfresh : ¬ ∃ t ∈ token, t ∈ tokens) (hlast : (tokens ++ token.toList).getLast? = token) :
    fillPages brokerOrderId n token tokens found =
      pageLoop (fun cursor => fetchPage "/v2/account/activities/FILL" "Alpaca returned a non-list activities body"
        (parseFillActivity brokerOrderId) (fillsQuery brokerOrderId cursor)) Fill.executionId fillPageSize
        (fun used next => ∃ t ∈ next, t ∈ used)
        (transportError "Alpaca fill pagination cursor cycle detected")
        (transportError "Alpaca fill pagination exceeded the bounded page limit") n (tokens ++ token.toList) found := by
  induction n generalizing token tokens found with
  | zero => rfl
  | succ n ih =>
    rw [fillPages, pageLoop, fetchPage, if_neg hfresh, hlast, fillsQuery]
    simp only [bind_eq, Prog.bind_assoc]
    refine congrArg _ (funext fun payload => congrArg _ (funext fun items => congrArg _ (funext fun page => ?_)))
    rw [addNew_true]
    by_cases hshort : page.length < fillPageSize
    · rw [if_pos hshort, if_pos hshort]
      rfl
    · obtain ⟨k, hk⟩ := exists_cursor Fill.executionId (Nat.lt_of_lt_of_le (by decide : 0 < fillPageSize) (not_lt.mp hshort))
      rw [if_neg hshort, if_neg hshort, hk]
      split_ifs with hused
      · rfl
      · exact ih (some k) (tokens ++ token.toList) _ hused (by rw [Option.toList_some, List.getLast?_concat])

end Lists

/-- A program that reads a list in pages: it returns the list that a server cuts into pages, unless the list has
too many of them, and from any server the first version of every item that was sent. -/
structure ReadsPages {α : Type} (p : Wire (List α)) (id : α → String) (read : Json → Except PyError α) (path : String)
    (query : Option String → List (String × String)) (size : Nat) (limit : PyError) : Prop where
  served : ∀ (σ : Type) (h : Handler transport PyError σ) (s : σ) (listing : Listing α id read),
    listing.ServedBy h path query size → (run h p s).1 =
      if pages size listing.items.length ≤ maxPaginationPages then .ok listing.items else .error limit
  first : ∀ (σ : Type) (h : Handler transport PyError σ) (s : σ) (os : List α), (run h p s).1 = .ok os →
    ∃ sent, (itemsSent (trace h p s)).mapM read = .ok sent ∧ FirstOfEach id sent os

/-- What is the loop over pages reads its list in pages. -/
theorem readsPages_of_eq {α : Type} {p : Wire (List α)} {id : α → String} {read : Json → Except PyError α}
    {path refusal : String} {query : Option String → List (String × String)} {size : Nat}
    {stuck : List String → Option String → Prop} [∀ used next, Decidable (stuck used next)] {stop limit : PyError}
    (hsize : 0 < size) (hstuck : ∀ used k, stuck used (some k) → k ∈ used)
    (hp : p = pageLoop (fun cursor => fetchPage path refusal read (query cursor)) id size stuck stop limit maxPaginationPages [] []) :
    ReadsPages p id read path query size limit := by
  subst hp
  constructor
  · intro σ h s listing hserved
    exact run_pageLoop hsize listing.distinct hstuck (run_fetchPage hserved) maxPaginationPages [] [] listing.items rfl rfl
      (List.forall_mem_nil _) s
  · intro σ h s os hrun
    exact pageLoop_first fetchPage_sent firstOfEach_nil (Prod.ext hrun rfl)

/-- **The open orders and the fills of an order are read in pages.** -/
theorem lists_read_pages :
    ReadsPages listOpenOrders BrokerOrder.brokerOrderId brokerOrderFromPayload "/v2/orders" openOrdersQuery orderPageSize
        (transportError "Alpaca open-order pagination exceeded the bounded page limit") ∧
      ∀ brokerOrderId, ReadsPages (listFills brokerOrderId) Fill.executionId (parseFillActivity brokerOrderId)
        "/v2/account/activities/FILL" (fillsQuery brokerOrderId) fillPageSize
        (transportError "Alpaca fill pagination exceeded the bounded page limit") := by
  constructor
  · exact readsPages_of_eq (by decide) (fun used k hk => List.mem_of_getLast? hk.symm)
      (orderPages_eq openOrdersQuery "open-orders" "open-order" maxPaginationPages [] [])
  · intro brokerOrderId
    refine readsPages_of_eq (by decide) (fun used k hk => ?_)
      (fillPages_eq brokerOrderId maxPaginationPages none [] [] (by rintro ⟨t, ht, -⟩; cases ht) rfl)
    obtain ⟨t, ht, hused⟩ := hk
    exact Option.some.inj ht ▸ hused

/-! ### Servers -/

/-- A server that cuts a list into pages. -/
def Listing.serve {α : Type} {id : α → String} {read : Json → Except PyError α} (listing : Listing α id read)
    (token : String) (size : Nat) : Handler transport PyError Unit := fun r s =>
  (.ok ⟨200, .arr ((page id size listing.items (r.params.lookup token)).map listing.payload), AlpacaResponse.status_200⟩, s)

theorem Listing.serve_served {α : Type} {id : α → String} {read : Json → Except PyError α} (listing : Listing α id read)
    {path token : String} {query : Option String → List (String × String)} {size : Nat}
    (hquery : ∀ cursor, (query cursor).lookup token = cursor) : listing.ServedBy (listing.serve token size) path query size := by
  intro s cursor _
  refine ⟨_, rfl, by norm_num, ?_⟩
  rw [hquery]

/-- One open order. -/
def oneOrder : Listing BrokerOrder BrokerOrder.brokerOrderId brokerOrderFromPayload where
  items := [oldOrder 8]
  payload := oldPayload
  distinct := List.nodup_singleton _
  reads o ho := by
    rw [List.mem_singleton.mp ho]
    exact oldPayload_reads (.inr rfl)

theorem lists_read_pages_sample : (run (oneOrder.serve "after_order_id" orderPageSize) listOpenOrders ()).1 = .ok [oldOrder 8] := by
  refine (lists_read_pages.1.served Unit _ () oneOrder (oneOrder.serve_served fun cursor => ?_)).trans (if_pos (by decide))
  cases cursor <;> rfl

/-- A server that sends two versions of an order on one page. -/
def twice : Handler transport PyError Unit := fun _ s =>
  (.ok ⟨200, .arr [oldPayload (oldOrder 2), oldPayload (oldOrder 8)], AlpacaResponse.status_200⟩, s)

/-- The second version of an order was sent and is not returned. -/
theorem second_version_dropped : (run twice listOpenOrders ()).1 = .ok [oldOrder 2] ∧
    oldPayload (oldOrder 8) ∈ itemsSent (trace twice listOpenOrders ()) ∧
      ∀ o ∈ [oldOrder 2], brokerOrderFromPayload (oldPayload (oldOrder 8)) ≠ .ok o := by
  refine ⟨Dict.ok_of_toOption (by decide +kernel), ?_, ?_⟩
  · have hloop := orderPages_eq openOrdersQuery "open-orders" "open-order" maxPaginationPages [] []
    rw [listOpenOrders, show (none : Option String) = ([] : List String).getLast? from rfl, hloop]
    rw [show maxPaginationPages = 99 + 1 from rfl, pageLoop, trace_bind, itemsSent_append, trace_fetchPage]
    exact List.mem_append_left _ (List.mem_cons_of_mem _ List.mem_cons_self)
  · intro o ho hread
    rw [List.mem_singleton.mp ho, oldPayload_reads (.inr rfl)] at hread
    exact absurd (Except.ok.inj hread) (by decide +kernel)

end SevenLens.Alpaca
