import SevenLens.Alpaca.Wire

/-! # The Paper adapter

The adapter is a program over one call, a request to the injected transport.  Each read and the
submission are written as in the source: pages are fetched in a bounded loop that remembers what it has
seen, and a refused submission is examined for a duplicate. -/

namespace SevenLens.Alpaca

open Calls Prog

/-! ### The transport -/

inductive Method where
  | get | post | delete
deriving DecidableEq, Repr

/-- A request, before its parameters are encoded into the URL. -/
structure Request where
  method : Method
  path : String
  params : List (String × String)
  body : Option Json

/-- One transport-level response with a status and a parsed JSON body. -/
structure AlpacaResponse where
  status : Nat
  body : Json
  status_ok : 100 ≤ status ∧ status ≤ 599

theorem AlpacaResponse.status_200 : 100 ≤ 200 ∧ 200 ≤ 599 := by decide

def transport : Sig := ⟨Request, fun _ => AlpacaResponse⟩

/-- A program over the transport. -/
abbrev Wire := Prog transport PyError

/-- `_request` -/
def request (r : Request) : Wire AlpacaResponse := Prog.perform (S := transport) r

/-- `_TIMEOUT_STATUS_CODES` -/
def timeoutStatusCodes : List Nat := [408, 429, 500, 502, 503, 504]

/-- `_request_json`; `null` stands for the `None` of a resource that is not found. -/
def requestJson (r : Request) : Wire Json := do
  let response ← request r
  if response.status = 404 then
    if r.method = .get then pure .null
    else Prog.raise (transportError "Alpaca returned not-found for a write request")
  else if response.status ∈ timeoutStatusCodes then Prog.raise (transportError "Alpaca request outcome is unknown")
  else if response.status / 100 ≠ 2 then Prog.raise (transportError "Alpaca request failed")
  else pure response.body

/-- `_get_json` -/
def getJson (path : String) (params : List (String × String)) : Wire Json := requestJson ⟨.get, path, params, none⟩

/-! ### Reads -/

def account : Wire PaperAccount := do
  Prog.ofExcept (parseAccount (← getJson "/v2/account" []))

def getOrder (clientOrderId : ClientOrderId) : Wire (Option BrokerOrder) := do
  match ← getJson "/v2/orders:by_client_order_id" [("client_order_id", clientOrderId.value)] with
  | .null => return none
  | payload => return some (← Prog.ofExcept (brokerOrderFromPayload payload))

/-- The items of a list body. -/
def itemsOf (refusal : String) : Json → Except PyError (List Json)
  | .arr items => .ok items
  | _ => .error (transportError refusal)

def maxPaginationPages : Nat := 100

/-- The page limit of the order lists. -/
def orderPageSize : Nat := 500

/-- Append what is new on a page; `seen` holds the ids of what has been appended. -/
def addNew {α : Type} (id : α → String) (keep : α → Bool) (found : List α) (page : List α) : List α :=
  page.foldl (fun found a => if keep a ∧ id a ∉ found.map id then found ++ [a] else found) found

/-- The loop over the pages of `/v2/orders`. -/
def orderPages (query : Option String → List (String × String)) (keep : BrokerOrder → Bool) (body pagination : String) :
    Nat → Option String → List BrokerOrder → Wire (List BrokerOrder)
  | 0, _, _ => Prog.raise (transportError ("Alpaca " ++ pagination ++ " pagination exceeded the bounded page limit"))
  | n + 1, cursor, orders => do
    let payload ← getJson "/v2/orders" (query cursor)
    let items ← Prog.ofExcept (itemsOf ("Alpaca returned a non-list " ++ body ++ " body") payload)
    let page ← Prog.ofExcept (items.mapM brokerOrderFromPayload)
    let orders := addNew BrokerOrder.brokerOrderId keep orders page
    if page.length < orderPageSize then return orders
    else if page.getLast?.map BrokerOrder.brokerOrderId = cursor then
      Prog.raise (transportError ("Alpaca " ++ pagination ++ " pagination is not advancing"))
    else orderPages query keep body pagination n (page.getLast?.map BrokerOrder.brokerOrderId) orders

/-- The sorted parameters of `list_open_orders`. -/
def openOrdersQuery (cursor : Option String) : List (String × String) :=
  (cursor.map (("after_order_id", ·))).toList ++ [("direction", "asc"), ("limit", "500"), ("status", "open")]

def listOpenOrders : Wire (List BrokerOrder) :=
  orderPages openOrdersQuery (fun _ => true) "open-orders" "open-order" maxPaginationPages none []

/-- `_ORDER_SUBMISSION_LOOKBACK` -/
def orderSubmissionLookback : Int := dayMicros

/-- Midnight of the day before the horizon. -/
def submittedAfter (since : UtcTimestamp) : Except PyError UtcTimestamp := do
  let earlier ← since.shift (-orderSubmissionLookback)
  return ⟨earlier.micros / dayMicros * dayMicros, lt_of_le_of_lt (Nat.div_mul_le_self _ _) earlier.lt⟩

/-- The sorted parameters of `list_recent_orders`. -/
def recentOrdersQuery (after : String) (cursor : Option String) : List (String × String) :=
  (match cursor with
    | none => ("after", after)
    | some id => ("after_order_id", id)) :: [("direction", "asc"), ("limit", "500"), ("status", "all")]

def listRecentOrders (since : UtcTimestamp) : Wire (List BrokerOrder) := do
  let after ← Prog.ofExcept (submittedAfter since)
  orderPages (recentOrdersQuery after.text) (fun o => decide (since ≤ o.updatedAt)) "orders" "order" maxPaginationPages
    none []

/-- The page limit of the fill list. -/
def fillPageSize : Nat := 100

/-- The loop over the pages of fills; `tokens` are the page tokens used so far. -/
def fillPages (brokerOrderId : String) : Nat → Option String → List String → List Fill → Wire (List Fill)
  | 0, _, _, _ => Prog.raise (transportError "Alpaca fill pagination exceeded the bounded page limit")
  | n + 1, token, tokens, fills => do
    if ∃ t ∈ token, t ∈ tokens then Prog.raise (transportError "Alpaca fill pagination cursor cycle detected")
    else
      let tokens := tokens ++ token.toList
      let payload ← getJson "/v2/account/activities/FILL" ([("direction", "asc"), ("order_id", brokerOrderId),
        ("page_size", "100")] ++ (token.map (("page_token", ·))).toList)
      let items ← Prog.ofExcept (itemsOf "Alpaca returned a non-list activities body" payload)
      let page ← Prog.ofExcept (items.mapM (parseFillActivity brokerOrderId))
      let fills := addNew Fill.executionId (fun _ => true) fills page
      if page.length < fillPageSize then return fills
      else if ∃ t ∈ page.getLast?.map Fill.executionId, t ∈ tokens then
        Prog.raise (transportError "Alpaca fill pagination cursor cycle detected")
      else fillPages brokerOrderId n (page.getLast?.map Fill.executionId) tokens fills

def listFills (brokerOrderId : String) : Wire (List Fill) := fillPages brokerOrderId maxPaginationPages none [] []

def listPositions : Wire (List PaperPosition) := do
  let items ← Prog.ofExcept (itemsOf "Alpaca returned a non-list positions body" (← getJson "/v2/positions" []))
  Prog.ofExcept (items.mapM parsePosition)

def getAsset (symbol : Symbol) : Wire (Option PaperAsset) := do
  match ← getJson ("/v2/assets/" ++ symbol.value) [] with
  | .null => return none
  | payload => return some (← Prog.ofExcept (parseAsset symbol payload))

/-! ### Submission -/

/-- `str(price.value)` -/
def priceText (p : Price) : String := toString (p.cents / 100) ++ "." ++ zeroPad 2 (p.cents % 100)

/-- The body of a submission. -/
def orderBody (intent : OrderIntent) : Json :=
  .obj [("client_order_id", .str intent.clientOrderId.value), ("symbol", .str intent.symbol.value),
    ("qty", .str (toString intent.quantity.value)), ("side", .str intent.side.lower), ("type", .str "limit"),
    ("time_in_force", .str "day"), ("limit_price", .str (priceText intent.limitPrice)), ("extended_hours", .bool false)]

/-- A character in lower case.  Besides the letters of ASCII two characters have a letter of ASCII in
their lower case. -/
def lowerChar (c : Char) : List Char :=
  if 'A' ≤ c ∧ c ≤ 'Z' then [Char.ofNat (c.toNat + 32)]
  else if c = Char.ofNat 0x130 then ['i', Char.ofNat 0x307]
  else if c = Char.ofNat 0x212a then ['k']
  else [c]

/-- `part in text` -/
def contains (part text : List Char) : Bool := text.tails.any (fun l => part.isPrefixOf l)

/-- `_is_duplicate_rejection` -/
def isDuplicateRejection (body : Json) : Bool :=
  match body with
  | .obj fields =>
    match fields.lookup "message" with
    | some (.str message) =>
      let lowered := message.toList.flatMap lowerChar
      (contains "client order id".toList lowered || contains "client_order_id".toList lowered) &&
        (contains "already".toList lowered || contains "duplicate".toList lowered || contains "exist".toList lowered)
    | _ => false
  | _ => false

/-- `_ALPACA_REJECTION_CODE_MAP` -/
def alpacaRejectionCodeMap : List (Int × RejectionReason) := [(42210000, .orderParametersRejected)]

/-- `_rejection` -/
def rejection (body : Json) : SubmitResult :=
  match body with
  | .obj fields =>
    match fields.lookup "code" with
    | some (.int code) => .rejected ((alpacaRejectionCodeMap.lookup code).getD .orderParametersRejected)
    | _ => .rejected .orderParametersRejected
  | _ => .rejected .orderParametersRejected

/-- `_resolve_duplicate` -/
def resolveDuplicate (intent : OrderIntent) : Wire SubmitResult := do
  let response ← request ⟨.get, "/v2/orders:by_client_order_id", [("client_order_id", intent.clientOrderId.value)], none⟩
  if response.status = 404 then
    Prog.raise (transportError ("broker rejected a duplicate client order id but the follow-up " ++
      "query found no order; submission outcome is unknown"))
  else if response.status ∈ timeoutStatusCodes then
    Prog.raise (transportError "Alpaca duplicate-resolution outcome is unknown")
  else if response.status / 100 ≠ 2 then
    Prog.raise (transportError "broker duplicate-resolution query failed; submission outcome is unknown")
  else
    let order ← Prog.ofExcept (brokerOrderFromPayload response.body)
    if order.clientOrderId ≠ intent.clientOrderId ∨ order.symbol ≠ intent.symbol ∨ order.side ≠ intent.side ∨
        order.quantity ≠ intent.quantity ∨ order.limitPrice ≠ intent.limitPrice then
      Prog.raise ⟨.brokerConflict, "broker holds a duplicate client order id with different parameters"⟩
    else pure (.accepted order)

def submitOrder (intent : OrderIntent) : Wire SubmitResult := do
  let response ← request ⟨.post, "/v2/orders", [], some (orderBody intent)⟩
  if response.status ∈ timeoutStatusCodes then Prog.raise (transportError "Alpaca submission outcome is unknown")
  else if response.status = 400 ∨ response.status = 422 then
    if isDuplicateRejection response.body then resolveDuplicate intent else pure (rejection response.body)
  else if response.status / 100 ≠ 2 then Prog.raise (transportError "Alpaca submission failed")
  else return .accepted (← Prog.ofExcept (brokerOrderFromPayload response.body))

def cancelOrder (brokerOrderId : String) : Wire Bool := do
  let response ← request ⟨.delete, "/v2/orders/" ++ brokerOrderId, [], none⟩
  if response.status = 404 then return false
  else if response.status / 100 ≠ 2 then Prog.raise (transportError "Alpaca order cancellation failed")
  else return true

end SevenLens.Alpaca
