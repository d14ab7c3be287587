import SevenLens.Alpaca.Timestamps
import SevenLens.Analysis.Decimals
import SevenLens.Library.DecimalText
import SevenLens.Ports

/-! # Broker payloads

The payloads of the Paper REST API and the domain values they are read as.  Every field is checked on
the wire first, where a bad one raises `BrokerTransportError`; the constructors of the domain check it
again, against a narrower grammar and with exceptions of their own. -/

namespace SevenLens.Alpaca

open MarketData

/-! ### Fields -/

/-- `_required_text` -/
def requiredText (payload : Json) (field : String) : Except PyError String :=
  match payload with
  | .obj fields =>
    match fields.lookup field with
    | some (.str s) =>
      if isBlank s then .error (transportError ("Alpaca payload field " ++ field ++ " must be text")) else .ok s
    | _ => .error (transportError ("Alpaca payload field " ++ field ++ " must be text"))
  | _ => .error (transportError "Alpaca payload must be an object")

/-- The most digits that `int` reads from a text. -/
def maxIntDigits : Nat := 4300

/-- `int(value)` of a text of decimal digits. -/
def intOfText (value : String) : Except PyError Nat :=
  if maxIntDigits < value.length then
    .error ⟨.valueError, "Exceeds the limit (4300 digits) for integer string conversion: value has " ++
      toString value.length ++ " digits; use sys.set_int_max_str_digits() to increase the limit"⟩
  else .ok (number value.toList)

/-- `_positive_int` -/
def positiveInt (payload : Json) (field : String) : Except PyError OrderQuantity := do
  let value ← requiredText payload field
  let refused := transportError ("Alpaca payload field " ++ field ++ " must be a positive integer")
  if value.toList.all isDecimal then
    let n ← intOfText value
    if h : 1 ≤ n then .ok ⟨n, h⟩ else .error refused
  else .error refused

/-- `_non_negative_int`; an empty text has been refused by `_required_text`. -/
def nonNegativeInt (payload : Json) (field : String) : Except PyError Nat := do
  let value ← requiredText payload field
  if value.toList.all isDecimal then intOfText value
  else .error (transportError ("Alpaca payload field " ++ field ++ " must be an integer"))

/-- The digits that the context of `quantize` keeps. -/
def contextDigits : Nat := 28

/-- `_two_decimal_decimal`: the number with two decimal places, when that changes nothing.  The callers
turn every exception into their own. -/
def twoDecimalDecimal (value : String) : Option Decimal := do
  let amount ← Decimal.readFinite decimalValue isSpace value.toList
  let quantized : Decimal := ⟨amount.negative, Analysis.coefficientAt 2 amount, -2⟩
  if quantized.coefficient < 10 ^ contextDigits ∧ quantized.value = amount.value then some quantized else none

/-- `_price` -/
def price (payload : Json) (field : String) : Except PyError Price := do
  let value ← requiredText payload field
  let refused := transportError ("Alpaca payload field " ++ field ++ " is not a price")
  match twoDecimalDecimal value with
  | none => .error refused
  | some d =>
    if h : 1 ≤ d.coefficient ∧ d.coefficient ≤ 1000000000 then
      if d.negative then .error refused else .ok ⟨d.coefficient, h⟩
    else .error refused

/-- `_usd`; the amount `-0.00` is zero. -/
def usd (payload : Json) (field : String) : Except PyError UsdAmount := do
  let value ← requiredText payload field
  let refused := transportError ("Alpaca payload field " ++ field ++ " is not an amount")
  match twoDecimalDecimal value with
  | none => .error refused
  | some d =>
    if h : d.coefficient ≤ 1000000000000 then
      if d.negative ∧ d.coefficient ≠ 0 then .error refused else .ok ⟨d.coefficient, h⟩
    else .error refused

/-! ### Domain constructors -/

/-- `Symbol(value)` -/
def symbolOfText (value : String) : Except PyError Symbol :=
  if h : symbolPattern.fullmatch value = true then .ok ⟨value, h⟩
  else .error ⟨.valueError, "symbol must be uppercase letters, digits, '.' or '-' (max 10)"⟩

/-- A character in upper case.  Besides the letters of ASCII only the long s has an upper case in
`BUY` and `SELL`, and no character has two of their letters for an upper case. -/
def upperChar (c : Char) : Char :=
  if 'a' ≤ c ∧ c ≤ 'z' then Char.ofNat (c.toNat - 32) else if c = Char.ofNat 0x17f then 'S' else c

/-- `OrderSide(value.upper())` -/
def sideOfText (value : String) : Except PyError OrderSide :=
  let upper := String.ofList (value.toList.map upperChar)
  if upper = "BUY" then .ok .buy
  else if upper = "SELL" then .ok .sell
  else .error ⟨.valueError, "'" ++ upper ++ "' is not a valid OrderSide"⟩

/-- `_map_order_status` -/
def mapOrderStatus (status : String) : Except PyError BrokerOrderStatus :=
  match status with
  | "new" | "pending_new" => .ok .received
  | "accepted" => .ok .accepted
  | "accepted_for_bidding" => .ok .acceptedForBidding
  | "partially_filled" => .ok .partiallyFilled
  | "filled" => .ok .filled
  | "done_for_day" => .ok .doneForDay
  | "canceled" | "cancelled" => .ok .canceled
  | "expired" => .ok .expired
  | "rejected" => .ok .rejected
  | "pending_cancel" => .ok .pendingCancel
  | "pending_replace" => .ok .pendingReplace
  | "replaced" => .ok .replaced
  | "stopped" => .ok .stopped
  | "suspended" => .ok .suspended
  | "calculated" => .ok .calculated
  | _ => .error (transportError "Alpaca returned an undocumented order status")

/-- `_map_asset_class` -/
def mapAssetClass (value : Json) : Except PyError AssetClass :=
  match value with
  | .str "us_equity" => .ok .usEquity
  | .str "us_option" => .ok .usOption
  | .str "crypto" => .ok .crypto
  | .str "future" => .ok .future
  | .str _ => .error (transportError "Alpaca asset payload field class is not documented")
  | _ => .error (transportError "Alpaca asset payload field class must be text")

/-! ### Payloads -/

/-- `_broker_order_from_payload` -/
def brokerOrderFromPayload (payload : Json) : Except PyError BrokerOrder :=
  match payload with
  | .obj _ => do
    let status ← mapOrderStatus (← requiredText payload "status")
    let submittedAt ← requiredText payload "submitted_at"
    let filled ← nonNegativeInt payload "filled_qty"
    let quantity ← positiveInt payload "qty"
    if hfilled : filled ≤ quantity.value then
      if status = .filled ∧ filled ≠ quantity.value then
        .error (transportError "Alpaca filled order must carry the full order quantity")
      else
        let id ← requiredText payload "id"
        let clientOrderId ← ClientOrderId.ofText (← requiredText payload "client_order_id")
        let symbol ← symbolOfText (← requiredText payload "symbol")
        let side ← sideOfText (← requiredText payload "side")
        let limitPrice ← price payload "limit_price"
        let submitted ← readTimestamp submittedAt
        let updated ← readTimestamp (← requiredText payload "updated_at")
        if hid : IsIdText 100 id then
          .ok ⟨id, clientOrderId, symbol, side, quantity, filled, limitPrice, status, submitted, updated, hid, hfilled⟩
        else .error ⟨.valueError, "broker_order_id must be non-empty text up to 100 characters"⟩
    else .error (transportError "Alpaca filled quantity exceeds the order quantity")
  | _ => .error (transportError "Alpaca order payload must be an object")

/-- `_parse_fill_activity` -/
def parseFillActivity (expectedBrokerOrderId : String) (item : Json) : Except PyError Fill := do
  let brokerOrderId ← requiredText item "order_id"
  if brokerOrderId ≠ expectedBrokerOrderId then
    .error (transportError "Alpaca fill activity order_id does not match the requested broker order")
  else
    let id ← requiredText item "id"
    let quantity ← positiveInt item "qty"
    let price ← price item "price"
    let occurredAt ← readTimestamp (← requiredText item "transaction_time")
    if hid : IsIdText 100 id then
      if hb : IsIdText 100 brokerOrderId then .ok ⟨id, brokerOrderId, quantity, price, occurredAt, hid, hb⟩
      else .error ⟨.valueError, "broker_order_id must be non-empty text up to 100 characters"⟩
    else .error ⟨.valueError, "execution_id must be non-empty text up to 100 characters"⟩

/-- One entry of `list_positions`. -/
def parsePosition (item : Json) : Except PyError PaperPosition := do
  let symbol ← symbolOfText (← requiredText item "symbol")
  let quantity ← positiveInt item "qty"
  let averageEntryPrice ← price item "avg_entry_price"
  return ⟨symbol, quantity.value, averageEntryPrice, quantity.pos⟩

/-- The account payload. -/
def parseAccount (payload : Json) : Except PyError PaperAccount := do
  let accountId ← requiredText payload "account_number"
  let cash ← usd payload "cash"
  let equity ← usd payload "equity"
  let buyingPower ← usd payload "buying_power"
  if h : IsBoundedText 100 accountId then .ok ⟨accountId, .paper, cash, equity, buyingPower, h⟩
  else .error ⟨.valueError, "account_id must be non-empty text up to 100 characters"⟩

/-- The asset payload. -/
def parseAsset (symbol : Symbol) (payload : Json) : Except PyError PaperAsset :=
  match payload with
  | .obj fields =>
    match fields.lookup "tradable" with
    | some (.bool tradable) => do
      let status ← requiredText payload "status"
      if status ≠ "active" ∧ status ≠ "inactive" then
        .error (transportError "Alpaca asset payload field status is not documented")
      else
        let assetClass ← mapAssetClass ((fields.lookup "class").getD .null)
        let exchange ← requiredText payload "exchange"
        if IsIdText 20 exchange then
          .ok ⟨symbol, assetClass, if status = "active" then .active else .inactive, tradable⟩
        else .error ⟨.valueError, "asset exchange must be bounded text"⟩
    | _ => .error (transportError "Alpaca asset payload field tradable must be a boolean")
  | _ => .error (transportError "Alpaca asset payload must be an object")

end SevenLens.Alpaca
