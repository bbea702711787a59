/-
What Kite's order book and position book become: `brokers/kite/mapper.py`
(`to_broker_order`, `to_broker_position` and their helpers) and the reads
of `KiteBroker` over them.

A row is a dict of the values kiteconnect decodes. `KiteText` is how the
language reads and prints numbers (`int`, `Decimal`, `str`); a text that
parses to no finite number reads as none, since the DTOs take none.
Instants are seconds since the epoch, and a naive time is already read as
the IST one it stands for. The raw response a DTO keeps is left out.
-/
import AlgoPlatform.Model.Broker
import Mathlib.Algebra.Order.Ring.Rat

namespace AlgoPlatform

/-- A value of a row. -/
inductive KiteValue
  | null
  | bool (b : Bool)
  | int (n : Int)
  | float (x : ℚ)
  | str (s : String)
  | datetime (instant : ℚ)
  deriving DecidableEq, Repr

/-- A row: its keys and their values. -/
abbrev KiteRow : Type := List (String × KiteValue)

/-- `int(text)`, `Decimal(text)` and `str(value)`. -/
structure KiteText where
  int : String → Option Int
  decimal : String → Option ℚ
  printed : KiteValue → String

/-- The texts a `KiteMappingError` carries. -/
inductive KiteMappingError
  | unmappableExchange (value : KiteValue)
  | notADecimal (value : KiteValue)
  | order
  | position
  deriving DecidableEq, Repr

/-- The exceptions of the mapper; a `KiteMappingError` is a
`BrokerError`. -/
inductive KiteExc
  | mapping (e : KiteMappingError)
  | key (name : String)
  | type
  | value
  | attribute
  deriving DecidableEq, Repr

namespace KiteRow

/-- `data.get(key)`. -/
def get (data : KiteRow) (key : String) : KiteValue :=
  (data.lookup key).getD .null

/-- `data[key]`. -/
def item (data : KiteRow) (key : String) : Except KiteExc KiteValue :=
  match data.lookup key with
  | some value => .ok value
  | none => .error (.key key)

end KiteRow

-- ============================================================= helpers

namespace KiteValue

/-- The truth of a value, as `or` reads it. -/
def truthy : KiteValue → Bool
  | .null => false
  | .bool b => b
  | .int n => n ≠ 0
  | .float x => x ≠ 0
  | .str s => s ≠ ""
  | .datetime _ => true

/-- `int(value)`. -/
def toInt (text : KiteText) : KiteValue → Except KiteExc Int
  | .bool b => .ok (if b then 1 else 0)
  | .int n => .ok n
  | .float x => .ok (x.num.tdiv x.den)
  | .str s =>
      match text.int s with
      | some n => .ok n
      | none => .error .value
  | .null | .datetime _ => .error .type

/-- `int(value or 0)`. -/
def count (text : KiteText) (value : KiteValue) : Except KiteExc Int :=
  if value.truthy then value.toInt text else .ok 0

/-- `_decimal`. -/
def decimal (text : KiteText) (value : KiteValue) :
    Except KiteExc (Option ℚ) :=
  match value with
  | .null => .ok none
  | .int n => .ok (some n)
  | .float x => .ok (some x)
  | .str s =>
      if s = "" then .ok none
      else
        match text.decimal s with
        | some x => .ok (some x)
        | none => .error (.mapping (.notADecimal value))
  | .bool _ | .datetime _ => .error (.mapping (.notADecimal value))

/-- `_decimal_or_zero`. -/
def decimalOrZero (text : KiteText) (value : KiteValue) : Except KiteExc ℚ := do
  let result ← value.decimal text
  pure (result.getD 0)

/-- `_price_or_none`: Kite's 0 is "no price yet". -/
def priceOrNone (text : KiteText) (value : KiteValue) :
    Except KiteExc (Option ℚ) := do
  let result ← value.decimal text
  pure (result.filter (· ≠ 0))

/-- `_localize`. -/
def localize : KiteValue → Option ℚ
  | .datetime instant => some instant
  | _ => none

/-- A text field of a DTO that may be left out: `value or None`, checked
to be a text. -/
def optionalText (value : KiteValue) : Except KiteExc (Option String) :=
  if value.truthy then
    match value with
    | .str s => .ok (some s)
    | _ => .error .value
  else .ok none

/-- A text field of a DTO. -/
def asText : KiteValue → Except KiteExc String
  | .str s => .ok s
  | _ => .error .value

end KiteValue

/-- `_EXCHANGE_FROM_KITE`. -/
def exchangeFromKite : List (KiteValue × Exchange) :=
  [(.str "NFO", .nfo), (.str "BFO", .bfo), (.str "NSE", .nse),
    (.str "BSE", .bse)]

/-- `from_kite_exchange`. -/
def fromKiteExchange (value : KiteValue) : Except KiteExc Exchange :=
  match exchangeFromKite.lookup value with
  | some exchange => .ok exchange
  | none => .error (.mapping (.unmappableExchange value))

/-- `_STATUS_FROM_KITE`. -/
def statusFromKite : List (String × OrderStatus) :=
  [("COMPLETE", .complete), ("REJECTED", .rejected),
    ("CANCELLED", .cancelled), ("OPEN", .open)]

/-- `from_kite_status`: only a text, or nothing, has an `upper`. -/
def fromKiteStatus (value : KiteValue) : Except KiteExc OrderStatus :=
  if value.truthy then
    match value with
    | .str s => .ok ((statusFromKite.lookup s.toUpper).getD .pending)
    | _ => .error .attribute
  else .ok .pending

/-- `_TRANSACTION_FROM_KITE`, with its default. -/
def fromKiteTransactionType (value : KiteValue) : TransactionType :=
  if value = .str "SELL" then .sell else .buy

/-- `from_kite_product`: what the platform does not trade is NORMAL. -/
def fromKiteProduct (value : KiteValue) : ProductType :=
  if value = .str "MIS" then .intraday else .normal

/-- `from_kite_order_type`. -/
def fromKiteOrderType (value : KiteValue) : OrderType :=
  if value = .str "MARKET" then .market else .limit

-- ================================================================ DTOs

/-- A `BrokerOrder` with the fields only Kite fills in. -/
structure KiteOrder where
  order : BrokerOrder
  triggerPrice : Option ℚ
  placedAt : Option ℚ
  filledAt : Option ℚ
  exchangeUpdatedAt : Option ℚ
  deriving DecidableEq, Repr

/-- A `BrokerPosition` in full. -/
structure KitePosition where
  exchange : Exchange
  tradingsymbol : String
  product : ProductType
  quantity : Int
  averagePrice : ℚ
  lastPrice : ℚ
  pnl : ℚ
  deriving DecidableEq, Repr

/-- What the other modules keep of it. -/
def KitePosition.toBrokerPosition (p : KitePosition) : BrokerPosition :=
  ⟨p.tradingsymbol, p.quantity⟩

/-- The body of `to_broker_order`. -/
def readOrder (text : KiteText) (data : KiteRow) :
    Except KiteExc KiteOrder := do
  let filled ← (data.get "filled_quantity").count text
  let quantity ← (data.get "quantity").count text
  let orderId ← data.item "order_id"
  let status ← fromKiteStatus (data.get "status")
  let exchange ← fromKiteExchange (← data.item "exchange")
  let tradingsymbol ← data.item "tradingsymbol"
  let averagePrice ← (data.get "average_price").priceOrNone text
  let triggerPrice ← (data.get "trigger_price").priceOrNone text
  -- the DTO checks its fields
  let tag ← (data.get "tag").optionalText
  let symbol ← tradingsymbol.asText
  let statusMessage ← (data.get "status_message").optionalText
  if h : 0 < quantity ∧ 0 ≤ filled ∧ filled ≤ quantity then
    pure {
      order := {
        brokerOrderId := text.printed orderId
        tag, status, exchange
        tradingsymbol := symbol
        transactionType := fromKiteTransactionType (data.get "transaction_type")
        product := fromKiteProduct (data.get "product")
        orderType := fromKiteOrderType (data.get "order_type")
        quantity := quantity.toNat
        filledQuantity := filled.toNat
        averagePrice, statusMessage
        quantity_pos := by omega
        filled_le := by omega }
      triggerPrice
      placedAt := (data.get "order_timestamp").localize
      filledAt := if 0 < filled then (data.get "exchange_timestamp").localize
        else none
      exchangeUpdatedAt := KiteValue.localize
        (if (data.get "exchange_update_timestamp").truthy then
          data.get "exchange_update_timestamp"
        else data.get "exchange_timestamp") }
  else throw .value

/-- The handlers of both mapping functions: a key, type or value error is
raised again as a mapping error, the others pass. -/
def remapped {α : Type} (e : KiteMappingError) (body : Except KiteExc α) :
    Except KiteExc α :=
  match body with
  | .error (.key _) | .error .type | .error .value => .error (.mapping e)
  | result => result

/-- `to_broker_order`. -/
def toBrokerOrder (text : KiteText) (data : KiteRow) :
    Except KiteExc KiteOrder := remapped .order (readOrder text data)

/-- The body of `to_broker_position`. -/
def readPosition (text : KiteText) (data : KiteRow) :
    Except KiteExc KitePosition := do
  let exchange ← fromKiteExchange (← data.item "exchange")
  let tradingsymbol ← data.item "tradingsymbol"
  let quantity ← (data.get "quantity").count text
  let averagePrice ← (data.get "average_price").decimalOrZero text
  let lastPrice ← (data.get "last_price").decimalOrZero text
  let pnl ← (data.get "pnl").decimalOrZero text
  pure { exchange, tradingsymbol := ← tradingsymbol.asText
         product := fromKiteProduct (data.get "product")
         quantity, averagePrice, lastPrice, pnl }

/-- `to_broker_position`. -/
def toBrokerPosition (text : KiteText) (data : KiteRow) :
    Except KiteExc KitePosition := remapped .position (readPosition text data)

-- =============================================================== broker

namespace KiteBroker

/-- `datetime.min` in UTC: where an order without a time is placed. -/
def minAware : ℚ := -62135596800

/-- `max` by the time of placing: of equals, the first. -/
def latest (first : KiteOrder) : List KiteOrder → KiteOrder
  | [] => first
  | o :: os =>
      if first.placedAt.getD minAware < o.placedAt.getD minAware then
        latest o os
      else latest first os

/-- `get_orders`, over the book `_read` fetched. -/
def getOrders (text : KiteText) (raw : List KiteRow) :
    Except KiteExc (List KiteOrder) := raw.mapM (toBrokerOrder text)

/-- `find_order_by_tag`. -/
def findOrderByTag (text : KiteText) (raw : List KiteRow) (tag : String) :
    Except KiteExc (Option KiteOrder) := do
  let orders ← getOrders text raw
  match orders.filter (·.order.tag = some tag) with
  | [] => pure none
  | o :: os => pure (some (latest o os))

/-- `get_positions`, over the `net` rows `_read` fetched. -/
def getPositions (text : KiteText) (net : List KiteRow) :
    Except KiteExc (List KitePosition) := net.mapM (toBrokerPosition text)

end KiteBroker

end AlgoPlatform
