/-
The broker: the order DTOs and a broker that keeps the `BrokerBase`
contract.

# What the platform sees

`place_order` answers with an id or raises; the reads answer from the
broker's own book. A call that raises may still have been accepted,
unless the exception is one of the three the contract calls definitive.

# What the broker keeps

`calls` is every `place_order` call it ever received, `reads` every
`get_order` call with its answer, and `log` every snapshot it ever
produced, newest first. All three only grow. An order's current state is
its newest snapshot, and `Advances` is what the broker may do to it:
nothing to a terminal order, and never fewer filled.
-/
import Mathlib.Data.List.Dedup
import Mathlib.Data.Rat.Defs
import AlgoPlatform.Model.Enums

namespace AlgoPlatform

-- ================================================================ DTOs

/-- Input to `place_order`, carrying what its validators check. -/
structure PlaceOrderRequest where
  exchange : Exchange
  tradingsymbol : String
  transactionType : TransactionType
  quantity : Nat
  product : ProductType
  orderType : OrderType
  tag : String
  quantity_pos : 0 < quantity
  tag_length : 1 ≤ tag.length ∧ tag.length ≤ 20
  deriving DecidableEq, Repr

/-- The constructor call: pydantic's `ValidationError` is a
`ValueError`. -/
def PlaceOrderRequest.validate (exchange : Exchange) (tradingsymbol : String)
    (transactionType : TransactionType) (quantity : Nat)
    (product : ProductType) (orderType : OrderType) (tag : String) :
    Except Exc PlaceOrderRequest :=
  if hq : 0 < quantity then
    if ht : 1 ≤ tag.length ∧ tag.length ≤ 20 then
      .ok { exchange, tradingsymbol, transactionType, quantity, product,
            orderType, tag, quantity_pos := hq, tag_length := ht }
    else .error (.value "tag")
  else .error (.value "quantity")

theorem PlaceOrderRequest.validate_ok {exchange : Exchange}
    {tradingsymbol : String} {transactionType : TransactionType}
    {quantity : Nat} {product : ProductType} {orderType : OrderType}
    {tag : String} {request : PlaceOrderRequest}
    (h : validate exchange tradingsymbol transactionType quantity product
      orderType tag = .ok request) :
    request.exchange = exchange ∧ request.tradingsymbol = tradingsymbol
      ∧ request.transactionType = transactionType
      ∧ request.quantity = quantity ∧ request.tag = tag := by
  unfold validate at h
  split_ifs at h
  cases h
  exact ⟨rfl, rfl, rfl, rfl, rfl⟩

/-- A point-in-time snapshot of one broker order. -/
structure BrokerOrder where
  brokerOrderId : String
  tag : Option String
  status : OrderStatus
  exchange : Exchange
  tradingsymbol : String
  transactionType : TransactionType
  product : ProductType
  orderType : OrderType
  quantity : Nat
  filledQuantity : Nat
  averagePrice : Option ℚ
  statusMessage : Option String
  quantity_pos : 0 < quantity
  filled_le : filledQuantity ≤ quantity
  deriving DecidableEq, Repr

/-- One row of the broker's live net-position feed. -/
structure BrokerPosition where
  tradingsymbol : String
  quantity : Int
  deriving DecidableEq, Repr

/-- What an option contract resolves to. -/
structure BrokerInstrument where
  exchange : Exchange
  tradingsymbol : String
  lotSize : Nat
  optionType : OptionType
  lotSize_pos : 0 < lotSize
  deriving DecidableEq, Repr

-- ============================================================ contract

/-- The exceptions after which an order may still have been accepted:
all but the two definitive rejections and the local rate limit. -/
def BrokerErrorKind.mayBeLive : BrokerErrorKind → Bool
  | .orderRejected | .invalidOrderRequest | .rateLimitExceeded => false
  | _ => true

/-- How the broker answers one `place_order` call. -/
inductive PlaceReply
  /-- Accepted under this id, and the ack came back. -/
  | ack (id : String)
  /-- Accepted under this id, but the call raised. -/
  | lost (id : String) (e : BrokerError)
  /-- Not accepted. -/
  | refuse (e : BrokerError)
  deriving DecidableEq, Repr

/-- One `place_order` call as the broker recorded it: the id it accepted
the order under, and the exception the call ended in. -/
structure PlaceCall where
  request : PlaceOrderRequest
  acceptedAs : Option String
  raised : Option BrokerError
  deriving DecidableEq, Repr

/-- One `get_order` call, and the snapshot it returned if it did not
raise. -/
structure ReadCall where
  brokerOrderId : String
  answer : Option BrokerOrder
  deriving DecidableEq, Repr

/-- The broker. -/
structure Broker where
  calls : List PlaceCall := []
  reads : List ReadCall := []
  log : List BrokerOrder := []
  /-- The ids of orders of an earlier day, gone from today's orderbook. -/
  earlier : List String := []
  deriving DecidableEq, Repr

/-- What the broker may do to an order: same order, not terminal yet,
and nothing unfilled again. -/
def BrokerOrder.Advances (cur new : BrokerOrder) : Prop :=
  new.brokerOrderId = cur.brokerOrderId ∧ new.tag = cur.tag
    ∧ new.transactionType = cur.transactionType
    ∧ new.tradingsymbol = cur.tradingsymbol
    ∧ new.quantity = cur.quantity ∧ cur.status.isTerminal = false
    ∧ cur.filledQuantity ≤ new.filledQuantity

instance (cur new : BrokerOrder) : Decidable (cur.Advances new) :=
  inferInstanceAs (Decidable (_ ∧ _))

/-- The first snapshot of an order just accepted. -/
def PlaceOrderRequest.accepted (request : PlaceOrderRequest) (id : String) :
    BrokerOrder where
  brokerOrderId := id
  tag := some request.tag
  status := .pending
  exchange := request.exchange
  tradingsymbol := request.tradingsymbol
  transactionType := request.transactionType
  product := request.product
  orderType := request.orderType
  quantity := request.quantity
  filledQuantity := 0
  averagePrice := none
  statusMessage := none
  quantity_pos := request.quantity_pos
  filled_le := Nat.zero_le _

namespace Broker

/-- An order's newest snapshot. -/
def current (b : Broker) (id : String) : Option BrokerOrder :=
  b.log.find? (·.brokerOrderId = id)

/-- An id no order of this broker has had. -/
def IsFresh (b : Broker) (id : String) : Prop :=
  id ≠ "" ∧ id ∉ b.earlier ∧ ∀ bo ∈ b.log, bo.brokerOrderId ≠ id

instance (b : Broker) (id : String) : Decidable (b.IsFresh id) :=
  inferInstanceAs (Decidable (_ ∧ _))

/-- The reply as the contract allows it: an accepted order has a fresh
id, and a call that lost its ack did not raise a definitive exception.
Anything else is read as an order that never arrived. -/
def lawful (b : Broker) : PlaceReply → PlaceReply
  | .ack id => if b.IsFresh id then .ack id else .refuse ⟨.timeout, ""⟩
  | .lost id e =>
      if b.IsFresh id ∧ e.kind.mayBeLive then .lost id e
      else .refuse ⟨.timeout, ""⟩
  | .refuse e => .refuse e

/-- Record an accepted order. -/
def accept (b : Broker) (request : PlaceOrderRequest) (id : String)
    (raised : Option BrokerError) : Broker :=
  { b with calls := b.calls ++ [⟨request, some id, raised⟩]
           log := request.accepted id :: b.log }

/-- `place_order`. -/
def placeOrder (b : Broker) (request : PlaceOrderRequest)
    (reply : PlaceReply) : Except Exc String × Broker :=
  match b.lawful reply with
  | .ack id => (.ok id, b.accept request id none)
  | .lost id e => (.error (.broker e), b.accept request id (some e))
  | .refuse e =>
      (.error (.broker e),
        { b with calls := b.calls ++ [⟨request, none, some e⟩] })

/-- The broker moves one of its orders on; anything that is not an
advance of a known order does not happen. -/
def works (b : Broker) (new : BrokerOrder) : Broker :=
  match b.current new.brokerOrderId with
  | some cur => if cur.Advances new then { b with log := new :: b.log } else b
  | none => b

/-- The trading day ends: every order so far leaves the orderbook. -/
def rollover (b : Broker) : Broker :=
  { b with earlier := b.log.map (·.brokerOrderId) }

/-- Today's orderbook, each order in its current state. -/
def orderbook (b : Broker) : List BrokerOrder :=
  ((b.log.map (·.brokerOrderId)).dedup.filter (· ∉ b.earlier)).filterMap
    b.current

/-- `get_orders`: today's full orderbook. -/
def getOrders (b : Broker) (read : Option BrokerError) :
    Except Exc (List BrokerOrder) :=
  match read with
  | some e => .error (.broker e)
  | none => .ok b.orderbook

/-- What `get_order` answers. -/
def lookup (b : Broker) (id : String) (read : Option BrokerError) :
    Except BrokerError BrokerOrder :=
  match read with
  | some e => .error e
  | none =>
      match b.current id with
      | some bo => .ok bo
      | none => .error ⟨.orderNotFound, id⟩

/-- `get_order`. -/
def getOrder (b : Broker) (id : String) (read : Option BrokerError) :
    Except Exc BrokerOrder × Broker :=
  match b.lookup id read with
  | .ok bo => (.ok bo, { b with reads := b.reads ++ [⟨id, some bo⟩] })
  | .error e => (.error (.broker e), { b with reads := b.reads ++ [⟨id, none⟩] })

/-- `find_order_by_tag`: one of today's orders carrying the tag, which
one being the broker's choice, or `None` if there is none. -/
def findOrderByTag (b : Broker) (tag : String) (pick : Nat)
    (read : Option BrokerError) : Except Exc (Option BrokerOrder) :=
  match read with
  | some e => .error (.broker e)
  | none =>
      let hits := b.orderbook.filter (·.tag = some tag)
      .ok hits[pick % hits.length]?

/-- Every order carrying a tag, of whatever day, in its current state. -/
def ordersTagged (b : Broker) (tag : String) : List BrokerOrder :=
  ((b.log.map (·.brokerOrderId)).dedup.filterMap b.current).filter
    (·.tag = some tag)

/-- The calls whose orders the broker accepted under a tag. -/
def acceptedUnder (b : Broker) (tag : String) : List PlaceCall :=
  b.calls.filter fun c => c.acceptedAs.isSome ∧ c.request.tag = tag

end Broker

end AlgoPlatform
