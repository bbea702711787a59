/-
The two writers of an order row that follow the broker: the push path
(`OrderUpdateProcessor.process`) and the poll path
(`reconcile_order_terminal`), over the one decision they share
(`services/order_update_processor.py`).
-/
import AlgoPlatform.Model.Broker
import AlgoPlatform.Model.Repositories

open Basis Basis.Session

namespace AlgoPlatform

inductive OrderUpdateOutcome
  | appliedFill | appliedPartialFill | appliedRejection | appliedCancellation
  | noChange | alreadyTerminal | notFound | conflict
  deriving DecidableEq, Repr

/-- The error text of a rejection: the broker's own, if it gave one. -/
def rejectionMessage (bo : BrokerOrder) : String :=
  match bo.statusMessage with
  | some message => if message = "" then "broker " ++ bo.status.lowered else message
  | none => "broker " ++ bo.status.lowered

/-- `price or fallback`: Python takes a zero price for a missing one. -/
def priceOr (price : Option ℚ) (fallback : ℚ) : ℚ :=
  match price with
  | some p => if p = 0 then fallback else p
  | none => fallback

/-- Learn the broker order id of a row created before its ack. -/
def learnBrokerOrderId (id : Nat) (order : Order) (bo : BrokerOrder) :
    Session Unit :=
  if order.brokerOrderId = none ∧ bo.brokerOrderId ≠ "" then
    flush (·.setOrder id fun o =>
      { o with brokerOrderId := some bo.brokerOrderId })
  else pure ()

/-- The single decision on how a broker snapshot applies to an order
row: terminal rows are left alone, and an open row only advances. -/
def applyBrokerOrderUpdate (id : Nat) (order : Order) (bo : BrokerOrder) :
    Session OrderUpdateOutcome := do
  if order.status.isTerminal then
    pure .alreadyTerminal
  else
    learnBrokerOrderId id order bo
    match bo.status with
    | .complete =>
        OrderRepository.recordFill id .complete bo.filledQuantity
          (priceOr bo.averagePrice 0)
        pure .appliedFill
    | .rejected | .error =>
        OrderRepository.recordRejection id (rejectionMessage bo)
        pure .appliedRejection
    | .cancelled =>
        OrderRepository.recordCancellation id
        pure .appliedCancellation
    | .pending | .open =>
        if order.filledQuantity < bo.filledQuantity then
          OrderRepository.recordFill id .open bo.filledQuantity
            (priceOr bo.averagePrice (priceOr order.averagePrice 0))
          pure .appliedPartialFill
        else
          pure .noChange

namespace OrderUpdateProcessor

/-- The row an update refers to: by broker order id first, then by the
tag stamped at placement. -/
def locate (bo : BrokerOrder) : Session (Option (Nat × Order)) := do
  let byId ← if bo.brokerOrderId = "" then pure none
    else OrderRepository.getByBrokerOrderId bo.brokerOrderId
  match byId with
  | some row => pure (some row)
  | none =>
      match bo.tag with
      | some tag =>
          if tag = "" then pure none else OrderRepository.getByBrokerTag tag
      | none => pure none

/-- The body of `process`'s unit of work. -/
def update (bo : BrokerOrder) : Session OrderUpdateOutcome := do
  match ← locate bo with
  | some (id, order) => applyBrokerOrderUpdate id order bo
  | none => pure .notFound

/-- Apply one pushed update. It never raises: whatever goes wrong is
rolled back and reported as a conflict. -/
def process (bo : BrokerOrder) (db : Db) : OrderUpdateOutcome × Db :=
  match update bo db with
  | .ok (outcome, db') => (outcome, db')
  | .error _ => (.conflict, db)

end OrderUpdateProcessor

/-- The body of `reconcile_order_terminal`'s unit of work. -/
def reconcileTerminal (brokerOrderId : String) (bo : BrokerOrder) :
    Session Unit := do
  match ← OrderRepository.getByBrokerOrderId brokerOrderId with
  | some (id, order) => discard (applyBrokerOrderUpdate id order bo)
  | none => pure ()

end AlgoPlatform
