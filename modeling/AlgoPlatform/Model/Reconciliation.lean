/-
The startup reconciliation: resolve what the database does not know
against the broker (`services/reconciliation_engine.py`).

`reconcile` reads today's orderbook once, resolves every in-doubt intent
against the orders carrying its tag (one unit of work each), flags
orders no intent accounts for, and then decides every unfinished
position from its trades' statuses alone.
-/
import AlgoPlatform.Model.Bookkeeping
import AlgoPlatform.Model.Context

open Basis

namespace AlgoPlatform

inductive ReconciliationOutcome
  | brokerUnavailable
  | consistentNoAction | intentFailedNotAtBroker | fillRecorded
  | partialFillRecorded | rejectionRecorded | orderStillInFlight
  | orderRowCreated | duplicateOrdersDetected | orphanOrderDetected
  | entryFinalized | exitFinalized | entryAbortedNoFills | positionErrored
  | needsFinalizationNoReconciler | exitPendingLeftForRecovery
  deriving DecidableEq, Repr

/-- What an item of the report is about. -/
inductive Subject
  | broker
  | intent (id : Nat)
  | brokerTag (tag : String)
  | position (id : Nat)
  deriving DecidableEq, Repr

structure ReconciliationItem where
  subject : Subject
  outcome : ReconciliationOutcome
  detail : String
  breakRecorded : Bool := false
  deriving DecidableEq, Repr

/-- The strategy-specific seam: finish an entry or exit whose legs are
all resolved, inside the session the engine passes. -/
structure PositionReconciler where
  finalizeEntry : Nat → Session Unit
  finalizeExit : Nat → Session Unit

/-- `_group_orders_by_tag`: a dict in order of first appearance. -/
def groupOrdersByTag (orders : List BrokerOrder) :
    List (String × List BrokerOrder) :=
  let tags := (orders.filterMap (·.tag)).filter (· ≠ "")
  tags.reverse.dedup.reverse.map fun tag =>
    (tag, orders.filter (·.tag = some tag))

/-- `orders_by_tag.get(tag, [])`. -/
def ordersUnder (ordersByTag : List (String × List BrokerOrder))
    (tag : String) : List BrokerOrder :=
  (ordersByTag.lookup tag).getD []

namespace ReconciliationEngine

-- ============================================================= helpers

/-- A position to ERROR by recovery, and its instance FROZEN. -/
def errorByRecovery (positionId strategyInstanceId : Nat) (reason : String) :
    Session Unit := do
  PositionRepository.update positionId fun p =>
    { p with errorMessage := some reason, needsReconciliation := true }
  PositionRepository.transitionState positionId .error .recovery (some reason)
  Bookkeeping.freezeInstance strategyInstanceId

/-- `_error_position`. -/
def errorPosition (positionId : Nat) (position : Position)
    (breakType : ReconciliationBreakType) (name reason : String) :
    Session ReconciliationItem := do
  errorByRecovery positionId position.strategyInstanceId reason
  ReconciliationBreakRepository.create breakType (some positionId) none none
  pure { subject := .position positionId, outcome := .positionErrored,
         detail := name ++ ": " ++ reason, breakRecorded := true }

/-- `_error_position_of_intent`. -/
def errorPositionOfIntent (intent : OrderIntent) (reason : String) :
    Session Unit := do
  match ← PositionRepository.getTradeById intent.tradeId with
  | none => pure ()
  | some trade =>
      match ← PositionRepository.getById trade.positionId with
      | none => pure ()
      | some position =>
          if position.state = .closed ∨ position.state = .error then pure ()
          else errorByRecovery trade.positionId position.strategyInstanceId reason

-- ============================================================= intents

/-- The trade columns a fill of an intent's order writes. -/
def fillTrade (purpose : OrderPurpose) (price : ℚ) (t : Trade) : Trade :=
  match purpose with
  | .entry =>
      { t with entryPrice := some price,
               status := if t.status = .pending then .open else t.status }
  | .exit =>
      { t with exitPrice := some price,
               status := if t.status = .open then .closed else t.status }

/-- `_apply_fill`: the fill on the order row and on the trade, and the
intent CONFIRMED. -/
def applyFill (intentId : Nat) (intent : OrderIntent) (orderId : Nat)
    (order : Order) (bo : BrokerOrder) : Session Unit := do
  let price := priceOr bo.averagePrice (priceOr order.averagePrice 0)
  OrderRepository.recordFill orderId .complete bo.filledQuantity price
  PositionRepository.updateTradeIfAny intent.tradeId fun money =>
    fillTrade intent.purpose (money price)
  OrderIntentRepository.markPlaced intentId
  OrderIntentRepository.markConfirmed intentId

/-- The order row an intent's broker order belongs to, found by id, then
by tag, else created; and whether it was created. -/
def orderRow (intentId : Nat) (intent : OrderIntent) (bo : BrokerOrder) :
    Session ((Nat × Order) × Bool) := do
  match ← OrderRepository.getByBrokerOrderId bo.brokerOrderId with
  | some row => pure (row, false)
  | none =>
      match ← OrderRepository.getByBrokerTag intent.brokerTag with
      | some row => pure (row, false)
      | none => do
          let orderId ← OrderRepository.create intent.tradeId (some intentId)
            intent.purpose intent.transactionType .market intent.quantity
            (some intent.brokerTag)
          let order ← OrderRepository.getByIdOrRaise orderId
          pure ((orderId, order), true)

/-- Record the broker's order id on a row that has none. -/
def acknowledge (orderId : Nat) (order : Order) (bo : BrokerOrder) :
    Session Unit :=
  if order.brokerOrderId = none then
    OrderRepository.markAcknowledged orderId bo.brokerOrderId
  else pure ()

/-- `_resolve_intent_against_order`. -/
def resolveIntentAgainstOrder (intentId : Nat) (intent : OrderIntent)
    (bo : BrokerOrder) : Session ReconciliationItem := do
  let ((orderId, order), created) ← orderRow intentId intent bo
  acknowledge orderId order bo
  match bo.status with
  | .complete => do
      applyFill intentId intent orderId order bo
      if bo.filledQuantity ≠ intent.quantity then do
        ReconciliationBreakRepository.create .quantityMismatch none
          (some orderId) (some intentId)
        pure { subject := .intent intentId, outcome := .partialFillRecorded,
               detail := "partial fill " ++ toString bo.filledQuantity ++ "/"
                 ++ toString intent.quantity ++ " @ "
                 ++ renderAmount bo.averagePrice,
               breakRecorded := true }
      else
        pure { subject := .intent intentId, outcome := .fillRecorded,
               detail := "fill recorded (" ++ toString bo.filledQuantity
                 ++ " @ " ++ renderAmount bo.averagePrice ++ ")" }
  | .rejected | .cancelled | .error =>
      if 0 < bo.filledQuantity then do
        applyFill intentId intent orderId order bo
        ReconciliationBreakRepository.create .quantityMismatch none
          (some orderId) (some intentId)
        pure { subject := .intent intentId, outcome := .partialFillRecorded,
               detail := bo.status.value ++ " after partial fill of "
                 ++ toString bo.filledQuantity,
               breakRecorded := true }
      else do
        OrderRepository.recordRejection orderId (rejectionText bo)
        OrderIntentRepository.markFailed intentId
        pure { subject := .intent intentId, outcome := .rejectionRecorded,
               detail := "broker order terminal " ++ bo.status.value
                 ++ ", no fill; intent FAILED" }
  | .pending | .open =>
      if created then
        pure { subject := .intent intentId, outcome := .orderRowCreated,
               detail := "created missing order row; broker order still "
                 ++ bo.status.value }
      else
        pure { subject := .intent intentId, outcome := .orderStillInFlight,
               detail := "broker order still " ++ bo.status.value }
where
  rejectionText (bo : BrokerOrder) : String :=
    match bo.statusMessage with
    | some message => if message = "" then bo.status.value else message
    | none => bo.status.value

/-- The session of `_reconcile_one_intent`. -/
def intentSession (intentId : Nat)
    (ordersByTag : List (String × List BrokerOrder)) :
    Session ReconciliationItem := do
  match ← OrderIntentRepository.getById intentId with
  | none =>
      pure { subject := .intent intentId, outcome := .consistentNoAction,
             detail := "intent vanished between scan and resolve" }
  | some intent =>
      if intent.status.isInDoubt then
        match ordersUnder ordersByTag intent.brokerTag with
        | [] => do
            OrderIntentRepository.markFailed intentId
            pure { subject := .intent intentId,
                   outcome := .intentFailedNotAtBroker,
                   detail := "no broker order carries tag " ++ intent.brokerTag
                     ++ "; marked FAILED" }
        | [bo] => resolveIntentAgainstOrder intentId intent bo
        | bos => do
            ReconciliationBreakRepository.create .quantityMismatch none none
              (some intentId)
            errorPositionOfIntent intent "duplicate broker orders under one tag"
            pure { subject := .intent intentId,
                   outcome := .duplicateOrdersDetected,
                   detail := toString bos.length ++ " broker orders share tag "
                     ++ intent.brokerTag,
                   breakRecorded := true }
      else
        pure { subject := .intent intentId, outcome := .consistentNoAction,
               detail := "already resolved (status=" ++ intent.status.value ++ ")" }

/-- `_reconcile_one_intent`. -/
def reconcileOneIntent (ordersByTag : List (String × List BrokerOrder))
    (intentId : Nat) : Program ReconciliationItem :=
  Program.unitOfWork fun _ => intentSession intentId ordersByTag

-- ============================================================= orphans

/-- The session of `_detect_orphans_and_duplicates`: a break for every
tag no intent accounts for. -/
def orphanSession : List (String × List BrokerOrder) →
    Session (List ReconciliationItem)
  | [] => pure []
  | (tag, orders) :: rest => do
      match ← OrderIntentRepository.getByBrokerTag tag with
      | some _ => orphanSession rest
      | none => do
          ReconciliationBreakRepository.create .orphanFill none none none
          let items ← orphanSession rest
          pure ({ subject := .brokerTag tag, outcome := .orphanOrderDetected,
                  detail := toString orders.length
                    ++ " broker order(s) under unrecognized tag " ++ tag,
                  breakRecorded := true } :: items)

-- =========================================================== positions

variable (reconciler : Option PositionReconciler)

/-- Finalization: through the reconciler if one is injected, else a break
and the position flagged. -/
def finalize (positionId : Nat)
    (seam : PositionReconciler → Nat → Session Unit)
    (outcome : ReconciliationOutcome) (detail missing : String) :
    Session ReconciliationItem := do
  match reconciler with
  | none => do
      ReconciliationBreakRepository.create .other (some positionId) none none
      PositionRepository.update positionId fun p =>
        { p with needsReconciliation := true }
      pure { subject := .position positionId,
             outcome := .needsFinalizationNoReconciler, detail := missing,
             breakRecorded := true }
  | some reconciler => do
      seam reconciler positionId
      pure { subject := .position positionId, outcome, detail }

def entryUnfinalized : String :=
  "entry fully filled but no reconciler injected to finalize"

def exitUnfinalized : String :=
  "exit fully closed but no reconciler injected to finalize"

/-- `_finalize_entry`. -/
def finalizeEntry (positionId : Nat) : Session ReconciliationItem :=
  finalize reconciler positionId (·.finalizeEntry) .entryFinalized
    "all legs filled; entry finalized to OPEN" entryUnfinalized

/-- `_finalize_exit`. -/
def finalizeExit (positionId : Nat) : Session ReconciliationItem :=
  finalize reconciler positionId (·.finalizeExit) .exitFinalized
    "all legs closed; exit finalized to CLOSED" exitUnfinalized

/-- The trades of a status. -/
def withStatus (status : TradeLegStatus) (trades : List (Nat × Trade)) :
    List (Nat × Trade) :=
  trades.filter (·.2.status = status)

/-- `_reconcile_entry_pending`. -/
def reconcileEntryPending (positionId : Nat) (position : Position)
    (trades : List (Nat × Trade)) : Session ReconciliationItem := do
  let filled := withStatus .open trades
  let unfilled := withStatus .pending trades
  if filled ≠ [] ∧ unfilled = [] then
    finalizeEntry reconciler positionId
  else if filled = [] then do
    PositionRepository.transitionState positionId .closed .recovery
      (some "reconciliation: entry never filled at broker; no exposure opened")
    pure { subject := .position positionId, outcome := .entryAbortedNoFills,
           detail := "no leg filled; aborted to CLOSED" }
  else
    errorPosition positionId position .partialEntry "PARTIAL_ENTRY"
      ("partial entry: " ++ toString filled.length ++ "/"
        ++ toString trades.length ++ " legs filled -- naked exposure")

/-- `_reconcile_exit_pending`. -/
def reconcileExitPending (positionId : Nat) (position : Position)
    (trades : List (Nat × Trade)) : Session ReconciliationItem := do
  let closed := withStatus .closed trades
  let openLegs := withStatus .open trades
  if closed ≠ [] ∧ openLegs = [] then
    finalizeExit reconciler positionId
  else if closed ≠ [] then
    errorPosition positionId position .other "OTHER"
      ("partial exit: " ++ toString openLegs.length ++ "/"
        ++ toString trades.length ++ " legs still open")
  else
    pure { subject := .position positionId,
           outcome := .exitPendingLeftForRecovery,
           detail := "exit pending, not yet completed ("
             ++ toString openLegs.length ++ "/" ++ toString trades.length
             ++ " legs still open); left for strategy-level recovery" }

/-- `_reconcile_open`. -/
def reconcileOpen (positionId : Nat) (position : Position)
    (trades : List (Nat × Trade)) (liveSymbols : Option (List String)) :
    Session ReconciliationItem := do
  match liveSymbols with
  | none =>
      pure { subject := .position positionId, outcome := .consistentNoAction,
             detail := "OPEN; broker positions unavailable, "
               ++ "no broker-flat check performed" }
  | some live =>
      let expected := (withStatus .open trades).map (·.2.tradingSymbol)
      let missing := (expected.filter (· ∉ live)).dedup
      if missing ≠ [] then
        errorPosition positionId position .brokerFlatDbOpen
          "BROKER_FLAT_DB_OPEN"
          ("DB OPEN but broker flat for "
            ++ String.intercalate ", " (missing.mergeSort (· ≤ ·)))
      else
        pure { subject := .position positionId, outcome := .consistentNoAction,
               detail := "OPEN and consistent with broker positions" }

/-- The session of `_reconcile_one_position`. -/
def positionSession (positionId : Nat) (liveSymbols : Option (List String))
    (scan : List Nat) : Session ReconciliationItem := do
  match ← PositionRepository.getById positionId with
  | none => pure gone
  | some position =>
      if position.state = .closed ∨ position.state = .error then pure gone
      else do
        let trades ← PositionRepository.listTradesForPosition scan positionId
        match position.state with
        | .entryPending =>
            reconcileEntryPending reconciler positionId position trades
        | .exitPending =>
            reconcileExitPending reconciler positionId position trades
        | _ => reconcileOpen positionId position trades liveSymbols
where
  gone : ReconciliationItem :=
    { subject := .position positionId, outcome := .consistentNoAction,
      detail := "already terminal or gone" }

/-- `_reconcile_one_position`. -/
def reconcileOnePosition (liveSymbols : Option (List String))
    (positionId : Nat) : Program ReconciliationItem :=
  Program.unitOfWork fun scan =>
    positionSession reconciler positionId liveSymbols scan

-- ================================================================= run

/-- One item per subject, in order. -/
def each (f : Nat → Program ReconciliationItem) :
    List Nat → Program (List ReconciliationItem)
  | [] => pure []
  | id :: ids => do
      let item ← f id
      let items ← each f ids
      pure (item :: items)

/-- The positions `_reconcile_positions` examines: ERROR ones await a
human. -/
def unfinishedPositions (scan : List Nat) : Session (List Nat) := do
  let ids ← PositionRepository.listNonTerminal scan
  Basis.Session.fetch fun r =>
    ids.filter fun id => (r.positions[id]?).any (·.state ≠ .error)

/-- The symbols the broker holds a net position in. -/
def liveSymbols (positions : Except BrokerError (List BrokerPosition)) :
    Option (List String) :=
  match positions with
  | .ok positions =>
      some ((positions.filter (·.quantity ≠ 0)).map (·.tradingsymbol))
  | .error _ => none

/-- `reconcile`: a full pass. -/
def reconcile : Program (List ReconciliationItem) := do
  match ← Program.tryBroker Program.getOrders with
  | .error e =>
      pure [{ subject := .broker, outcome := .brokerUnavailable,
              detail := "could not fetch broker orderbook: " ++ e.message }]
  | .ok orders => do
      let positions ← Program.tryBroker Program.getPositions
      let ordersByTag := groupOrdersByTag orders
      let intentIds ← Program.unitOfWork OrderIntentRepository.listInDoubt
      let intentItems ← each (reconcileOneIntent ordersByTag) intentIds
      let orphanItems ← Program.unitOfWork fun _ => orphanSession ordersByTag
      let positionIds ← Program.unitOfWork unfinishedPositions
      let positionItems ←
        each (reconcileOnePosition reconciler (liveSymbols positions)) positionIds
      pure (intentItems ++ orphanItems ++ positionItems)

end ReconciliationEngine

end AlgoPlatform
