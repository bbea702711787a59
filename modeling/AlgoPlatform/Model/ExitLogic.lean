/-
The exit: close one straddle (`strategy_1/exit_logic.py`).

`exit` validates the state and commits the durable exit record, closes
each leg by a BUY, and finalizes. A re-run resumes: a leg already CLOSED
is left alone, and a leg whose intent was started is looked up by tag
before anything is placed again.
-/
import AlgoPlatform.Model.Bookkeeping
import AlgoPlatform.Model.Context
import AlgoPlatform.Model.Premium

open Basis

namespace AlgoPlatform

inductive ExitOutcome
  | exited | skippedAlreadyClosed | skippedExitInProgress | notOpen
  | partialExitError | ambiguousError | persistenceDivergence
  deriving DecidableEq, Repr

structure ExitResult where
  outcome : ExitOutcome
  message : String
  positionId : Option Nat := none
  realizedPnl : Option ℚ := none
  deriving DecidableEq, Repr

/-- `_LegCloseOutcome`. -/
inductive LegCloseOutcome
  | closed
  /-- Could not be closed: rejected, or retries exhausted. -/
  | failed
  /-- A close order may or may not have executed. -/
  | ambiguous
  deriving DecidableEq, Repr

def LegCloseOutcome.value : LegCloseOutcome → String
  | .closed => "CLOSED"
  | .failed => "FAILED"
  | .ambiguous => "AMBIGUOUS"

/-- `_LegCloseResult`. -/
structure LegCloseResult where
  outcome : LegCloseOutcome
  reason : String
  exitPrice : Option ℚ := none
  deriving DecidableEq, Repr

/-- `_ExitLegIds`. -/
structure ExitLegIds where
  tradeId : Nat
  intentId : Nat
  tradingsymbol : String
  exchange : Exchange
  optionType : OptionType
  quantity : Nat
  deriving DecidableEq, Repr

/-- `_PreparedExit`; `legs` is a dict by option type, so a later trade
of a type replaces an earlier one in its place. -/
structure PreparedExit where
  positionId : Nat
  legs : List ExitLegIds
  deriving DecidableEq, Repr

/-- `legs[trade.option_type] = leg`. -/
def putLeg (legs : List ExitLegIds) (leg : ExitLegIds) : List ExitLegIds :=
  if legs.any (·.optionType = leg.optionType) then
    legs.map fun l => if l.optionType = leg.optionType then leg else l
  else legs ++ [leg]

/-- `_ACTOR_BY_REASON`. -/
def actorByReason : ExitReason → StateTransitionActor
  | .target | .stoploss | .timeout | .error => .strategy
  | .killSwitch => .killSwitch
  | .manual => .manual

namespace ExitLogic

variable (ctx : StrategyContext)

-- ============================================================= prepare

/-- One leg of the exit record: its exit intent, created or reused. -/
def prepareLeg (tradeId : Nat) (trade : Trade) : Session ExitLegIds := do
  let tag ← (validateTag (exitTag ctx trade.optionType) : Except Exc String)
  let ((intentId, _), _) ← OrderIntentRepository.getOrCreate tradeId .exit .buy
    trade.quantity (idempotencyKey ctx trade.optionType .exit []) tag
  pure { tradeId, intentId, tradingsymbol := trade.tradingSymbol,
         exchange := trade.exchange, optionType := trade.optionType,
         quantity := trade.quantity }

/-- The legs of the exit record, one trade after the other. -/
def prepareLegs : List (Nat × Trade) → List ExitLegIds →
    Session (List ExitLegIds)
  | [], legs => pure legs
  | (tradeId, trade) :: trades, legs => do
      let leg ← prepareLeg ctx tradeId trade
      prepareLegs trades (putLeg legs leg)

/-- OPEN becomes EXIT_PENDING; a resumed exit is EXIT_PENDING already. -/
def beginExit (positionId : Nat) (position : Position) (reason : ExitReason)
    (actor : StateTransitionActor) : Session Unit :=
  if position.state = .open then
    PositionStateMachine.transition positionId .exitPending actor
      ("exit triggered: " ++ reason.value)
  else pure ()

/-- The session of `_prepare_exit`: the durable exit record, or the
result that ends the exit here. -/
def prepareSession (reason : ExitReason) (actor : StateTransitionActor)
    (scan : List Nat) : Session (Except ExitResult PreparedExit) := do
  match ← PositionRepository.getByInstanceAndDate ctx.instanceId ctx.today with
  | none =>
      pure (.error { outcome := .notOpen, message := "no position for today" })
  | some (positionId, position) =>
      if position.state = .closed then
        pure (.error { outcome := .skippedAlreadyClosed,
                       message := "position already CLOSED",
                       positionId := some positionId })
      else if position.state ≠ .open ∧ position.state ≠ .exitPending then
        pure (.error { outcome := .notOpen,
                       message := "position state " ++ position.state.value
                         ++ " is not exitable",
                       positionId := some positionId })
      else do
        beginExit positionId position reason actor
        let trades ← PositionRepository.listTradesForPosition scan positionId
        let legs ← prepareLegs ctx trades []
        pure (.ok { positionId, legs })

/-- `_prepare_exit`. -/
def prepareExit (reason : ExitReason) (actor : StateTransitionActor) :
    Program (Except ExitResult PreparedExit) :=
  Program.unitOfWork fun scan => prepareSession ctx reason actor scan

-- ========================================================= bookkeeping

/-- `_mark_intent_failed`. -/
def markIntentFailed (intentId : Nat) : Program Unit :=
  Bookkeeping.markIntentFailed intentId

/-- `_record_break`. -/
def recordBreak (positionId : Nat) (breakType : ReconciliationBreakType) :
    Program Unit :=
  Bookkeeping.recordBreak positionId none breakType

/-- `_fail_to_error`. -/
def failToError (positionId : Nat) (outcome : ExitOutcome) (reason : String) :
    Program ExitResult := do
  Bookkeeping.failToError ctx.instanceId positionId reason
  pure { outcome, message := reason, positionId := some positionId }

/-- `_broker_tag` of a leg. -/
def exitTagFor (leg : ExitLegIds) : Except Exc String :=
  validateTag (exitTag ctx leg.optionType)

/-- `_record_close_rejection` before an ack. -/
def recordCloseRejection (leg : ExitLegIds) (message : String) :
    Program Unit :=
  Bookkeeping.recordRejection leg.tradeId leg.intentId .exit .buy leg.quantity
    (exitTagFor ctx leg) message

/-- `_record_close_rejection` after an ack: the existing row follows the
broker, and the intent is FAILED. -/
def recordCloseRejectionAfterAck (leg : ExitLegIds) (brokerOrderId : String)
    (bo : BrokerOrder) : Program Unit := do
  Program.reconcileOrderTerminal brokerOrderId bo
  markIntentFailed leg.intentId

/-- The second commit of `_record_close_fill`: the trade's exit price,
P&L and CLOSED, and the intent CONFIRMED. -/
def closeTrade (leg : ExitLegIds) (exitPrice : ℚ) : Session Unit := do
  match ← PositionRepository.getTradeById leg.tradeId with
  | none => throw .assertion
  | some trade =>
      PositionRepository.updateTrade leg.tradeId fun money t =>
        { t with exitPrice := some (money exitPrice),
                 realizedPnl := match trade.entryPrice with
                   | some entryPrice => some (money (computeLegRealizedPnl
                       entryPrice exitPrice trade.quantity))
                   | none => trade.realizedPnl,
                 status := .closed }
      let _ ← OrderIntentRepository.getByIdOrRaise leg.intentId
      OrderIntentRepository.markConfirmed leg.intentId

/-- `_record_close_fill`. -/
def recordCloseFill (leg : ExitLegIds) (brokerOrderId : String)
    (exitPrice : ℚ) (bo : BrokerOrder) : Program Unit := do
  Program.reconcileOrderTerminal brokerOrderId bo
  Program.unitOfWork fun _ => closeTrade leg exitPrice

-- ============================================================= one leg

/-- A COMPLETE close with a usable price is recorded; without one it is
`_close_fill_without_price`. -/
def closeOnComplete (leg : ExitLegIds) (brokerOrderId : String)
    (bo : BrokerOrder) (reason : String) : Program LegCloseResult := do
  match bo.averagePrice with
  | some price =>
      if price ≤ 0 then pure withoutPrice
      else do
        recordCloseFill leg brokerOrderId price bo
        pure { outcome := .closed, reason, exitPrice := some price }
  | none => pure withoutPrice
where
  withoutPrice : LegCloseResult :=
    { outcome := .ambiguous,
      reason := "closed at broker but no usable fill price reported" }

/-- `_adopt_existing_order`: resolve an order already placed under the
tag, or `none` if there is none and placing is safe. -/
def adoptExistingOrder (leg : ExitLegIds) (tag : String) :
    Program (Option LegCloseResult) := do
  match ← Program.tryBroker (Program.findOrderByTag tag) with
  | .error e =>
      pure (some { outcome := .ambiguous,
                   reason := "could not query existing order: " ++ e.message })
  | .ok none => pure none
  | .ok (some existing) => do
      match ← Program.pollUntilTerminal existing.brokerOrderId ctx.fillAttempts with
      | some terminal =>
          if terminal.status = .complete then
            some <$> closeOnComplete leg terminal.brokerOrderId terminal
              "adopted prior fill"
          else
            pure (some unconfirmed)
      | none => pure (some unconfirmed)
where
  unconfirmed : LegCloseResult :=
    { outcome := .ambiguous,
      reason := "prior exit order exists but is not confirmed filled" }

/-- The first commit of `_confirm_close`. -/
def recordAck (leg : ExitLegIds) (brokerOrderId : String) : Session Unit :=
  discard (Bookkeeping.recordAck leg.tradeId leg.intentId .exit .buy
    leg.quantity (exitTagFor ctx leg) brokerOrderId)

/-- `_confirm_close`: record the acknowledged close, poll, and record
what it came to. -/
def confirmClose (leg : ExitLegIds) (brokerOrderId : String) :
    Program LegCloseResult := do
  Program.unitOfWork fun _ => recordAck ctx leg brokerOrderId
  match ← Program.pollUntilTerminal brokerOrderId ctx.fillAttempts with
  | none =>
      pure { outcome := .ambiguous,
             reason := "close order " ++ brokerOrderId
               ++ " acknowledged but not terminal in poll window" }
  | some terminal =>
      if terminal.status = .complete then
        closeOnComplete leg brokerOrderId terminal "closed"
      else do
        recordCloseRejectionAfterAck leg brokerOrderId terminal
        pure { outcome := .failed,
               reason := "terminal " ++ terminal.status.value }

/-- The retry loop of `_place_close_with_retries`: a rejection is
definitive, a timeout is ambiguous, and everything the code takes for
never sent is sent again. -/
def sendClose (leg : ExitLegIds) (request : PlaceOrderRequest) :
    Nat → String → Program LegCloseResult
  | 0, lastReason => do
      markIntentFailed leg.intentId
      pure { outcome := .failed, reason := lastReason }
  | attempts + 1, _ => do
      match ← Program.tryBroker (Program.placeOrder request) with
      | .ok brokerOrderId => confirmClose ctx leg brokerOrderId
      | .error e =>
          match e.kind with
          | .orderRejected | .invalidOrderRequest => do
              recordCloseRejection ctx leg e.message
              pure { outcome := .failed, reason := "rejected: " ++ e.message }
          | .connection | .rateLimitExceeded =>
              sendClose leg request attempts ("not sent: " ++ e.message)
          | .timeout =>
              pure { outcome := .ambiguous,
                     reason := "ack timed out: " ++ e.message }
          | _ => throw (.broker e)

/-- `_place_close_with_retries`. -/
def placeCloseWithRetries (leg : ExitLegIds) (tag : String) :
    Program LegCloseResult := do
  Program.unitOfWork fun _ => do
    let _ ← OrderIntentRepository.getByIdOrRaise leg.intentId
    OrderIntentRepository.markBrokerCallStarted leg.intentId
  let request ← Prog.done (PlaceOrderRequest.validate leg.exchange
    leg.tradingsymbol .buy leg.quantity ctx.config.productType .market tag)
  sendClose ctx leg request ctx.closeAttempts "not attempted"

/-- The session of `_close_leg`: the result if the leg is CLOSED
already, else whether a placement was attempted, and under which tag. -/
def inspectLeg (leg : ExitLegIds) :
    Session (Except LegCloseResult (Bool × String)) := do
  match ← PositionRepository.getTradeById leg.tradeId with
  | none => throw .assertion
  | some trade =>
      if trade.status = .closed then
        pure (.error { outcome := .closed, reason := "already closed",
                       exitPrice := trade.exitPrice })
      else do
        let intent ← OrderIntentRepository.getByIdOrRaise leg.intentId
        pure (.ok (intent.brokerCallStarted, intent.brokerTag))

/-- `_close_leg`. -/
def closeLeg (leg : ExitLegIds) : Program LegCloseResult := do
  match ← Program.unitOfWork fun _ => inspectLeg leg with
  | .error result => pure result
  | .ok (alreadyAttempted, tag) =>
      if alreadyAttempted then do
        match ← adoptExistingOrder ctx leg tag with
        | some adopted => pure adopted
        | none => placeCloseWithRetries ctx leg tag
      else
        placeCloseWithRetries ctx leg tag

/-- Phase 2 of `exit`: the legs one after the other. -/
def closeLegs : List ExitLegIds → Program (List (OptionType × LegCloseResult))
  | [] => pure []
  | leg :: legs => do
      let result ← closeLeg ctx leg
      let results ← closeLegs legs
      pure ((leg.optionType, result) :: results)

-- ======================================================== finalization

/-- A leg's exit price and realized P&L, or the refusal to total over a
missing one. -/
def pricedLegs (positionId : Nat) :
    List (Nat × Trade) → Except Exc (List (ℚ × ℚ))
  | [] => pure []
  | (_, t) :: trades =>
      match t.exitPrice, t.realizedPnl with
      | some exitPrice, some realizedPnl => do
          let legs ← pricedLegs positionId trades
          pure ((exitPrice, realizedPnl) :: legs)
      | _, _ =>
          throw (.missingFillPrice ("cannot finalize exit for " ++ ctx.identity
            ++ " position " ++ toString positionId ++ ": leg "
            ++ t.optionType.value ++ " is incompletely priced (exit_price="
            ++ renderAmount t.exitPrice ++ ", realized_pnl="
            ++ renderAmount t.realizedPnl ++ ")"))

/-- The session of `_finalize_closed`: both sums onto the position, and
CLOSED. Returns the realized P&L. -/
def closePosition (positionId : Nat) (reason : ExitReason)
    (actor : StateTransitionActor) (scan : List Nat) : Session ℚ := do
  match ← PositionRepository.getById positionId with
  | none => throw (.runtime ("position " ++ toString positionId
      ++ " vanished before finalize"))
  | some _ => do
      let trades ← PositionRepository.listTradesForPosition scan positionId
      let legs ← (pricedLegs ctx positionId trades : Except Exc (List (ℚ × ℚ)))
      let combinedExit := (legs.map Prod.fst).sum
      let realized := (legs.map Prod.snd).sum
      PositionRepository.updateMoney positionId fun money p =>
        { p with combinedExitPremium := some (money combinedExit),
                 realizedPnl := some (money realized),
                 exitReason := some reason }
      PositionStateMachine.transition positionId .closed actor
        ("exit complete (" ++ reason.value ++ "): exit premium "
          ++ toString combinedExit ++ ", realized P&L " ++ toString realized)
      pure realized

/-- `_finalize_closed`: if the CLOSED write fails, a break is recorded
and the position stays EXIT_PENDING. -/
def finalizeClosed (prepared : PreparedExit) (reason : ExitReason)
    (actor : StateTransitionActor) : Program ExitResult :=
  tryCatch
    (do let realized ← Program.unitOfWork fun scan =>
          closePosition ctx prepared.positionId reason actor scan
        pure { outcome := .exited,
               message := "exited (" ++ reason.value ++ ") with realized P&L "
                 ++ toString realized,
               positionId := some prepared.positionId,
               realizedPnl := some realized })
    fun _ => do
      recordBreak prepared.positionId .other
      pure { outcome := .persistenceDivergence,
             message := "both legs closed but CLOSED persistence failed; "
               ++ "reconciliation break recorded",
             positionId := some prepared.positionId }

-- ================================================================ exit

/-- Phase 3 of `exit`: finalize if every leg is closed, else record the
break and fail to ERROR. -/
def conclude (prepared : PreparedExit) (reason : ExitReason)
    (results : List (OptionType × LegCloseResult)) : Program ExitResult := do
  if results.all fun r => r.2.outcome = .closed then
    finalizeClosed ctx prepared reason (actorByReason reason)
  else do
    let ambiguous := results.any fun r => r.2.outcome = .ambiguous
    recordBreak prepared.positionId (if ambiguous then .ambiguousAck else .other)
    failToError ctx prepared.positionId
      (if ambiguous then .ambiguousError else .partialExitError)
      ("exit incomplete (" ++ reason.value ++ "): "
        ++ String.intercalate "; "
          (results.map fun r => r.1.value ++ "=" ++ r.2.outcome.value))

/-- `exit`: close today's straddle. `acquired` is whether this call
claimed the exit lock. -/
def exit (acquired : Bool) (reason : ExitReason) : Program ExitResult := do
  if acquired then do
    match ← prepareExit ctx reason (actorByReason reason) with
    | .error result => pure result
    | .ok prepared => do
        let results ← closeLegs ctx prepared.legs
        conclude ctx prepared reason results
  else
    pure { outcome := .skippedExitInProgress,
           message := "exit already in progress; ignoring concurrent "
             ++ reason.value ++ " trigger" }

end ExitLogic

end AlgoPlatform
