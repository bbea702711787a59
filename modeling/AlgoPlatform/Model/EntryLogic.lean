/-
The entry: one straddle per instance per day
(`strategy_1/entry_logic.py`).

`enter` runs the pre-gates and commits the durable record (position,
both trades, both intents) before any broker call (`begin`), then places
CE and PE and settles what came of them (`placeAndFinalize`).
-/
import AlgoPlatform.Model.Bookkeeping
import AlgoPlatform.Model.Context
import AlgoPlatform.Model.Premium

open Basis

namespace AlgoPlatform

inductive EntryOutcome
  | entered | skippedAlreadyExists | skippedExpiryDay | blockedByRisk
  | entryRejected | partialEntryError | ambiguousError | persistenceDivergence
  deriving DecidableEq, Repr

structure EntryResult where
  outcome : EntryOutcome
  message : String
  positionId : Option Nat := none
  deriving DecidableEq, Repr

/-- `_LegOutcome`: what became of one leg's placement. -/
inductive LegOutcome
  | filled
  /-- Definitively not live: a rejection or a call never sent. -/
  | failed
  /-- May or may not be live. -/
  | ambiguous
  deriving DecidableEq, Repr

def LegOutcome.value : LegOutcome → String
  | .filled => "FILLED"
  | .failed => "FAILED"
  | .ambiguous => "AMBIGUOUS"

/-- `_LegResult`. -/
structure LegResult where
  outcome : LegOutcome
  reason : String
  fillPrice : Option ℚ := none
  deriving DecidableEq, Repr

/-- The resolved ATM straddle; `call` and `put` are the contracts the
selector has validated to be a CE and a PE. -/
structure StraddleStrikeSelection where
  spotLtp : ℚ
  strikeInterval : ℚ
  atmStrike : ℚ
  expiry : Date
  call : BrokerInstrument
  put : BrokerInstrument
  call_ce : call.optionType = .ce
  put_pe : put.optionType = .pe

/-- `_LegIds`. -/
structure LegIds where
  tradeId : Nat
  intentId : Nat
  tradingsymbol : String
  contract : BrokerInstrument
  deriving DecidableEq, Repr

def LegIds.optionType (leg : LegIds) : OptionType := leg.contract.optionType

/-- `_DurableRecord`. -/
structure DurableRecord where
  positionId : Nat
  quantity : Nat
  ce : LegIds
  pe : LegIds
  deriving DecidableEq, Repr

/-- What the collaborators of `enter` answer: the expiry service, the
risk manager, and spot price with strike selection. -/
structure EntryInputs where
  weeklyExpiry : Except Exc Date
  halted : Except Exc Bool
  /-- `approve_entry`: approved, and the reason if not. -/
  decision : Except Exc (Bool × Option String)
  selection : Except Exc StraddleStrikeSelection

namespace EntryLogic

variable (ctx : StrategyContext)

-- =========================================================== pre-gates

/-- `_find_existing_position`. -/
def findExistingPosition : Program (Option PositionState) :=
  Program.unitOfWork fun _ => do
    let found ← PositionRepository.getByInstanceAndDate ctx.instanceId ctx.today
    pure (found.map fun row => row.2.state)

/-- `_should_skip_expiry_day`. -/
def shouldSkipExpiryDay (inputs : EntryInputs) : Except Exc Bool :=
  if ctx.config.skipOnExpiryDay then do
    let expiry ← inputs.weeklyExpiry
    pure (expiry = ctx.today)
  else pure false

/-- `_check_risk`: the reason the entry is blocked, if it is. -/
def checkRisk (inputs : EntryInputs) : Except Exc (Option String) := do
  if ← inputs.halted then
    pure (some "trading is halted (kill-switch / emergency-exit active)")
  else
    let (approved, reason) ← inputs.decision
    if approved then pure none
    else
      match reason with
      | some text =>
          pure (some (if text = "" then "entry rejected by risk (no reason given)"
            else text))
      | none => pure (some "entry rejected by risk (no reason given)")

-- ====================================================== durable record

/-- The position row as the durable record creates it. -/
def newPosition (selection : StraddleStrikeSelection) : Position where
  strategyInstanceId := ctx.instanceId
  tradeDate := ctx.today
  state := .entryPending
  expiryDate := some selection.expiry
  strike := some selection.atmStrike
  strikeInterval := some selection.strikeInterval
  lots := some ctx.config.lots
  lotSize := some selection.call.lotSize
  quantity := some (ctx.config.lots * selection.call.lotSize)
  entrySpotLtp := some selection.spotLtp
  targetPct := some ctx.config.targetPct
  slPct := some ctx.config.slPct

/-- One leg of the durable record: its trade and its entry intent. -/
def createLeg (positionId quantity : Nat) (strike : ℚ)
    (contract : BrokerInstrument) : Session LegIds := do
  let tradeId ← PositionRepository.addTrade
    { positionId, optionType := contract.optionType,
      tradingSymbol := contract.tradingsymbol, exchange := contract.exchange,
      strike, quantity }
  let tag ← (validateTag (entryTag ctx contract.optionType) : Except Exc String)
  let ((intentId, _), _) ← OrderIntentRepository.getOrCreate tradeId .entry
    .sell quantity (idempotencyKey ctx contract.optionType .entry []) tag
  pure { tradeId, intentId, tradingsymbol := contract.tradingsymbol, contract }

/-- `_create_durable_record`: the position, both trades and both intents
in one commit, or nothing if the position already exists. -/
def createDurableRecord (selection : StraddleStrikeSelection) :
    Program (Option DurableRecord) :=
  Program.unitOfWork fun _ => do
    let ((positionId, _), created) ←
      PositionRepository.getOrCreate (newPosition ctx selection)
    if created then
      let quantity := ctx.config.lots * selection.call.lotSize
      let ce ← createLeg ctx positionId quantity selection.atmStrike selection.call
      let pe ← createLeg ctx positionId quantity selection.atmStrike selection.put
      pure (some { positionId, quantity, ce, pe })
    else
      pure none

-- ======================================================== bookkeeping

/-- `_mark_intent_failed`. -/
def markIntentFailed (intentId : Nat) : Program Unit :=
  Bookkeeping.markIntentFailed intentId

/-- `_entry_tag_for`. -/
def entryTagFor (leg : LegIds) : Except Exc String :=
  validateTag (entryTag ctx leg.optionType)

/-- `_record_leg_rejection`. -/
def recordLegRejection (leg : LegIds) (message : String) : Program Unit :=
  Bookkeeping.recordRejection leg.tradeId leg.intentId .entry .sell
    (ctx.config.lots * leg.contract.lotSize) (entryTagFor ctx leg) message

/-- `_record_break`. -/
def recordBreak (positionId : Nat) (intentId : Option Nat)
    (breakType : ReconciliationBreakType) : Program Unit :=
  Bookkeeping.recordBreak positionId intentId breakType

/-- `_fail_to_error`. -/
def failToError (positionId : Nat) (outcome : EntryOutcome)
    (reason : String) : Program EntryResult := do
  Bookkeeping.failToError ctx.instanceId positionId reason
  pure { outcome, message := reason, positionId := some positionId }

-- ============================================================= one leg

/-- The first commit of `_confirm_and_record`. -/
def recordAck (leg : LegIds) (quantity : Nat) (brokerOrderId : String) :
    Session Nat :=
  Bookkeeping.recordAck leg.tradeId leg.intentId .entry .sell quantity
    (entryTagFor ctx leg) brokerOrderId

/-- The last commit of `_confirm_and_record`: act on the committed order
row, whoever wrote it. -/
def settle (leg : LegIds) (orderId : Nat) (brokerOrderId : String) :
    Session LegResult := do
  let order ← OrderRepository.getByIdOrRaise orderId
  if order.status = .complete then
    match order.averagePrice with
    | some price =>
        if price ≤ 0 then
          throw (.missingFillPrice ("COMPLETE entry order " ++ brokerOrderId
            ++ " for " ++ ctx.identity ++ " has no usable fill price "
            ++ "(average_price=" ++ renderAmount (some price) ++ ")"))
        else
          pure { outcome := .filled, reason := "filled", fillPrice := some price }
    | none =>
        throw (.missingFillPrice ("COMPLETE entry order " ++ brokerOrderId
          ++ " for " ++ ctx.identity ++ " has no usable fill price "
          ++ "(average_price=None)"))
  else
    let _ ← OrderIntentRepository.getByIdOrRaise leg.intentId
    OrderIntentRepository.markFailed leg.intentId
    pure { outcome := .failed,
           reason := "terminal " ++ order.status.value ++ " after ack" }

/-- `_confirm_and_record`: record the ack, poll, reconcile the row with
the terminal snapshot, and settle on what the row then says. -/
def confirmAndRecord (leg : LegIds) (quantity : Nat) (brokerOrderId : String) :
    Program LegResult := do
  let orderId ← Program.unitOfWork fun _ =>
    recordAck ctx leg quantity brokerOrderId
  match ← Program.pollUntilTerminal brokerOrderId ctx.fillAttempts with
  | none =>
      pure { outcome := .ambiguous,
             reason := "order " ++ brokerOrderId
               ++ " acknowledged but not terminal within poll window" }
  | some bo => do
      Program.reconcileOrderTerminal brokerOrderId bo
      Program.unitOfWork fun _ => settle ctx leg orderId brokerOrderId

/-- The intent is SUBMITTED_UNCONFIRMED before the broker is called; the
tag is the intent's own. -/
def startIntent (leg : LegIds) : Session String := do
  let intent ← OrderIntentRepository.getByIdOrRaise leg.intentId
  OrderIntentRepository.markBrokerCallStarted leg.intentId
  pure intent.brokerTag

/-- `_place_leg`: place one SELL and confirm its fill. -/
def placeLeg (leg : LegIds) (quantity : Nat) : Program LegResult := do
  let tag ← Program.unitOfWork fun _ => startIntent leg
  let request ← Prog.done (PlaceOrderRequest.validate leg.contract.exchange
    leg.tradingsymbol .sell quantity ctx.config.productType .market tag)
  let placement ← Program.tryBroker (Program.placeOrder request)
  match placement with
  | .ok brokerOrderId => confirmAndRecord ctx leg quantity brokerOrderId
  | .error e =>
      match e.kind with
      | .orderRejected | .invalidOrderRequest => do
          recordLegRejection ctx leg e.message
          pure { outcome := .failed,
                 reason := "rejected before ack: " ++ e.message }
      | .connection | .rateLimitExceeded => do
          markIntentFailed leg.intentId
          pure { outcome := .failed, reason := "not sent: " ++ e.message }
      | .timeout =>
          pure { outcome := .ambiguous,
                 reason := "ack timed out: " ++ e.message }
      | _ => throw (.broker e)

-- ======================================================== finalization

/-- The session of `_finalize_open`: both fills onto the trades, premium
and thresholds onto the position, OPEN, and both intents CONFIRMED. -/
def openPosition (durable : DurableRecord) (thresholds : PremiumThresholds)
    (cePrice pePrice : ℚ) : Session Unit := do
  match ← PositionRepository.getById durable.positionId with
  | none => throw (.runtime ("position " ++ toString durable.positionId
      ++ " vanished before finalize"))
  | some _ => do
      fillLeg durable.ce cePrice
      fillLeg durable.pe pePrice
      PositionRepository.updateMoney durable.positionId fun money p =>
        { p with combinedEntryPremium := some (money (cePrice + pePrice)),
                 targetPremium := some (money thresholds.targetPremium),
                 stoplossPremium := some (money thresholds.stoplossPremium) }
      PositionStateMachine.transition durable.positionId .open .strategy
        ("entry filled: combined premium " ++ toString (cePrice + pePrice)
          ++ " (CE " ++ toString cePrice ++ " + PE " ++ toString pePrice ++ ")")
      confirmIntent durable.ce
      confirmIntent durable.pe
where
  fillLeg (leg : LegIds) (price : ℚ) : Session Unit := do
    match ← PositionRepository.getTradeById leg.tradeId with
    | none => throw .assertion
    | some _ =>
        PositionRepository.updateTrade leg.tradeId fun money t =>
          { t with entryPrice := some (money price), status := .open }
  confirmIntent (leg : LegIds) : Session Unit := do
    let _ ← OrderIntentRepository.getByIdOrRaise leg.intentId
    OrderIntentRepository.markConfirmed leg.intentId

/-- `_finalize_open`: if the OPEN write fails after both legs filled, a
break is recorded and the position stays ENTRY_PENDING. -/
def finalizeOpen (durable : DurableRecord) (ceResult peResult : LegResult) :
    Program EntryResult := do
  match ceResult.fillPrice, peResult.fillPrice with
  | some cePrice, some pePrice => do
      let thresholds ← Prog.done (computeThresholds (cePrice + pePrice)
        ctx.config.targetPct ctx.config.slPct)
      tryCatch
        (do Program.unitOfWork fun _ =>
              openPosition durable thresholds cePrice pePrice
            pure { outcome := .entered,
                   message := "entered at combined premium "
                     ++ toString (cePrice + pePrice),
                   positionId := some durable.positionId })
        fun _ => do
          recordBreak durable.positionId none .orphanFill
          pure { outcome := .persistenceDivergence,
                 message := "both legs filled but OPEN persistence failed; "
                   ++ "reconciliation break recorded",
                 positionId := some durable.positionId }
  | _, _ => throw .assertion

-- ============================================================== unwind

/-- The first commit of `_auto_unwind`: the unwind intent, started. -/
def startUnwind (leg : LegIds) (quantity : Nat) :
    Session (Nat × OrderIntent) := do
  let tag ← (validateTag (unwindTag ctx leg.optionType) : Except Exc String)
  let (row, _) ← OrderIntentRepository.getOrCreate leg.tradeId .exit .buy
    quantity (idempotencyKey ctx leg.optionType .exit ["UNWIND"]) tag
  OrderIntentRepository.markBrokerCallStarted row.1
  pure row

/-- The last commit of `_auto_unwind`. -/
def settleUnwind (leg : LegIds) (intentId : Nat) (bo : Option BrokerOrder)
    (filled : Bool) : Session Unit := do
  PositionRepository.updateTradeIfAny leg.tradeId fun money t =>
    if filled then
      { t with status := .unwound,
               exitPrice := (bo.bind (·.averagePrice)).map money }
    else { t with status := .error }
  let _ ← OrderIntentRepository.getByIdOrRaise intentId
  if filled then OrderIntentRepository.markConfirmed intentId
  else OrderIntentRepository.markFailed intentId

/-- The broker's part of `_auto_unwind`: place the BUY and poll it. -/
def buyBack (leg : LegIds) (quantity : Nat) :
    Program (Nat × Option BrokerOrder) := do
  let (intentId, intent) ← Program.unitOfWork fun _ =>
    startUnwind ctx leg quantity
  let request ← Prog.done (PlaceOrderRequest.validate leg.contract.exchange
    leg.tradingsymbol .buy quantity ctx.config.productType .market
    intent.brokerTag)
  let brokerOrderId ← Program.placeOrder request
  let bo ← Program.pollUntilTerminal brokerOrderId ctx.fillAttempts
  pure (intentId, bo)

/-- `_auto_unwind`: buy back a filled leg; whether the BUY filled. -/
def autoUnwind (leg : LegIds) (quantity : Nat) : Program Bool := do
  match ← Program.tryBroker (buyBack ctx leg quantity) with
  | .error _ => pure false
  | .ok (intentId, bo) => do
      let filled := bo.any fun bo => bo.status = .complete
      Program.unitOfWork fun _ => settleUnwind leg intentId bo filled
      pure filled

-- =============================================================== entry

/-- The partial entry: CE is live and PE is not filled. -/
def partialEntry (durable : DurableRecord) (peResult : LegResult) :
    Program EntryResult := do
  let unwound ← autoUnwind ctx durable.ce durable.quantity
  recordBreak durable.positionId (some durable.pe.intentId)
    (if peResult.outcome = .ambiguous then .ambiguousAck else .partialEntry)
  let detail := if unwound then "CE unwound"
    else "CE UNWIND FAILED -- NAKED EXPOSURE"
  failToError ctx durable.positionId .partialEntryError
    ("partial entry (PE " ++ peResult.outcome.value ++ "); " ++ detail)

/-- `_place_and_finalize`. -/
def placeAndFinalize (durable : DurableRecord) : Program EntryResult := do
  let ceResult ← placeLeg ctx durable.ce durable.quantity
  match ceResult.outcome with
  | .failed =>
      failToError ctx durable.positionId .entryRejected
        ("CE leg failed before any exposure: " ++ ceResult.reason)
  | .ambiguous => do
      recordBreak durable.positionId (some durable.ce.intentId) .ambiguousAck
      failToError ctx durable.positionId .ambiguousError
        ("CE leg outcome ambiguous: " ++ ceResult.reason)
  | .filled => do
      let peResult ← placeLeg ctx durable.pe durable.quantity
      if peResult.outcome = .filled then
        finalizeOpen ctx durable ceResult peResult
      else
        partialEntry ctx durable peResult

/-- `enter` up to its first broker call: the result that ends it here,
or the durable record to place. -/
def begin (inputs : EntryInputs) :
    Program (Except EntryResult DurableRecord) := do
  match ← findExistingPosition ctx with
  | some state =>
      pure (.error { outcome := .skippedAlreadyExists,
                     message := "position already exists for "
                       ++ ctx.today.isoformat ++ " in state PositionState."
                       ++ state.value })
  | none => do
      if ← Prog.done (shouldSkipExpiryDay ctx inputs) then
        pure (.error { outcome := .skippedExpiryDay,
                       message := "skip_on_expiry_day is set and "
                         ++ ctx.today.isoformat ++ " is an expiry day" })
      else
        match ← Prog.done (checkRisk inputs) with
        | some reason =>
            pure (.error { outcome := .blockedByRisk, message := reason })
        | none => do
            let selection ← Prog.done inputs.selection
            match ← createDurableRecord ctx selection with
            | none =>
                pure (.error { outcome := .skippedAlreadyExists,
                               message := "another writer created today's "
                                 ++ "position concurrently" })
            | some durable => pure (.ok durable)

/-- `enter`: attempt today's straddle entry. -/
def enter (inputs : EntryInputs) : Program EntryResult := do
  match ← begin ctx inputs with
  | .error result => pure result
  | .ok durable => placeAndFinalize ctx durable

end EntryLogic

end AlgoPlatform
