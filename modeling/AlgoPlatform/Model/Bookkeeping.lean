/-
The commits entry and exit both make around a broker call.

`entry_logic.py` and `exit_logic.py` each have their own copy of these;
the copies differ only in purpose, side and tag, which are parameters
here.
-/
import AlgoPlatform.Model.StateMachine
import AlgoPlatform.Model.World

open Basis

namespace AlgoPlatform.Bookkeeping

/-- An acknowledged placement: its order row, OPEN under the broker's
id, and the intent PLACED. -/
def recordAck (tradeId intentId : Nat) (purpose : OrderPurpose)
    (side : TransactionType) (quantity : Nat) (tag : Except Exc String)
    (brokerOrderId : String) : Session Nat := do
  let orderId ← OrderRepository.create tradeId (some intentId) purpose side
    .market quantity (some (← tag))
  OrderRepository.markAcknowledged orderId brokerOrderId
  let _ ← OrderIntentRepository.getByIdOrRaise intentId
  OrderIntentRepository.markPlaced intentId
  pure orderId

/-- A rejection before any ack: a REJECTED order row for the audit
trail, and the intent FAILED. -/
def recordRejection (tradeId intentId : Nat) (purpose : OrderPurpose)
    (side : TransactionType) (quantity : Nat) (tag : Except Exc String)
    (message : String) : Program Unit :=
  Program.unitOfWork fun _ => do
    let orderId ← OrderRepository.create tradeId (some intentId) purpose side
      .market quantity (some (← tag))
    OrderRepository.recordRejection orderId message
    let _ ← OrderIntentRepository.getByIdOrRaise intentId
    OrderIntentRepository.markFailed intentId

/-- `_mark_intent_failed`. -/
def markIntentFailed (intentId : Nat) : Program Unit :=
  Program.unitOfWork fun _ => do
    let _ ← OrderIntentRepository.getByIdOrRaise intentId
    OrderIntentRepository.markFailed intentId

/-- `_record_break`: a failure to record the break is swallowed. -/
def recordBreak (positionId : Nat) (intentId : Option Nat)
    (breakType : ReconciliationBreakType) : Program Unit :=
  tryCatch
    (Program.unitOfWork fun _ =>
      ReconciliationBreakRepository.create breakType (some positionId) none
        intentId)
    fun _ => pure ()

/-- The position to ERROR, unless it is CLOSED or ERROR. -/
def errorPosition (positionId : Nat) (reason : String) : Session Unit := do
  match ← PositionRepository.getById positionId with
  | some position =>
      if position.state ≠ .closed ∧ position.state ≠ .error then
        PositionRepository.update positionId fun p =>
          { p with exitReason := some .error, errorMessage := some reason }
        PositionStateMachine.markError positionId .strategy reason
  | none => pure ()

/-- The instance to FROZEN. -/
def freezeInstance (instanceId : Nat) : Session Unit := do
  match ← StrategyInstanceRepository.getById instanceId with
  | some inst =>
      if inst.status ≠ .frozen then
        StrategyInstanceRepository.setStatus instanceId .frozen
  | none => pure ()

/-- The unit of work of `_fail_to_error`. -/
def failToError (instanceId positionId : Nat) (reason : String) :
    Program Unit :=
  Program.unitOfWork fun _ => do
    errorPosition positionId reason
    freezeInstance instanceId

end AlgoPlatform.Bookkeeping
