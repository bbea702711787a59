/-
The strategy's restart path (`strategy_1/strategy.py`): reconstruct from
the database, resume monitoring, and complete an interrupted exit.
-/
import AlgoPlatform.Model.EntryLogic
import AlgoPlatform.Model.ExitLogic
import AlgoPlatform.Model.Monitor

open Basis

namespace AlgoPlatform.Strategy1

variable (ctx : StrategyContext)

/-- The members of `ExitReason`, in definition order. -/
def exitReasons : List ExitReason :=
  [.target, .stoploss, .timeout, .killSwitch, .manual, .error]

/-- The reason an audit row names, if it names one. -/
def triggerReason (t : PositionStateTransition) : Option ExitReason :=
  if t.toState = .exitPending then
    exitReasons.find? fun candidate =>
      t.reason = some ("exit triggered: " ++ candidate.value)
  else none

/-- `_infer_pending_exit_reason`: the newest audit row that names one,
else MANUAL. -/
def inferPendingExitReason (positionId : Nat) : Program ExitReason := do
  let transitions ← Program.unitOfWork fun _ =>
    PositionRepository.listStateTransitions positionId
  pure ((transitions.reverse.findSome? triggerReason).getD .manual)

/-- The position to ERROR by recovery, unless it is CLOSED or ERROR. -/
def markPositionError (positionId : Nat) (reason : String) : Session Unit := do
  match ← PositionRepository.getById positionId with
  | some position =>
      if position.state ≠ .closed ∧ position.state ≠ .error then
        PositionRepository.update positionId fun p =>
          { p with errorMessage := some reason }
        PositionStateMachine.markError positionId .recovery reason
  | none => pure ()

/-- `_mark_position_error_and_freeze`. -/
def markPositionErrorAndFreeze (positionId : Nat) (reason : String) :
    Program Unit :=
  Program.unitOfWork fun _ => do
    markPositionError positionId reason
    Bookkeeping.freezeInstance ctx.instanceId

/-- `PositionMonitor.attach`, on a monitor just built. -/
def attach : Program Monitor := do
  let found ← Program.unitOfWork fun scan => Monitor.attachSession ctx scan
  let step := (Monitor.attach {} (.ok found)).1
  match step.raised with
  | some exc => throw exc
  | none => pure step.monitor

/-- `recover`: act on the state the database is in. Returns the
monitor. -/
def recover (acquired : Bool) : Program Monitor := do
  let found ← Program.unitOfWork fun _ =>
    PositionRepository.getByInstanceAndDate ctx.instanceId ctx.today
  match found with
  | none => pure {}
  | some (positionId, position) =>
      match position.state with
      | .exitPending => do
          let reason ← inferPendingExitReason positionId
          let _ ← ExitLogic.exit ctx acquired reason
          pure {}
      | .entryPending => do
          markPositionErrorAndFreeze ctx positionId
            ("recovery found ENTRY_PENDING position; automatic entry resume is "
              ++ "not supported -- verify broker state manually before clearing")
          pure {}
      | .open => attach ctx
      | .idle | .closed | .error => pure {}

end AlgoPlatform.Strategy1
