/-
The lifecycle of the strategy runners (`strategy_engine/strategy_runner.py`)
and the heartbeat that drives their monitoring
(`strategy_engine/strategy_scheduler.py`).

# One call after another

Each call holds its runner's lock from start to end, so the dispatches of
one runner do not overlap, and those of different runners share nothing.
No hook calls back into a runner, its own or another. So a run is a
sequence of calls, each over before the next begins.

# What a hook does

That is its own affair; here it returns or raises an `Exception`, as each
call is told, and it is recorded with the status it ran in. Writing FROZEN
to the instance's row may raise as well. The hooks of all runners are
recorded in one list, in the order they ran.
-/
import Mathlib.Logic.Function.Basic
import AlgoPlatform.Basis.Step
import AlgoPlatform.Model.Enums

open Basis

namespace AlgoPlatform

/-- Lifecycle status of a runner. -/
inductive RunnerStatus
  | created | running | stopped | frozen
  deriving DecidableEq, Repr

/-- The hooks of a strategy that a runner calls. -/
inductive Hook
  | recover
  | onTimeTrigger (triggerName : String)
  | onMarketTick
  | onMonitorCycle
  | onShutdown
  deriving DecidableEq, Repr

/-- The hooks through which a strategy trades. -/
def Hook.isTrading : Hook → Bool
  | .onTimeTrigger _ | .onMarketTick | .onMonitorCycle => true
  | .recover | .onShutdown => false

/-- A hook that ran: of which runner, in which status, and whether it
raised. -/
structure HookRun where
  runner : String
  hook : Hook
  status : RunnerStatus
  raised : Bool
  deriving DecidableEq, Repr

/-- What a call meets: whether the hook it runs raises, and whether the
write of a freeze does. -/
structure HookAnswer where
  raises : Bool := false
  freezeRaises : Bool := false
  deriving DecidableEq, Repr

/-- What may be raised on the way. -/
inductive RunnerExc
  | hook (runner : String) (hook : Hook)
  | database
  /-- `start`'s `RuntimeError`. -/
  | notCreated (runner : String) (status : RunnerStatus)
  deriving DecidableEq, Repr

/-- The runners by their identities, with the rows of their instances. -/
structure Runners where
  status : String → RunnerStatus := fun _ => .created
  instances : String → Option InstanceStatus := fun _ => some .active
  hooks : List HookRun := []

namespace Runners

/-- A part of a call. -/
abbrev Act (α : Type) : Type := Step Runners RunnerExc α

variable (runner : String) (a : HookAnswer)

def setStatus (status : RunnerStatus) : Act Unit :=
  Step.modify fun s =>
    { s with status := Function.update s.status runner status }

/-- One call of a hook. -/
def callHook (hook : Hook) : Act Unit := do
  Step.modify fun s =>
    { s with
      hooks := s.hooks ++ [⟨runner, hook, s.status runner, a.raises⟩] }
  if a.raises then Step.lift (.error (.hook runner hook)) else pure ()

/-- The unit of work of `_freeze_instance`; an exception rolls it back. -/
def persistFreeze : Act Unit := do
  if a.freezeRaises then Step.lift (.error .database)
  else Step.modify fun s =>
    { s with
      instances := Function.update s.instances runner
        ((s.instances runner).map fun _ => .frozen) }

/-- `_freeze_instance`: best effort. -/
def freezeInstance : Act Unit :=
  Step.tryCatch (persistFreeze runner a) fun _ => pure ()

/-- `_run_guarded`: whether the hook returned. -/
def runGuarded (hook : Hook) : Act Bool :=
  Step.tryCatch
    (do callHook runner a hook
        pure true)
    fun _ => do
      setStatus runner .frozen
      freezeInstance runner a
      pure false

/-- `start`. -/
def start : Act Unit := do
  let s ← Step.get
  if s.status runner = .created then do
    let recovered ← runGuarded runner a .recover
    if recovered then setStatus runner .running else pure ()
  else Step.lift (.error (.notCreated runner (s.status runner)))

/-- The three dispatches: ignored unless the runner is running. -/
def dispatch (hook : Hook) : Act Unit := do
  let s ← Step.get
  if s.status runner = .running then do
    let _ ← runGuarded runner a hook
    pure ()
  else pure ()

/-- `dispatch_time_trigger`. -/
def dispatchTimeTrigger (triggerName : String) : Act Unit :=
  dispatch runner a (.onTimeTrigger triggerName)

/-- `dispatch_tick`. -/
def dispatchTick : Act Unit := dispatch runner a .onMarketTick

/-- `dispatch_monitor_cycle`. -/
def dispatchMonitorCycle : Act Unit := dispatch runner a .onMonitorCycle

/-- `stop`. -/
def stop : Act Unit := do
  let s ← Step.get
  if s.status runner = .stopped ∨ s.status runner = .frozen then pure ()
  else do
    Step.tryCatch (callHook runner a .onShutdown) fun _ => pure ()
    setStatus runner .stopped

/-- One turn of the loop of `MonitoringScheduler._tick`. -/
def monitorTurn : Act Unit := do
  let s ← Step.get
  if s.status runner = .running then
    Step.tryCatch (dispatchMonitorCycle runner a) fun _ => pure ()
  else pure ()

end Runners

/-- How a runner is called from outside. -/
inductive CallKind
  | start
  | dispatchTimeTrigger (triggerName : String)
  | dispatchTick
  | dispatchMonitorCycle
  | monitorTurn
  | stop
  deriving DecidableEq, Repr

structure RunnerCall where
  runner : String
  kind : CallKind
  answer : HookAnswer := {}
  deriving DecidableEq, Repr

namespace Runners

/-- One call. -/
def perform (call : RunnerCall) : Act Unit :=
  match call.kind with
  | .start => start call.runner call.answer
  | .dispatchTimeTrigger triggerName =>
      dispatchTimeTrigger call.runner call.answer triggerName
  | .dispatchTick => dispatchTick call.runner call.answer
  | .dispatchMonitorCycle => dispatchMonitorCycle call.runner call.answer
  | .monitorTurn => monitorTurn call.runner call.answer
  | .stop => stop call.runner call.answer

/-- The runners after some calls. -/
def run (s : Runners) (calls : List RunnerCall) : Runners :=
  calls.foldl (fun s call => (perform call s).2) s

/-- `MonitoringScheduler._tick` over the registered runners, if nothing
else is called meanwhile. -/
def monitorTick (answers : String → HookAnswer) (registered : List String) :
    List RunnerCall :=
  registered.map fun runner =>
    { runner, kind := .monitorTurn, answer := answers runner }

end Runners

end AlgoPlatform
