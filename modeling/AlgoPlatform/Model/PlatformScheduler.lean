/-
The daily job scheduler (`scheduler/platform_scheduler.py`): which
declared triggers one pass of its loop finds due, and what it remembers of
them from day to day.

A pass reads one instant. It marks everything it found due as fired and
then dispatches each on a thread of its own, so between its decision and
the call that reaches the runner anything may happen: `tick` decides,
`deliver` is one such thread, and a runner's status may change in between.
What was decided and delivered is recorded beside the code's own state and
read by no step. Whether a day is a trading day is the calendar's answer
for that day.
-/
import AlgoPlatform.Basis.Dict
import AlgoPlatform.Model.Dates
import AlgoPlatform.Model.RunnerLifecycle

open Basis

namespace AlgoPlatform

inductive TriggerCatchUpPolicy
  | skip | fireOnStartup
  deriving DecidableEq, Repr

/-- `TimeTrigger`; the time of day is in microseconds. -/
structure TimeTrigger where
  name : String
  triggerTime : Nat
  catchUp : TriggerCatchUpPolicy := .skip
  deriving DecidableEq, Repr

/-- A reading of the clock. -/
structure Instant where
  day : Date
  time : Nat
  deriving DecidableEq, Repr

/-- `a` is no later than `b`. -/
def Instant.NoLater (a b : Instant) : Prop :=
  a.day < b.day ∨ a.day = b.day ∧ a.time ≤ b.time

/-- A runner, by its identity, and the triggers its strategy declares. -/
structure ScheduledRunner where
  identity : String
  triggers : List TimeTrigger
  distinct : (triggers.map TimeTrigger.name).Nodup

/-- `_RunnerSchedule`, with the instant of the registration. -/
structure RunnerSchedule where
  runner : ScheduledRunner
  registeredAt : Instant
  firedOn : Dict String Date := []
  skippedOn : Dict String Date := []

/-- A trigger that a pass at `now` found due. -/
structure Dispatch where
  runner : String
  trigger : String
  now : Instant
  deriving DecidableEq, Repr

/-- `PlatformScheduler`, with the status of every runner. -/
structure PlatformScheduler where
  statuses : String → RunnerStatus := fun _ => .created
  schedules : Dict String RunnerSchedule := []
  dispatching : List Dispatch := []
  dispatched : List Dispatch := []
  /-- What reached a strategy. -/
  delivered : List Dispatch := []

/-- What happens at a scheduler. -/
inductive SchedulerEvent
  | register (runner : ScheduledRunner) (recovers : Bool) (now : Instant)
  | setStatus (identity : String) (status : RunnerStatus)
  | tick (now : Instant)
  | deliver (index : Nat)

namespace RunnerSchedule

variable (isTradingDay : Date → Bool)

/-- `_seed_missed_triggers`. -/
def seedMissedTriggers (s : RunnerSchedule) (now : Instant) :
    RunnerSchedule :=
  if isTradingDay now.day then
    { s with
      skippedOn := s.runner.triggers.foldl (fun skippedOn trigger =>
        if now.time < trigger.triggerTime then skippedOn
        else if trigger.catchUp = .skip then
          skippedOn.put trigger.name now.day
        else skippedOn) s.skippedOn }
  else s

/-- The schedule that a registration makes. -/
def registered (runner : ScheduledRunner) (now : Instant) : RunnerSchedule :=
  seedMissedTriggers isTradingDay { runner, registeredAt := now } now

/-- The triggers of a running runner that a pass finds due. -/
def due (s : RunnerSchedule) (now : Instant) : List TimeTrigger :=
  if isTradingDay now.day then
    s.runner.triggers.filter fun trigger =>
      s.firedOn.get trigger.name ≠ some now.day
        ∧ s.skippedOn.get trigger.name ≠ some now.day
        ∧ trigger.triggerTime ≤ now.time
  else []

/-- The marks a pass makes before it dispatches. -/
def fire (s : RunnerSchedule) (now : Instant) (due : List TimeTrigger) :
    RunnerSchedule :=
  { s with
    firedOn := due.foldl (fun firedOn trigger =>
      firedOn.put trigger.name now.day) s.firedOn }

end RunnerSchedule

namespace PlatformScheduler

variable (isTradingDay : Date → Bool)

def setStatus (s : PlatformScheduler) (identity : String)
    (status : RunnerStatus) : PlatformScheduler :=
  { s with statuses := Function.update s.statuses identity status }

/-- `register`: `ValueError` for an identity that is registered, and
`start`'s `RuntimeError` for a runner that is not fresh, change nothing. -/
def register (s : PlatformScheduler) (runner : ScheduledRunner)
    (recovers : Bool) (now : Instant) : PlatformScheduler :=
  match s.schedules.get runner.identity with
  | some _ => s
  | none =>
      if s.statuses runner.identity = .created then
        { s.setStatus runner.identity (if recovers then .running else .frozen)
          with
          schedules := s.schedules.put runner.identity
            (RunnerSchedule.registered isTradingDay runner now) }
      else s

/-- What a pass finds due of one registered runner. -/
def dueOf (s : PlatformScheduler) (now : Instant)
    (entry : String × RunnerSchedule) : List TimeTrigger :=
  if s.statuses entry.1 = .running then entry.2.due isTradingDay now else []

/-- What a pass finds due. -/
def tickDue (s : PlatformScheduler) (now : Instant) : List Dispatch :=
  s.schedules.flatMap fun entry =>
    (s.dueOf isTradingDay now entry).map fun trigger =>
      { runner := entry.1, trigger := trigger.name, now }

/-- `_tick`, up to the start of its dispatch threads. -/
def tick (s : PlatformScheduler) (now : Instant) : PlatformScheduler :=
  { s with
    schedules := s.schedules.map fun entry =>
      (entry.1, entry.2.fire now (s.dueOf isTradingDay now entry))
    dispatching := s.dispatching ++ s.tickDue isTradingDay now
    dispatched := s.dispatched ++ s.tickDue isTradingDay now }

/-- One dispatch thread: `dispatch_time_trigger` looks at the status
again. -/
def deliver (s : PlatformScheduler) (index : Nat) : PlatformScheduler :=
  match s.dispatching[index]? with
  | none => s
  | some dispatch =>
      let s := { s with dispatching := s.dispatching.eraseIdx index }
      if s.statuses dispatch.runner = .running then
        { s with delivered := s.delivered ++ [dispatch] }
      else s

/-- One event. -/
def step (s : PlatformScheduler) : SchedulerEvent → PlatformScheduler
  | .register runner recovers now => s.register isTradingDay runner recovers now
  | .setStatus identity status => s.setStatus identity status
  | .tick now => s.tick isTradingDay now
  | .deliver index => s.deliver index

/-- A scheduler after some events. -/
def run (s : PlatformScheduler) (events : List SchedulerEvent) :
    PlatformScheduler :=
  events.foldl (step isTradingDay) s

end PlatformScheduler

end AlgoPlatform
