/-
The collector's control loop (`collector_service.py`) over its windows and
its tick stream (`full_tick_stream.py`).

One iteration of `_run` is one program: the phase transition, the watchdog
and, when it is due, the recompute of every underlying's window. It stops
at the first exception, which the loop logs; what was done before stays
done. What the outside answers within an iteration is given with it: the
phase, the clock, the socket's state as the ticker's thread left it, the
sources of each window, and which calls to the database and the socket
raise.

The stream is its intended set and whether it has a ticker; that a new
socket subscribes the intended set when it connects is not in question
here. Metrics and log messages are left out.
-/
import Mathlib.Data.Finset.Basic
import AlgoPlatform.Basis.Step
import AlgoPlatform.Model.AtmWindow

open Basis

namespace AlgoPlatform

-- ============================================================== config

inductive CollectorPhase
  | preOpen | connect | collect | freeze | flush | closed
  deriving DecidableEq, Repr

/-- `ReconnectConfig`. -/
structure ReconnectConfig where
  graceSeconds : ℚ := 60
  restartBackoffSeconds : ℚ := 5
  heartbeatWarningSeconds : ℚ := 20
  heartbeatCriticalSeconds : ℚ := 60

/-- `CollectorConfig`, as far as the loop reads it. -/
structure CollectorConfig where
  underlyings : List String
  strikesEachSide : Nat := 10
  recomputeIntervalSeconds : ℚ := 30
  reconnect : ReconnectConfig := {}

-- =============================================================== state

/-- `CollectorTickStream`: whether there is a ticker, and the intended
set. -/
structure CollectorTickStream where
  ticker : Bool := false
  subscribed : Finset Nat := ∅

/-- `CollectorService`, with its windows and its stream. -/
structure CollectorService where
  phase : Option CollectorPhase := none
  lastRecompute : ℚ := 0
  disconnectedSince : Option ℚ := none
  connectedSince : Option ℚ := none
  lastRestart : ℚ := 0
  hbLevel : Nat := 0
  atm : AtmWindowManager := {}
  stream : CollectorTickStream := {}

/-- What building and connecting a new ticker comes to. -/
inductive Spawned
  | connects
  | factoryRaises
  | connectRaises
  deriving DecidableEq, Repr

/-- What the outside answers within one iteration. -/
structure IterationAnswers where
  phase : CollectorPhase
  mono : ℚ
  spawned : Spawned := .connects
  dead : Bool := false
  connected : Bool := true
  lastTickAt : ℚ := 0
  window : String → WindowAnswers
  upsertRaises : String → Bool := fun _ => false
  /-- Whether the message to a connected socket raises. -/
  unsubscribeRaises : String → Bool := fun _ => false
  subscribeRaises : String → Bool := fun _ => false

/-- What ends an iteration early. -/
inductive CollectorFailure
  | spawn
  | upsert (underlying : String)
  | unsubscribe (underlying : String)
  | subscribe (underlying : String)
  deriving DecidableEq, Repr

namespace CollectorService

/-- A part of an iteration. -/
abbrev Act (α : Type) : Type := Step CollectorService CollectorFailure α

variable (cfg : CollectorConfig) (a : IterationAnswers)

def modifyStream (f : CollectorTickStream → CollectorTickStream) : Act Unit :=
  Step.modify fun s => { s with stream := f s.stream }

def raise (e : CollectorFailure) : Act Unit := Step.lift (.error e)

-- ============================================================== stream

/-- `_spawn_locked`. -/
def spawn : Act Unit :=
  match a.spawned with
  | .connects => modifyStream ({ · with ticker := true })
  | .factoryRaises => raise .spawn
  | .connectRaises => do
      modifyStream ({ · with ticker := true })
      raise .spawn

/-- `CollectorTickStream.start`. -/
def startStream : Act Unit := do
  let s ← Step.get
  if s.stream.ticker then pure () else spawn a

/-- `CollectorTickStream.restart`; the intended set stays. -/
def restart : Act Unit := do
  modifyStream ({ · with ticker := false })
  spawn a

/-- `CollectorTickStream.stop`; closing the ticker does not raise. -/
def stopStream : Act Unit :=
  modifyStream fun _ => { ticker := false, subscribed := ∅ }

/-- `CollectorTickStream.unsubscribe`. -/
def unsubscribe (underlying : String) (tokens : List Nat) : Act Unit := do
  modifyStream fun s => { s with subscribed := s.subscribed \ tokens.toFinset }
  let s ← Step.get
  if s.stream.ticker ∧ a.unsubscribeRaises underlying then
    raise (.unsubscribe underlying)
  else pure ()

/-- `CollectorTickStream.subscribe`. -/
def subscribe (underlying : String) (tokens : List Nat) : Act Unit := do
  modifyStream fun s => { s with subscribed := s.subscribed ∪ tokens.toFinset }
  let s ← Step.get
  if s.stream.ticker ∧ a.subscribeRaises underlying then
    raise (.subscribe underlying)
  else pure ()

-- ======================================================== control loop

/-- `_on_phase`. -/
def onPhase : Act Unit := do
  let s ← Step.get
  if s.phase = some a.phase then pure ()
  else do
    Step.modify fun s => { s with phase := some a.phase }
    match a.phase with
    | .connect => do
        Step.modify fun s => { s with atm := s.atm.reset }
        startStream a
    | .collect => Step.modify fun s => { s with lastRecompute := 0 }
    | .closed | .preOpen => do
        stopStream
        Step.modify fun s => { s with atm := s.atm.reset }
    | .freeze | .flush => pure ()

/-- `_heartbeat_stalled`: whether to rebuild, with the new level. -/
def heartbeatStalled (s : CollectorService) : Bool × Nat :=
  let baseline :=
    if a.lastTickAt ≤ 0 then s.connectedSince.getD a.mono else a.lastTickAt
  let idle := a.mono - baseline
  if cfg.reconnect.heartbeatCriticalSeconds ≤ idle then (true, max s.hbLevel 2)
  else if cfg.reconnect.heartbeatWarningSeconds ≤ idle then
    (false, max s.hbLevel 1)
  else (false, 0)

/-- `_restart_stream`. -/
def restartStream : Act Unit := do
  restart a
  Step.modify fun s =>
    { s with
      lastRestart := a.mono, disconnectedSince := none
      connectedSince := none, hbLevel := 0, lastRecompute := 0 }

/-- `_watchdog`. -/
def watchdog : Act Unit := do
  if a.phase = .preOpen ∨ a.phase = .flush ∨ a.phase = .closed then
    Step.modify fun s =>
      { s with disconnectedSince := none, connectedSince := none, hbLevel := 0 }
  else if a.connected ∧ ¬ a.dead then do
    Step.modify fun s =>
      { s with
        connectedSince := some (s.connectedSince.getD a.mono)
        hbLevel := if s.connectedSince = none then 0 else s.hbLevel
        disconnectedSince := none }
    if a.phase = .collect then do
      let s ← Step.get
      let (stalled, hbLevel) := heartbeatStalled cfg a s
      Step.modify fun s => { s with hbLevel := hbLevel }
      if stalled then restartStream a else pure ()
    else pure ()
  else do
    Step.modify fun s =>
      { s with
        connectedSince := none
        disconnectedSince := some (s.disconnectedSince.getD a.mono) }
    let s ← Step.get
    let downFor := a.mono - s.disconnectedSince.getD a.mono
    if a.dead ∨ cfg.reconnect.graceSeconds ≤ downFor then
      if a.mono - s.lastRestart < cfg.reconnect.restartBackoffSeconds then
        pure ()
      else restartStream a
    else pure ()

/-- `_upsert_instruments`. -/
def upsertInstruments (underlying : String) : Act Unit :=
  if a.upsertRaises underlying then raise (.upsert underlying) else pure ()

/-- `if items: act(items)`. -/
def ifAny {α : Type} (items : List α) (act : List α → Act Unit) : Act Unit :=
  match items with
  | [] => pure ()
  | items => act items

/-- What `_recompute_all` does with one diff. -/
def applyDiff (underlying : String) (diff : WindowDiff) : Act Unit := do
  ifAny diff.newInstruments fun _ => upsertInstruments a underlying
  ifAny diff.toUnsubscribe (unsubscribe a underlying)
  ifAny diff.toSubscribe (subscribe a underlying)

/-- One underlying of `_recompute_all`. -/
def recomputeOne (underlying : String) : Act Unit := do
  let s ← Step.get
  match s.atm.recompute cfg.strikesEachSide underlying (a.window underlying) with
  | .error _ => pure ()
  | .ok (diff, atm) => do
      Step.modify fun s => { s with atm := atm }
      applyDiff a underlying diff

/-- `_recompute_all`, of the underlyings that are left. -/
def recomputeAll : List String → Act Unit
  | [] => pure ()
  | underlying :: underlyings => do
      recomputeOne cfg a underlying
      recomputeAll underlyings

/-- One pass through the loop of `_run`: whether it recomputed. -/
def iteration : Act Bool := do
  onPhase a
  watchdog cfg a
  let s ← Step.get
  if a.phase = .collect
      ∧ cfg.recomputeIntervalSeconds ≤ a.mono - s.lastRecompute then do
    recomputeAll cfg a cfg.underlyings
    Step.modify fun s => { s with lastRecompute := a.mono }
    pure true
  else pure false

/-- The collector after some iterations; an exception ends only its own. -/
def run (s : CollectorService) (answers : List IterationAnswers) :
    CollectorService :=
  answers.foldl (fun s a => (iteration cfg a s).2) s

end CollectorService

end AlgoPlatform
