/-
The platform as a process: how the container brings every part of it up
and takes it down again (`dependency_container.py`), and what the process
around it adds (`app.py`).

A start is a sequence of steps, each of which may raise. What the parts
outside answer is an argument (`StartAnswers`, `StopAnswers`); which
component is up afterwards is the container's own state. The two sockets
are those of the live platform, an order-update ticker and a market-data
ticker (`brokers/kite/websocket.py`, `brokers/kite/market_ticker.py`); an
open one is a `_ticker` that is set. The threads of the two schedulers
start when they are asked to.

Every start builds its runners anew, so a runner is an object with a
number of its own, and its identity is that of the declared instance: the
account and the instance rows are found again at every start.
-/
import AlgoPlatform.Basis.Dict
import AlgoPlatform.Model.RunnerLifecycle

open Basis

namespace AlgoPlatform

inductive BrokerName
  | kite | simulation
  deriving DecidableEq, Repr

/-- What may be raised on the way. -/
inductive LifecycleExc
  | brokerModeMismatch (expected actual : BrokerName)
  /-- A `BrokerError`. -/
  | broker (text : String)
  /-- The `ValueError` of `PlatformScheduler.register`. -/
  | alreadyRegistered (identity : String)
  /-- The `RuntimeError` of `StrategyRunner.start`. -/
  | notCreated (identity : String) (status : RunnerStatus)
  /-- Any other `Exception`. -/
  | other (text : String)
  deriving DecidableEq, Repr

-- ====================================================== configuration

/-- `StrategyInstanceSpec`. -/
structure StrategyInstanceSpec where
  strategyId : String
  instrument : String
  account : String
  deriving DecidableEq, Repr

/-- What a container is constructed over: the declared instances, the
active broker, and the ids of the account and instance rows. -/
structure ContainerConfig where
  instances : List StrategyInstanceSpec
  activeBroker : BrokerName := .kite
  accountId : String → Nat := fun _ => 1
  instanceId : String → String → Nat → Nat := fun _ _ _ => 1
  instances_ne : instances ≠ []

/-- `str(StrategyIdentity)`. -/
def ContainerConfig.identity (config : ContainerConfig)
    (spec : StrategyInstanceSpec) : String :=
  let accountId := config.accountId spec.account
  spec.strategyId ++ "/" ++ spec.instrument ++ "@acct" ++ toString accountId
    ++ "#inst"
    ++ toString (config.instanceId spec.strategyId spec.instrument accountId)

-- ============================================================== state

/-- A runner object. -/
structure BuiltRunner where
  number : Nat
  identity : String
  deriving DecidableEq, Repr

/-- One runner for every declared instance, numbered from the next free
number. -/
def ContainerConfig.runnersFrom (config : ContainerConfig) (first : Nat) :
    List BuiltRunner :=
  config.instances.zipIdx.map fun entry =>
    { number := first + entry.2, identity := config.identity entry.1 }

/-- `DependencyContainer`, with the state of what it starts and stops. -/
structure Container where
  started : Bool := false
  /-- `_runners`: those of the last start. -/
  runners : List BuiltRunner := []
  /-- How many runners were built. -/
  built : Nat := 0
  status : Nat → RunnerStatus := fun _ => .created
  /-- `PlatformScheduler._schedules`, and whether its thread runs. -/
  schedules : Dict String BuiltRunner := []
  schedulerLoop : Bool := false
  /-- `MonitoringScheduler._runners`, and whether its thread runs. -/
  monitored : Dict String BuiltRunner := []
  monitorLoop : Bool := false
  /-- The order-update callbacks, and whether their ticker is open. -/
  orderCallbacks : Nat := 0
  orderTicker : Bool := false
  /-- Whether the market-data ticker is open, and who gets its ticks. -/
  tickTicker : Bool := false
  consumers : List BuiltRunner := []

/-- What opening a ticker meets. -/
inductive TickerAnswer
  | connects
  /-- No ticker was made. -/
  | factoryRaises (e : LifecycleExc)
  /-- One was made, and its `connect` raised. -/
  | connectRaises (e : LifecycleExc)
  deriving DecidableEq, Repr

/-- `HealthStatus`. -/
structure HealthStatus where
  healthy : Bool
  detail : String := ""
  deriving DecidableEq, Repr

/-- What the registration of a runner meets: whether `recover` raises, and
how reading its triggers ends. -/
structure RegisterAnswer where
  recoverRaises : Bool := false
  triggers : Except LifecycleExc Unit := .ok ()

/-- What a start meets. -/
structure StartAnswers where
  authenticate : Except LifecycleExc Unit := .ok ()
  healthCheck : Except LifecycleExc HealthStatus := .ok { healthy := true }
  ensureAccounts : Except LifecycleExc Unit := .ok ()
  /-- How the `build_runner` calls end. -/
  buildRunners : Except LifecycleExc Unit := .ok ()
  reconcile : Except LifecycleExc Unit := .ok ()
  orderTicker : TickerAnswer := .connects
  tickTicker : TickerAnswer := .connects
  register : BuiltRunner → RegisterAnswer := fun _ => {}

/-- What a stop meets: which steps raise once they have let go. -/
structure StopAnswers where
  marketData : Except LifecycleExc Unit := .ok ()
  broker : Except LifecycleExc Unit := .ok ()
  engine : Except LifecycleExc Unit := .ok ()

-- ============================================================= runners

/-- The status that `start` leaves. -/
def RunnerStatus.afterRecover (raises : Bool) : RunnerStatus :=
  if raises then .frozen else .running

/-- The status that `stop` leaves. -/
def RunnerStatus.afterStop : RunnerStatus → RunnerStatus
  | .created | .running | .stopped => .stopped
  | .frozen => .frozen

/-- The status that a dispatch leaves. -/
def RunnerStatus.afterDispatch (raises : Bool) : RunnerStatus → RunnerStatus
  | .running => if raises then .frozen else .running
  | .created => .created
  | .stopped => .stopped
  | .frozen => .frozen

namespace Container

/-- A part of a start or a stop. -/
abbrev Act (α : Type) : Type := Step Container LifecycleExc α

def setStatus (s : Container) (r : BuiltRunner) (status : RunnerStatus) :
    Container :=
  { s with status := Function.update s.status r.number status }

/-- `StrategyRunner.start`. -/
def startRunner (r : BuiltRunner) (recoverRaises : Bool) : Act Unit := do
  let s ← Step.get
  if s.status r.number = .created then
    Step.modify fun s => s.setStatus r (.afterRecover recoverRaises)
  else Step.lift (.error (.notCreated r.identity (s.status r.number)))

/-- `StrategyRunner.stop`. -/
def stopRunner (s : Container) (r : BuiltRunner) : Container :=
  s.setStatus r (s.status r.number).afterStop

/-- A dispatch, by whichever thread. -/
def dispatch (s : Container) (r : BuiltRunner) (raises : Bool) : Container :=
  s.setStatus r ((s.status r.number).afterDispatch raises)

-- ========================================================== schedulers

/-- `PlatformScheduler.register`. -/
def schedule (r : BuiltRunner) (a : RegisterAnswer) : Act Unit := do
  let s ← Step.get
  if (s.schedules.get r.identity).isSome then
    Step.lift (.error (.alreadyRegistered r.identity))
  else do
    startRunner r a.recoverRaises
    Step.lift a.triggers
    Step.modify fun s => { s with schedules := s.schedules.put r.identity r }

/-- `MonitoringScheduler.register`. -/
def monitor (s : Container) (r : BuiltRunner) : Container :=
  { s with monitored := s.monitored.put r.identity r }

/-- `MarketDataService.register_consumer`. -/
def consume (s : Container) (r : BuiltRunner) : Container :=
  { s with consumers := s.consumers ++ [r] }

/-- The loop of `start` over the runners. -/
def registerAll (a : StartAnswers) : List BuiltRunner → Act Unit
  | [] => pure ()
  | r :: rs => do
      schedule r (a.register r)
      Step.modify fun s => (s.monitor r).consume r
      registerAll a rs

/-- `PlatformScheduler.stop`. -/
def stopScheduler (s : Container) : Container :=
  { (s.schedules.map Prod.snd).foldl stopRunner
      { s with schedulerLoop := false } with schedules := [] }

/-- `MonitoringScheduler.stop`. -/
def stopMonitoring (s : Container) : Container :=
  { s with monitorLoop := false, monitored := [] }

-- ============================================================= sockets

/-- `connect` of a ticker stream, where `isOpen` says whether it has a
ticker; with whether it has one afterwards. -/
def openTicker (isOpen : Bool) : TickerAnswer → Except LifecycleExc Unit × Bool
  | .connects => (.ok (), true)
  | .factoryRaises e => if isOpen then (.ok (), true) else (.error e, false)
  | .connectRaises e => if isOpen then (.ok (), true) else (.error e, true)

/-- `register_order_update_callback` and `connect_websocket`. -/
def connectOrderTicker (a : TickerAnswer) : Act Unit := do
  Step.modify fun s => { s with orderCallbacks := s.orderCallbacks + 1 }
  let s ← Step.get
  Step.modify fun s => { s with orderTicker := (openTicker s.orderTicker a).2 }
  Step.lift (openTicker s.orderTicker a).1

/-- `MarketDataService.start`. -/
def startMarketData (a : TickerAnswer) : Act Unit := do
  let s ← Step.get
  Step.modify fun s => { s with tickTicker := (openTicker s.tickTicker a).2 }
  Step.lift (openTicker s.tickTicker a).1

/-- `except BrokerError`. -/
def unlessBroker : LifecycleExc → Act Unit
  | .broker _ => pure ()
  | e => Step.lift (.error e)

-- ========================================================== start, stop

/-- The health check's verdict. -/
def verifyHealth (health : HealthStatus) : Except LifecycleExc Unit :=
  if health.healthy then .ok ()
  else .error (.broker ("broker connectivity check failed at startup: "
    ++ if health.detail = "" then "unhealthy" else health.detail))

/-- The runners of a start are built. -/
def buildRunners (config : ContainerConfig) (s : Container) : Container :=
  { s with
    runners := config.runnersFrom s.built
    built := s.built + config.instances.length }

/-- What `start` does before it connects anything. -/
def prepare (config : ContainerConfig) (a : StartAnswers) : Act Unit := do
  Step.lift a.authenticate
  let health ← Step.lift a.healthCheck
  Step.lift (verifyHealth health)
  Step.lift a.ensureAccounts
  Step.lift a.buildRunners
  Step.modify (buildRunners config)
  Step.lift a.reconcile

/-- What follows: the sockets, the runners, and the loops. -/
def connect (a : StartAnswers) : Act Unit := do
  Step.tryCatch (connectOrderTicker a.orderTicker) unlessBroker
  startMarketData a.tickTicker
  let s ← Step.get
  registerAll a s.runners
  Step.modify fun s =>
    { s with schedulerLoop := true, monitorLoop := true, started := true }

/-- `start`. -/
def start (config : ContainerConfig) (a : StartAnswers) : Act Unit := do
  let s ← Step.get
  if s.started then pure ()
  else do
    prepare config a
    connect a

/-- One step of `stop`, isolated. -/
def isolated (letGo : Container → Container)
    (ending : Except LifecycleExc Unit) : Act Unit :=
  Step.tryCatch
    (do Step.modify letGo
        Step.lift ending)
    fun _ => pure ()

/-- `stop`. -/
def stop (a : StopAnswers) : Act Unit := do
  let s ← Step.get
  if s.started then do
    isolated stopMonitoring (.ok ())
    isolated stopScheduler (.ok ())
    isolated (fun s => { s with tickTicker := false }) a.marketData
    isolated (fun s => { s with orderTicker := false }) a.broker
    isolated id a.engine
    Step.modify fun s => { s with started := false }
  else pure ()

end Container

-- ============================================================= process

namespace Application

/-- The check of `expected_broker`. -/
def verifyBroker (config : ContainerConfig) :
    Option BrokerName → Except LifecycleExc Unit
  | none => .ok ()
  | some expected =>
      if config.activeBroker = expected then .ok ()
      else .error (.brokerModeMismatch expected config.activeBroker)

/-- `start`: a start that raises is stopped, and raises. -/
def start (config : ContainerConfig) (expected : Option BrokerName)
    (a : StartAnswers) (b : StopAnswers) : Container.Act Unit := do
  Step.lift (verifyBroker config expected)
  Step.tryCatch (Container.start config a) fun e => do
    Container.stop b
    Step.lift (.error e)

end Application

/-- What happens to the process: a start or a stop of the application, or
a thread that reaches a runner. -/
inductive ProcessEvent
  | start (expected : Option BrokerName) (a : StartAnswers) (b : StopAnswers)
  | stop (a : StopAnswers)
  | dispatch (r : BuiltRunner) (raises : Bool)

namespace Container

/-- One event. -/
def step (config : ContainerConfig) (s : Container) :
    ProcessEvent → Container
  | .start expected a b => (Application.start config expected a b s).2
  | .stop a => (stop a s).2
  | .dispatch r raises => s.dispatch r raises

/-- The container after some events. -/
def run (config : ContainerConfig) (s : Container)
    (events : List ProcessEvent) : Container :=
  events.foldl (step config) s

end Container

/-- `Application.run`: what threads do while the process waits, and how the
waiting ends. -/
def Application.run (config : ContainerConfig) (expected : Option BrokerName)
    (a : StartAnswers) (b : StopAnswers) (meanwhile : List (BuiltRunner × Bool))
    (waiting : Except LifecycleExc Unit) (last : StopAnswers) :
    Container.Act Unit := do
  Application.start config expected a b
  Step.modify fun s => meanwhile.foldl (fun s d => s.dispatch d.1 d.2) s
  Container.stop last
  Step.lift waiting

end AlgoPlatform
