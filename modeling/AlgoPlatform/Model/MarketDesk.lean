/-
The market-data service with the strategy runners on it
(`dependency_container.py`, `strategy_runner.py`): ticks are broadcast
to every runner, a runner's monitor asks the service for prices, and
what a monitor subscribes to is what the service polls.

A runner drops what reaches it unless it is RUNNING, and an exception of
its strategy freezes it. A run collects what can be seen of the prices
on the way.
-/
import AlgoPlatform.Model.Monitor

namespace AlgoPlatform

/-- A `StrategyRunner` with its Strategy-1 monitor. -/
structure Runner where
  ctx : StrategyContext
  settings : MonitorSettings
  running : Bool := true
  monitor : Monitor := {}

/-- The service and the runners registered on it. -/
structure Desk where
  config : MarketDataConfig
  service : MarketDataService := {}
  runners : List Runner := []

/-- What reaches the desk. -/
inductive DeskEvent
  /-- The websocket delivers a tick. -/
  | tick (tick : Tick) (now : ℚ) (readings : Nat → TickReading)
  /-- `poll_active`. -/
  | pollActive (answers : List PollAnswer) (now : ℚ)
      (readings : InstrumentIdentifier → Nat → TickReading)
  /-- Someone calls `get_ltps`. -/
  | getLtps (instruments : List InstrumentIdentifier)
      (r : MarketDataService.ReadReading)
  /-- Someone calls `get_ltp`. -/
  | getLtp (instrument : InstrumentIdentifier)
      (r : MarketDataService.ReadReading)
  | subscribe (instruments : List InstrumentIdentifier)
  | unsubscribe (instruments : List InstrumentIdentifier)
  /-- A runner's monitor attaches, on recovery or after an entry. -/
  | attach (k : Nat) (db : Db) (scan : List Nat)
  /-- A runner's monitoring cycle; the service answers its poll. -/
  | cycle (k : Nat) (connected : Except Exc Bool) (checkedAt : ℚ)
      (read : MarketDataService.ReadReading) (evaluatedAt : ℚ)
      (evaluation : EvaluationReading)
  /-- A runner is shut down. -/
  | stop (k : Nat)

/-- What can be seen of a monitor's step: the leg prices an exit was
decided on. -/
def MonitorStep.seen (st : MonitorStep) : List Sighting :=
  match st.exitCall with
  | some reason =>
      [.decided reason (st.monitor.tracker.bind (·.latestCallPrice))
        (st.monitor.tracker.bind (·.latestPutPrice))]
  | none => []

namespace MarketDataService

/-- What a monitor asks of the gateway. -/
def ask (s : MarketDataService) : Option GatewayCall → MarketDataService
  | some (.subscribe instruments) => s.subscribe instruments
  | some (.unsubscribe instruments) => s.unsubscribe instruments
  | none => s

end MarketDataService

namespace Desk

/-- `_run_guarded`: one step of a runner's monitor, if it is running; an
exception freezes the runner. -/
def dispatch (d : Desk) (k : Nat) (f : Runner → MonitorStep) :
    Desk × List Sighting :=
  match d.runners[k]? with
  | none => (d, [])
  | some runner =>
      if runner.running then
        let st := f runner
        ({ d with
            service := d.service.ask st.gateway
            runners := d.runners.set k
              { runner with monitor := st.monitor, running := st.raised.isNone } },
         st.seen)
      else (d, [])

/-- `TickRouter.broadcast`: every runner in the order it registered. -/
def broadcast (d : Desk) (tick : Tick) (readings : Nat → TickReading) :
    List Nat → Desk × List Sighting
  | [] => (d, [])
  | k :: ks =>
      let (d, seen) := d.dispatch k fun runner =>
        runner.monitor.onTick runner.settings tick (readings k)
      let (d, rest) := broadcast d tick readings ks
      (d, seen ++ rest)

/-- Every runner. -/
def everyone (d : Desk) : List Nat := List.range d.runners.length

/-- `_on_tick`: an implausible tick is dropped; any other is stored and
broadcast. -/
def onTick (d : Desk) (tick : Tick) (now : ℚ) (readings : Nat → TickReading) :
    Desk × List Sighting :=
  if isPlausible tick then
    let d := { d with service :=
      { d.service with
          cache := d.service.cache.update tick.instrument tick.lastPrice now } }
    let (d, seen) := d.broadcast tick readings d.everyone
    (d, .stored tick.lastPrice :: seen)
  else (d, [])

/-- The loop of `_poll` with broadcast: every answered price is stored,
and a positive one broadcast. -/
def storeAndBroadcast (d : Desk) (now : ℚ)
    (readings : InstrumentIdentifier → Nat → TickReading) :
    List (InstrumentIdentifier × ℚ) → Desk × List Sighting
  | [] => (d, [])
  | (i, price) :: rest =>
      let d := { d with service :=
        { d.service with cache := d.service.cache.update i price now } }
      let (d, seen) :=
        if 0 < price then
          d.broadcast { instrument := i, lastPrice := price } (readings i)
            d.everyone
        else (d, [])
      let (d, seen') := storeAndBroadcast d now readings rest
      (d, .stored price :: seen ++ seen')

/-- `poll_active`. -/
def pollActive (d : Desk) (answers : List PollAnswer) (now : ℚ)
    (readings : InstrumentIdentifier → Nat → TickReading) :
    Desk × List Sighting :=
  if d.service.subscriptions.active = [] then (d, [])
  else
    match MarketDataService.resilientPoll d.config.pollRetryAttempts answers with
    | none => (d, [])
    | some prices =>
        let (d, seen) := d.storeAndBroadcast now readings prices.items
        (d, prices.items.map (fun p => .polled p.2) ++ seen)

/-- What a runner's poll reads of the service: prices are asked for only
if they are due. -/
def askPrices (d : Desk) (runner : Runner) (connected : Except Exc Bool)
    (checkedAt : ℚ) (read : MarketDataService.ReadReading) :
    Desk × List (InstrumentIdentifier × ℚ) × List Sighting :=
  match runner.monitor.active, runner.monitor.monitored with
  | true, some monitored =>
      if runner.monitor.isMarketDataStale runner.settings connected checkedAt then
        let (service, ltps, seen) := d.service.getLtps d.config
          [monitored.callInstrument, monitored.putInstrument] read
        ({ d with service }, ltps, seen)
      else (d, [], [])
  | _, _ => (d, [], [])

/-- `dispatch_monitor_cycle`. -/
def cycle (d : Desk) (k : Nat) (connected : Except Exc Bool) (checkedAt : ℚ)
    (read : MarketDataService.ReadReading) (evaluatedAt : ℚ)
    (evaluation : EvaluationReading) : Desk × List Sighting :=
  match d.runners[k]? with
  | none => (d, [])
  | some runner =>
      if runner.running then
        let (d, ltps, seen) := d.askPrices runner connected checkedAt read
        let (d, seen') := d.dispatch k fun runner =>
          runner.monitor.pollAndCheck runner.settings
            { connected, checkedAt, ltps := .ok ltps, polledAt := read.polledAt,
              evaluatedAt, evaluation }
        (d, seen ++ seen')
      else (d, [])

/-- `stop`: the monitor stops, and the runner with it. -/
def stop (d : Desk) (k : Nat) : Desk × List Sighting :=
  let (d, seen) := d.dispatch k fun runner => runner.monitor.stop
  ({ d with runners := d.runners.modify k fun r => { r with running := false } },
   seen)

/-- One event. -/
def step (d : Desk) : DeskEvent → Desk × List Sighting
  | .tick tick now readings => d.onTick tick now readings
  | .pollActive answers now readings => d.pollActive answers now readings
  | .getLtps instruments r =>
      let (service, _, seen) := d.service.getLtps d.config instruments r
      ({ d with service }, seen)
  | .getLtp instrument r =>
      let (service, _, seen) := d.service.getLtp d.config instrument r
      ({ d with service }, seen)
  | .subscribe instruments =>
      ({ d with service := d.service.subscribe instruments }, [])
  | .unsubscribe instruments =>
      ({ d with service := d.service.unsubscribe instruments }, [])
  | .attach k db scan =>
      d.dispatch k fun runner =>
        (runner.monitor.attach (Monitor.found runner.ctx db scan)).1
  | .cycle k connected checkedAt read evaluatedAt evaluation =>
      d.cycle k connected checkedAt read evaluatedAt evaluation
  | .stop k => d.stop k

/-- A run of the desk, and everything that can be seen on the way. -/
def run (d : Desk) : List DeskEvent → Desk × List Sighting
  | [] => (d, [])
  | e :: es =>
      let (d, seen) := d.step e
      let (d, rest) := run d es
      (d, seen ++ rest)

end Desk

end AlgoPlatform
