/-
The monitor of one open straddle (`strategy_1/monitor.py`), with the
premium tracker it feeds (`combined_premium.py`) and the exit decision
it asks for (`exit_logic.evaluate_exit`).

The monitor places no order: a step of it ends with at most one call of
`ExitLogic.exit`, which is part of the step's result here. What the
environment answers a step with (clocks, the halt flag, the gateway) is
the step's reading. A step that raises still leaves the state it had
mutated.
-/
import Mathlib.Data.Rat.Floor
import AlgoPlatform.Model.Context
import AlgoPlatform.Model.MarketData
import AlgoPlatform.Model.Repositories

open Basis Basis.Session

namespace AlgoPlatform

-- ============================================================ decision

/-- `evaluate_exit`: the highest-priority trigger that holds. The text
of a decision is only logged. -/
def evaluateExit (nowIstTime hardCutoffTime : ℚ) (halted : Bool)
    (combinedPremium targetPremium stoplossPremium : Option ℚ) :
    Option ExitReason :=
  if hardCutoffTime ≤ nowIstTime then some .timeout
  else if halted then some .killSwitch
  else
    match combinedPremium with
    | none => none
    | some premium =>
        if stoplossPremium.any fun level => level ≤ premium then some .stoploss
        else if targetPremium.any fun level => premium ≤ level then some .target
        else none

-- ============================================================= tracker

/-- `compute_combined_premium`. -/
def computeCombinedPremium (cePrice pePrice : ℚ) : Except Exc ℚ :=
  if cePrice < 0 then .error (.value "ce_price must be non-negative")
  else if pePrice < 0 then .error (.value "pe_price must be non-negative")
  else .ok (cePrice + pePrice)

/-- `CombinedPremiumTracker`: the latest price of each leg. Its
constructor refuses two legs on one instrument. -/
structure CombinedPremiumTracker where
  callInstrument : InstrumentIdentifier
  putInstrument : InstrumentIdentifier
  latestCallPrice : Option ℚ := none
  latestPutPrice : Option ℚ := none
  distinct : callInstrument ≠ putInstrument

namespace CombinedPremiumTracker

/-- `current_snapshot`: the premium, once both legs have a price. -/
def currentSnapshot (t : CombinedPremiumTracker) : Except Exc (Option ℚ) :=
  match t.latestCallPrice, t.latestPutPrice with
  | some ce, some pe => (computeCombinedPremium ce pe).map some
  | _, _ => .ok none

/-- The leg a tick belongs to takes its price. -/
def record (t : CombinedPremiumTracker) (tick : Tick) :
    CombinedPremiumTracker :=
  if tick.instrument = t.callInstrument then
    { t with latestCallPrice := some tick.lastPrice }
  else if tick.instrument = t.putInstrument then
    { t with latestPutPrice := some tick.lastPrice }
  else t

/-- `on_tick`: the tracker after the tick, and the snapshot it returns
or the exception it raises. -/
def onTick (t : CombinedPremiumTracker) (tick : Tick) :
    CombinedPremiumTracker × Except Exc (Option ℚ) :=
  if tick.instrument = t.callInstrument ∨ tick.instrument = t.putInstrument then
    (t.record tick, (t.record tick).currentSnapshot)
  else (t, .ok none)

end CombinedPremiumTracker

-- ============================================================== monitor

/-- What the monitor reads of its configuration. -/
structure MonitorSettings where
  hardCutoffTime : ℚ
  maxStaleness : ℚ
  maxStaleness_pos : 0 < maxStaleness

/-- `_MonitoredPosition`, less what is only displayed. -/
structure MonitoredPosition where
  positionId : Nat
  callInstrument : InstrumentIdentifier
  putInstrument : InstrumentIdentifier
  targetPremium : Option ℚ
  stoplossPremium : Option ℚ
  deriving DecidableEq, Repr

inductive AttachOutcome
  | monitoring | pendingExit | nothingToMonitor
  deriving DecidableEq, Repr

/-- `PositionMonitor`. -/
structure Monitor where
  active : Bool := false
  monitored : Option MonitoredPosition := none
  tracker : Option CombinedPremiumTracker := none
  lastTickAt : Option ℚ := none
  lastCombinedPremium : Option ℚ := none

/-- What the monitor asks of the market-data gateway. -/
inductive GatewayCall
  | subscribe (instruments : List InstrumentIdentifier)
  | unsubscribe (instruments : List InstrumentIdentifier)
  deriving DecidableEq, Repr

/-- What a step of the monitor comes to: the state it leaves, the
reason it called `ExitLogic.exit` with, if it did, what it asked of the
gateway, and the exception it ended in. -/
structure MonitorStep where
  monitor : Monitor
  exitCall : Option ExitReason := none
  gateway : Option GatewayCall := none
  raised : Option Exc := none

/-- The readings one evaluation takes: the clock, the risk gateway's
answer, and the exception `ExitLogic.exit` raises if it is called and
raises one. -/
structure EvaluationReading where
  nowIstTime : ℚ
  halted : Except Exc Bool
  exitRaises : Option Exc := none

/-- The readings of `on_tick`. -/
structure TickReading where
  now : ℚ
  evaluation : EvaluationReading

/-- The readings of `poll_and_check`, in the order they are taken: the
staleness check's, the answer of `get_ltps` and the instant it is
stamped with if it is asked, and the evaluation's, made at
`evaluatedAt`. -/
structure PollReading where
  connected : Except Exc Bool
  checkedAt : ℚ
  ltps : Except Exc (List (InstrumentIdentifier × ℚ))
  polledAt : ℚ
  evaluatedAt : ℚ
  evaluation : EvaluationReading

namespace Monitor

variable (settings : MonitorSettings)

-- =============================================================== attach

/-- `by_type[option_type]`: the last trade of a type. -/
def byType (optionType : OptionType) (trades : List (Nat × Trade)) :
    Option Trade :=
  ((trades.filter (·.2.optionType = optionType)).getLast?).map Prod.snd

def instrumentOf (t : Trade) : InstrumentIdentifier :=
  { exchange := t.exchange, tradingsymbol := t.tradingSymbol }

/-- `_load_monitored`. -/
def loadMonitored (positionId : Nat) (scan : List Nat) :
    Session MonitoredPosition := do
  let position ← orRaise positionId (← PositionRepository.getById positionId)
  let trades ← PositionRepository.listTradesForPosition scan positionId
  match byType .ce trades, byType .pe trades with
  | some call, some put =>
      pure { positionId, callInstrument := instrumentOf call,
             putInstrument := instrumentOf put,
             targetPremium := position.targetPremium,
             stoplossPremium := position.stoplossPremium }
  | _, _ => throw (.value ("position " ++ toString positionId
      ++ " does not have both CE and PE legs to monitor"))

/-- The session of `attach`: the outcome that ends it here, or the
position to monitor. -/
def attachSession (ctx : StrategyContext) (scan : List Nat) :
    Session (Except AttachOutcome MonitoredPosition) := do
  match ← PositionRepository.getByInstanceAndDate ctx.instanceId ctx.today with
  | none => pure (.error .nothingToMonitor)
  | some (positionId, position) =>
      match position.state with
      | .idle | .entryPending | .closed | .error =>
          pure (.error .nothingToMonitor)
      | .exitPending => pure (.error .pendingExit)
      | .open => .ok <$> loadMonitored positionId scan

/-- What `attach` finds in a database: nothing to watch, a position to
watch, or an exception. -/
def found (ctx : StrategyContext) (db : Db) (scan : List Nat) :
    Except Exc (Except AttachOutcome MonitoredPosition) :=
  (attachSession ctx scan db).map Prod.fst

/-- `attach`, given what it found: the step, and the outcome it returns
if it does. -/
def attach (m : Monitor)
    (found : Except Exc (Except AttachOutcome MonitoredPosition)) :
    MonitorStep × Option AttachOutcome :=
  match found with
  | .error e => ({ monitor := m, raised := some e }, none)
  | .ok (.error outcome) => ({ monitor := m }, some outcome)
  | .ok (.ok monitored) =>
      if h : monitored.callInstrument = monitored.putInstrument then
        ({ monitor := { m with monitored := some monitored },
           raised := some (.value ("call_instrument and put_instrument must "
             ++ "be different instruments")) }, none)
      else
        ({ monitor :=
             { active := true, monitored := some monitored,
               tracker := some { callInstrument := monitored.callInstrument,
                                 putInstrument := monitored.putInstrument,
                                 distinct := h },
               lastTickAt := none, lastCombinedPremium := none },
           gateway := some (.subscribe
             [monitored.callInstrument, monitored.putInstrument]) },
         some .monitoring)

/-- What `_unsubscribe` asks for. -/
def unsubscribeCall (m : Monitor) : Option GatewayCall :=
  m.monitored.map fun p => .unsubscribe [p.callInstrument, p.putInstrument]

/-- `stop`. -/
def stop (m : Monitor) : MonitorStep :=
  if m.active then
    { monitor := { m with active := false }, gateway := m.unsubscribeCall }
  else { monitor := m }

-- =========================================================== evaluation

/-- `_trigger_exit`: the exit is called, and whatever comes of it the
monitor stops watching. -/
def triggerExit (m : Monitor) (reason : ExitReason) (raises : Option Exc) :
    MonitorStep :=
  { monitor := { m with active := false }, exitCall := some reason,
    gateway := m.unsubscribeCall, raised := raises }

/-- `_evaluate`. -/
def evaluate (m : Monitor) (combinedPremium : Option ℚ)
    (r : EvaluationReading) : MonitorStep :=
  match m.active, m.monitored with
  | true, some monitored =>
      let m := { m with lastCombinedPremium := combinedPremium }
      match r.halted with
      | .error e => { monitor := m, raised := some e }
      | .ok halted =>
          match evaluateExit r.nowIstTime settings.hardCutoffTime halted
            combinedPremium monitored.targetPremium monitored.stoplossPremium with
          | some reason => m.triggerExit reason r.exitRaises
          | none => { monitor := m }
  | _, _ => { monitor := m }

/-- `_current_premium`. -/
def currentPremium (m : Monitor) : Except Exc (Option ℚ) :=
  match m.tracker with
  | some tracker => tracker.currentSnapshot
  | none => .ok none

/-- The last statement of `on_tick` and of `poll_and_check`:
`self._evaluate(self._current_premium())`. -/
def evaluateCurrent (m : Monitor) (r : EvaluationReading) : MonitorStep :=
  match m.currentPremium with
  | .error e => { monitor := m, raised := some e }
  | .ok premium => m.evaluate settings premium r

/-- `on_tick`. -/
def onTick (m : Monitor) (tick : Tick) (r : TickReading) : MonitorStep :=
  match m.active, m.tracker, m.monitored with
  | true, some tracker, some monitored =>
      let lastTickAt :=
        if tick.instrument = monitored.callInstrument
          ∨ tick.instrument = monitored.putInstrument then some r.now
        else m.lastTickAt
      let m := { m with lastTickAt, tracker := some (tracker.onTick tick).1 }
      match (tracker.onTick tick).2 with
      | .error e => { monitor := m, raised := some e }
      | .ok _ => m.evaluateCurrent settings r.evaluation
  | _, _, _ => { monitor := m }

/-- `_is_market_data_stale`: no tick yet, the last one too old, or the
feed not connected; an exception of the gateway counts as the latter. -/
def isMarketDataStale (m : Monitor) (connected : Except Exc Bool)
    (now : ℚ) : Bool :=
  match connected, m.lastTickAt with
  | .ok true, some last => settings.maxStaleness < now - last
  | _, _ => true

/-- One instrument of `_poll_prices`: its price, if there is one, is fed
to the tracker as a tick. -/
def feed (t : CombinedPremiumTracker) (i : InstrumentIdentifier)
    (price : Option ℚ) : CombinedPremiumTracker × Except Exc Unit :=
  match price with
  | none => (t, .ok ())
  | some price =>
      ((t.onTick { instrument := i, lastPrice := price }).1,
       (t.onTick { instrument := i, lastPrice := price }).2.map fun _ => ())

/-- The loop of `_poll_prices`: the call leg first, and an exception
there leaves the put leg as it was. -/
def feedBoth (t : CombinedPremiumTracker) (monitored : MonitoredPosition)
    (ltps : List (InstrumentIdentifier × ℚ)) :
    CombinedPremiumTracker × Except Exc Unit :=
  match feed t monitored.callInstrument
    (ltps.lookup monitored.callInstrument) with
  | (t, .error e) => (t, .error e)
  | (t, .ok ()) =>
      feed t monitored.putInstrument (ltps.lookup monitored.putInstrument)

/-- `_poll_prices`: an exception of the gateway is swallowed, one of the
tracker is not. -/
def pollPrices (m : Monitor)
    (ltps : Except Exc (List (InstrumentIdentifier × ℚ))) :
    Monitor × Except Exc Unit :=
  match m.monitored, ltps with
  | some monitored, .ok ltps =>
      match m.tracker with
      | none => (m, .error .assertion)
      | some tracker =>
          ({ m with tracker := some (feedBoth tracker monitored ltps).1 },
           (feedBoth tracker monitored ltps).2)
  | _, _ => (m, .ok ())

/-- `poll_and_check`. -/
def pollAndCheck (m : Monitor) (r : PollReading) : MonitorStep :=
  if m.active then
    let (m, polled) :=
      if m.isMarketDataStale settings r.connected r.checkedAt then
        m.pollPrices r.ltps
      else (m, .ok ())
    match polled with
    | .error e => { monitor := m, raised := some e }
    | .ok () => m.evaluateCurrent settings r.evaluation
  else { monitor := m }

end Monitor

-- ================================================================= runs

/-- One call of the monitor, with what it reads; `attach` reads the
database. -/
inductive MonitorEvent
  | attach (db : Db) (scan : List Nat)
  | tick (tick : Tick) (r : TickReading)
  | poll (r : PollReading)
  | stop

namespace Monitor

variable (ctx : StrategyContext) (settings : MonitorSettings)

/-- One call. -/
def step (m : Monitor) : MonitorEvent → MonitorStep
  | .attach db scan => (m.attach (found ctx db scan)).1
  | .tick tick r => m.onTick settings tick r
  | .poll r => m.pollAndCheck settings r
  | .stop => m.stop

/-- The monitor after a sequence of calls. -/
def after (m : Monitor) (es : List MonitorEvent) : Monitor :=
  es.foldl (fun m e => (m.step ctx settings e).monitor) m

end Monitor

end AlgoPlatform
