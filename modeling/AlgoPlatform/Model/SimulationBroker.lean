/-
`SimulationBroker`: the fake broker behind paper trading
(`brokers/simulation/`).

# What is injected

`SimAnswers` is what the injected parts answer during one call: the draws of
the random generator, the clock, the catalog, the price source, and
whether a callback raises. The matching asks once for each pass and order,
so answers are given by pass and order and nothing is shared.

# What is kept

An order is never removed, so its id, a UUID, is its position in the
book. `fills`, `changes` and `delivered` are logs of the model: what was
filled, which writes changed a status or a filled quantity, and what the
callbacks were handed. Limit and trigger prices are left out: nothing
matches on them.

# What is handed out

The updates of a step are handed to the callbacks after the lock is
released, and before the next step begins: dispatches do not overlap. A
callback returns or raises; it does not call back into the broker, so a
step is never entered a second time before it is over.
-/
import AlgoPlatform.Basis.Dict
import AlgoPlatform.Basis.Step
import AlgoPlatform.Model.Broker
import AlgoPlatform.Model.MarketData

open Basis

namespace AlgoPlatform

-- ======================================================= configuration

/-- What the matching decided for an order when it was placed. -/
inductive FillOutcome
  | fullFill | partialThenFill | rejected
  deriving DecidableEq, Repr

/-- `SimulationConfig`, with what its fields check. -/
structure SimulationConfig where
  synchronous : Bool := false
  ackLatencySeconds : ℚ := 1 / 20
  fillLatencySeconds : ℚ := 1 / 5
  authShouldFail : Bool := false
  connectionFailureProbability : ℚ := 0
  ackTimeoutProbability : ℚ := 0
  rejectionProbability : ℚ := 0
  partialFillProbability : ℚ := 0
  minPartialFillSteps : Int := 2
  maxPartialFillSteps : Int := 3
  websocketConnectFailureProbability : ℚ := 0
  minSteps_ge : 2 ≤ minPartialFillSteps := by decide
  maxSteps_ge : 2 ≤ maxPartialFillSteps := by decide

/-- `resolved_max_partial_fill_steps`. -/
def SimulationConfig.resolvedMaxPartialFillSteps (cfg : SimulationConfig) :
    Int :=
  max cfg.minPartialFillSteps cfg.maxPartialFillSteps

/-- What the injected parts answer during one call. -/
structure SimAnswers where
  /-- The draws of `rng.random()`, by what is drawn for. -/
  connection : ℚ := 1
  rejection : ℚ := 1
  partialFill : ℚ := 1
  ackTimeout : ℚ := 1
  websocket : ℚ := 1
  /-- `rng.randint(lo, hi)` is `lo` and this, modulo the range. -/
  randint : Nat := 0
  /-- `clock.now()` when the call is placed, modified or cancelled. -/
  placedAt : ℚ := 0
  /-- `clock.now()` at an order's turn in a pass. -/
  now : Nat → Nat → ℚ := fun _ _ => 0
  /-- The catalog's `get_by_symbol`. -/
  getBySymbol : Exchange → String → Option BrokerInstrument := fun _ _ => none
  /-- The price source's `get_ltp` at an order's turn in a pass. -/
  getLtp : Nat → Nat → Except Exc ℚ := fun _ _ => .ok 0
  /-- What a callback raises when it is handed an order's update of a
  pass. -/
  hears : Nat → Nat → Nat → Option Exc := fun _ _ _ => none
  /-- The price source's `get_ltp` in `get_positions`. -/
  getLast : InstrumentIdentifier → Except Exc ℚ := fun _ => .ok 0

-- ============================================================== orders

/-- `_SimOrder`. -/
structure SimOrder where
  tag : String
  exchange : Exchange
  tradingsymbol : String
  transactionType : TransactionType
  product : ProductType
  quantity : Int
  orderType : OrderType
  status : OrderStatus
  filledQuantity : Int
  averagePrice : Option ℚ
  placedAt : ℚ
  filledAt : Option ℚ
  exchangeUpdatedAt : ℚ
  statusMessage : Option String
  outcome : FillOutcome
  resolveAt : ℚ
  remainingSteps : Int
  stepQuantity : Int
  deriving DecidableEq, Repr

/-- What positions are kept by. -/
abbrev PositionKey : Type := Exchange × String × ProductType

def SimOrder.key (o : SimOrder) : PositionKey :=
  (o.exchange, o.tradingsymbol, o.product)

/-- `_SimPosition`. -/
structure SimPosition where
  quantity : Int := 0
  averagePrice : ℚ := 0
  realizedPnl : ℚ := 0
  deriving DecidableEq, Repr

/-- A quantity with the sign of its side. -/
def TransactionType.signed : TransactionType → Int → Int
  | .buy, quantity => quantity
  | .sell, quantity => -quantity

/-- `_update_position`. -/
def updatePosition (position : SimPosition)
    (transactionType : TransactionType) (filledQty : Int) (fillPrice : ℚ) :
    SimPosition :=
  let signedDelta := transactionType.signed filledQty
  if position.quantity = 0 ∨ (0 < position.quantity ↔ 0 < signedDelta) then
    let totalQty := position.quantity + signedDelta
    if totalQty = 0 then
      { quantity := 0, averagePrice := 0, realizedPnl := position.realizedPnl }
    else
      let totalCost := position.averagePrice * |position.quantity|
        + fillPrice * |signedDelta|
      { quantity := totalQty, averagePrice := totalCost / |totalQty|
        realizedPnl := position.realizedPnl }
  else
    let closingQty := min |position.quantity| |signedDelta|
    let realized :=
      if 0 < position.quantity then
        closingQty * (fillPrice - position.averagePrice)
      else closingQty * (position.averagePrice - fillPrice)
    let newQuantity := position.quantity + signedDelta
    { quantity := newQuantity
      averagePrice :=
        if |signedDelta| - closingQty = 0 then
          if newQuantity ≠ 0 then position.averagePrice else 0
        else fillPrice
      realizedPnl := position.realizedPnl + realized }

/-- `_decide_outcome`. -/
def decideOutcome (cfg : SimulationConfig) (env : SimAnswers) : FillOutcome :=
  if env.rejection < cfg.rejectionProbability then .rejected
  else if env.partialFill < cfg.partialFillProbability then .partialThenFill
  else .fullFill

/-- `_build_sim_order`. -/
def buildSimOrder (cfg : SimulationConfig) (env : SimAnswers)
    (request : PlaceOrderRequest) (outcome : FillOutcome) (placedAt : ℚ) :
    SimOrder :=
  let quantity : Int := request.quantity
  let steps :=
    if outcome = .partialThenFill then
      cfg.minPartialFillSteps + env.randint
        % (cfg.resolvedMaxPartialFillSteps - cfg.minPartialFillSteps + 1)
    else 1
  let stepQuantity :=
    if outcome = .partialThenFill then max 1 (quantity / steps) else quantity
  { tag := request.tag, exchange := request.exchange
    tradingsymbol := request.tradingsymbol
    transactionType := request.transactionType, product := request.product
    quantity, orderType := request.orderType, status := .open
    filledQuantity := 0, averagePrice := none, placedAt, filledAt := none
    exchangeUpdatedAt := placedAt, statusMessage := none, outcome
    resolveAt := placedAt + cfg.fillLatencySeconds
    remainingSteps := steps, stepQuantity }

/-- `_apply_fill`: the order filled. -/
def SimOrder.fill (o : SimOrder) (filledDelta : Int) (fillPrice : ℚ) :
    SimOrder :=
  let newFilled := o.filledQuantity + filledDelta
  { o with averagePrice := some ((o.averagePrice.getD 0 * o.filledQuantity
             + fillPrice * filledDelta) / newFilled)
           filledQuantity := newFilled }

/-- How much the next step of an order's plan fills. -/
def SimOrder.stepQty (o : SimOrder) : Int :=
  let remainingToFill := o.quantity - o.filledQuantity
  if o.remainingSteps ≤ 1 then remainingToFill
  else min o.stepQuantity remainingToFill

/-- The end of `_process_due_order`: one step of the plan is done. -/
def SimOrder.finishStep (cfg : SimulationConfig) (now : ℚ) (o : SimOrder) :
    SimOrder :=
  if o.filledQuantity ≥ o.quantity then
    { o with remainingSteps := 0, exchangeUpdatedAt := now
             status := .complete, filledAt := some now }
  else
    { o with remainingSteps := max 0 (o.remainingSteps - 1)
             exchangeUpdatedAt := now, status := .open
             resolveAt := now + cfg.fillLatencySeconds }

/-- The simulated rejection. -/
def SimOrder.reject (now : ℚ) (o : SimOrder) : SimOrder :=
  { o with status := .rejected, statusMessage := some "Simulated rejection"
           exchangeUpdatedAt := now, remainingSteps := 0 }

/-- What `cancel_order` sets. -/
def SimOrder.cancel (now : ℚ) (o : SimOrder) : SimOrder :=
  { o with status := .cancelled, exchangeUpdatedAt := now
           remainingSteps := 0 }

/-- Input to `modify_order`, with what its fields check. -/
structure ModifyOrderRequest where
  brokerOrderId : Nat
  quantity : Option Int := none
  orderType : Option OrderType := none
  quantity_pos : ∀ q, quantity = some q → 0 < q := by simp

/-- What `modify_order` sets. -/
def SimOrder.modify (request : ModifyOrderRequest) (now : ℚ) (o : SimOrder) :
    SimOrder :=
  { o with quantity := request.quantity.getD o.quantity
           orderType := request.orderType.getD o.orderType
           exchangeUpdatedAt := now }

-- ============================================================== broker

/-- A fill of an order. -/
structure Fill where
  brokerOrderId : Nat
  quantity : Int
  price : ℚ
  deriving DecidableEq, Repr

/-- A snapshot to announce, and whether its status or filled quantity is
another than before. -/
structure Update where
  brokerOrderId : Nat
  order : SimOrder
  changed : Bool
  deriving DecidableEq, Repr

structure SimulationBroker where
  authenticated : Bool := false
  wsConnected : Bool := false
  orders : List SimOrder := []
  ordersByTag : Dict String Nat := []
  positions : Dict PositionKey SimPosition := []
  /-- How many callbacks are registered. -/
  callbacks : Nat := 0
  /-- Whether the matching thread runs. -/
  matching : Bool := false
  fills : List Fill := []
  changes : List Update := []
  /-- What was handed to which callback. -/
  delivered : List (Nat × Update) := []
  deriving DecidableEq, Repr

/-- A program of the broker. -/
abbrev Sim (α : Type) : Type := Step SimulationBroker Exc α

namespace SimulationBroker

/-- `__init__`: the thread runs unless the broker is synchronous. -/
def init (cfg : SimulationConfig) : SimulationBroker :=
  { matching := !cfg.synchronous }

/-- `_positions.get(key, _SimPosition())`. -/
def position (b : SimulationBroker) (key : PositionKey) : SimPosition :=
  (b.positions.get key).getD {}

/-- An order with this id and state goes back to the book; the snapshot to
announce. -/
def write (i : Nat) (old new : SimOrder) : Sim Update := fun b =>
  let changed := new.status ≠ old.status
    ∨ new.filledQuantity ≠ old.filledQuantity
  let update : Update := ⟨i, new, changed⟩
  (.ok update,
    { b with orders := b.orders.set i new
             changes := if changed then b.changes ++ [update]
               else b.changes })

/-- `_apply_fill`: what it does to the broker. -/
def applyFill (i : Nat) (o : SimOrder) (filledDelta : Int) (fillPrice : ℚ)
    (b : SimulationBroker) : SimulationBroker :=
  { b with positions := b.positions.put o.key
             (updatePosition (b.position o.key) o.transactionType
               filledDelta fillPrice)
           fills := b.fills ++ [⟨i, filledDelta, fillPrice⟩] }

/-- `_process_due_order`: the snapshot to announce, if anything
changed. -/
def processDueOrder (cfg : SimulationConfig) (force : Bool) (now : ℚ)
    (getLtp : Except Exc ℚ) (i : Nat) (o : SimOrder) : Sim (Option Update) :=
  if o.status.isTerminal then pure none
  else if ¬ force ∧ now < o.resolveAt then pure none
  else if o.outcome = .rejected then some <$> write i o (o.reject now)
  else do
    let fillPrice ← Step.lift getLtp
    if 0 < o.stepQty then
      Step.modify (applyFill i o o.stepQty fillPrice)
      some <$> write i o ((o.fill o.stepQty fillPrice).finishStep cfg now)
    else some <$> write i o (o.finishStep cfg now)

/-- One turn of the loop of `_resolve_due_orders` under the lock. -/
def processTurn (cfg : SimulationConfig) (force : Bool) (env : SimAnswers)
    (pass i : Nat) : Sim (Option Update) := do
  let b ← Step.get
  match b.orders[i]? with
  | none => pure none
  | some o =>
      processDueOrder cfg force (env.now pass i) (env.getLtp pass i) i o

/-- That loop. -/
def processAll (cfg : SimulationConfig) (force : Bool) (env : SimAnswers)
    (pass : Nat) : List Nat → Sim (List Update)
  | [] => pure []
  | i :: ids => do
      let updated ← processTurn cfg force env pass i
      let updates ← processAll cfg force env pass ids
      pure (updated.toList ++ updates)

/-- The loop of `_dispatch_order_update` over the callbacks. -/
def callAll (hears : Nat → Option Exc) (update : Update) :
    List Nat → Sim Unit
  | [] => pure ()
  | callback :: callbacks => do
      Step.modify fun b =>
        { b with delivered := b.delivered ++ [(callback, update)] }
      match hears callback with
      | some e => Step.lift (.error e)
      | none => callAll hears update callbacks

/-- `_dispatch_order_update`. -/
def dispatchOrderUpdate (hears : Nat → Option Exc) (update : Update) :
    Sim Unit := do
  let b ← Step.get
  if b.wsConnected then callAll hears update (List.range b.callbacks)
  else pure ()

/-- The loop of `_resolve_due_orders` after the lock. -/
def dispatchAll (env : SimAnswers) (pass : Nat) : List Update → Sim Unit
  | [] => pure ()
  | update :: updates => do
      dispatchOrderUpdate (env.hears pass update.brokerOrderId) update
      dispatchAll env pass updates

/-- `_resolve_due_orders`. -/
def resolveDueOrders (cfg : SimulationConfig) (force : Bool) (env : SimAnswers)
    (pass : Nat) : Sim (List Update) := do
  let b ← Step.get
  let updates ← processAll cfg force env pass (List.range b.orders.length)
  dispatchAll env pass updates
  pure updates

/-- The loop of `_pump`: passes until one announces nothing. -/
def drain (cfg : SimulationConfig) (env : SimAnswers) : Nat → Nat → Sim Unit
  | 0, _ => pure ()
  | fuel + 1, pass => do
      let updates ← resolveDueOrders cfg true env pass
      if updates = [] then pure () else drain cfg env fuel (pass + 1)

end SimulationBroker

/-- How many forced passes a plan takes that has these steps left, this
quantity to fill, and fills this much in a step. -/
def passesFor (stepQuantity : Int) : Nat → Int → Nat
  | 0, _ => 1
  | 1, _ => 1
  | steps + 2, toFill =>
      let left := toFill - max 0 (min stepQuantity toFill)
      if left ≤ 0 then 1 else 1 + passesFor stepQuantity (steps + 1) left

/-- How many forced passes change the order, if nothing raises. -/
def SimOrder.passesLeft (o : SimOrder) : Nat :=
  if o.status.isTerminal then 0
  else if o.outcome = .rejected then 1
  else passesFor o.stepQuantity o.remainingSteps.toNat
    (o.quantity - o.filledQuantity)

namespace SimulationBroker

/-- How many forced passes the book takes, if nothing raises. -/
def passesLeft (b : SimulationBroker) : Nat :=
  (b.orders.map SimOrder.passesLeft).foldr max 0

/-- `_pump`. -/
def pump (cfg : SimulationConfig) (env : SimAnswers) : Sim Unit := do
  let b ← Step.get
  if cfg.synchronous then drain cfg env (b.passesLeft + 1) 0
  else do
    let _ ← resolveDueOrders cfg false env 0
    pure ()

-- =============================================================== calls

/-- `_require_authenticated`. -/
def requireAuthenticated (b : SimulationBroker) : Except Exc Unit :=
  if b.authenticated then .ok ()
  else .error (.broker ⟨.authentication,
    "SimulationBroker is not authenticated; call authenticate() first"⟩)

/-- `_simulate_read_call`, and its like in the mutating calls: `doing` and
`what` are where their messages differ. -/
def simulateCall (cfg : SimulationConfig) (env : SimAnswers)
    (timeout : Option ℚ) (doing what : String) : Except Exc Unit :=
  if env.connection < cfg.connectionFailureProbability then
    .error (.broker ⟨.connection, "Simulated connection failure" ++ doing⟩)
  else if timeout.any (· < cfg.ackLatencySeconds) then
    .error (.broker ⟨.timeout, "Simulated " ++ what
      ++ " exceeded the caller's timeout budget"⟩)
  else .ok ()

/-- `authenticate`. -/
def authenticate (cfg : SimulationConfig) : Sim Unit :=
  if cfg.authShouldFail then
    Step.lift (.error (.broker ⟨.authentication,
      "Simulated authentication failure"⟩))
  else Step.modify fun b => { b with authenticated := true }

/-- `connect_websocket`. -/
def connectWebsocket (cfg : SimulationConfig) (env : SimAnswers) : Sim Unit :=
  if env.websocket < cfg.websocketConnectFailureProbability then
    Step.lift (.error (.broker ⟨.connection,
      "Simulated websocket connection failure"⟩))
  else Step.modify fun b => { b with wsConnected := true }

/-- The part of `place_order` before the order is recorded. -/
def checkPlacing (cfg : SimulationConfig) (env : SimAnswers)
    (request : PlaceOrderRequest) (timeout : Option ℚ)
    (b : SimulationBroker) : Except Exc Unit := do
  b.requireAuthenticated
  simulateCall cfg env timeout " placing order" "ack"
  if (env.getBySymbol request.exchange request.tradingsymbol).isNone then
    throw (.broker ⟨.orderRejected, "Unknown instrument "
      ++ request.exchange.value ++ ":" ++ request.tradingsymbol⟩)

/-- Put the order of a request in the book. -/
def record (cfg : SimulationConfig) (env : SimAnswers)
    (request : PlaceOrderRequest) (b : SimulationBroker) : SimulationBroker :=
  { b with orders := b.orders ++ [buildSimOrder cfg env request
             (decideOutcome cfg env) env.placedAt]
           ordersByTag := b.ordersByTag.put request.tag b.orders.length }

/-- What `place_order` raises for a lost ack. -/
def ackTimeoutError : Exc :=
  .broker ⟨.timeout, "Simulated ack timeout -- the order may have reached "
    ++ "the broker; use find_order_by_tag() to check before retrying"⟩

/-- `place_order`. -/
def placeOrder (cfg : SimulationConfig) (env : SimAnswers)
    (request : PlaceOrderRequest) (timeout : Option ℚ) : Sim Nat := do
  let b ← Step.get
  Step.lift (b.checkPlacing cfg env request timeout)
  Step.modify (record cfg env request)
  if env.ackTimeout < cfg.ackTimeoutProbability then
    Step.lift (.error ackTimeoutError)
  else do
    pump cfg env
    pure b.orders.length

/-- The checks of `modify_order`, ending in the order to write. -/
def checkModifying (cfg : SimulationConfig) (env : SimAnswers)
    (request : ModifyOrderRequest) (timeout : Option ℚ)
    (b : SimulationBroker) : Except Exc SimOrder := do
  b.requireAuthenticated
  simulateCall cfg env timeout " modifying order" "modify"
  match b.orders[request.brokerOrderId]? with
  | none => throw (.broker ⟨.orderNotFound,
      "No order " ++ toString request.brokerOrderId⟩)
  | some o =>
      if o.status.isTerminal then
        throw (.broker ⟨.orderNotModifiable, "Order "
          ++ toString request.brokerOrderId ++ " is already "
          ++ o.status.value⟩)
      else if request.quantity.any (· < o.filledQuantity) then
        throw (.broker ⟨.invalidOrderRequest,
          "Cannot modify quantity below what has already filled"⟩)
      else pure o

/-- `modify_order`. -/
def modifyOrder (cfg : SimulationConfig) (env : SimAnswers)
    (request : ModifyOrderRequest) (timeout : Option ℚ) : Sim Unit := do
  let b ← Step.get
  let o ← Step.lift (b.checkModifying cfg env request timeout)
  let updated ← write request.brokerOrderId o (o.modify request env.placedAt)
  dispatchOrderUpdate (env.hears 0 request.brokerOrderId) updated

/-- The checks of `cancel_order`, ending in the order to write. -/
def checkCancelling (cfg : SimulationConfig) (env : SimAnswers)
    (brokerOrderId : Nat) (timeout : Option ℚ) (b : SimulationBroker) :
    Except Exc SimOrder := do
  b.requireAuthenticated
  simulateCall cfg env timeout " cancelling order" "cancel"
  match b.orders[brokerOrderId]? with
  | none => throw (.broker ⟨.orderNotFound,
      "No order " ++ toString brokerOrderId⟩)
  | some o =>
      if o.status.isTerminal then
        throw (.broker ⟨.orderNotCancellable, "Order "
          ++ toString brokerOrderId ++ " is already " ++ o.status.value⟩)
      else pure o

/-- `cancel_order`. -/
def cancelOrder (cfg : SimulationConfig) (env : SimAnswers)
    (brokerOrderId : Nat) (timeout : Option ℚ) : Sim Unit := do
  let b ← Step.get
  let o ← Step.lift (b.checkCancelling cfg env brokerOrderId timeout)
  let updated ← write brokerOrderId o (o.cancel env.placedAt)
  dispatchOrderUpdate (env.hears 0 brokerOrderId) updated

/-- A read that pumps before it looks. -/
def read {α : Type} (cfg : SimulationConfig) (env : SimAnswers)
    (timeout : Option ℚ) (look : SimulationBroker → Except Exc α) :
    Sim α := do
  Step.lift (simulateCall cfg env timeout "" "call")
  pump cfg env
  let b ← Step.get
  Step.lift (look b)

/-- `get_order`. -/
def getOrder (cfg : SimulationConfig) (env : SimAnswers) (brokerOrderId : Nat)
    (timeout : Option ℚ) : Sim SimOrder :=
  read cfg env timeout fun b =>
    match b.orders[brokerOrderId]? with
    | none => .error (.broker ⟨.orderNotFound,
        "No order " ++ toString brokerOrderId⟩)
    | some o => .ok o

/-- `get_orders`. -/
def getOrders (cfg : SimulationConfig) (env : SimAnswers) (timeout : Option ℚ) :
    Sim (List SimOrder) :=
  read cfg env timeout fun b => .ok b.orders

/-- `find_order_by_tag`. -/
def findOrderByTag (cfg : SimulationConfig) (env : SimAnswers) (tag : String)
    (timeout : Option ℚ) : Sim (Option SimOrder) :=
  read cfg env timeout fun b =>
    .ok ((b.ordersByTag.get tag).bind fun id => b.orders[id]?)

/-- One row of `get_positions`. -/
structure PositionRow where
  key : PositionKey
  quantity : Int
  averagePrice : ℚ
  lastPrice : ℚ
  pnl : ℚ
  deriving DecidableEq, Repr

/-- `get_positions`: the open positions, each at a price it asks for. -/
def getPositions (cfg : SimulationConfig) (env : SimAnswers)
    (timeout : Option ℚ) : Sim (List PositionRow) :=
  read cfg env timeout fun b =>
    (b.positions.filter (·.2.quantity ≠ 0)).mapM fun (key, position) => do
      let lastPrice ← env.getLast ⟨key.1, key.2.1⟩
      pure { key, quantity := position.quantity
             averagePrice := position.averagePrice, lastPrice
             pnl := position.realizedPnl
               + position.quantity * (lastPrice - position.averagePrice) }

/-- One turn of `_MatchingEngine.run`: an exception ends the thread. -/
def tick (cfg : SimulationConfig) (env : SimAnswers) (b : SimulationBroker) :
    SimulationBroker :=
  if b.matching then
    match resolveDueOrders cfg false env 0 b with
    | (.error _, b') => { b' with matching := false }
    | (.ok _, b') => b'
  else b

/-- `close`. -/
def close (b : SimulationBroker) : SimulationBroker :=
  { b with matching := false, wsConnected := false }

-- ================================================================ runs

/-- What can happen to the broker. -/
inductive Op
  | authenticate
  | connectWebsocket
  | disconnectWebsocket
  | registerOrderUpdateCallback
  | close
  | placeOrder (request : PlaceOrderRequest) (timeout : Option ℚ)
  | modifyOrder (request : ModifyOrderRequest) (timeout : Option ℚ)
  | cancelOrder (brokerOrderId : Nat) (timeout : Option ℚ)
  | getOrder (brokerOrderId : Nat) (timeout : Option ℚ)
  | getOrders (timeout : Option ℚ)
  | findOrderByTag (tag : String) (timeout : Option ℚ)
  | getPositions (timeout : Option ℚ)
  | tick

/-- One step, whether it returns or raises. -/
def step (cfg : SimulationConfig) (b : SimulationBroker) :
    Op × SimAnswers → SimulationBroker
  | (.authenticate, _) => (authenticate cfg b).2
  | (.connectWebsocket, env) => (connectWebsocket cfg env b).2
  | (.disconnectWebsocket, _) => { b with wsConnected := false }
  | (.registerOrderUpdateCallback, _) => { b with callbacks := b.callbacks + 1 }
  | (.close, _) => b.close
  | (.placeOrder request timeout, env) => (placeOrder cfg env request timeout b).2
  | (.modifyOrder request timeout, env) =>
      (modifyOrder cfg env request timeout b).2
  | (.cancelOrder id timeout, env) => (cancelOrder cfg env id timeout b).2
  | (.getOrder id timeout, env) => (getOrder cfg env id timeout b).2
  | (.getOrders timeout, env) => (getOrders cfg env timeout b).2
  | (.findOrderByTag tag timeout, env) =>
      (findOrderByTag cfg env tag timeout b).2
  | (.getPositions timeout, env) => (getPositions cfg env timeout b).2
  | (.tick, env) => b.tick cfg env

/-- A run. -/
def run (cfg : SimulationConfig) (b : SimulationBroker)
    (steps : List (Op × SimAnswers)) : SimulationBroker :=
  steps.foldl (step cfg) b

end SimulationBroker

end AlgoPlatform
