/-
The repositories: every read and write the services make, as sessions.

A repository method that takes a loaded ORM object takes that row's
primary key here, and reads what it needs from the row; within one unit
of work nothing else can come between. Every write flushes, so the
schema is asked at each one.

Reads that name no ORDER BY take the order the database happens to
return (`scan`).
-/
import AlgoPlatform.Model.Db

open Basis Basis.Session

namespace AlgoPlatform

/-- `BaseRepository._get_or_create`: look up, else insert inside a
savepoint; an integrity error there is resolved by looking up again. -/
def getOrCreate {α : Type} (lookup : Session (Option (Nat × α)))
    (insert : Session (Nat × α)) : Session ((Nat × α) × Bool) := do
  match ← lookup with
  | some row => pure (row, false)
  | none =>
      tryCatch (do pure (← insert, true)) fun exc =>
        match exc with
        | .integrity => do
            match ← lookup with
            | some row => pure (row, false)
            | none => throw .integrity
        | _ => throw exc

/-- A row by primary key, or `NotFoundError`. -/
def orRaise {α : Type} (id : Nat) : Option α → Session α
  | some row => pure row
  | none => throw (.notFound id)

@[simp] theorem meets_orRaise {α : Type} (id : Nat) (row : Option α) {db : Db}
    (Q : α → Db → Prop) {E : Exc → Prop} :
    Meets (orRaise id row) db Q E
      ↔ (∀ x, row = some x → Q x db) ∧ (row = none → E (.notFound id)) := by
  cases row <;> simp [orRaise]

-- ============================================================== orders

namespace OrderRepository

def getById (id : Nat) : Session (Option Order) := fetch (·.orders[id]?)

def getByIdOrRaise (id : Nat) : Session Order := do orRaise id (← getById id)

def getByBrokerOrderId (brokerOrderId : String) :
    Session (Option (Nat × Order)) := do
  scalarOneOrNone
    (← fetch fun r =>
      select (fun o => o.brokerOrderId = some brokerOrderId) r.orders)

def getByBrokerTag (brokerTag : String) : Session (Option (Nat × Order)) := do
  scalarOneOrNone
    (← fetch fun r => select (fun o => o.brokerTag = some brokerTag) r.orders)

/-- Create a new order attempt row, PENDING. -/
def create (tradeId : Nat) (intentId : Option Nat) (purpose : OrderPurpose)
    (transactionType : TransactionType) (orderType : OrderType)
    (quantity : Nat) (brokerTag : Option String) : Session Nat := do
  let id ← fetch (·.orders.length)
  flush fun r => { r with orders := r.orders ++
    [{ tradeId, intentId, purpose, transactionType, orderType, quantity,
       brokerTag }] }
  pure id

/-- Record that the broker accepted the order and returned an id. -/
def markAcknowledged (id : Nat) (brokerOrderId : String) : Session Unit :=
  flush (·.setOrder id fun o =>
    { o with brokerOrderId := some brokerOrderId, status := .open })

/-- Record a fill; the caller decides the resulting status. -/
def recordFill (id : Nat) (status : OrderStatus) (filledQuantity : Nat)
    (averagePrice : ℚ) : Session Unit :=
  flush fun r => r.setOrder id fun o =>
    { o with status, filledQuantity,
             averagePrice := some (r.money averagePrice) }

/-- Record a rejection. The filled quantity is not an argument. -/
def recordRejection (id : Nat) (errorMessage : String) : Session Unit :=
  flush (·.setOrder id fun o =>
    { o with status := .rejected, errorMessage := some errorMessage })

/-- Record a cancellation. The filled quantity is not an argument. -/
def recordCancellation (id : Nat) : Session Unit :=
  flush (·.setOrder id fun o => { o with status := .cancelled })

end OrderRepository

-- ============================================================= intents

namespace OrderIntentRepository

def getById (id : Nat) : Session (Option OrderIntent) := fetch (·.intents[id]?)

def getByIdOrRaise (id : Nat) : Session OrderIntent := do
  orRaise id (← getById id)

def getByIdempotencyKey (idempotencyKey : String) :
    Session (Option (Nat × OrderIntent)) := do
  scalarOneOrNone
    (← fetch fun r =>
      select (fun i => i.idempotencyKey = idempotencyKey) r.intents)

def getByBrokerTag (brokerTag : String) :
    Session (Option (Nat × OrderIntent)) := do
  scalarOneOrNone
    (← fetch fun r => select (fun i => i.brokerTag = brokerTag) r.intents)

def insert (intent : OrderIntent) : Session (Nat × OrderIntent) := do
  let id ← fetch (·.intents.length)
  flush fun r => { r with intents := r.intents ++ [intent] }
  pure (id, intent)

/-- Idempotently ensure an intent exists for its key. -/
def getOrCreate (tradeId : Nat) (purpose : OrderPurpose)
    (transactionType : TransactionType) (quantity : Nat)
    (idempotencyKey brokerTag : String) :
    Session ((Nat × OrderIntent) × Bool) :=
  AlgoPlatform.getOrCreate (getByIdempotencyKey idempotencyKey)
    (insert { tradeId, purpose, transactionType, quantity, idempotencyKey,
              brokerTag })

/-- Every intent whose outcome the database does not know yet. -/
def listInDoubt (scan : List Nat) : Session (List Nat) :=
  fetch fun r =>
    arrange scan ((select (·.status.isInDoubt) r.intents).map Prod.fst)

/-- The SUBMITTED_UNCONFIRMED window opens. -/
def markBrokerCallStarted (id : Nat) : Session Unit :=
  flush (·.setIntent id fun i =>
    { i with brokerCallStarted := true, status := .submittedUnconfirmed })

/-- `mark_placed`, `mark_confirmed`, `mark_failed` and `mark_cancelled`
differ in the status they write. -/
def markStatus (status : IntentStatus) (id : Nat) : Session Unit :=
  flush (·.setIntent id fun i => { i with status })

def markPlaced : Nat → Session Unit := markStatus .placed
def markConfirmed : Nat → Session Unit := markStatus .confirmed
def markFailed : Nat → Session Unit := markStatus .failed

end OrderIntentRepository

-- =========================================================== positions

namespace PositionRepository

def getById (id : Nat) : Session (Option Position) := fetch (·.positions[id]?)

def getByInstanceAndDate (strategyInstanceId : Nat) (tradeDate : Date) :
    Session (Option (Nat × Position)) := do
  scalarOneOrNone
    (← fetch fun r =>
      select (fun p => p.strategyInstanceId = strategyInstanceId
        ∧ p.tradeDate = tradeDate) r.positions)

def insert (position : Position) : Session (Nat × Position) := do
  let id ← fetch (·.positions.length)
  flush fun r =>
    { r with positions := r.positions ++ [position.kept r.money] }
  pure (id, position)

/-- Idempotently ensure the day's position exists. -/
def getOrCreate (position : Position) : Session ((Nat × Position) × Bool) :=
  AlgoPlatform.getOrCreate
    (getByInstanceAndDate position.strategyInstanceId position.tradeDate)
    (insert position)

/-- Every position not yet CLOSED, ERROR included. -/
def listNonTerminal (scan : List Nat) : Session (List Nat) :=
  fetch fun r =>
    arrange scan ((select (fun p => p.state = .entryPending ∨ p.state = .open
      ∨ p.state = .exitPending ∨ p.state = .error) r.positions).map Prod.fst)

/-- Write columns of a position row. -/
def update (id : Nat) (f : Position → Position) : Session Unit :=
  flush (·.setPosition id f)

/-- Write money columns of a position row; `f` is given what the columns
keep of a figure. -/
def updateMoney (id : Nat) (f : (ℚ → ℚ) → Position → Position) :
    Session Unit :=
  flush fun r => r.setPosition id (f r.money)

/-- Move a position and append the audit row, as one operation. -/
def transitionState (id : Nat) (toState : PositionState)
    (actor : StateTransitionActor) (reason : Option String) : Session Unit := do
  let position ← orRaise id (← getById id)
  flush fun r =>
    { r.setPosition id fun p => { p with state := toState } with
      transitions := r.transitions ++
        [{ positionId := id, fromState := some position.state, toState,
           reason, actor }] }

/-- The transition history of one position, in creation order. -/
def listStateTransitions (positionId : Nat) :
    Session (List PositionStateTransition) :=
  fetch fun r => r.transitions.filter (·.positionId = positionId)

def addTrade (trade : Trade) : Session Nat := do
  let id ← fetch (·.trades.length)
  flush fun r => { r with trades := r.trades ++ [trade.kept r.money] }
  pure id

def getTradeById (id : Nat) : Session (Option Trade) := fetch (·.trades[id]?)

def listTradesForPosition (scan : List Nat) (positionId : Nat) :
    Session (List (Nat × Trade)) :=
  fetch fun r =>
    (arrange scan
      ((select (·.positionId = positionId) r.trades).map Prod.fst)).filterMap
      fun id => r.trades[id]?.map fun t => (id, t)

/-- Write columns of a trade row; `f` is given what the money columns
keep of a figure. -/
def updateTrade (id : Nat) (f : (ℚ → ℚ) → Trade → Trade) : Session Unit :=
  flush fun r => r.setTrade id (f r.money)

/-- Write columns of a trade row, if there is one. -/
def updateTradeIfAny (id : Nat) (f : (ℚ → ℚ) → Trade → Trade) :
    Session Unit := do
  match ← getTradeById id with
  | some _ => updateTrade id f
  | none => pure ()

end PositionRepository

-- ============================================================== others

namespace ReconciliationBreakRepository

/-- Record a newly detected discrepancy. -/
def create (breakType : ReconciliationBreakType)
    (positionId orderId intentId : Option Nat) : Session Unit :=
  flush fun r => { r with breaks := r.breaks ++
    [{ positionId, orderId, intentId, breakType }] }

end ReconciliationBreakRepository

namespace StrategyInstanceRepository

def getById (id : Nat) : Session (Option StrategyInstance) :=
  fetch (·.instances[id]?)

def setStatus (id : Nat) (status : InstanceStatus) : Session Unit :=
  flush (·.setInstance id fun s => { s with status })

end StrategyInstanceRepository

end AlgoPlatform
