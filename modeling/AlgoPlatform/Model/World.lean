/-
The machine the strategy runs on: a committed database, a broker, and an
environment that moves between any two of the strategy's acts.

# Acts

The strategy acts by committing one unit of work or making one broker
call. Before each act the environment has its turn (`Move.events`): the
broker moves its orders on, and the push stream delivers any snapshot
the broker ever produced, again or for the first time, in any order,
each applied by `OrderUpdateProcessor.process` as it arrives. Then the
act happens as the move says it does: a commit may fail, a read may
raise, `place_order` is answered by the move's reply.

# Crashes

A run is a list of moves, and it ends where the list ends
(`Basis.Prog.run`): every prefix of a behaviour is a crash of it.
-/
import AlgoPlatform.Basis.Prog
import AlgoPlatform.Model.OrderUpdates

open Basis

namespace AlgoPlatform

/-- The two parties that survive a crash. `deferred` is no state of
theirs but a record of the environment's: the orders whose terminal
write lost its race to a push that left the row open. -/
@[ext]
structure World where
  db : Db
  broker : Broker
  deferred : List String := []

instance : Inhabited World := ⟨⟨{}, by decide⟩, {}, []⟩

/-- What the environment does between two acts. -/
inductive Event
  /-- The broker moves one of its orders on to this snapshot. -/
  | works (bo : BrokerOrder)
  /-- The push stream delivers the broker's `n`-th newest snapshot. -/
  | pushes (n : Nat)
  deriving DecidableEq, Repr

/-- The ways a commit fails that are not the schema's doing. -/
inductive DbFault
  | operational
  /-- Another writer committed the row between its load and its flush. -/
  | conflict
  deriving DecidableEq, Repr

def DbFault.exc : DbFault → Exc
  | .operational => .database
  | .conflict => .concurrentModification

/-- Everything the environment decides about one act. -/
structure Move where
  events : List Event := []
  fault : Option DbFault := none
  place : PlaceReply := .refuse ⟨.timeout, ""⟩
  read : Option BrokerError := none
  pick : Nat := 0
  scan : List Nat := []
  positions : List BrokerPosition := []
  deriving DecidableEq, Repr

namespace World

/-- One event. -/
def happens (w : World) : Event → World
  | .works bo => { w with broker := w.broker.works bo }
  | .pushes n =>
      match w.broker.log[n]? with
      | some bo => { w with db := (OrderUpdateProcessor.process bo w.db).2 }
      | none => w

/-- The environment's turn. -/
def interfere (w : World) (m : Move) : World := m.events.foldl happens w

end World

/-- The strategy's program: atomic acts on the world. -/
abbrev Program (α : Type) := Prog Move World Exc α

namespace Program

/-- One unit of work: commit on success, roll back and re-raise on
error. The session may use the order rows come back in. -/
def unitOfWork {α : Type} (body : List Nat → Session α) : Program α :=
  Prog.atomic fun m w =>
    let w := w.interfere m
    match m.fault with
    | some fault => (.error fault.exc, w)
    | none =>
        match body m.scan w.db with
        | .ok (a, db) => (.ok a, { w with db })
        | .error e => (.error e, w)

/-- One `place_order` call. -/
def placeOrder (request : PlaceOrderRequest) : Program String :=
  Prog.atomic fun m w =>
    let w := w.interfere m
    ((w.broker.placeOrder request m.place).1,
      { w with broker := (w.broker.placeOrder request m.place).2 })

/-- One broker read that leaves no trace. -/
def reads {α : Type} (f : Move → Broker → Except Exc α) : Program α :=
  Prog.atomic fun m w =>
    let w := w.interfere m
    (f m w.broker, w)

/-- One `get_order` call. -/
def getOrder (brokerOrderId : String) : Program BrokerOrder :=
  Prog.atomic fun m w =>
    let w := w.interfere m
    ((w.broker.getOrder brokerOrderId m.read).1,
      { w with broker := (w.broker.getOrder brokerOrderId m.read).2 })

def getOrders : Program (List BrokerOrder) :=
  reads fun m b => b.getOrders m.read

def findOrderByTag (tag : String) : Program (Option BrokerOrder) :=
  reads fun m b => b.findOrderByTag tag m.pick m.read

/-- `get_positions`: the feed is not derived from the orderbook, so its
content is the environment's. -/
def getPositions : Program (List BrokerPosition) :=
  reads fun m _ =>
    match m.read with
    | some e => .error (.broker e)
    | none => .ok m.positions

/-- `except BrokerError`, with the exception as a value. -/
def tryBroker {α : Type} (p : Program α) : Program (Except BrokerError α) :=
  tryCatch (do pure (.ok (← p))) fun exc =>
    match exc with
    | .broker e => pure (.error e)
    | _ => throw exc

/-- The row `reconcile_order_terminal` would lock, if it is one it would
write. -/
def openRow (brokerOrderId : String) (db : Db) : Option Order :=
  db.rows.orders.find? fun o =>
    o.brokerOrderId = some brokerOrderId ∧ o.status.isTerminal = false

/-- `reconcile_order_terminal`: its own unit of work, and a write race
lost to another writer is swallowed. The race is lost only if the
environment did change the row it had loaded. -/
def reconcileOrderTerminal (brokerOrderId : String) (bo : BrokerOrder) :
    Program Unit :=
  Prog.atomic fun m w =>
    let before := openRow brokerOrderId w.db
    let w := w.interfere m
    let raced := before.isSome ∧ before ≠ openRow brokerOrderId w.db
    match m.fault with
    | some .operational => (.error .database, w)
    | fault =>
        if fault = some .conflict ∧ raced then
          (.ok (), if (openRow brokerOrderId w.db).isSome
            then { w with deferred := w.deferred ++ [brokerOrderId] } else w)
        else
          match reconcileTerminal brokerOrderId bo w.db with
          | .ok (_, db) => (.ok (), { w with db })
          | .error .concurrentModification => (.ok (), w)
          | .error e => (.error e, w)

/-- `_poll_until_terminal`: up to `attempts` reads, a failed read being
one more attempt. -/
def pollUntilTerminal (brokerOrderId : String) :
    Nat → Program (Option BrokerOrder)
  | 0 => pure none
  | attempts + 1 => do
      match ← tryBroker (getOrder brokerOrderId) with
      | .ok bo =>
          if bo.status.isTerminal then pure (some bo)
          else pollUntilTerminal brokerOrderId attempts
      | .error _ => pollUntilTerminal brokerOrderId attempts

end Program

end AlgoPlatform
