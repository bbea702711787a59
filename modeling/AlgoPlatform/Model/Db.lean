/-
The database: the seven tables the strategy writes, and their schema.

A table is an append-only list whose index is the primary key. Every
column a modelled function reads or writes is here; timestamps,
`version` counters and the raw broker payloads are not, since no
modelled decision depends on their value (whether a broker call was
started, which is kept as a timestamp, is kept here as that fact).

Money is a rational where it is computed, as `Decimal` is exact on every
figure in range, and is rounded where it is written: the schema's money
columns are `Numeric(18, 4)`, and a later session reads back four
decimals. `Rows.money` is that rounding. The columns are part of the
rows, so that what the arithmetic comes to without the rounding can be
said too (`MoneyColumns.exact`). Strikes and percentages are written as
they are read from the contract and the configuration, and are not
rounded here; nor is a figure of fifteen digits refused.

`Rows.Admissible` is the schema, one field per constraint family, and
`Db` is a set of rows together with the proof that it admits them.
-/
import Mathlib.Data.Rat.Defs
import AlgoPlatform.Basis.Decimals
import AlgoPlatform.Basis.Store
import AlgoPlatform.Model.Enums

open Basis

namespace AlgoPlatform

-- =============================================================== money

/-- A `Numeric(18, 4)` column as a later session reads it back: four
decimals, the half rounded away from zero. -/
def numeric4 (x : ℚ) : ℚ := roundHalfAway 10000 x

/-- The columns money is written to. -/
inductive MoneyColumns
  /-- `Numeric(18, 4)`, the schema's. -/
  | numeric4
  /-- Columns that lose no digit. -/
  | exact
  deriving DecidableEq, Repr

/-- What a column keeps of a figure. -/
def MoneyColumns.keep : MoneyColumns → ℚ → ℚ
  | .numeric4, x => AlgoPlatform.numeric4 x
  | .exact, x => x

-- ================================================================ rows

/-- The persistent identity of a strategy running on an instrument. -/
structure StrategyInstance where
  strategyId : String
  instrument : String
  accountId : Nat
  exchange : Exchange
  status : InstanceStatus
  deriving DecidableEq, Repr

/-- One straddle cycle of one instance on one trading day. -/
structure Position where
  strategyInstanceId : Nat
  tradeDate : Date
  state : PositionState
  expiryDate : Option Date := none
  strike : Option ℚ := none
  strikeInterval : Option ℚ := none
  lots : Option Nat := none
  lotSize : Option Nat := none
  quantity : Option Nat := none
  entrySpotLtp : Option ℚ := none
  targetPct : Option ℚ := none
  slPct : Option ℚ := none
  combinedEntryPremium : Option ℚ := none
  targetPremium : Option ℚ := none
  stoplossPremium : Option ℚ := none
  combinedExitPremium : Option ℚ := none
  exitReason : Option ExitReason := none
  realizedPnl : Option ℚ := none
  errorMessage : Option String := none
  needsReconciliation : Bool := false
  deriving DecidableEq, Repr

/-- One option leg of a position. -/
structure Trade where
  positionId : Nat
  optionType : OptionType
  tradingSymbol : String
  exchange : Exchange
  strike : ℚ
  quantity : Nat
  entryPrice : Option ℚ := none
  exitPrice : Option ℚ := none
  realizedPnl : Option ℚ := none
  status : TradeLegStatus := .pending
  deriving DecidableEq, Repr

/-- The record committed before a broker call is made. -/
structure OrderIntent where
  tradeId : Nat
  purpose : OrderPurpose
  transactionType : TransactionType
  quantity : Nat
  idempotencyKey : String
  brokerTag : String
  status : IntentStatus := .pending
  /-- `broker_call_started_at` is set. -/
  brokerCallStarted : Bool := false
  deriving DecidableEq, Repr

/-- One broker order placement attempt. -/
structure Order where
  tradeId : Nat
  intentId : Option Nat
  purpose : OrderPurpose
  transactionType : TransactionType
  orderType : OrderType
  quantity : Nat
  filledQuantity : Nat := 0
  averagePrice : Option ℚ := none
  status : OrderStatus := .pending
  brokerOrderId : Option String := none
  brokerTag : Option String := none
  errorMessage : Option String := none
  retryCount : Nat := 0
  deriving DecidableEq, Repr

/-- One row of the append-only audit log of position states. -/
structure PositionStateTransition where
  positionId : Nat
  fromState : Option PositionState
  toState : PositionState
  reason : Option String
  actor : StateTransitionActor
  deriving DecidableEq, Repr

/-- One detected discrepancy between the broker and the database. -/
structure ReconciliationBreak where
  positionId : Option Nat
  orderId : Option Nat
  intentId : Option Nat
  breakType : ReconciliationBreakType
  resolution : ReconciliationResolution := .pending
  deriving DecidableEq, Repr

/-- The rows of every table. -/
@[ext]
structure Rows where
  instances : List StrategyInstance := []
  positions : List Position := []
  trades : List Trade := []
  intents : List OrderIntent := []
  orders : List Order := []
  transitions : List PositionStateTransition := []
  breaks : List ReconciliationBreak := []
  columns : MoneyColumns := .numeric4
  deriving DecidableEq, Repr

/-- A figure as the money columns keep it. -/
def Rows.money (r : Rows) : ℚ → ℚ := r.columns.keep

/-- A new position as its columns keep it. -/
def Position.kept (money : ℚ → ℚ) (p : Position) : Position :=
  { p with entrySpotLtp := p.entrySpotLtp.map money,
           combinedEntryPremium := p.combinedEntryPremium.map money,
           targetPremium := p.targetPremium.map money,
           stoplossPremium := p.stoplossPremium.map money,
           combinedExitPremium := p.combinedExitPremium.map money,
           realizedPnl := p.realizedPnl.map money }

/-- A new trade as its columns keep it. -/
def Trade.kept (money : ℚ → ℚ) (t : Trade) : Trade :=
  { t with entryPrice := t.entryPrice.map money,
           exitPrice := t.exitPrice.map money,
           realizedPnl := t.realizedPnl.map money }

/-- An order as its columns keep it. -/
def Order.kept (money : ℚ → ℚ) (o : Order) : Order :=
  { o with averagePrice := o.averagePrice.map money }

-- ============================================================== schema

/-- A fraction strictly between 0 and 1, or NULL. -/
def FractionOrNull (x : Option ℚ) : Prop := ∀ q ∈ x, 0 < q ∧ q < 1

instance : DecidablePred FractionOrNull :=
  fun x => inferInstanceAs (Decidable (∀ q ∈ x, 0 < q ∧ q < 1))

/-- `quantity_matches_lots_times_lot_size`. -/
def Position.QuantityMatches (p : Position) : Prop :=
  ∀ l ∈ p.lots, ∀ s ∈ p.lotSize, ∀ q ∈ p.quantity, q = l * s

instance : DecidablePred Position.QuantityMatches := fun p =>
  inferInstanceAs
    (Decidable (∀ l ∈ p.lots, ∀ s ∈ p.lotSize, ∀ q ∈ p.quantity, q = l * s))

/-- The CHECK constraints of `positions`. -/
def Position.Check (p : Position) : Prop :=
  (∀ l ∈ p.lots, 0 < l) ∧ (∀ s ∈ p.lotSize, 0 < s)
    ∧ (∀ q ∈ p.quantity, 0 < q) ∧ p.QuantityMatches
    ∧ FractionOrNull p.targetPct ∧ FractionOrNull p.slPct

instance : DecidablePred Position.Check := fun _ =>
  inferInstanceAs (Decidable (_ ∧ _))

/-- The CHECK constraints of `trades`. -/
def Trade.Check (t : Trade) : Prop :=
  0 < t.quantity ∧ (∀ x ∈ t.entryPrice, 0 ≤ x) ∧ (∀ x ∈ t.exitPrice, 0 ≤ x)

instance : DecidablePred Trade.Check := fun _ =>
  inferInstanceAs (Decidable (_ ∧ _))

/-- The CHECK constraints of `orders`; `retry_count >= 0` is the type. -/
def Order.Check (o : Order) : Prop :=
  0 < o.quantity ∧ o.filledQuantity ≤ o.quantity

instance : DecidablePred Order.Check := fun _ =>
  inferInstanceAs (Decidable (_ ∧ _))

namespace Rows

/-- Every row satisfies the CHECK constraints of its table. -/
structure Checked (r : Rows) : Prop where
  positions : ∀ p ∈ r.positions, p.Check
  trades : ∀ t ∈ r.trades, t.Check
  intents : ∀ i ∈ r.intents, 0 < i.quantity
  orders : ∀ o ∈ r.orders, o.Check

/-- The UNIQUE constraints. -/
structure Unique (r : Rows) : Prop where
  strategyInstrumentAccount :
    (r.instances.map fun s => (s.strategyId, s.instrument, s.accountId)).Nodup
  instanceTradeDate :
    (r.positions.map fun p => (p.strategyInstanceId, p.tradeDate)).Nodup
  positionTypeStrike :
    (r.trades.map fun t => (t.positionId, t.optionType, t.strike)).Nodup
  idempotencyKey : (r.intents.map (·.idempotencyKey)).Nodup
  brokerTag : (r.intents.map (·.brokerTag)).Nodup
  brokerOrderId : (r.orders.filterMap (·.brokerOrderId)).Nodup

/-- The FOREIGN KEY constraints. -/
structure Linked (r : Rows) : Prop where
  positions : ∀ p ∈ r.positions, p.strategyInstanceId < r.instances.length
  trades : ∀ t ∈ r.trades, t.positionId < r.positions.length
  intents : ∀ i ∈ r.intents, i.tradeId < r.trades.length
  orderTrades : ∀ o ∈ r.orders, o.tradeId < r.trades.length
  orderIntents : ∀ o ∈ r.orders, ∀ i ∈ o.intentId, i < r.intents.length
  transitions : ∀ t ∈ r.transitions, t.positionId < r.positions.length
  breakPositions : ∀ b ∈ r.breaks, ∀ i ∈ b.positionId, i < r.positions.length
  breakOrders : ∀ b ∈ r.breaks, ∀ i ∈ b.orderId, i < r.orders.length
  breakIntents : ∀ b ∈ r.breaks, ∀ i ∈ b.intentId, i < r.intents.length

/-- The money columns hold what they can keep. -/
structure Scaled (r : Rows) : Prop where
  positions : ∀ p ∈ r.positions, p.kept r.money = p
  trades : ∀ t ∈ r.trades, t.kept r.money = t
  orders : ∀ o ∈ r.orders, o.kept r.money = o

/-- The schema admits these rows. -/
structure Admissible (r : Rows) : Prop where
  checked : r.Checked
  unique : r.Unique
  linked : r.Linked
  scaled : r.Scaled

instance : DecidablePred Checked := fun r =>
  decidable_of_iff
    ((∀ p ∈ r.positions, p.Check) ∧ (∀ t ∈ r.trades, t.Check)
      ∧ (∀ i ∈ r.intents, 0 < i.quantity) ∧ ∀ o ∈ r.orders, o.Check)
    ⟨fun ⟨a, b, c, d⟩ => ⟨a, b, c, d⟩, fun ⟨a, b, c, d⟩ => ⟨a, b, c, d⟩⟩

instance : DecidablePred Unique := fun r =>
  decidable_of_iff
    ((r.instances.map fun s =>
        (s.strategyId, s.instrument, s.accountId)).Nodup
      ∧ (r.positions.map fun p => (p.strategyInstanceId, p.tradeDate)).Nodup
      ∧ (r.trades.map fun t => (t.positionId, t.optionType, t.strike)).Nodup
      ∧ (r.intents.map (·.idempotencyKey)).Nodup
      ∧ (r.intents.map (·.brokerTag)).Nodup
      ∧ (r.orders.filterMap (·.brokerOrderId)).Nodup)
    ⟨fun ⟨a, b, c, d, e, f⟩ => ⟨a, b, c, d, e, f⟩,
      fun ⟨a, b, c, d, e, f⟩ => ⟨a, b, c, d, e, f⟩⟩

instance : DecidablePred Linked := fun r =>
  decidable_of_iff
    ((∀ p ∈ r.positions, p.strategyInstanceId < r.instances.length)
      ∧ (∀ t ∈ r.trades, t.positionId < r.positions.length)
      ∧ (∀ i ∈ r.intents, i.tradeId < r.trades.length)
      ∧ (∀ o ∈ r.orders, o.tradeId < r.trades.length)
      ∧ (∀ o ∈ r.orders, ∀ i ∈ o.intentId, i < r.intents.length)
      ∧ (∀ t ∈ r.transitions, t.positionId < r.positions.length)
      ∧ (∀ b ∈ r.breaks, ∀ i ∈ b.positionId, i < r.positions.length)
      ∧ (∀ b ∈ r.breaks, ∀ i ∈ b.orderId, i < r.orders.length)
      ∧ ∀ b ∈ r.breaks, ∀ i ∈ b.intentId, i < r.intents.length)
    ⟨fun ⟨a, b, c, d, e, f, g, h, i⟩ => ⟨a, b, c, d, e, f, g, h, i⟩,
      fun ⟨a, b, c, d, e, f, g, h, i⟩ => ⟨a, b, c, d, e, f, g, h, i⟩⟩

instance : DecidablePred Scaled := fun r =>
  decidable_of_iff
    ((∀ p ∈ r.positions, p.kept r.money = p)
      ∧ (∀ t ∈ r.trades, t.kept r.money = t)
      ∧ ∀ o ∈ r.orders, o.kept r.money = o)
    ⟨fun ⟨a, b, c⟩ => ⟨a, b, c⟩, fun ⟨a, b, c⟩ => ⟨a, b, c⟩⟩

instance : DecidablePred Admissible := fun r =>
  decidable_of_iff (r.Checked ∧ r.Unique ∧ r.Linked ∧ r.Scaled)
    ⟨fun ⟨a, b, c, d⟩ => ⟨a, b, c, d⟩, fun ⟨a, b, c, d⟩ => ⟨a, b, c, d⟩⟩

-- The empty database satisfies every constraint.
example : Admissible {} := by decide

-- ============================================================= updates

/-- Update one row of `positions`. -/
def setPosition (r : Rows) (i : Nat) (f : Position → Position) : Rows :=
  { r with positions := r.positions.modify i f }

/-- Update one row of `trades`. -/
def setTrade (r : Rows) (i : Nat) (f : Trade → Trade) : Rows :=
  { r with trades := r.trades.modify i f }

/-- Update one row of `order_intents`. -/
def setIntent (r : Rows) (i : Nat) (f : OrderIntent → OrderIntent) : Rows :=
  { r with intents := r.intents.modify i f }

/-- Update one row of `orders`. -/
def setOrder (r : Rows) (i : Nat) (f : Order → Order) : Rows :=
  { r with orders := r.orders.modify i f }

/-- Update one row of `strategy_instances`. -/
def setInstance (r : Rows) (i : Nat) (f : StrategyInstance → StrategyInstance) :
    Rows :=
  { r with instances := r.instances.modify i f }

end Rows

-- ============================================================ database

instance : Schema Rows where
  Admits := Rows.Admissible
  decAdmits := inferInstance

/-- The committed database. -/
abbrev Db := Store Rows

instance : StoreFault Exc where
  integrity := .integrity
  multipleResults := .multipleResults

@[simp] theorem storeFault_integrity :
    (StoreFault.integrity : Exc) = .integrity := rfl

@[simp] theorem storeFault_multipleResults :
    (StoreFault.multipleResults : Exc) = .multipleResults := rfl

/-- The body of one unit of work against the database. -/
abbrev Session (α : Type) := Basis.Session Rows Exc α

end AlgoPlatform
