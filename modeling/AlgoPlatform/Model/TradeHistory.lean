/-
The permanent record of completed trades (`TradeHistoryRecorder`,
`TradeHistoryRepository`, `backfill_trade_history.py`).

# The archive

`trade_history` stands beside the tables of the platform, with one row a
position (`HistoryTable`). The recorder also reads columns that decide
nothing elsewhere and that `Rows` leaves out; a session finds them as its
move has them (`HistoryMove.columns`).

# What is left out

The columns that are always NULL (`exit_spot_ltp`, `max_profit_seen`,
`max_loss_seen`, `extra`), and what is logged or printed. A copied column
fits its type as it did in its own table; whether the derived ones fit
theirs is asked at the insert.
-/
import AlgoPlatform.Basis.Zoom
import AlgoPlatform.Model.Expiry
import AlgoPlatform.Model.TradeReport
import AlgoPlatform.Model.World

open Basis

namespace AlgoPlatform

-- ================================================================ rows

/-- The columns of `positions` and `accounts` that only the history
reads, by primary key; times in microseconds. -/
structure HistoryColumns where
  entryCompletedAt : Nat → Option Int
  exitCompletedAt : Nat → Option Int
  entrySignalTime : Nat → Option Int
  exitSignalTime : Nat → Option Int
  displayName : Nat → Option String

/-- `broker_order_ids`: the completed order of each leg, by purpose. A
bucket that holds no leg is not there. -/
structure BrokerOrderIds where
  entryCe : Option String := none
  entryPe : Option String := none
  exitCe : Option String := none
  exitPe : Option String := none
  deriving DecidableEq, Repr

/-- One completed trade. -/
structure TradeHistory where
  positionId : Nat
  strategyInstanceId : Nat
  accountId : Option Nat
  tradeDate : Date
  strategyId : String
  instrument : String
  accountName : Option String
  mode : Option String
  exchange : Option Exchange
  strike : Option ℚ
  expiryDate : Option Date
  callSymbol : Option String
  putSymbol : Option String
  entryTime : Option Int
  exitTime : Option Int
  entrySignalTime : Option Int
  exitSignalTime : Option Int
  holdingSeconds : Option Int
  holdingMinutes : Option ℚ
  lots : Option Nat
  lotSize : Option Nat
  quantity : Option Nat
  combinedEntryPremium : Option ℚ
  combinedExitPremium : Option ℚ
  targetPremium : Option ℚ
  stoplossPremium : Option ℚ
  targetPct : Option ℚ
  slPct : Option ℚ
  callEntryPrice : Option ℚ
  callExitPrice : Option ℚ
  putEntryPrice : Option ℚ
  putExitPrice : Option ℚ
  entrySpotLtp : Option ℚ
  exitReason : Option ExitReason
  realizedPnl : Option ℚ
  pnlPerShare : Option ℚ
  profitPercent : Option ℚ
  dayOfWeek : String
  month : Nat
  brokerOrderIds : Option BrokerOrderIds
  deriving DecidableEq, Repr

/-- `Integer`. -/
def Int.FitsInteger (n : Int) : Prop := -2147483648 ≤ n ∧ n ≤ 2147483647

instance : DecidablePred Int.FitsInteger := fun _ =>
  inferInstanceAs (Decidable (_ ∧ _))

/-- `Numeric(precision, scale)`, by the number of its integer digits. -/
def FitsNumeric (digits : Nat) (x : ℚ) : Prop := |x| < 10 ^ digits

instance (digits : Nat) : DecidablePred (FitsNumeric digits) := fun _ =>
  inferInstanceAs (Decidable (_ < _))

/-- The derived columns fit their types. -/
structure TradeHistory.Fits (row : TradeHistory) : Prop where
  holdingSeconds : ∀ n ∈ row.holdingSeconds, Int.FitsInteger n
  holdingMinutes : ∀ x ∈ row.holdingMinutes, FitsNumeric 10 x
  pnlPerShare : ∀ x ∈ row.pnlPerShare, FitsNumeric 14 x
  profitPercent : ∀ x ∈ row.profitPercent, FitsNumeric 6 x

instance : DecidablePred TradeHistory.Fits := fun row =>
  decidable_of_iff
    ((∀ n ∈ row.holdingSeconds, Int.FitsInteger n)
      ∧ (∀ x ∈ row.holdingMinutes, FitsNumeric 10 x)
      ∧ (∀ x ∈ row.pnlPerShare, FitsNumeric 14 x)
      ∧ ∀ x ∈ row.profitPercent, FitsNumeric 6 x)
    ⟨fun h => ⟨h.1, h.2.1, h.2.2.1, h.2.2.2⟩,
      fun h => ⟨h.holdingSeconds, h.holdingMinutes, h.pnlPerShare,
        h.profitPercent⟩⟩

-- =============================================================== table

/-- `trade_history`: UNIQUE on `position_id`. -/
structure HistoryTable where
  rows : List TradeHistory := []
  onePerPosition : (rows.map (·.positionId)).Nodup := by decide
  deriving DecidableEq

namespace TradeHistoryRepository

/-- `get_by_position_id`. -/
def getByPositionId (t : HistoryTable) (positionId : Nat) :
    Option TradeHistory :=
  t.rows.find? (·.positionId = positionId)

/-- `recorded_position_ids`. -/
def recordedPositionIds (t : HistoryTable) (positionIds : List Nat) : List Nat :=
  (t.rows.map (·.positionId)).filter (· ∈ positionIds)

/-- The INSERT of a row. -/
def insert (t : HistoryTable) (row : TradeHistory) : Except Exc HistoryTable :=
  if ¬ row.Fits then .error .database
  else if h : row.positionId ∈ t.rows.map (·.positionId) then .error .integrity
  else .ok
    { rows := t.rows ++ [row]
      onePerPosition := by
        rw [List.map_append]
        exact t.onePerPosition.append (List.nodup_singleton _)
          (List.disjoint_singleton.2 h) }

/-- `add_if_absent`: whether the row was created. -/
def addIfAbsent (t : HistoryTable) (row : TradeHistory) :
    Except Exc (Bool × HistoryTable) :=
  match getByPositionId t row.positionId with
  | some _ => .ok (false, t)
  | none =>
      match insert t row with
      | .ok t' => .ok (true, t')
      | .error .integrity =>
          match getByPositionId t row.positionId with
          | some _ => .ok (false, t)
          | none => .error .integrity
      | .error e => .error e

end TradeHistoryRepository

/-- `list_closed_ids`. -/
def PositionRepository.listClosedIds (scan : List Nat) (r : Rows) : List Nat :=
  arrange scan ((select (·.state = .closed) r.positions).map Prod.fst)

/-- `list_for_trade`. -/
def OrderRepository.listForTrade (scan : List Nat) (r : Rows) (tradeId : Nat) :
    List Order :=
  (arrange scan ((select (·.tradeId = tradeId) r.orders).map Prod.fst)).filterMap
    (r.orders[·]?)

-- ============================================================ recorder

/-- `quantize` to so many decimals under the default context: a tie goes
to the even neighbour. -/
def quantizeHalfEven (decimals : Nat) (x : ℚ) : ℚ :=
  let scaled := x * 10 ^ decimals
  let below := ⌊scaled⌋
  let rounded : Int :=
    if scaled - below < 1 / 2 then below
    else if 1 / 2 < scaled - below then below + 1
    else if below % 2 = 0 then below else below + 1
  rounded / 10 ^ decimals

/-- `strftime("%A")`. -/
def dayName (day : Date) : String :=
  match Calendar.weekday (Calendar.monthStart
    (12 * (day.year - 1) + (day.month - 1)) + day.day - 1) with
  | 0 => "Monday"
  | 1 => "Tuesday"
  | 2 => "Wednesday"
  | 3 => "Thursday"
  | 4 => "Friday"
  | 5 => "Saturday"
  | _ => "Sunday"

example : dayName { year := 2024, month := 7, day := 4 } = "Thursday" := by
  decide

namespace BrokerOrderIds

/-- `result.setdefault(bucket, {})[leg] = id`. -/
def put (ids : BrokerOrderIds) (purpose : OrderPurpose) (leg : OptionType)
    (id : String) : BrokerOrderIds :=
  match purpose, leg with
  | .entry, .ce => { ids with entryCe := some id }
  | .entry, .pe => { ids with entryPe := some id }
  | .exit, .ce => { ids with exitCe := some id }
  | .exit, .pe => { ids with exitPe := some id }

/-- Every id there is. -/
def all (ids : BrokerOrderIds) : List String :=
  [ids.entryCe, ids.entryPe, ids.exitCe, ids.exitPe].filterMap id

end BrokerOrderIds

namespace TradeHistoryRecorder

/-- `_infer_mode`. -/
def inferMode (brokerOrderIds : Option BrokerOrderIds) : Option String :=
  match brokerOrderIds with
  | none => none
  | some ids =>
      if ids.all = [] then none
      else if ids.all.any (·.startsWith "SIM") then some "PAPER"
      else some "LIVE"

/-- `_profit_percent`. -/
def profitPercent (position : Position) : Option ℚ := do
  let pnl ← position.realizedPnl
  let entry ← position.combinedEntryPremium
  let qty ← position.quantity
  if entry * qty = 0 then none
  else some (quantizeHalfEven 4 (pnl / (entry * qty) * 100))

variable (mode : Option String) (columns : HistoryColumns) (scan : List Nat)
  (r : Rows)

/-- The order ids of one leg, over those found so far. -/
def legOrderIds (ids : BrokerOrderIds) (trade : Nat × Trade) :
    BrokerOrderIds :=
  (OrderRepository.listForTrade scan r trade.1).foldl (fun ids order =>
    match order.status, order.brokerOrderId with
    | .complete, some id =>
        if id = "" then ids else ids.put order.purpose trade.2.optionType id
    | _, _ => ids) ids

/-- `_broker_order_ids`. -/
def brokerOrderIds (trades : List (Nat × Trade)) : Option BrokerOrderIds :=
  let ids := trades.foldl (legOrderIds scan r) {}
  if ids = {} then none else some ids

/-- The trades of a position, as the session reads them. -/
def tradesOf (positionId : Nat) : List (Nat × Trade) :=
  (arrange scan
      ((select (·.positionId = positionId) r.trades).map Prod.fst)).filterMap
    fun id => r.trades[id]?.map fun t => (id, t)

/-- `by_type.get(…)`: the last trade of a type. -/
def byType (optionType : OptionType) (trades : List (Nat × Trade)) :
    Option Trade :=
  (trades.reverse.find? (·.2.optionType = optionType)).map Prod.snd

/-- `int((exit_time - entry_time).total_seconds())`. -/
def holdingSeconds (entryTime exitTime : Option Int) : Option Int := do
  let entryTime ← entryTime
  let exitTime ← exitTime
  pure ((exitTime - entryTime).tdiv 1000000)

/-- `_build_row`. -/
def buildRow (positionId : Nat) (position : Position) : TradeHistory :=
  let inst := r.instances[position.strategyInstanceId]?
  let trades := tradesOf scan r positionId
  let call := byType .ce trades
  let put := byType .pe trades
  let orderIds := brokerOrderIds scan r trades
  let entryTime := columns.entryCompletedAt positionId
  let exitTime := columns.exitCompletedAt positionId
  let seconds := holdingSeconds entryTime exitTime
  { positionId
    strategyInstanceId := position.strategyInstanceId
    accountId := inst.map (·.accountId)
    tradeDate := position.tradeDate
    strategyId := inst.elim "unknown" (·.strategyId)
    instrument := inst.elim "unknown" (·.instrument)
    accountName := inst.bind fun i => columns.displayName i.accountId
    mode :=
      match mode with
      | some mode => if mode = "" then inferMode orderIds else some mode
      | none => inferMode orderIds
    exchange := inst.map (·.exchange)
    strike := position.strike
    expiryDate := position.expiryDate
    callSymbol := call.map (·.tradingSymbol)
    putSymbol := put.map (·.tradingSymbol)
    entryTime
    exitTime
    entrySignalTime := columns.entrySignalTime positionId
    exitSignalTime := columns.exitSignalTime positionId
    holdingSeconds := seconds
    holdingMinutes := seconds.map fun n => quantizeHalfEven 2 (n / 60)
    lots := position.lots
    lotSize := position.lotSize
    quantity := position.quantity
    combinedEntryPremium := position.combinedEntryPremium
    combinedExitPremium := position.combinedExitPremium
    targetPremium := position.targetPremium
    stoplossPremium := position.stoplossPremium
    targetPct := position.targetPct
    slPct := position.slPct
    callEntryPrice := call.bind (·.entryPrice)
    callExitPrice := call.bind (·.exitPrice)
    putEntryPrice := put.bind (·.entryPrice)
    putExitPrice := put.bind (·.exitPrice)
    entrySpotLtp := position.entrySpotLtp
    exitReason := position.exitReason
    realizedPnl := position.realizedPnl
    pnlPerShare := position.realizedPnl.bind fun pnl =>
      pnlPerShare pnl position.lotSize
    profitPercent := profitPercent position
    dayOfWeek := dayName position.tradeDate
    month := position.tradeDate.month
    brokerOrderIds := orderIds }

/-- `_record`: whether a row was created. -/
def record (positionId : Nat) (t : HistoryTable) :
    Except Exc (Bool × HistoryTable) :=
  match TradeHistoryRepository.getByPositionId t positionId with
  | some _ => .ok (false, t)
  | none =>
      match r.positions[positionId]? with
      | none => .ok (false, t)
      | some position =>
          if position.state = .closed then
            TradeHistoryRepository.addIfAbsent t
              (buildRow mode columns scan r positionId position)
          else .ok (false, t)

end TradeHistoryRecorder

-- ============================================================= archive

/-- The world, and the table beside its own. -/
structure Archive where
  world : World
  history : HistoryTable := {}

/-- What the environment decides about one act, and the columns the act
finds. -/
structure HistoryMove where
  toMove : Move
  columns : HistoryColumns

/-- A program on the archive. -/
abbrev HistoryProgram (α : Type) := Prog HistoryMove Archive Exc α

namespace HistoryProgram

/-- A program of the platform. -/
def ofPlatform {α : Type} (p : Program α) : HistoryProgram α :=
  p.zoom HistoryMove.toMove Archive.world fun a world => { a with world }

/-- One unit of work that writes `trade_history`. -/
def unitOfWork {α : Type}
    (body : HistoryColumns → List Nat → Rows → HistoryTable →
      Except Exc (α × HistoryTable)) : HistoryProgram α :=
  Prog.atomic fun m a =>
    let a := { a with world := a.world.interfere m.toMove }
    match m.toMove.fault with
    | some fault => (.error fault.exc, a)
    | none =>
        match body m.columns m.toMove.scan a.world.db.rows a.history with
        | .ok (x, history) => (.ok x, { a with history })
        | .error e => (.error e, a)

end HistoryProgram

open TradeHistoryRecorder

/-- `record_closed_position`: a failure is swallowed. -/
def recordClosedPosition (mode : Option String) (positionId : Nat) :
    HistoryProgram Unit :=
  tryCatch
    (do
      let _ ← HistoryProgram.unitOfWork fun columns scan r t =>
        record mode columns scan r positionId t
      pure ())
    fun _ => pure ()

namespace BackfillTradeHistory

/-- `_exists`. -/
def «exists» (positionId : Nat) : HistoryProgram Bool :=
  HistoryProgram.unitOfWork fun _ _ _ t =>
    .ok ((TradeHistoryRepository.getByPositionId t positionId).isSome, t)

/-- The CLOSED positions without a row. -/
def missing (scan : List Nat) (r : Rows) (t : HistoryTable) : List Nat :=
  let closedIds := PositionRepository.listClosedIds scan r
  closedIds.filter (· ∉ TradeHistoryRepository.recordedPositionIds t closedIds)

/-- `not before and _exists(…)`. -/
def appeared (before : Bool) (positionId : Nat) : HistoryProgram Bool :=
  if before then pure false else «exists» positionId

/-- The loop of `_run`: how many rows were written. -/
def each : List Nat → HistoryProgram Nat
  | [] => pure 0
  | id :: ids => do
      let before ← «exists» id
      recordClosedPosition none id
      let new ← appeared before id
      let written ← each ids
      pure (if new then written + 1 else written)

/-- `_run`: how many rows were written. -/
def run (dryRun : Bool) : HistoryProgram Nat := do
  let ids ← HistoryProgram.unitOfWork fun _ scan r t => .ok (missing scan r t, t)
  if dryRun then pure 0 else each ids

end BackfillTradeHistory

end AlgoPlatform
