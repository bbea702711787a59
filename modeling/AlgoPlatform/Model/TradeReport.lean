/-
The daily trade report's rows (`TradeReportExporter._collect_rows`,
`_opening_cumulative`).

The report reads three columns that decide nothing elsewhere and that
`Rows` leaves out: they stand beside it, by primary key, in `FillTimes`.
The workbook that is written from the rows is left out, and so are the
warnings about what is skipped.
-/
import AlgoPlatform.Basis.Tally
import AlgoPlatform.Model.AtmWindow
import AlgoPlatform.Model.Dates
import AlgoPlatform.Model.Db
import Mathlib.Data.Int.ConditionallyCompleteOrder
import Mathlib.Data.List.Sort
import Mathlib.Order.WithBot

open Basis

namespace AlgoPlatform

/-- `pnl_per_share`: the total by the lot size, to two decimals. -/
def pnlPerShare (totalPnl : ℚ) (lotSize : Option Nat) : Option ℚ :=
  match lotSize with
  | none | some 0 => none
  | some n => some (quantizeHalfUp (totalPnl / n * 100) / 100)

/-- `format_instrument`; `int(strike)` drops the fraction. -/
def formatInstrument (exchange : Exchange) (underlying : String)
    (expiry : Date) (strike : ℚ) (optionType : OptionType) : String :=
  exchange.value ++ ":" ++ underlying ++ expiry.yymmdd
    ++ toString (strike.num.tdiv strike.den) ++ optionType.value

/-- `exit_completed_at` of a position; `entry_time` and `exit_time` of a
trade. -/
structure FillTimes where
  exitCompletedAt : Nat → Option Int
  entryTime : Nat → Option Int
  exitTime : Nat → Option Int

/-- `_LegRow`: one rendered row. The totals are those after its trade. -/
structure LegRow where
  instrument : String
  tradeDate : Date
  entryTime : Int
  entryPrice : ℚ
  exitTime : Int
  exitPrice : ℚ
  exitReason : String
  pnl : ℚ
  totalProfit : ℚ
  totalLoss : ℚ
  netPnl : ℚ
  pnlPerShare : Option ℚ
  deriving DecidableEq, Repr

namespace TradeReportExporter

variable (times : FillTimes) (scan : List Nat) (r : Rows) (tradeDate : Date)

/-- `_LEG_ORDER`: CE before PE. -/
def legOrder : OptionType → Nat
  | .ce => 0
  | .pe => 1

/-- `realized_pnl` of every CLOSED position before the day. -/
def earlierPnls : List (Option ℚ) :=
  (select (fun p => p.state = .closed ∧ p.tradeDate < tradeDate)
    r.positions).map (·.2.realizedPnl)

/-- The loop of `_opening_cumulative`; NULL is passed over. -/
def accumulate (pnls : List (Option ℚ)) : Tally ℚ :=
  pnls.foldl (fun totals pnl => pnl.elim totals totals.add) ⟨0, 0⟩

/-- `_opening_cumulative`. -/
def openingCumulative : Tally ℚ := accumulate (earlierPnls r tradeDate)

/-- What `ORDER BY exit_completed_at, id` compares: NULL comes last. -/
def exitKey (id : Nat) : WithTop Int ×ₗ Nat :=
  toLex (times.exitCompletedAt id, id)

/-- The day's CLOSED positions, in the order of the query. -/
def closedPositions : List (Nat × Position) :=
  (select (fun p => p.tradeDate = tradeDate ∧ p.state = .closed)
    r.positions).insertionSort fun x y => exitKey times x.1 ≤ exitKey times y.1

/-- A position's legs, sorted stably. -/
def legsOf (positionId : Nat) : List (Nat × Trade) :=
  ((arrange scan
      ((select (·.positionId = positionId) r.trades).map Prod.fst)).filterMap
    fun id => r.trades[id]?.map fun t => (id, t)).insertionSort fun x y =>
      legOrder x.2.optionType ≤ legOrder y.2.optionType

/-- A leg's row, unless it is not fully priced. -/
def legRow (inst : StrategyInstance) (expiry : Date) (position : Position)
    (pnl : ℚ) (totals : Tally ℚ) (leg : Nat × Trade) : Option LegRow := do
  let entryPrice ← leg.2.entryPrice
  let exitPrice ← leg.2.exitPrice
  let entryTime ← times.entryTime leg.1
  let exitTime ← times.exitTime leg.1
  pure
    { instrument := formatInstrument leg.2.exchange inst.instrument expiry
        leg.2.strike leg.2.optionType
      tradeDate := position.tradeDate
      entryTime
      entryPrice
      exitTime
      exitPrice
      exitReason := position.exitReason.elim "" (·.value)
      pnl
      totalProfit := totals.profit
      totalLoss := totals.loss
      netPnl := totals.net
      pnlPerShare := pnlPerShare pnl position.lotSize }

/-- One turn of the loop over the day's positions: the running totals, and
the rows so far. A position without instance or expiry is skipped before
it is counted. -/
def collectPosition (acc : Tally ℚ × List LegRow)
    (position : Nat × Position) : Tally ℚ × List LegRow :=
  match r.instances[position.2.strategyInstanceId]?,
    position.2.expiryDate with
  | some inst, some expiry =>
      let pnl := position.2.realizedPnl.getD 0
      let totals := acc.1.add pnl
      (totals, acc.2 ++ (legsOf scan r position.1).filterMap
        (legRow times inst expiry position.2 pnl totals))
  | _, _ => acc

/-- The loop of `_collect_rows` over positions, from totals. -/
def collect (opening : Tally ℚ) (positions : List (Nat × Position)) :
    Tally ℚ × List LegRow :=
  positions.foldl (collectPosition times scan r) (opening, [])

/-- `_collect_rows`. -/
def collectRows : List LegRow :=
  (collect times scan r (openingCumulative r tradeDate)
    (closedPositions times r tradeDate)).2

/-- The running totals after the last position of `_collect_rows`. -/
def closingCumulative : Tally ℚ :=
  (collect times scan r (openingCumulative r tradeDate)
    (closedPositions times r tradeDate)).1

end TradeReportExporter

end AlgoPlatform
