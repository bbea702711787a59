/-
Whole runs: any number of the strategy's jobs on one instance and day,
each cut off anywhere, each starting from what the last one left.
-/
import AlgoPlatform.Model.Strategy

open Basis

namespace AlgoPlatform

/-- What the platform starts on an instance: the entry trigger, an exit
trigger (which may find the exit lock taken), a restart. -/
inductive Job
  | enter (inputs : EntryInputs)
  | exit (acquired : Bool) (reason : ExitReason)
  | recover (acquired : Bool)

/-- The program of a job. -/
def Job.program (ctx : StrategyContext) : Job → Program Unit
  | .enter inputs => discard (EntryLogic.enter ctx inputs)
  | .exit acquired reason => discard (ExitLogic.exit ctx acquired reason)
  | .recover acquired => discard (Strategy1.recover ctx acquired)

/-- A job with the moves it gets to see before it returns or dies. -/
structure Start where
  job : Job
  moves : List Move

/-- One session. -/
def World.session (ctx : StrategyContext) (w : World) (s : Start) : World :=
  (s.job.program ctx).after s.moves w

/-- A run: sessions, one after the other. -/
def World.run (ctx : StrategyContext) (w : World) (ss : List Start) :
    World :=
  ss.foldl (World.session ctx) w

/-- Sessions of several instances, one after the other. -/
def World.runAll (w : World) (ss : List (StrategyContext × Start)) : World :=
  ss.foldl (fun w s => w.session s.1 s.2) w

-- ========================================================= a sample day

namespace SampleDay

/-- One lot, target 50%, stoploss 25%, one poll a fill, two tries a
close. -/
def ctx : StrategyContext where
  instanceId := 0
  identity := "strategy_1"
  config :=
    { targetPct := 1 / 2, slPct := 1 / 4, lots := 1, productType := .intraday,
      skipOnExpiryDay := false, targetPct_range := by decide +kernel,
      slPct_range := by decide +kernel, lots_pos := by decide }
  today := { year := 2024, month := 7, day := 4 }
  fillAttempts := 1
  closeAttempts := 2
  fillAttempts_pos := by decide
  closeAttempts_pos := by decide

def contract (optionType : OptionType) : BrokerInstrument where
  exchange := .nfo
  tradingsymbol := "NIFTY24JUL24500" ++ optionType.value
  lotSize := 75
  optionType
  lotSize_pos := by decide

def inputs : EntryInputs where
  weeklyExpiry := .ok ctx.today
  halted := .ok false
  decision := .ok (true, none)
  selection := .ok
    { spotLtp := 24510, strikeInterval := 50, atmStrike := 24500,
      expiry := ctx.today, call := contract .ce, put := contract .pe,
      call_ce := rfl, put_pe := rfl }

/-- Before the day's entry: the instance, and a broker without orders. -/
def morning : World where
  db := ⟨{ instances := [{ strategyId := "strategy_1", instrument := "NIFTY",
                           accountId := 1, exchange := .nfo,
                           status := .active }] }, by decide⟩
  broker := {}

/-- A snapshot of a leg's order: its status, and what it filled at which
price. -/
def snapshot (id tag : String) (side : TransactionType)
    (optionType : OptionType) (status : OrderStatus) (filled : Fin 76)
    (price : Option ℚ) : BrokerOrder where
  brokerOrderId := id
  tag := some tag
  status
  exchange := .nfo
  tradingsymbol := (contract optionType).tradingsymbol
  transactionType := side
  product := .intraday
  orderType := .market
  quantity := 75
  filledQuantity := filled
  averagePrice := price
  statusMessage := none
  quantity_pos := by decide
  filled_le := Nat.le_of_lt_succ filled.isLt

/-- A whole lot filled. -/
def lot : Fin 76 := 75

/-- A third of it. -/
def third : Fin 76 := 25

/-- A move on which nothing happens but the act. -/
def still : Move := {}

/-- The moves of one entry leg: started, accepted, acknowledged, polled
once the broker has produced `bo`, reconciled, settled. -/
def legMoves (bo : BrokerOrder) : List Move :=
  [still, { place := .ack bo.brokerOrderId }, still, { events := [.works bo] },
    still, still]

/-- An entry that fills at 100 and 80. -/
def entry : Start where
  job := .enter inputs
  moves := [still, still]
    ++ legMoves (snapshot "A1" "E0-240704-CE" .sell .ce .complete lot (some 100))
    ++ legMoves (snapshot "A2" "E0-240704-PE" .sell .pe .complete lot (some 80))
    ++ [still]

/-- After it. -/
def open_ : World := morning.session ctx entry

/-- An entry cut off after its second leg is acknowledged. -/
def bothAcked : World := morning.session ctx
  { job := .enter inputs
    moves := [still, still]
      ++ legMoves (snapshot "A1" "E0-240704-CE" .sell .ce .complete lot (some 100))
      ++ [still, { place := .ack "A2" }, still] }

/-- The moves of one exit leg: inspected, started, accepted,
acknowledged, polled once the broker has produced `bo`, reconciled,
closed. -/
def closeMoves (bo : BrokerOrder) : List Move := still :: legMoves bo

/-- An exit that fills at 60 and 30. -/
def exit : Start where
  job := .exit true .target
  moves := [still]
    ++ closeMoves (snapshot "B1" "X0-240704-CE" .buy .ce .complete lot (some 60))
    ++ closeMoves (snapshot "B2" "X0-240704-PE" .buy .pe .complete lot (some 30))
    ++ [still]

example : (open_.session ctx exit).db.rows.positions.map
    (fun p => (p.state, p.realizedPnl)) = [(.closed, some 6750)] := by
  decide +kernel

end SampleDay

end AlgoPlatform
