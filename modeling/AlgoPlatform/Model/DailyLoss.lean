/-
The daily-loss check (`RiskCore._check_daily_loss_limit`,
`_persist_daily_risk`) and the row it latches
(`daily_risk_state_repository.py`).

A check decides from one read and then writes the figures and the breach
down in a transaction of its own, which it gives up when another check
got there first. The day's realized figure is summed from the positions
(`realizedPnlForAccountOnDate`); whatever it is at the moment of the
check is an input. The row's timestamps decide nothing and are left out.
`str` is how a Decimal prints.
-/
import AlgoPlatform.Basis.Sql
import AlgoPlatform.Model.Monitor
import AlgoPlatform.Model.Risk

open Basis

namespace AlgoPlatform

/-- One row of `daily_risk_state`: an account's day, or one instrument's
part of it. -/
structure DailyRiskState where
  accountId : Nat
  instrument : Option String
  tradeDate : Date
  realizedPnl : ℚ := 0
  unrealizedPnl : ℚ := 0
  lossLimit : ℚ
  breached : Bool := false
  deriving DecidableEq, Repr

/-- The table's constraints: the account is there, and the two partial
unique indexes. -/
def dailyRiskState (accounts : List Nat) : Constraints DailyRiskState where
  Admits row := row.accountId ∈ accounts
  Clash r s := r.accountId = s.accountId ∧ r.tradeDate = s.tradeDate
    ∧ (r.instrument = none ∧ s.instrument = none
      ∨ r.instrument ≠ none ∧ s.instrument ≠ none
        ∧ r.instrument = s.instrument)
  decAdmits _ := inferInstance
  decClash _ _ := inferInstance

/-- A session on the table. -/
abbrev DailyRiskSession := Sql DailyRiskState Exc

/-- A row as a session holds it: its key, its value and its version. -/
abbrev DailyRiskRow := Nat × Versioned DailyRiskState

/-- One account on one trading day. -/
structure AccountDay where
  accountId : Nat
  tradeDate : Date
  deriving DecidableEq, Repr

/-- The account's portfolio-level row of the day. -/
def AccountDay.Portfolio (day : AccountDay) (row : DailyRiskState) : Prop :=
  row.accountId = day.accountId ∧ row.tradeDate = day.tradeDate
    ∧ row.instrument = none

instance (day : AccountDay) (row : DailyRiskState) :
    Decidable (day.Portfolio row) := by
  unfold AccountDay.Portfolio
  infer_instance

-- ============================================================ positions

/-- The position is of the day, and of an instance of the account. -/
def AccountDay.Covers (day : AccountDay) (r : Rows) (p : Position) : Prop :=
  p.tradeDate = day.tradeDate
    ∧ (r.instances[p.strategyInstanceId]?).any (·.accountId = day.accountId)

instance (day : AccountDay) (r : Rows) (p : Position) :
    Decidable (day.Covers r p) :=
  inferInstanceAs (Decidable (_ ∧ _))

/-- `coalesce(sum(Position.realized_pnl), 0)` over the account's day. -/
def Rows.realizedOn (r : Rows) (day : AccountDay) : ℚ :=
  ((r.positions.filter fun p => day.Covers r p).filterMap
    (·.realizedPnl)).sum

/-- `realized_pnl_for_account_on_date`. -/
def PositionRepository.realizedPnlForAccountOnDate (day : AccountDay) :
    Session ℚ :=
  Session.fetch (·.realizedOn day)

-- ========================================================== repository

namespace DailyRiskStateRepository

/-- `scalar_one_or_none` over the portfolio rows of the day. -/
def portfolioRow (day : AccountDay) (rows : List DailyRiskRow) :
    Except Exc (Option DailyRiskRow) :=
  match rows.filter fun row => day.Portfolio row.2.value with
  | [] => .ok none
  | [row] => .ok (some row)
  | _ => .error .multipleResults

/-- `get_portfolio_row`. -/
def getPortfolioRow (day : AccountDay) :
    DailyRiskSession (Option DailyRiskRow) :=
  .select fun rows => .done (portfolioRow day rows)

/-- The row `get_or_create_portfolio_row` would create. -/
def newPortfolioRow (day : AccountDay) (lossLimit : ℚ) : DailyRiskState :=
  { accountId := day.accountId
    instrument := none
    tradeDate := day.tradeDate
    lossLimit := numeric4 lossLimit }

/-- `get_or_create_portfolio_row`, less the flag that tells which. -/
def getOrCreatePortfolioRow (day : AccountDay) (lossLimit : ℚ) :
    DailyRiskSession DailyRiskRow := do
  match ← getPortfolioRow day with
  | some existing => pure existing
  | none =>
      let created := newPortfolioRow day lossLimit
      .insert created fun
        | some id => pure (id, ⟨created, 1⟩)
        | none => do
            match ← getPortfolioRow day with
            | some existing => pure existing
            | none => throw .integrity

/-- `flush` of a row's new values: an UPDATE if any column changed. -/
def flush (row : DailyRiskRow) (value : DailyRiskState) :
    DailyRiskSession DailyRiskRow :=
  if value = row.2.value then pure row
  else .update row.1 row.2.version value fun
    | true => pure (row.1, ⟨value, row.2.version + 1⟩)
    | false => throw .concurrentModification

/-- `update_pnl`. -/
def updatePnl (row : DailyRiskRow) (realizedPnl unrealizedPnl : ℚ) :
    DailyRiskSession DailyRiskRow :=
  flush row { row.2.value with realizedPnl, unrealizedPnl }

/-- `mark_breached`. -/
def markBreached (row : DailyRiskRow) : DailyRiskSession DailyRiskRow :=
  flush row { row.2.value with breached := true }

end DailyRiskStateRepository

-- =============================================================== check

/-- One daily-loss check: the account and the day, the limit configured
in its process, and what the positions then say was realized. -/
structure DailyLossCheck where
  day : AccountDay
  limit : Option ℚ
  realized : ℚ
  deriving DecidableEq, Repr

namespace DailyLossCheck

variable (check : DailyLossCheck) (existing : Option DailyRiskRow)

/-- `already_breached`. -/
def alreadyBreached : Bool := existing.any (·.2.value.breached)

/-- `unrealized`. -/
def unrealized : ℚ := existing.elim 0 (·.2.value.unrealizedPnl)

/-- `effective_limit`: the row's snapshot once there is one. -/
def effectiveLimit (limit : ℚ) : ℚ := existing.elim limit (·.2.value.lossLimit)

/-- `total_pnl`. -/
def totalPnl : ℚ := check.realized + unrealized existing

/-- `crossed`: the total is at or past the limit. -/
def crossed (limit : ℚ) : Bool :=
  check.totalPnl existing ≤ -effectiveLimit existing limit

end DailyLossCheck

namespace RiskCore

open DailyRiskStateRepository DailyLossCheck

/-- `_persist_daily_risk`. -/
def persistDailyRisk (day : AccountDay) (configLimit realized unrealized : ℚ)
    (latchBreach : Bool) : DailyRiskSession Unit :=
  MonadExcept.tryCatch (do
      let row ← getOrCreatePortfolioRow day configLimit
      let row ← updatePnl row realized unrealized
      if latchBreach && !row.2.value.breached then
        discard (markBreached row)
      .commit (pure ()))
    fun e =>
      if e = .concurrentModification then .rollback (pure ())
      else .rollback (throw e)

/-- The result of a check that read `existing`. -/
def dailyLossResult (str : ℚ → String) (check : DailyLossCheck)
    (existing : Option DailyRiskRow) (limit : ℚ) : RiskCheckResult :=
  let figures (relation : String) := "daily realized P&L "
    ++ str (check.totalPnl existing) ++ relation
    ++ str (effectiveLimit existing limit)
  if alreadyBreached existing || check.crossed existing limit then
    ⟨"daily_loss_limit", .failed, figures " breaches limit of -"⟩
  else ⟨"daily_loss_limit", .passed, figures " within limit of -"⟩

/-- `_check_daily_loss_limit`. -/
def checkDailyLossLimit (str : ℚ → String) (check : DailyLossCheck) :
    DailyRiskSession RiskCheckResult :=
  match check.limit with
  | none =>
      pure ⟨"daily_loss_limit", .passed, "no daily loss limit configured"⟩
  | some limit => do
      let existing ← getPortfolioRow check.day
      persistDailyRisk check.day limit check.realized (unrealized existing)
        (check.crossed existing limit)
      pure (dailyLossResult str check existing limit)

/-- Daily-loss checks, from any number of processes at once. -/
abbrev DailyLossChecks :=
  Server DailyLossCheck DailyRiskState Exc RiskCheckResult

/-- The checks that are under way, and the table, after a run that began
with no rows. -/
def dailyLossChecks (accounts : List Nat) (str : ℚ → String)
    (es : List (Server.Event DailyLossCheck)) : DailyLossChecks :=
  Server.run (dailyRiskState accounts) (checkDailyLossLimit str) (.idle []) es

end RiskCore

end AlgoPlatform
