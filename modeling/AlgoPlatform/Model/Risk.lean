/-
The pre-trade checks (`risk/risk_core.py`) and the entry behind them.

`validate_entry` runs nine checks in a fixed order and stops evaluating
at the first that fails. The checks on the strategy's own rows (the
instance's status, the duplicate position, the account's entries of the
day) are units of work here, each in a session of its own as in the
code; what the flag tables, the daily-loss row, the clock and the broker
answer is an input, since nothing modelled writes them.
-/
import AlgoPlatform.Model.EntryLogic

open Basis Basis.Session

namespace AlgoPlatform

def InstanceStatus.value : InstanceStatus → String
  | .active => "ACTIVE"
  | .frozen => "FROZEN"
  | .disabled => "DISABLED"

inductive RiskCheckStatus
  | passed | failed | skipped
  deriving DecidableEq, Repr

/-- The outcome of one named pre-trade check. -/
structure RiskCheckResult where
  name : String
  status : RiskCheckStatus
  detail : String
  deriving DecidableEq, Repr

/-- The complete outcome of one `validate_entry` run. -/
structure RiskValidationResult where
  approved : Bool
  checks : List RiskCheckResult
  deriving DecidableEq, Repr

/-- `failed_check`. -/
def RiskValidationResult.failedCheck (r : RiskValidationResult) :
    Option RiskCheckResult :=
  r.checks.find? (·.status = .failed)

/-- `to_risk_decision`: approved, and the reason if not. -/
def RiskValidationResult.toRiskDecision (r : RiskValidationResult) :
    Bool × Option String :=
  (r.approved, r.failedCheck.map fun failed => failed.name ++ ": " ++ failed.detail)

/-- The config field the modelled checks read. -/
structure RiskCoreConfig where
  maxDailyEntriesPerAccount : Nat
  maxDailyEntries_pos : 0 < maxDailyEntriesPerAccount

/-- What the tables and services that are not modelled answer to one
`validate_entry`. -/
structure RiskInputs where
  tradingHours : Except Exc RiskCheckResult
  /-- The active FREEZE, KILL_SWITCH and EMERGENCY_EXIT flags. -/
  freezeFlags : Nat
  killSwitchFlags : Nat
  emergencyExitFlags : Nat
  dailyLossLimit : Except Exc RiskCheckResult
  brokerConnectivity : Except Exc RiskCheckResult
  availableMargin : Except Exc RiskCheckResult

/-- The positions of an account's instances on one trading day. -/
def Rows.entriesOn (r : Rows) (accountId : Nat) (tradeDate : Date) : Nat :=
  r.positions.countP fun p => p.tradeDate = tradeDate
    ∧ (r.instances[p.strategyInstanceId]?).any (·.accountId = accountId)

/-- `count_for_account_on_date`. -/
def PositionRepository.countForAccountOnDate (accountId : Nat)
    (tradeDate : Date) : Session Nat :=
  fetch (·.entriesOn accountId tradeDate)

namespace RiskCore

variable (config : RiskCoreConfig) (accountId : Nat) (ctx : StrategyContext)

-- ============================================================== checks

/-- `_check_strategy_state`. -/
def checkStrategyState (freezeFlags : Nat) : Program RiskCheckResult :=
  Program.unitOfWork fun _ => do
    match ← StrategyInstanceRepository.getById ctx.instanceId with
    | none => pure ⟨"strategy_state", .failed,
        "no StrategyInstance row found for id=" ++ toString ctx.instanceId⟩
    | some inst =>
        if inst.status ≠ .active then
          pure ⟨"strategy_state", .failed,
            "instance status is " ++ inst.status.value ++ ", not ACTIVE"⟩
        else if freezeFlags ≠ 0 then
          pure ⟨"strategy_state", .failed,
            toString freezeFlags ++ " active FREEZE flag(s) present"⟩
        else
          pure ⟨"strategy_state", .passed,
            "instance is ACTIVE with no freeze flags"⟩

/-- `_check_kill_switch` and `_check_emergency_stop`: the active flags of
one type. -/
def checkFlags (name found none : String) (flags : Nat) : RiskCheckResult :=
  if flags ≠ 0 then ⟨name, .failed, toString flags ++ found⟩
  else ⟨name, .passed, none⟩

def checkKillSwitch (flags : Nat) : RiskCheckResult :=
  checkFlags "kill_switch" " active KILL_SWITCH flag(s)"
    "no active kill-switch flag" flags

def checkEmergencyStop (flags : Nat) : RiskCheckResult :=
  checkFlags "emergency_stop" " active EMERGENCY_EXIT flag(s)"
    "no active emergency-stop flag" flags

/-- `_check_duplicate_position`. -/
def checkDuplicatePosition : Program RiskCheckResult :=
  Program.unitOfWork fun _ => do
    match ← PositionRepository.getByInstanceAndDate ctx.instanceId ctx.today with
    | some (id, existing) => pure ⟨"duplicate_position", .failed,
        "position " ++ toString id ++ " already exists for "
          ++ ctx.today.isoformat ++ " (state=" ++ existing.state.value ++ ")"⟩
    | none => pure ⟨"duplicate_position", .passed,
        "no existing position for " ++ ctx.today.isoformat⟩

/-- `_check_max_daily_entries`. -/
def checkMaxDailyEntries : Program RiskCheckResult :=
  Program.unitOfWork fun _ => do
    let count ← PositionRepository.countForAccountOnDate accountId ctx.today
    let limit := config.maxDailyEntriesPerAccount
    if limit ≤ count then
      pure ⟨"max_daily_entries", .failed, toString count
        ++ " entries already opened today account-wide, limit is "
        ++ toString limit⟩
    else
      pure ⟨"max_daily_entries", .passed, toString count ++ "/" ++ toString limit
        ++ " entries opened today account-wide"⟩

-- ========================================================== validation

/-- The loop of `validate_entry`: whether a check failed, and every
result; after a failure the rest are recorded as SKIPPED. -/
def runChecks : Bool → List (String × Program RiskCheckResult) →
    Program (Bool × List RiskCheckResult)
  | alreadyFailed, [] => pure (alreadyFailed, [])
  | true, (name, _) :: rest => do
      let (failed, results) ← runChecks true rest
      pure (failed, ⟨name, .skipped,
        "not evaluated: an earlier check already failed (fail-fast)"⟩ :: results)
  | false, (_, check) :: rest => do
      let result ← check
      let (failed, results) ← runChecks (result.status = .failed) rest
      pure (failed, result :: results)

/-- `validate_entry`. -/
def validateEntry (inputs : RiskInputs) : Program RiskValidationResult := do
  let (failed, checks) ← runChecks false
    [("trading_hours", Prog.done inputs.tradingHours),
     ("strategy_state", checkStrategyState ctx inputs.freezeFlags),
     ("kill_switch", pure (checkKillSwitch inputs.killSwitchFlags)),
     ("emergency_stop", pure (checkEmergencyStop inputs.emergencyExitFlags)),
     ("daily_loss_limit", Prog.done inputs.dailyLossLimit),
     ("duplicate_position", checkDuplicatePosition ctx),
     ("max_daily_entries", checkMaxDailyEntries config accountId ctx),
     ("broker_connectivity", Prog.done inputs.brokerConnectivity),
     ("available_margin", Prog.done inputs.availableMargin)]
  pure { approved := !failed, checks }

/-- `approve_entry`. -/
def approveEntry (inputs : RiskInputs) : Program (Bool × Option String) := do
  let result ← validateEntry config accountId ctx inputs
  pure result.toRiskDecision

end RiskCore

namespace EntryLogic

variable (ctx : StrategyContext)

/-- `begin`, with the risk gateway run where `begin` takes its answer as
an input. -/
def beginUnder (approve : Program (Bool × Option String))
    (inputs : EntryInputs) : Program (Except EntryResult DurableRecord) := do
  match ← findExistingPosition ctx with
  | some state =>
      pure (.error { outcome := .skippedAlreadyExists,
                     message := "position already exists for "
                       ++ ctx.today.isoformat ++ " in state PositionState."
                       ++ state.value })
  | none => do
      if ← Prog.done (shouldSkipExpiryDay ctx inputs) then
        pure (.error { outcome := .skippedExpiryDay,
                       message := "skip_on_expiry_day is set and "
                         ++ ctx.today.isoformat ++ " is an expiry day" })
      else
        match ← blockedBy with
        | some reason =>
            pure (.error { outcome := .blockedByRisk, message := reason })
        | none => do
            let selection ← Prog.done inputs.selection
            match ← createDurableRecord ctx selection with
            | none =>
                pure (.error { outcome := .skippedAlreadyExists,
                               message := "another writer created today's "
                                 ++ "position concurrently" })
            | some durable => pure (.ok durable)
where
  /-- `_check_risk`. -/
  blockedBy : Program (Option String) := do
    if ← Prog.done inputs.halted then
      pure (some "trading is halted (kill-switch / emergency-exit active)")
    else do
      let (approved, reason) ← approve
      if approved then pure none
      else
        match reason with
        | some text =>
            pure (some (if text = "" then
              "entry rejected by risk (no reason given)" else text))
        | none => pure (some "entry rejected by risk (no reason given)")

/-- `enter`, gated by the risk core. -/
def enterUnder (approve : Program (Bool × Option String))
    (inputs : EntryInputs) : Program EntryResult := do
  match ← beginUnder ctx approve inputs with
  | .error result => pure result
  | .ok durable => placeAndFinalize ctx durable

end EntryLogic

/-- One call of `enter` by an instance of the account. -/
structure EntryCall where
  ctx : StrategyContext
  inputs : EntryInputs
  risk : RiskInputs

/-- Its program: the entry behind the risk core of its account. -/
def EntryCall.program (config : RiskCoreConfig) (accountId : Nat)
    (call : EntryCall) : Program Unit :=
  discard (EntryLogic.enterUnder call.ctx
    (RiskCore.approveEntry config accountId call.ctx call.risk) call.inputs)

end AlgoPlatform
