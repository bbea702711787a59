/-
The kill switch: the producer of the risk-control flags
(`risk/kill_switch.py`, `risk_control_flag_repository.py`) and the check
that reads them (`RiskCore.is_halted`).

Every command is one transaction on the flag table, so the commands are
written as the statements they issue; what the schema demands of a row is
its scope CHECK and its two foreign keys. A flag's reason, its author and
its times decide nothing and are left out.
-/
import AlgoPlatform.Basis.Sql
import AlgoPlatform.Model.Enums

open Basis

namespace AlgoPlatform

inductive RiskFlagType
  | killSwitch | emergencyExit | freeze
  deriving DecidableEq, Repr

/-- Scope a risk-control flag applies to: the whole platform, every
instance under one account, or exactly one instance. -/
inductive RiskFlagScope
  | global | account | strategyInstance
  deriving DecidableEq, Repr

/-- What a command names: the flag's type, scope and target columns. -/
structure FlagKey where
  flagType : RiskFlagType
  scope : RiskFlagScope
  accountId : Option Nat
  strategyInstanceId : Option Nat
  deriving DecidableEq, Repr

/-- One row of `risk_control_flags`. -/
structure RiskControlFlag where
  key : FlagKey
  active : Bool
  deriving DecidableEq, Repr

/-- The CHECK `scope_matches_populated_fk`. -/
def FlagKey.ScopeMatches (key : FlagKey) : Prop :=
  (key.scope = .global ∧ key.accountId = none
      ∧ key.strategyInstanceId = none)
    ∨ (key.scope = .account ∧ key.accountId ≠ none
        ∧ key.strategyInstanceId = none)
    ∨ (key.scope = .strategyInstance ∧ key.strategyInstanceId ≠ none)

instance (key : FlagKey) : Decidable key.ScopeMatches := by
  unfold FlagKey.ScopeMatches
  infer_instance

/-- The rows of the two tables a flag refers to. -/
structure Targets where
  accounts : List Nat
  instances : List Nat

/-- What a key refers to is there. -/
def Targets.Has (targets : Targets) (key : FlagKey) : Prop :=
  (∀ a ∈ key.accountId, a ∈ targets.accounts)
    ∧ ∀ i ∈ key.strategyInstanceId, i ∈ targets.instances

instance (targets : Targets) (key : FlagKey) :
    Decidable (targets.Has key) := by
  unfold Targets.Has
  infer_instance

/-- The constraints of `risk_control_flags`: no two of its columns are
unique together. -/
def riskControlFlags (targets : Targets) : Constraints RiskControlFlag where
  Admits flag := flag.key.ScopeMatches ∧ targets.Has flag.key
  Clash _ _ := False
  decAdmits _ := inferInstance
  decClash _ _ := inferInstance

/-- A session on the flag table. -/
abbrev FlagSession := Sql RiskControlFlag Exc

-- ========================================================== repository

namespace RiskControlFlagRepository

/-- `list_active`: every active flag, whatever its scope. -/
def listActive : FlagSession (List (Nat × Versioned RiskControlFlag)) :=
  .select fun rows => pure (rows.filter fun row => row.2.value.active)

/-- The scopes that cover an instance, as the query spells them. -/
def relevantTo (accountId strategyInstanceId : Nat) (key : FlagKey) : Bool :=
  key.scope = .global
    ∨ key.scope = .account ∧ key.accountId = some accountId
    ∨ key.scope = .strategyInstance
      ∧ key.strategyInstanceId = some strategyInstanceId

/-- `list_active_relevant_to`. -/
def listActiveRelevantTo (accountId strategyInstanceId : Nat) :
    FlagSession (List (Nat × Versioned RiskControlFlag)) :=
  .select fun rows => pure (rows.filter fun row =>
    row.2.value.active && relevantTo accountId strategyInstanceId
      row.2.value.key)

/-- `activate`: a new active flag. -/
def activate (key : FlagKey) : FlagSession Unit :=
  .insert ⟨key, true⟩ fun
    | some _ => pure ()
    | none => throw .integrity

/-- `clear`, and the flush that finds the version out of date. -/
def clear (row : Nat × Versioned RiskControlFlag) : FlagSession Unit :=
  .update row.1 row.2.version { row.2.value with active := false } fun
    | true => pure ()
    | false => throw .concurrentModification

end RiskControlFlagRepository

-- ========================================================== kill switch

namespace KillSwitch

open RiskControlFlagRepository

/-- `_validate_scope_target`. -/
def validateScopeTarget (key : FlagKey) : Except Exc Unit :=
  if key.scope = .global
      ∧ (key.accountId ≠ none ∨ key.strategyInstanceId ≠ none) then
    .error (.value
      "GLOBAL scope must not set account_id or strategy_instance_id")
  else if key.scope = .account
      ∧ (key.accountId = none ∨ key.strategyInstanceId ≠ none) then
    .error (.value ("ACCOUNT scope requires account_id and must not set "
      ++ "strategy_instance_id"))
  else if key.scope = .strategyInstance ∧ key.strategyInstanceId = none then
    .error (.value "STRATEGY_INSTANCE scope requires strategy_instance_id")
  else .ok ()

/-- `_matches`: the type, the scope and both target columns. -/
def «matches» (key : FlagKey) (flag : RiskControlFlag) : Bool :=
  flag.key.flagType = key.flagType ∧ flag.key.scope = key.scope
    ∧ flag.key.accountId = key.accountId
    ∧ flag.key.strategyInstanceId = key.strategyInstanceId

/-- `engage`: whether a new flag was created. -/
def engage (key : FlagKey) : FlagSession Bool := do
  validateScopeTarget key
  Sql.unitOfWork do
    let active ← listActive
    if active.any fun row => «matches» key row.2.value then pure false
    else do
      activate key
      pure true

/-- The loop of `disengage`: clear what matches, and count it. -/
def clearMatching (key : FlagKey) :
    List (Nat × Versioned RiskControlFlag) → FlagSession Nat
  | [] => pure 0
  | row :: rows =>
      if «matches» key row.2.value then do
        clear row
        let cleared ← clearMatching key rows
        pure (cleared + 1)
      else clearMatching key rows

/-- `disengage`: how many flags were cleared. -/
def disengage (key : FlagKey) : FlagSession Nat := do
  validateScopeTarget key
  Sql.unitOfWork do
    let active ← listActive
    clearMatching key active

/-- A command to the kill switch. -/
inductive Command
  | engage (key : FlagKey)
  | disengage (key : FlagKey)
  deriving DecidableEq, Repr

def Command.key : Command → FlagKey
  | .engage key | .disengage key => key

/-- The transaction a command runs; what it counts is dropped. -/
def Command.script : Command → FlagSession Unit
  | .engage key => discard (KillSwitch.engage key)
  | .disengage key => discard (KillSwitch.disengage key)

/-- Calls to the kill switch, from any number of processes at once. -/
abbrev Calls := Server Command RiskControlFlag Exc Unit

/-- The calls that are under way, and the flag table, after a run that
began with no flags. -/
def calls (targets : Targets) (es : List (Server.Event Command)) : Calls :=
  Server.run (riskControlFlags targets) Command.script (.idle []) es

/-- What is left in the flag table by commands issued one after the
other. -/
def after (targets : Targets) (history : List Command) :
    List (Slot RiskControlFlag) :=
  history.foldl (fun table command =>
    match command.script.alone (riskControlFlags targets) 0 table with
    | some (_, table') => table'
    | none => table) []

end KillSwitch

/-- `is_halted`: some active flag covers the instance. -/
def RiskCore.isHalted (accountId instanceId : Nat) : FlagSession Bool := do
  let flags ← RiskControlFlagRepository.listActiveRelevantTo accountId
    instanceId
  pure (!flags.isEmpty)

end AlgoPlatform
