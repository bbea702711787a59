/-
The operator's command line for instances (`instance_admin.py`), and
everything that shares the trading tables with it.

FROZEN is cleared by `unfreeze` and by nothing else. `list` only reads;
its two queries are two statements, so each sees the commits before it.
-/
import AlgoPlatform.Model.Reconciliation
import AlgoPlatform.Model.Risk
import AlgoPlatform.Model.StartUp

open Basis Basis.Session

namespace AlgoPlatform

namespace StrategyInstanceRepository

/-- `list_active` and `list_frozen` differ in the status. -/
def listByStatus (status : InstanceStatus) (scan : List Nat) :
    Session (List (Nat × StrategyInstance)) :=
  fetch fun r =>
    (arrange scan
      ((select (·.status = status) r.instances).map Prod.fst)).filterMap
      fun id => r.instances[id]?.map fun inst => (id, inst)

def listActive : List Nat → Session (List (Nat × StrategyInstance)) :=
  listByStatus .active

def listFrozen : List Nat → Session (List (Nat × StrategyInstance)) :=
  listByStatus .frozen

end StrategyInstanceRepository

namespace InstanceAdmin

/-- A parsed command line. -/
inductive Command
  | list
  | unfreeze (instanceId : Nat) (reason : String) (actor : String)
  deriving DecidableEq, Repr

/-- What a command prints, and its exit code. -/
structure Output where
  lines : List String
  code : Nat
  deriving DecidableEq, Repr

/-- An instance as `list` prints it. -/
def listLine (row : Nat × StrategyInstance) : String :=
  "  id=" ++ toString row.1 ++ " " ++ row.2.strategyId ++ "/"
    ++ row.2.instrument ++ "@account=" ++ toString row.2.accountId
    ++ " status=" ++ row.2.status.value

/-- `list`: the ACTIVE and the FROZEN instances, by id. -/
def list : Program Output := do
  let active ← Program.unitOfWork fun scan =>
    StrategyInstanceRepository.listActive scan
  let frozen ← Program.unitOfWork fun scan =>
    StrategyInstanceRepository.listFrozen scan
  let instances := active ++ frozen
  if instances = [] then
    pure ⟨["No ACTIVE or FROZEN strategy instances found."], 0⟩
  else
    pure ⟨(instances.mergeSort fun a b => a.1 ≤ b.1).map listLine, 0⟩

/-- How `unfreeze` names an instance. -/
def named (instanceId : Nat) (inst : StrategyInstance) : String :=
  "instance " ++ toString instanceId ++ " (" ++ inst.strategyId ++ "/"
    ++ inst.instrument ++ ")"

/-- The session of `unfreeze`. -/
def unfreezeSession (instanceId : Nat) (reason actor : String) :
    Session Output := do
  match ← StrategyInstanceRepository.getById instanceId with
  | none =>
      pure ⟨["error: no StrategyInstance with id=" ++ toString instanceId], 1⟩
  | some inst =>
      if inst.status ≠ .frozen then
        pure ⟨[named instanceId inst ++ " is " ++ inst.status.value
          ++ ", not FROZEN -- no change."], 0⟩
      else do
        StrategyInstanceRepository.setStatus instanceId .active
        pure ⟨[named instanceId inst ++ " reset FROZEN -> ACTIVE by " ++ actor
          ++ ": " ++ reason], 0⟩

/-- `_run`. -/
def run : Command → Program Output
  | .list => list
  | .unfreeze instanceId reason actor =>
      Program.unitOfWork fun _ => unfreezeSession instanceId reason actor

/-- `main`, past the parser: the exit code, 1 on any exception. -/
def main (command : Command) : Program Nat :=
  tryCatch (do pure (← run command).code) fun _ => pure 1

end InstanceAdmin

/-- What runs against the trading tables: the strategy's jobs, each entry
behind the risk core, the startup pass, a runner isolating its instance,
and the operator. -/
inductive Activity
  | enter (config : RiskCoreConfig) (accountId : Nat) (call : EntryCall)
  | exit (ctx : StrategyContext) (acquired : Bool) (reason : ExitReason)
  | recover (ctx : StrategyContext) (acquired : Bool)
  | reconcile
  | freeze (instanceId : Nat)
  | admin (command : InstanceAdmin.Command)

/-- The program of an activity. -/
def Activity.program (reconciler : Option PositionReconciler) :
    Activity → Program Unit
  | .enter config accountId call => call.program config accountId
  | .exit ctx acquired reason => discard (ExitLogic.exit ctx acquired reason)
  | .recover ctx acquired => discard (Strategy1.recover ctx acquired)
  | .reconcile => discard (ReconciliationEngine.reconcile reconciler)
  | .freeze instanceId => StrategyRunner.freezeInstance instanceId
  | .admin command => discard (InstanceAdmin.main command)

end AlgoPlatform
