/-
Start-up (`dependency_container.py`, `strategy_runner.py`): reconcile
with the broker, then bring every declared instance up.
-/
import AlgoPlatform.Model.MarketDesk
import AlgoPlatform.Model.Reconciliation
import AlgoPlatform.Model.Strategy

open Basis

namespace AlgoPlatform

namespace StrategyRunner

/-- `_freeze_instance`: best effort. -/
def freezeInstance (instanceId : Nat) : Program Unit :=
  tryCatch (Program.unitOfWork fun _ => Bookkeeping.freezeInstance instanceId)
    fun _ => pure ()

/-- `start`: the strategy's `recover`, guarded. Nobody else holds the
exit lock yet. -/
def start (runner : Runner) : Program Runner :=
  tryCatch
    (do let monitor ← Strategy1.recover runner.ctx true
        pure { runner with running := true, monitor })
    fun _ => do
      freezeInstance runner.ctx.instanceId
      pure { runner with running := false }

end StrategyRunner

namespace DependencyContainer

/-- `scheduler.register` of every runner, one after the other. -/
def register : List Runner → Program (List Runner)
  | [] => pure []
  | runner :: runners => do
      let started ← StrategyRunner.start runner
      let rest ← register runners
      pure (started :: rest)

/-- `start`, once the broker is authenticated and healthy and the
runners are built. -/
def start (reconciler : Option PositionReconciler) (runners : List Runner) :
    Program (List ReconciliationItem × List Runner) := do
  let report ← ReconciliationEngine.reconcile reconciler
  let runners ← register runners
  pure (report, runners)

end DependencyContainer

end AlgoPlatform
