/-
Intents are forever.

No commit of the strategy deletes an intent, changes what it was created
with, or takes back that its broker call was started. `IntentsKept` says
so of two sets of rows, and every session of the entry, the exit and the
recovery keeps it.
-/
import AlgoPlatform.Model.Runs
import AlgoPlatform.Proofs.Frames
import AlgoPlatform.Proofs.Schema

open Basis Basis.Session

namespace AlgoPlatform

/-- What an intent keeps: everything but its status, and a start. -/
structure OrderIntent.Endures (x y : OrderIntent) : Prop where
  tradeId : y.tradeId = x.tradeId
  purpose : y.purpose = x.purpose
  transactionType : y.transactionType = x.transactionType
  quantity : y.quantity = x.quantity
  idempotencyKey : y.idempotencyKey = x.idempotencyKey
  brokerTag : y.brokerTag = x.brokerTag
  started : x.brokerCallStarted = true → y.brokerCallStarted = true

theorem OrderIntent.Endures.refl (x : OrderIntent) : x.Endures x :=
  ⟨rfl, rfl, rfl, rfl, rfl, rfl, id⟩

theorem OrderIntent.Endures.trans {x y z : OrderIntent} (h : x.Endures y)
    (h' : y.Endures z) : x.Endures z where
  tradeId := h'.tradeId.trans h.tradeId
  purpose := h'.purpose.trans h.purpose
  transactionType := h'.transactionType.trans h.transactionType
  quantity := h'.quantity.trans h.quantity
  idempotencyKey := h'.idempotencyKey.trans h.idempotencyKey
  brokerTag := h'.brokerTag.trans h.brokerTag
  started := h'.started ∘ h.started

/-- Every intent row is still there and endures. -/
def IntentsKept (r r' : Rows) : Prop :=
  ∀ (i : Nat) (x : OrderIntent), r.intents[i]? = some x →
    ∃ y : OrderIntent, r'.intents[i]? = some y ∧ x.Endures y

/-- Writes that leave the intents alone. -/
theorem intentsKept_of_eq {r r' : Rows} (h : r'.intents = r.intents) :
    IntentsKept r r' := by
  intro i x hx
  exact ⟨x, by rw [h]; exact hx, OrderIntent.Endures.refl x⟩

instance : BlindToOrders IntentsKept where
  refl := fun _ => intentsKept_of_eq rfl
  trans := by
    intro r s t hrs hst i x hx
    obtain ⟨y, hy, hxy⟩ := hrs i x hx
    obtain ⟨z, hz, hyz⟩ := hst i y hy
    exact ⟨z, hz, hxy.trans hyz⟩
  orders := fun _ _ => intentsKept_of_eq rfl
  breaks := fun _ _ => intentsKept_of_eq rfl

theorem intentsKept_setIntent {f : OrderIntent → OrderIntent}
    (hf : ∀ x : OrderIntent, x.Endures (f x)) (r : Rows) (i : Nat) :
    IntentsKept r (r.setIntent i f) := by
  intro j x hx
  rw [Rows.setIntent_intents, List.getElem?_modify]
  by_cases hij : i = j
  · exact ⟨f x, by simp [hx, hij], hf x⟩
  · exact ⟨x, by simp [hx, hij], OrderIntent.Endures.refl x⟩

theorem intentsKept_addIntent (r : Rows) (x : OrderIntent) :
    IntentsKept r { r with intents := r.intents ++ [x] } := by
  intro j y hy
  have hlt : j < r.intents.length := (List.getElem?_eq_some_iff.1 hy).1
  refine ⟨y, ?_, OrderIntent.Endures.refl y⟩
  rw [List.getElem?_append_left hlt]
  exact hy

theorem writesIntent_intentsKept (i : Nat) : WritesIntent IntentsKept i where
  status := by
    intro s r
    apply intentsKept_setIntent
    intro x
    exact ⟨rfl, rfl, rfl, rfl, rfl, rfl, id⟩
  started := by
    intro r
    apply intentsKept_setIntent
    intro x
    exact ⟨rfl, rfl, rfl, rfl, rfl, rfl, fun _ => rfl⟩

theorem addsIntents_intentsKept : AddsIntents IntentsKept :=
  intentsKept_addIntent

-- ========================================================= repositories

/-- A flush that leaves the intents alone. -/
private theorem keeps_elsewhere {g : Rows → Rows}
    (h : ∀ r, (g r).intents = r.intents) :
    Keeps IntentsKept (flush g : Session Unit) :=
  keeps_flush fun r => intentsKept_of_eq (h r)

theorem closesLeg_intentsKept (leg : ExitLegIds) :
    ClosesLeg IntentsKept leg := by
  intro price _
  refine keeps_bind (keeps_fetch _) fun trade => ?_
  cases trade with
  | none => exact keeps_throw _
  | some trade =>
      exact keeps_bind (keeps_elsewhere fun _ => rfl) fun _ =>
        keeps_resolveIntent ((writesIntent_intentsKept _).status _)

theorem keeps_transition {id : Nat} {toState : PositionState}
    {actor : StateTransitionActor} {reason : String} :
    Keeps IntentsKept
      (PositionStateMachine.transition id toState actor reason) := by
  refine keeps_bind (keeps_fetch _) fun _ =>
    keeps_bind (keeps_orRaise _ _) fun position => ?_
  refine keeps_ite (keeps_pure _) (keeps_ite ?_ (keeps_throw _))
  exact keeps_bind (keeps_fetch _) fun _ => keeps_bind (keeps_orRaise _ _)
    fun _ => keeps_elsewhere fun _ => rfl

theorem keeps_freezeInstance (instanceId : Nat) :
    Keeps IntentsKept (Bookkeeping.freezeInstance instanceId) := by
  refine keeps_bind (keeps_fetch _) fun row => ?_
  cases row with
  | none => exact keeps_pure _
  | some inst =>
      exact keeps_ite (keeps_elsewhere fun _ => rfl) (keeps_pure _)

/-- `_fail_to_error`'s and the recovery's way into ERROR. -/
private theorem keeps_errorPosition (positionId : Nat) (reason : String) :
    Keeps IntentsKept (Bookkeeping.errorPosition positionId reason) := by
  refine keeps_bind (keeps_fetch _) fun row => ?_
  cases row with
  | none => exact keeps_pure _
  | some position =>
      exact keeps_ite (keeps_bind (keeps_elsewhere fun _ => rfl) fun _ =>
        keeps_transition) (keeps_pure _)

theorem along_failToError {instanceId positionId : Nat} {reason : String} :
    Prog.Along (Waits IntentsKept)
      (Bookkeeping.failToError instanceId positionId reason) :=
  Program.along_unitOfWork fun _ =>
    keeps_bind (keeps_errorPosition _ _) fun _ => keeps_freezeInstance _

-- ============================================================== the exit

namespace ExitLogic

variable (ctx : StrategyContext)

private theorem keeps_prepareLegs (trades : List (Nat × Trade)) :
    ∀ legs, Keeps IntentsKept (prepareLegs ctx trades legs) := by
  induction trades with
  | nil => exact fun _ => keeps_pure _
  | cons trade trades ih =>
      intro legs
      refine keeps_bind ?_ fun leg => ih _
      exact keeps_bind (keeps_lift _) fun _ =>
        keeps_bind (keeps_getOrCreateIntent addsIntents_intentsKept) fun _ => keeps_pure _

theorem along_prepareExit (reason : ExitReason)
    (actor : StateTransitionActor) :
    Prog.Along (Waits IntentsKept) (prepareExit ctx reason actor) := by
  refine Program.along_unitOfWork fun scan => ?_
  refine keeps_bind (keeps_getByInstanceAndDate _ _) fun row => ?_
  cases row with
  | none => exact keeps_pure _
  | some row =>
      refine keeps_ite (keeps_pure _) (keeps_ite (keeps_pure _) ?_)
      refine keeps_bind (keeps_ite keeps_transition (keeps_pure _))
        fun _ => ?_
      exact keeps_bind (keeps_fetch _) fun trades =>
        keeps_bind (keeps_prepareLegs ctx trades []) fun _ => keeps_pure _

private theorem keeps_closePosition (positionId : Nat) (reason : ExitReason)
    (actor : StateTransitionActor) (scan : List Nat) :
    Keeps IntentsKept (closePosition ctx positionId reason actor scan) := by
  refine keeps_bind (keeps_fetch _) fun row => ?_
  cases row with
  | none => exact keeps_throw _
  | some position =>
      exact keeps_bind (keeps_fetch _) fun trades =>
        keeps_bind (keeps_lift _) fun legs =>
          keeps_bind (keeps_elsewhere fun _ => rfl) fun _ =>
            keeps_bind keeps_transition fun _ => keeps_pure _

theorem along_conclude (prepared : PreparedExit) (reason : ExitReason)
    (results : List (OptionType × LegCloseResult)) :
    Prog.Along (Waits IntentsKept) (conclude ctx prepared reason results) := by
  refine Prog.along_ite ?_ ?_
  · refine Prog.along_tryCatch ?_ fun _ => ?_
    · exact Prog.along_bind (Program.along_unitOfWork fun scan =>
        keeps_closePosition ctx _ _ _ scan) fun _ => Prog.along_pure _
    · exact Prog.along_bind along_recordBreak fun _ => Prog.along_pure _
  · refine Prog.along_bind along_recordBreak fun _ => ?_
    exact Prog.along_bind along_failToError fun _ => Prog.along_pure _

end ExitLogic

-- ========================================================== the recovery

namespace Strategy1

variable (ctx : StrategyContext)

theorem along_markPositionErrorAndFreeze (positionId : Nat)
    (reason : String) :
    Prog.Along (Waits IntentsKept)
      (markPositionErrorAndFreeze ctx positionId reason) := by
  refine Program.along_unitOfWork fun _ =>
    keeps_bind (keeps_bind (keeps_fetch _) fun row => ?_) fun _ =>
      keeps_freezeInstance _
  cases row with
  | none => exact keeps_pure _
  | some position =>
      exact keeps_ite (keeps_bind (keeps_elsewhere fun _ => rfl) fun _ =>
        keeps_transition) (keeps_pure _)

end Strategy1

end AlgoPlatform
