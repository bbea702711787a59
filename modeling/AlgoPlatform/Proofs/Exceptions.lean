/-
What exceptions leave a program.

# The two sorts

The database, the state machine and validation raise exceptions of their
own; only a call of the broker raises one of the broker's. What polls or
adopts an order handles those.
-/
import AlgoPlatform.Proofs.Commits
import AlgoPlatform.Proofs.Ledger
import AlgoPlatform.Proofs.OrderRow

open Basis Basis.Session

namespace AlgoPlatform

-- ==================================================== broker exceptions

/-- Not one of the broker's. -/
def Exc.Internal (e : Exc) : Prop := ∀ be, e ≠ .broker be

/-- The exceptions of a placement that `_place_leg` handles. -/
def BrokerErrorKind.isHandled : BrokerErrorKind → Bool
  | .orderRejected | .invalidOrderRequest | .connection | .rateLimitExceeded
  | .timeout => true
  | _ => false

section Internal

variable {α : Type}

theorem raises_orRaise (id : Nat) (row : Option α) :
    Session.Raises Exc.Internal (orRaise id row : Session α) := by
  cases row with
  | none => exact Session.raises_throw nofun
  | some row => exact Session.raises_pure _

theorem raises_write (g : Rows → Rows) :
    Session.Raises Exc.Internal (flush g : Session Unit) :=
  Session.raises_flush nofun g

theorem raises_getIntent (id : Nat) : Session.Raises Exc.Internal
    (OrderIntentRepository.getByIdOrRaise id) :=
  Session.raises_bind (Session.raises_fetch _) fun _ => raises_orRaise _ _

theorem raises_createOrder {tradeId : Nat} {intentId : Option Nat}
    {purpose : OrderPurpose} {side : TransactionType} {type : OrderType}
    {quantity : Nat} {tag : Option String} :
    Session.Raises Exc.Internal (OrderRepository.create tradeId intentId
      purpose side type quantity tag) :=
  Session.raises_bind (Session.raises_fetch _) fun _ =>
    Session.raises_bind (raises_write _) fun _ => Session.raises_pure _

theorem raises_markStatus (status : IntentStatus) (id : Nat) :
    Session.Raises Exc.Internal
      (OrderIntentRepository.markStatus status id) :=
  raises_write _

/-- A tag too long is a `ValueError`. -/
theorem validateTag_internal {tag : String} {e : Exc}
    (h : validateTag tag = .error e) : e.Internal := by
  unfold validateTag at h
  split_ifs at h
  cases h
  exact nofun

theorem raises_reconcileTerminal (id : String) (bo : BrokerOrder) :
    Session.Raises Exc.Internal (reconcileTerminal id bo) := by
  have hwrite : ∀ (f : Rows → Rows) (out : OrderUpdateOutcome),
      Session.Raises Exc.Internal (do flush f; pure out : Session _) :=
    fun f out => Session.raises_bind (raises_write f) fun _ =>
      Session.raises_pure out
  refine Session.raises_bind (Session.raises_bind (Session.raises_fetch _)
    fun _ => Session.raises_scalarOneOrNone nofun _) fun row => ?_
  cases row with
  | none => exact Session.raises_pure _
  | some row =>
      refine Session.raises_discard (Session.raises_ite (Session.raises_pure _)
        (Session.raises_bind ?_ fun _ => ?_))
      · exact Session.raises_ite (raises_write _) (Session.raises_pure _)
      · cases bo.status with
        | complete => exact hwrite _ _
        | rejected => exact hwrite _ _
        | error => exact hwrite _ _
        | cancelled => exact hwrite _ _
        | pending =>
            exact Session.raises_ite (hwrite _ _) (Session.raises_pure _)
        | «open» =>
            exact Session.raises_ite (hwrite _ _) (Session.raises_pure _)

theorem raises_recordAck {tradeId i : Nat} {purpose : OrderPurpose}
    {side : TransactionType} {quantity : Nat} {tag : String}
    {brokerOrderId : String} :
    Session.Raises Exc.Internal (Bookkeeping.recordAck tradeId i purpose side
      quantity (validateTag tag) brokerOrderId) :=
  Session.raises_bind (Session.raises_lift fun _ => validateTag_internal)
    fun _ => Session.raises_bind raises_createOrder fun _ =>
      Session.raises_bind (raises_write _) fun _ =>
        Session.raises_bind (raises_getIntent _) fun _ =>
          Session.raises_bind (raises_markStatus _ _) fun _ =>
            Session.raises_pure _

namespace Program

/-- A failed commit is not the broker's doing. -/
theorem raises_unitOfWork {body : List Nat → Session α}
    (h : ∀ scan, Session.Raises Exc.Internal (body scan)) :
    Prog.Raises Exc.Internal (unitOfWork body) := by
  intro m w e he
  dsimp only at he
  cases hfault : m.fault with
  | some fault =>
      rw [hfault] at he
      cases he
      cases fault <;> exact nofun
  | none =>
      have hbody := h m.scan (w.interfere m).db
      unfold Meets at hbody
      rw [hfault] at he
      dsimp only at he
      cases hrun : body m.scan (w.interfere m).db with
      | ok r =>
          rw [hrun] at he
          cases he
      | error e' =>
          rw [hrun] at he hbody
          cases he
          exact hbody

theorem raises_reconcileOrderTerminal (id : String) (bo : BrokerOrder) :
    Prog.Raises Exc.Internal (reconcileOrderTerminal id bo) := by
  intro m w
  have hreturned : ∀ e, (.ok () : Except Exc Unit) = .error e →
      Exc.Internal e := by
    intro e he
    cases he
  have hwrite := reconciled_of (P := fun x => ∀ e, x.1 = .error e →
      Exc.Internal e)
    ((raises_reconcileTerminal id bo (w.interfere m).db).imp
      (fun _ _ _ => hreturned) fun e he => by
        refine ⟨hreturned, fun e' he' => ?_⟩
        cases he'
        exact he)
  dsimp only
  cases m.fault with
  | none =>
      dsimp only
      rw [if_neg (by simp)]
      exact hwrite
  | some fault =>
      cases fault with
      | operational =>
          intro e he
          cases he
          intro be hbe
          cases hbe
      | conflict =>
          dsimp only
          split_ifs
          · exact hreturned
          · exact hreturned
          · exact hwrite

/-- What is guarded raises no broker exception. -/
theorem raises_tryBroker (p : Program α) :
    Prog.Raises Exc.Internal (tryBroker p) := by
  unfold tryBroker
  induction p with
  | done r =>
      cases r with
      | ok a => exact Prog.raises_pure _
      | error e =>
          cases e with
          | broker be => exact Prog.raises_pure _
          | _ => exact Prog.raises_throw nofun
  | act f k ih => exact fun m w => ih _

/-- A poll takes a failed read for one more attempt. -/
theorem raises_pollUntilTerminal (id : String) (attempts : Nat) :
    Prog.Raises Exc.Internal (pollUntilTerminal id attempts) := by
  induction attempts with
  | zero => exact Prog.raises_pure _
  | succ attempts ih =>
      refine Prog.raises_bind (raises_tryBroker _) fun r => ?_
      cases r with
      | ok bo => exact Prog.raises_ite (Prog.raises_pure _) ih
      | error e => exact ih

theorem raises_recordRejection {tradeId i : Nat} {purpose : OrderPurpose}
    {side : TransactionType} {quantity : Nat} {tag message : String} :
    Prog.Raises Exc.Internal (Bookkeeping.recordRejection tradeId i purpose
      side quantity (validateTag tag) message) :=
  raises_unitOfWork fun _ =>
    Session.raises_bind (Session.raises_lift fun _ => validateTag_internal)
      fun _ => Session.raises_bind raises_createOrder fun _ =>
        Session.raises_bind (raises_write _) fun _ =>
          Session.raises_bind (raises_getIntent _) fun _ =>
            raises_markStatus _ _

theorem raises_markIntentFailed (intentId : Nat) :
    Prog.Raises Exc.Internal (Bookkeeping.markIntentFailed intentId) :=
  raises_unitOfWork fun _ =>
    Session.raises_bind (raises_getIntent _) fun _ => raises_markStatus _ _

end Program

end Internal

/-- One `place_order` call is one more call, and raises what it says. -/
theorem Broker.Placed.call {b b' : Broker} {request : PlaceOrderRequest}
    {r : Except BrokerError String} (h : b.Placed request r b') :
    ∃ c : PlaceCall, b'.calls = b.calls ++ [c] ∧ c.request = request
      ∧ ∀ e, r = .error e ↔ c.raised = some e := by
  cases h with
  | acked hid => exact ⟨_, rfl, rfl, fun e => ⟨nofun, nofun⟩⟩
  | @lost id e hid hlive =>
      refine ⟨_, rfl, rfl, fun e' => ⟨fun h => ?_, fun h => ?_⟩⟩
      · cases h
        rfl
      · cases h
        rfl
  | refused e =>
      refine ⟨_, rfl, rfl, fun e' => ⟨fun h => ?_, fun h => ?_⟩⟩
      · cases h
        rfl
      · cases h
        rfl

end AlgoPlatform
