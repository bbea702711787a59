/-
The acts of the strategy among other threads.

`Prog.Beside` for each kind of act: a unit of work, a broker call, a
guarded one. The environment has its turn before each of them, so what
an invariant asks of a thread is asked of the turn too, once
(`TurnKeeps`).
-/
import AlgoPlatform.Basis.Rely
import AlgoPlatform.Proofs.Environment

open Basis Basis.Session

namespace AlgoPlatform

variable {α : Type} {I : World → Prop} {R : World → World → Prop}
  {seen : World}

/-- The environment's turn keeps the invariant and moves along `R`. -/
def TurnKeeps (I : World → Prop) (R : World → World → Prop) : Prop :=
  ∀ m w, I w → I (w.interfere m) ∧ R w (w.interfere m)

namespace Program

variable [Prog.Frame R]

/-- One unit of work: its commit, its exception, or a failed commit. -/
theorem beside_unitOfWork (hturn : TurnKeeps I R) {body : List Nat → Session α}
    {Q : Except Exc α → World → Prop}
    (hfault : ∀ (f : DbFault) w, R seen w → I w → Q (.error f.exc) w)
    (hbody : ∀ scan w, R seen w → I w → Meets (body scan) w.db
      (fun a db => (I { w with db } ∧ R w { w with db })
        ∧ Q (.ok a) { w with db })
      fun e => Q (.error e) w) :
    (unitOfWork body).Beside I R seen Q := by
  refine Prog.beside_atomic fun m w hseen hw => ?_
  obtain ⟨hnow, hmoved⟩ := hturn m w hw
  have hthere := Prog.Frame.trans hseen hmoved
  dsimp only
  cases m.fault with
  | some f => exact ⟨⟨hnow, hmoved⟩, hfault f _ hthere hnow⟩
  | none =>
      have hmeets := hbody m.scan _ hthere hnow
      unfold Meets at hmeets
      dsimp only
      cases hrun : body m.scan (w.interfere m).db with
      | error e =>
          rw [hrun] at hmeets
          exact ⟨⟨hnow, hmoved⟩, hmeets⟩
      | ok x =>
          rw [hrun] at hmeets
          obtain ⟨⟨hdone, hwrote⟩, hpost⟩ := hmeets
          exact ⟨⟨hdone, Prog.Frame.trans hmoved hwrote⟩, hpost⟩

/-- One `place_order` call, by what it came to. -/
theorem beside_placeOrder (hturn : TurnKeeps I R) {request : PlaceOrderRequest}
    {Q : Except Exc String → World → Prop}
    (hplace : ∀ w r b, R seen w → I w → w.broker.Placed request r b →
      (I { w with broker := b } ∧ R w { w with broker := b })
        ∧ Q (r.mapError .broker) { w with broker := b }) :
    (placeOrder request).Beside I R seen Q := by
  refine Prog.beside_atomic fun m w hseen hw => ?_
  obtain ⟨hnow, hmoved⟩ := hturn m w hw
  obtain ⟨r, hplaced, hr⟩ :=
    (w.interfere m).broker.placeOrder_placed request m.place
  obtain ⟨⟨hdone, hwrote⟩, hpost⟩ :=
    hplace _ r _ (Prog.Frame.trans hseen hmoved) hnow hplaced
  rw [← hr] at hpost
  exact ⟨⟨hdone, Prog.Frame.trans hmoved hwrote⟩, hpost⟩

/-- One broker read. -/
theorem beside_reads (hturn : TurnKeeps I R) {f : Move → Broker → Except Exc α}
    {Q : Except Exc α → World → Prop}
    (hread : ∀ m w, R seen w → I w → Q (f m w.broker) w) :
    (reads f).Beside I R seen Q := by
  refine Prog.beside_atomic fun m w hseen hw => ?_
  obtain ⟨hnow, hmoved⟩ := hturn m w hw
  exact ⟨⟨hnow, hmoved⟩, hread m _ (Prog.Frame.trans hseen hmoved) hnow⟩

omit [Prog.Frame R] in
/-- A guarded call hands a broker error on as a value. -/
theorem beside_tryBroker {p : Program α} {P : Except Exc α → World → Prop}
    {Q : Except Exc (Except BrokerError α) → World → Prop}
    (hp : p.Beside I R seen P) (hok : ∀ a w, P (.ok a) w → Q (.ok (.ok a)) w)
    (hbroker : ∀ e w, P (.error (.broker e)) w → Q (.ok (.error e)) w)
    (herror : ∀ e w, P (.error e) w → Q (.error e) w) :
    (tryBroker p).Beside I R seen Q := by
  unfold tryBroker
  refine Prog.beside_tryCatch (P := fun r w =>
    (∀ x, r = .ok x → Q (.ok x) w) ∧ ∀ e, r = .error e → P (.error e) w)
    (Prog.beside_bind hp (fun a w ha => ?_) fun e w he => ?_)
    (fun x w hx => hx.1 x rfl) fun e w he => ?_
  · refine ⟨fun x hx => ?_, fun e he => ?_⟩
    · cases hx
      exact hok a w ha
    · cases he
  · refine ⟨fun x hx => ?_, fun e' he' => ?_⟩
    · cases hx
    · cases he'
      exact he
  · have hraised := he.2 e rfl
    cases e with
    | broker e => exact hbroker e w hraised
    | _ => exact herror _ w hraised

end Program

/-- A call is the newest the broker has recorded, and the others are as
they were. -/
theorem Broker.Placed.calls {b b' : Broker} {request : PlaceOrderRequest}
    {r : Except BrokerError String} (h : b.Placed request r b') :
    ∃ c, b'.calls = b.calls ++ [c] ∧ c.request = request := by
  cases h with
  | acked hid => exact ⟨_, rfl, rfl⟩
  | lost hid hlive => exact ⟨_, rfl, rfl⟩
  | refused e => exact ⟨_, rfl, rfl⟩

/-- An order of the broker's was there, or is the one just placed. -/
theorem Broker.Placed.log_mem {b b' : Broker} {request : PlaceOrderRequest}
    {r : Except BrokerError String} (h : b.Placed request r b')
    {bo : BrokerOrder} (hbo : bo ∈ b'.log) :
    bo ∈ b.log ∨ bo.tag = some request.tag := by
  have haccept : ∀ {id : String}, bo ∈ request.accepted id :: b.log →
      bo ∈ b.log ∨ bo.tag = some request.tag := by
    intro id hmem
    rcases List.mem_cons.1 hmem with rfl | hold
    · exact .inr rfl
    · exact .inl hold
  cases h with
  | acked hid => exact haccept hbo
  | lost hid hlive => exact haccept hbo
  | refused e => exact .inl hbo

end AlgoPlatform
