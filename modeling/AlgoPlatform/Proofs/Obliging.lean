/-
A broker that obliges.

# The promise

`World.Obliges` is what an exit needs of the broker to get through: it
accepts a placement under an id nobody has had, or turns it away before
it is sent, less often than the exit tries; it answers reads; and it
fills every order of the exit at a positive price, at the latest when the
order has been read as often as a poll reads but once. The push stream
may still deliver whatever the broker ever produced.

# The order rows

What the database could object to between two acts of an exit is an order
row: an id that is taken, or a fill that does not fit. `Filed` says that
the rows of the exit's orders are bound and have the quantities of their
orders, and neither the push stream nor the reconciling commit breaks it.
-/
import AlgoPlatform.Basis.Promise
import AlgoPlatform.Proofs.ExitOnce
import AlgoPlatform.Proofs.OrderRow
import AlgoPlatform.Proofs.Settlement
import AlgoPlatform.Proofs.Tags

open Basis Basis.Session

namespace AlgoPlatform

-- ============================================================ the promise

/-- A tag the exit of the context's day places under. -/
def ExitTagged (ctx : StrategyContext) (tag : Option String) : Prop :=
  ∃ type, tag = some (exitTag ctx type)

/-- The placements under a tag that the broker turned away. -/
def Broker.refusedUnder (b : Broker) (tag : String) : List PlaceCall :=
  b.calls.filter fun c => c.acceptedAs = none ∧ c.request.tag = tag

/-- A placement that was turned away is one more under its tag. -/
theorem Broker.refusedUnder_refuse (b : Broker) {request : PlaceOrderRequest}
    {tag : String} (htag : request.tag = tag) (e : BrokerError) :
    (({ b with calls := b.calls ++ [⟨request, none, some e⟩] } :
      Broker).refusedUnder tag).length = (b.refusedUnder tag).length + 1 := by
  unfold Broker.refusedUnder
  rw [List.filter_append, List.length_append]
  simp [htag]

/-- The reads of an order. -/
def Broker.readsOf (b : Broker) (id : String) : List ReadCall :=
  b.reads.filter (·.brokerOrderId = id)

/-- A read counts for its order. -/
theorem Broker.readsOf_read (b : Broker) (id : String)
    (answer : Option BrokerOrder) :
    (({ b with reads := b.reads ++ [⟨id, answer⟩] } : Broker).readsOf
      id).length = (b.readsOf id).length + 1 := by
  unfold Broker.readsOf
  rw [List.filter_append, List.length_append]
  simp

/-- COMPLETE, at a positive price. -/
def BrokerOrder.Executed (bo : BrokerOrder) : Prop :=
  bo.status = .complete ∧ ∃ price, bo.averagePrice = some price ∧ 0 < price

/-- How the broker may answer a placement: it accepts, under an id that
no order and no order row has had, or the order is not sent, and the exit
will try again. -/
def World.Takes (ctx : StrategyContext) (w : World) : PlaceReply → Prop
  | .ack id => w.broker.IsFresh id
      ∧ ∀ o ∈ w.db.rows.orders, o.brokerOrderId ≠ some id
  | .refuse e => (e.kind = .connection ∨ e.kind = .rateLimitExceeded)
      ∧ ∀ type, (w.broker.refusedUnder (exitTag ctx type)).length + 1
        < ctx.closeAttempts
  | .lost _ _ => False

/-- An order of the exit ends filled, and has ended when it has been read
often enough. -/
def Broker.Fills (ctx : StrategyContext) (b : Broker) : Prop :=
  ∀ bo ∈ b.log, b.current bo.brokerOrderId = some bo →
    ExitTagged ctx bo.tag →
      (bo.status.isTerminal = true → bo.Executed)
        ∧ (ctx.fillAttempts ≤ (b.readsOf bo.brokerOrderId).length + 1 →
          bo.status.isTerminal = true)

/-- The move is one of an obliging broker. -/
structure World.Obliges (ctx : StrategyContext) (m : Move) (w : World) :
    Prop where
  answers : m.read = none
  takes : (w.interfere m).Takes ctx m.place
  fills : (w.interfere m).broker.Fills ctx

instance (ctx : StrategyContext) (tag : Option String) :
    Decidable (ExitTagged ctx tag) :=
  decidable_of_iff (tag = some (exitTag ctx .ce) ∨ tag = some (exitTag ctx .pe))
    ⟨fun h => h.elim (⟨.ce, ·⟩) (⟨.pe, ·⟩), fun h => by
      obtain ⟨type, h⟩ := h
      cases type with
      | ce => exact .inl h
      | pe => exact .inr h⟩

instance (bo : BrokerOrder) : Decidable bo.Executed :=
  decidable_of_iff (bo.status = .complete
    ∧ ∃ price ∈ bo.averagePrice, 0 < price) Iff.rfl

instance (ctx : StrategyContext) (w : World) :
    (reply : PlaceReply) → Decidable (w.Takes ctx reply)
  | .ack _ => inferInstanceAs (Decidable (_ ∧ _))
  | .refuse e => decidable_of_iff
      ((e.kind = .connection ∨ e.kind = .rateLimitExceeded)
        ∧ (w.broker.refusedUnder (exitTag ctx .ce)).length + 1
          < ctx.closeAttempts
        ∧ (w.broker.refusedUnder (exitTag ctx .pe)).length + 1
          < ctx.closeAttempts)
      ⟨fun h => ⟨h.1, fun type => by
        cases type with
        | ce => exact h.2.1
        | pe => exact h.2.2⟩, fun h => ⟨h.1, h.2 .ce, h.2 .pe⟩⟩
  | .lost _ _ => .isFalse id

instance (ctx : StrategyContext) (b : Broker) : Decidable (b.Fills ctx) :=
  inferInstanceAs (Decidable (∀ bo ∈ b.log, b.current bo.brokerOrderId
    = some bo → ExitTagged ctx bo.tag →
      (bo.status.isTerminal = true → bo.Executed)
        ∧ (ctx.fillAttempts ≤ (b.readsOf bo.brokerOrderId).length + 1 →
          bo.status.isTerminal = true)))

instance (ctx : StrategyContext) (m : Move) (w : World) :
    Decidable (w.Obliges ctx m) :=
  decidable_of_iff (m.read = none ∧ (w.interfere m).Takes ctx m.place
    ∧ (w.interfere m).broker.Fills ctx)
    ⟨fun h => ⟨h.1, h.2.1, h.2.2⟩, fun h => ⟨h.answers, h.takes, h.fills⟩⟩

variable {ctx : StrategyContext} {w w' : World} {b b' : Broker}
  {money : ℚ → ℚ}
  {bo cur : BrokerOrder} {id : String} {m : Move} {o : Order} {db : Db}

/-- An exit's tag tells its leg. -/
theorem exitTag_inj {type type' : OptionType}
    (h : exitTag ctx type = exitTag ctx type') : type = type' := by
  have hsame : SameLeg ctx ctx type type' .exit .exit :=
    TagPurpose.text_inj (by omega) (by omega) h
  exact hsame.optionType

-- ========================================================== the order rows

/-- An order row the exit's orders can do with: if it has one of their
tags it is bound, and if it is bound to one of them it has its
quantity. -/
structure Order.Fits (ctx : StrategyContext) (b : Broker) (o : Order) :
    Prop where
  bound : ExitTagged ctx o.brokerTag → o.brokerOrderId ≠ none
  quantity : ∀ id cur, o.brokerOrderId = some id → b.current id = some cur →
    ExitTagged ctx cur.tag → o.quantity = cur.quantity

/-- Every order row does, and no snapshot of an order of the exit has
another tag. -/
structure Filed (ctx : StrategyContext) (w : World) : Prop where
  rows : ∀ o ∈ w.db.rows.orders, o.Fits ctx w.broker
  tags : ∀ bo ∈ w.broker.log, ∀ cur,
    w.broker.current bo.brokerOrderId = some cur → ExitTagged ctx cur.tag →
      bo.tag = cur.tag

/-- What an order is, it was. -/
theorem Broker.Follows.before (h : b.Follows b')
    (hcur : b'.current id = some cur) :
    ∃ old, b.current id = some old ∧ old.Becomes cur := by
  have hid := Broker.current_id hcur
  rcases h.born cur (Broker.current_mem hcur) with hold | ⟨old, hold, hbecomes⟩
  · obtain ⟨old, hold⟩ := Broker.exists_current hold
    rw [hid] at hold
    obtain ⟨new, hnew, hbecomes⟩ := h.current id old hold
    rw [hcur] at hnew
    cases hnew
    exact ⟨old, hold, hbecomes⟩
  · rw [hid] at hold
    exact ⟨old, hold, hbecomes⟩

theorem Order.Fits.follows (h : o.Fits ctx b) (hb : b.Follows b') :
    o.Fits ctx b' where
  bound := h.bound
  quantity := by
    intro id cur hid hcur htag
    obtain ⟨old, hold, hbecomes⟩ := hb.before hcur
    rw [hbecomes.quantity]
    exact h.quantity id old hid hold (hbecomes.tag ▸ htag)

/-- The broker moves on by itself. -/
theorem Filed.follows (h : Filed ctx w) (hb : w.broker.Follows b) :
    Filed ctx { w with broker := b } where
  rows := fun o ho => (h.rows o ho).follows hb
  tags := by
    intro bo hbo cur hcur htag
    obtain ⟨old, hold, hbecomes⟩ := hb.before hcur
    have htag' : ExitTagged ctx old.tag := hbecomes.tag ▸ htag
    rcases hb.born bo hbo with hbo | ⟨older, holder, hbecame⟩
    · exact (h.tags bo hbo old hold htag').trans hbecomes.tag.symm
    · rw [hold] at holder
      cases holder
      exact hbecame.tag.trans hbecomes.tag.symm

/-- A row that advances keeps its id, or learns one it did not have. -/
theorem Order.advance_id (money : ℚ → ℚ) (o : Order) (bo : BrokerOrder) :
    (o.advance money bo).brokerOrderId = o.brokerOrderId
      ∨ o.brokerOrderId = none
        ∧ (o.advance money bo).brokerOrderId = some bo.brokerOrderId := by
  cases hid : o.brokerOrderId with
  | some id => exact .inl (Order.advance_brokerOrderId hid)
  | none =>
      have hlearn : (o.learn bo).brokerOrderId = none
          ∨ (o.learn bo).brokerOrderId = some bo.brokerOrderId := by
        unfold Order.learn
        split_ifs
        · exact .inr rfl
        · exact .inl hid
      have hadvance : (o.advance money bo).brokerOrderId = none
          ∨ (o.advance money bo).brokerOrderId = some bo.brokerOrderId := by
        unfold Order.advance
        cases bo.status <;> dsimp only <;> split_ifs <;>
          first | exact .inl hid | exact hlearn
      exact hadvance.imp id fun h => ⟨rfl, h⟩

/-- No row learns the id of an order of the exit: a row without an id is
found by its tag, and no row of the exit's is one. -/
theorem Filed.advance_id (h : Filed ctx w) (ho : o ∈ w.db.rows.orders)
    (hbo : bo ∈ w.broker.log)
    (hwhy : o.brokerOrderId = some bo.brokerOrderId
      ∨ ∃ t, bo.tag = some t ∧ o.brokerTag = some t)
    (hcur : w.broker.current bo.brokerOrderId = some cur)
    (htag : ExitTagged ctx cur.tag) :
    (o.advance money bo).brokerOrderId = o.brokerOrderId := by
  rcases o.advance_id money bo with hsame | ⟨hnone, -⟩
  · exact hsame
  exfalso
  rcases hwhy with hid | ⟨t, ht, hrow⟩
  · rw [hnone] at hid
    cases hid
  · refine (h.rows o ho).bound ?_ hnone
    rw [hrow, ← ht, h.tags bo hbo cur hcur htag]
    exact htag

/-- A snapshot of the log advances the row it finds. -/
theorem Filed.fits_advance (h : Filed ctx w) (ho : o ∈ w.db.rows.orders)
    (hbo : bo ∈ w.broker.log)
    (hwhy : o.brokerOrderId = some bo.brokerOrderId
      ∨ ∃ t, bo.tag = some t ∧ o.brokerTag = some t) :
    (o.advance money bo).Fits ctx w.broker where
  bound := by
    intro htag
    rw [Order.advance_brokerTag] at htag
    rcases o.advance_id money bo with hsame | ⟨-, hlearned⟩
    · rw [hsame]
      exact (h.rows o ho).bound htag
    · rw [hlearned]
      exact nofun
  quantity := by
    intro id cur hid hcur htag
    rw [Order.advance_quantity]
    refine (h.rows o ho).quantity id cur ?_ hcur htag
    rcases o.advance_id money bo with hsame | ⟨-, hlearned⟩
    · exact hsame ▸ hid
    · rw [hlearned] at hid
      cases hid
      rw [← h.advance_id ho hbo hwhy hcur htag]
      exact hlearned

/-- The commit of an advanced row. -/
theorem Filed.advance (h : Filed ctx w) (hbo : bo ∈ w.broker.log) {j : Nat}
    (ho : w.db.rows.orders[j]? = some o)
    (hwhy : o.brokerOrderId = some bo.brokerOrderId
      ∨ ∃ t, bo.tag = some t ∧ o.brokerTag = some t)
    (hdb : db.rows = w.db.rows.setOrder j (·.advance w.db.rows.money bo)) :
    Filed ctx { w with db } where
  rows := by
    show ∀ o ∈ db.rows.orders, o.Fits ctx w.broker
    rw [hdb, Rows.setOrder_orders]
    refine forall_modify h.rows fun x hx => ?_
    rw [ho] at hx
    cases hx
    exact h.fits_advance (List.mem_of_getElem? ho) hbo hwhy
  tags := h.tags

theorem Filed.happens (h : Filed ctx w) (e : Event) :
    Filed ctx (w.happens e) := by
  cases e with
  | works bo => exact h.follows (w.broker.follows_works bo)
  | pushes n =>
      obtain hnone | ⟨bo, hbo, hpushed⟩ := w.happens_pushes n
      · rw [hnone]
        exact h
      · rw [hpushed]
        rcases process_cases bo w.db with hsame | ⟨j, o, ho, hwhy, hrows⟩
        · rw [hsame]
          exact h
        · exact h.advance hbo ho hwhy hrows

/-- The environment's turn. -/
theorem Filed.interfere (h : Filed ctx w) (m : Move) :
    Filed ctx (w.interfere m) := by
  unfold World.interfere
  induction m.events generalizing w with
  | nil => exact h
  | cons e es ih => exact ih (h.happens e)

/-- An order of the exit that no row has the id of. -/
structure Unrecorded (ctx : StrategyContext) (id : String) (w : World) :
    Prop where
  filed : Filed ctx w
  order : ∃ cur, w.broker.current id = some cur ∧ ExitTagged ctx cur.tag
  rows : ∀ o ∈ w.db.rows.orders, o.brokerOrderId ≠ some id

private theorem Unrecorded.happens (h : Unrecorded ctx id w) (e : Event) :
    Unrecorded ctx id (w.happens e) := by
  refine ⟨h.filed.happens e, ?_, ?_⟩
  · obtain ⟨cur, hcur, htag⟩ := h.order
    obtain ⟨new, hnew, hbecomes⟩ :=
      (waits_happens (R := Pushed) w e).broker.current id cur hcur
    exact ⟨new, hnew, hbecomes.tag ▸ htag⟩
  cases e with
  | works bo => exact h.rows
  | pushes n =>
      obtain hnone | ⟨bo, hbo, hpushed⟩ := w.happens_pushes n
      · rw [hnone]
        exact h.rows
      rw [hpushed]
      rcases process_cases bo w.db with hsame | ⟨j, o, ho, hwhy, hrows⟩
      · rw [hsame]
        exact h.rows
      show ∀ o ∈ (OrderUpdateProcessor.process bo w.db).2.rows.orders, _
      rw [hrows, Rows.setOrder_orders]
      refine forall_modify h.rows fun x hx hid => ?_
      rw [ho] at hx
      cases hx
      have hold := h.rows o (List.mem_of_getElem? ho)
      rcases o.advance_id w.db.rows.money bo with hsame | ⟨-, hlearned⟩
      · exact hold (hsame ▸ hid)
      · -- it would have learned the id of an order of the exit
        rw [hlearned] at hid
        obtain ⟨cur, hcur, htag⟩ := h.order
        rw [← Option.some_inj.1 hid] at hcur
        refine hold ?_
        rw [← h.filed.advance_id (List.mem_of_getElem? ho) hbo hwhy hcur htag,
          hlearned]
        exact hid

theorem Unrecorded.interfere (h : Unrecorded ctx id w) (m : Move) :
    Unrecorded ctx id (w.interfere m) := by
  unfold World.interfere
  induction m.events generalizing w with
  | nil => exact h
  | cons e es ih => exact ih (h.happens e)

-- =================================================== acts under the promise

/-- The broker obliges, and the database as far as `C` says. -/
def Promised (ctx : StrategyContext) (C : Move → Prop) (m : Move)
    (w : World) : Prop :=
  C m ∧ w.Obliges ctx m

instance {C : Move → Prop} [DecidablePred C] (m : Move) (w : World) :
    Decidable (Promised ctx C m w) := inferInstanceAs (Decidable (_ ∧ _))

/-- Nothing but order rows and reads, and the rows are still in order. -/
structure Passes (ctx : StrategyContext) (w w' : World) : Prop where
  waits : Waits Pushed w w'
  filed : Filed ctx w'

theorem Passes.trans {w'' : World} (h : Passes ctx w w')
    (h' : Passes ctx w' w'') : Passes ctx w w'' :=
  ⟨Prog.Frame.trans h.waits h'.waits, h'.filed⟩

/-- The environment's turn. -/
theorem Filed.turn (h : Filed ctx w) (m : Move) :
    Passes ctx w (w.interfere m) :=
  ⟨waits_interfere w m, h.interfere m⟩

/-- One more read. -/
theorem Filed.read (h : Filed ctx w) (read : ReadCall) :
    Passes ctx w { w with
      broker := { w.broker with reads := w.broker.reads ++ [read] } } := by
  have hb : w.broker.Follows
      { w.broker with reads := w.broker.reads ++ [read] } :=
    { Broker.Follows.refl w.broker with reads := List.prefix_append _ _ }
  exact ⟨⟨Frame.refl _, hb, List.prefix_refl _⟩, h.follows hb⟩

namespace Program

variable {C : Move → Prop} {I : World → Prop}

/-- One unit of work. -/
theorem trusts_unitOfWork {α : Type} {body : List Nat → Session α}
    {Q : Except Exc α → World → Prop} (hI : I w)
    (hfault : ∀ m f, C m → m.fault = some f →
      Q (.error f.exc) (w.interfere m))
    (hbody : ∀ m, Meets (body m.scan) (w.interfere m).db
      (fun a db => Q (.ok a) { w.interfere m with db }) fun _ => False) :
    (unitOfWork body).Trusts (Promised ctx C) I w Q := by
  refine (safe_unitOfWork (C := C) hI hfault fun m _ _ => ?_).trusts
    (fun m s h => h.1) fun _ => id
  exact (hbody m).imp (fun _ _ => id) fun _ h => h.elim

/-- One guarded placement: it is accepted, or it will be tried again. -/
theorem trusts_tryPlaceOrder {request : PlaceOrderRequest}
    {Q : Except Exc (Except BrokerError String) → World → Prop} (hI : I w)
    (hacked : ∀ m id, (w.interfere m).broker.IsFresh id →
      (∀ o ∈ (w.interfere m).db.rows.orders, o.brokerOrderId ≠ some id) →
      Q (.ok (.ok id)) { w.interfere m with
        broker := (w.interfere m).broker.accept request id none })
    (hrefused : ∀ m (e : BrokerError),
      e.kind = .connection ∨ e.kind = .rateLimitExceeded →
      (∀ type, ((w.interfere m).broker.refusedUnder (exitTag ctx type)).length
        + 1 < ctx.closeAttempts) →
      Q (.ok (.error e)) { w.interfere m with
        broker := { (w.interfere m).broker with
          calls := (w.interfere m).broker.calls
            ++ [⟨request, none, some e⟩] } }) :
    (tryBroker (placeOrder request)).Trusts (Promised ctx C) I w Q := by
  refine ⟨hI, fun m hm => ?_⟩
  have htakes := hm.2.takes
  dsimp only
  unfold Broker.placeOrder Broker.lawful
  cases hplace : m.place with
  | lost id e =>
      rw [hplace] at htakes
      exact htakes.elim
  | ack id =>
      rw [hplace] at htakes
      obtain ⟨hfresh, hunused⟩ := htakes
      dsimp only
      rw [if_pos hfresh]
      exact hacked m id hfresh hunused
  | refuse e =>
      rw [hplace] at htakes
      exact hrefused m e htakes.1 htakes.2

/-- One guarded lookup by tag is answered. -/
theorem trusts_tryFindOrderByTag {tag : String}
    {Q : Except Exc (Except BrokerError (Option BrokerOrder)) → World → Prop}
    (hI : I w)
    (hQ : ∀ m found, (w.interfere m).broker.findOrderByTag tag m.pick none
      = .ok found → Q (.ok (.ok found)) (w.interfere m)) :
    (tryBroker (findOrderByTag tag)).Trusts (Promised ctx C) I w Q := by
  refine ⟨hI, fun m hm => ?_⟩
  dsimp only
  rw [hm.2.answers]
  exact hQ m _ rfl

/-- One guarded read of an order there is. -/
theorem trusts_tryGetOrder
    {Q : Except Exc (Except BrokerError BrokerOrder) → World → Prop}
    (hI : I w) (hcur : w.broker.current id = some cur)
    (hQ : ∀ m bo, (w.interfere m).broker.Fills ctx →
      (w.interfere m).broker.current id = some bo → cur.Becomes bo →
      Q (.ok (.ok bo)) { w.interfere m with
        broker := { (w.interfere m).broker with
          reads := (w.interfere m).broker.reads ++ [⟨id, some bo⟩] } }) :
    (tryBroker (getOrder id)).Trusts (Promised ctx C) I w Q := by
  refine ⟨hI, fun m hm => ?_⟩
  obtain ⟨bo, hbo, hbecomes⟩ := (w.interfere_follows m).current id cur hcur
  dsimp only
  unfold Broker.getOrder Broker.lookup
  rw [hm.2.answers, hbo]
  exact hQ m bo hm.2.fills hbo hbecomes

/-- What a poll of an order of the exit comes to: it has seen it
filled. -/
def SeesFilled (ctx : StrategyContext) (id : String) (cur : BrokerOrder)
    (w : World) (r : Except Exc (Option BrokerOrder)) (w' : World) : Prop :=
  ∃ bo, r = .ok (some bo) ∧ bo.Executed ∧ w'.broker.current id = some bo
    ∧ cur.Becomes bo ∧ Passes ctx w w'

/-- One read of a poll: the order is filled, or it has been read once
more and is not late yet. -/
private theorem trusts_poll_read {attempts : Nat} (hfiled : Filed ctx w)
    (hI : I w) (hcur : w.broker.current id = some cur)
    (htag : ExitTagged ctx cur.tag)
    (hrest : ∀ v bo, Passes ctx w v → v.broker.current id = some bo →
      cur.Becomes bo →
      (v.broker.readsOf id).length = (w.broker.readsOf id).length + 1 →
      ¬ ctx.fillAttempts ≤ (v.broker.readsOf id).length →
      (pollUntilTerminal id attempts).Trusts (Promised ctx C) I v
        (SeesFilled ctx id cur w)) :
    (pollUntilTerminal id (attempts + 1)).Trusts (Promised ctx C) I w
      (SeesFilled ctx id cur w) := by
  unfold pollUntilTerminal
  rw [Prog.trusts_bind]
  refine trusts_tryGetOrder hI hcur fun m bo hfills hbo hbecomes => ?_
  have hpasses := (hfiled.turn m).trans
    ((hfiled.interfere m).read ⟨id, some bo⟩)
  obtain ⟨hdone, hlate⟩ := hfills bo (Broker.current_mem hbo)
    (by rw [Broker.current_id hbo]; exact hbo) (by rw [hbecomes.tag]; exact htag)
  rw [Broker.current_id hbo] at hlate
  rw [Prog.trusting_ok]
  dsimp only
  by_cases hterm : bo.status.isTerminal = true
  · rw [if_pos hterm, Prog.trusts_pure]
    exact ⟨bo, rfl, hdone hterm, hbo, hbecomes, hpasses⟩
  · rw [if_neg hterm]
    have hmore := (w.interfere m).broker.readsOf_read id (some bo)
    refine hrest _ bo hpasses hbo hbecomes (hmore.trans ?_)
      fun hcount => hterm (hlate (hmore ▸ hcount))
    unfold Broker.readsOf
    rw [World.interfere_reads]

/-- A poll of an order of the exit sees it filled. -/
theorem trusts_pollUntilTerminal (attempts : Nat) :
    ∀ {w : World} {cur : BrokerOrder}, Filed ctx w →
      (∀ w', Passes ctx w w' → I w') → w.broker.current id = some cur →
      ExitTagged ctx cur.tag →
      ctx.fillAttempts ≤ (w.broker.readsOf id).length + (attempts + 1) →
      (pollUntilTerminal id (attempts + 1)).Trusts (Promised ctx C) I w
        (SeesFilled ctx id cur w) := by
  induction attempts with
  | zero =>
      intro w cur hfiled hI hcur htag hcount
      refine trusts_poll_read hfiled
        (hI w ⟨Prog.Frame.refl (R := Waits Pushed) w, hfiled⟩) hcur htag
        fun v bo _ _ _ hreads hearly => absurd ?_ hearly
      omega
  | succ attempts ih =>
      intro w cur hfiled hI hcur htag hcount
      refine trusts_poll_read hfiled
        (hI w ⟨Prog.Frame.refl (R := Waits Pushed) w, hfiled⟩) hcur htag
        fun v bo hpasses hbo hbecomes hreads _ => ?_
      refine (ih hpasses.filed (fun w' h => hI w' (hpasses.trans h)) hbo
        (by rw [hbecomes.tag]; exact htag) (by omega)).mono fun r w' h => ?_
      obtain ⟨last, rfl, hexecuted, hlast, hlater, hpasses'⟩ := h
      exact ⟨last, rfl, hexecuted, hlast, hbecomes.trans hlater,
        hpasses.trans hpasses'⟩

/-- A commit failed that the environment was allowed to fail. -/
def Faulted (C : Move → Prop) : Prop := ∃ m, C m ∧ m.fault ≠ none

theorem Faulted.of {f : DbFault} (hm : C m) (hf : m.fault = some f) :
    Faulted C := by
  refine ⟨m, hm, ?_⟩
  rw [hf]
  exact nofun

/-- The row bound to an order of the exit can hold its last snapshot. -/
private theorem reconcileTerminal_goes (hfiled : Filed ctx w)
    (hbo : w.broker.current id = some bo) (htag : ExitTagged ctx bo.tag) :
    Meets (reconcileTerminal id bo) w.db
      (fun _ db => Passes ctx w { w with db }) fun _ => False := by
  have hid := Broker.current_id hbo
  by_cases hrow : ∃ (i : Nat) (o : Order), w.db.rows.orders[i]? = some o
      ∧ o.brokerOrderId = some id
  · obtain ⟨i, o, ho, hoid⟩ := hrow
    have hfit : bo.filledQuantity ≤ o.quantity := by
      rw [(hfiled.rows o (List.mem_of_getElem? ho)).quantity id bo hoid hbo
        htag]
      exact bo.filled_le
    have hmeets := reconcileTerminal_bound ho
      (hoid.trans (congrArg some hid.symm)) hfit
    rw [hid] at hmeets
    refine hmeets.imp (fun _ db hdb => ⟨Waits.commit ⟨_, hdb⟩, ?_⟩)
      fun _ h => h
    exact hfiled.advance (Broker.current_mem hbo) ho
      (.inl (hoid.trans (congrArg some hid.symm))) hdb
  · -- no row to reconcile
    have hnone : select (fun o => decide (o.brokerOrderId = some id))
        w.db.rows.orders = [] := by
      refine select_eq_nil.2 fun o ho => decide_eq_false fun hoid => ?_
      obtain ⟨i, hi⟩ := List.getElem?_of_mem ho
      exact hrow ⟨i, o, hi, hoid⟩
    unfold reconcileTerminal OrderRepository.getByBrokerOrderId
    simp only [meets_bind, meets_fetch, hnone, scalarOneOrNone, meets_pure]
    exact ⟨Prog.Frame.refl (R := Waits Pushed) w, hfiled⟩

/-- Reconciling an order of the exit that has ended raises only where its
commit fails. -/
theorem trusts_reconcileOrderTerminal (hfiled : Filed ctx w) (hI : I w)
    (hbo : w.broker.current id = some bo) (htag : ExitTagged ctx bo.tag)
    (hterm : bo.status.isTerminal = true) :
    (reconcileOrderTerminal id bo).Trusts (Promised ctx C) I w
      fun r w' => Passes ctx w w'
        ∧ (r = .ok () ∨ Faulted C ∧ ∃ e, r = .error e) := by
  refine ⟨hI, fun m hm => ?_⟩
  have hturn := hfiled.turn m
  have hseen : (w.interfere m).broker.current id = some bo :=
    Broker.current_of_terminal (w.interfere_follows m) hbo hterm
  have hwrite := reconciled_of (P := fun x => Passes ctx w x.2
      ∧ (x.1 = .ok () ∨ Faulted C ∧ ∃ e, x.1 = .error e))
    ((reconcileTerminal_goes hturn.filed hseen htag).imp
      (fun _ _ h => ⟨hturn.trans h, .inl rfl⟩) fun _ h => h.elim)
  dsimp only
  cases hf : m.fault with
  | none =>
      dsimp only
      rw [if_neg (by simp)]
      exact hwrite
  | some fault =>
      have hfaulted : Faulted C := .of hm.1 hf
      cases fault with
      | operational => exact ⟨hturn, .inr ⟨hfaulted, _, rfl⟩⟩
      | conflict =>
          dsimp only
          split_ifs
          · refine ⟨⟨⟨hturn.waits.rows, hturn.waits.broker, ?_⟩,
              hturn.filed.rows, hturn.filed.tags⟩, .inl rfl⟩
            exact hturn.waits.deferred.trans (List.prefix_append _ _)
          · exact ⟨hturn, .inl rfl⟩
          · exact hwrite

end Program

end AlgoPlatform
