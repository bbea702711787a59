/-
One leg of an exit, under an obliging broker.

# Two states

While the exit works on a leg, either no order of it has gone out and
its intent is started (`Placing`), or one has (`Awaiting`). The first
leads to the second by a placement that is accepted, at the latest the
last one the exit tries; the second to a CLOSED leg, by a poll that sees
the order filled. An exit that finds an intent started finds out by its
tag which of the two it is in.
-/
import AlgoPlatform.Proofs.Closing

open Basis Basis.Session

namespace AlgoPlatform

variable {ctx : StrategyContext} {k : Nat} {w w' : World} {db : Db}
  {id : String} {t : Trade} {bo : BrokerOrder} {leg : ExitLegIds}

/-- A short tag is valid. -/
theorem validateTag_goes {tag : String} (h : tag.length ≤ 20) :
    validateTag tag = .ok tag := by
  unfold validateTag
  rw [if_neg (Nat.not_lt.2 h)]

namespace ExitLogic

-- ============================================================== the commits

/-- The intent of a leg is there. -/
private theorem getIntent_goes (hleg : leg.Of ctx k db.rows) :
    Meets (OrderIntentRepository.getByIdOrRaise leg.intentId) db
      (fun x db' => db' = db ∧ db.rows.intents[leg.intentId]? = some x
        ∧ x.brokerTag = exitTag ctx leg.optionType) fun _ => False := by
  obtain ⟨x, hx, htag⟩ := hleg.intent
  unfold OrderIntentRepository.getByIdOrRaise OrderIntentRepository.getById
  rw [meets_bind, meets_fetch, meets_orRaise]
  refine ⟨fun y hy => ?_, fun h => ?_⟩
  · rw [hx] at hy
    cases hy
    exact ⟨rfl, hx, htag⟩
  · rw [hx] at h
    cases h

/-- The commit that starts a leg's intent. -/
private theorem startClose_goes (hleg : leg.Of ctx k db.rows) :
    Meets (do
      let _ ← OrderIntentRepository.getByIdOrRaise leg.intentId
      OrderIntentRepository.markBrokerCallStarted leg.intentId : Session Unit)
      db (fun _ db' => db'.rows = db.rows.setIntent leg.intentId fun x =>
        { x with brokerCallStarted := true, status := .submittedUnconfirmed })
      fun _ => False := by
  unfold OrderIntentRepository.markBrokerCallStarted
  rw [meets_bind]
  refine (getIntent_goes hleg).imp (fun x db' h => ?_) fun _ h => h
  obtain ⟨rfl, -, -⟩ := h
  rw [meets_flush]
  refine ⟨fun _ => rfl, fun hno => hno ?_⟩
  exact db'.admitted.setIntent (fun _ => rfl) (fun _ => rfl) (fun _ => rfl)
    fun _ => rfl

/-- A new order row of a leg. -/
private theorem create_goes (hleg : leg.Of ctx k db.rows)
    (purpose : OrderPurpose) (side : TransactionType) (type : OrderType)
    (tag : Option String) :
    Meets (OrderRepository.create leg.tradeId (some leg.intentId) purpose side
      type leg.quantity tag) db
      (fun i db' => i = db.rows.orders.length ∧ ∃ o : Order,
        db'.rows = { db.rows with orders := db.rows.orders ++ [o] }
          ∧ o.quantity = leg.quantity)
      fun _ => False := by
  obtain ⟨t, ht, -⟩ := hleg.trade
  obtain ⟨x, hx, -⟩ := hleg.intent
  unfold OrderRepository.create
  rw [meets_bind, meets_fetch, meets_bind, meets_flush]
  refine ⟨fun _ => ?_, fun hno => hno ?_⟩
  · rw [meets_pure]
    exact ⟨rfl, _, rfl, rfl⟩
  · refine db.admitted.addOrder ⟨?_, Nat.zero_le _⟩
      (List.getElem?_eq_some_iff.1 ht).1 (fun j hj => ?_) rfl rfl
    · exact hleg.quantity_pos
    · cases hj
      exact (List.getElem?_eq_some_iff.1 hx).1

/-- The newest row takes an id no row has. -/
private theorem markAcknowledged_goes {r : Rows} {o : Order}
    (hdb : db.rows = { r with orders := r.orders ++ [o] })
    (hunused : ∀ o ∈ r.orders, o.brokerOrderId ≠ some id) :
    Meets (OrderRepository.markAcknowledged r.orders.length id) db
      (fun _ db' => db'.rows = { r with orders := r.orders
        ++ [{ o with brokerOrderId := some id, status := .open }] })
      fun _ => False := by
  have hset : db.rows.setOrder r.orders.length
        (fun o => { o with brokerOrderId := some id, status := .open })
      = { r with orders := r.orders
        ++ [{ o with brokerOrderId := some id, status := .open }] } := by
    rw [hdb]
    unfold Rows.setOrder
    rw [modify_concat]
  have hids : (r.orders.filterMap (·.brokerOrderId)).Nodup := by
    have hall := db.admitted.unique.brokerOrderId
    rw [hdb] at hall
    dsimp only at hall
    rw [List.filterMap_append] at hall
    exact (List.nodup_append.1 hall).1
  unfold OrderRepository.markAcknowledged
  rw [meets_flush]
  refine ⟨fun _ => hset, fun hno => hno ?_⟩
  refine db.admitted.setOrder (fun x hx => ?_) (fun _ _ => rfl)
    (fun _ _ => rfl) (fun x hx => ?_) ?_
  · exact db.admitted.checked.orders x (List.mem_of_getElem? hx)
  · have hscaled := Order.kept_eq_iff.1
      (db.admitted.scaled.orders x (List.mem_of_getElem? hx))
    exact Order.kept_eq_iff.2 hscaled
  · have horders := congrArg Rows.orders hset
    rw [Rows.setOrder_orders] at horders
    rw [horders]
    dsimp only
    rw [List.filterMap_append, List.nodup_append]
    refine ⟨hids, List.nodup_singleton id, fun x hx y hy => ?_⟩
    obtain ⟨z, hz, hzid⟩ := List.mem_filterMap.1 hx
    intro hxy
    rw [List.mem_singleton.1 hy] at hxy
    exact hunused z hz (hxy ▸ hzid)

/-- The commit of an acknowledgement under an id no row has. -/
private theorem recordAck_goes (hleg : leg.Of ctx k db.rows)
    (htag : (exitTag ctx leg.optionType).length ≤ 20)
    (hunused : ∀ o ∈ db.rows.orders, o.brokerOrderId ≠ some id) :
    Meets (recordAck ctx leg id) db
      (fun _ db' => ∃ o : Order, o.brokerOrderId = some id
        ∧ o.quantity = leg.quantity
        ∧ db'.rows = ({ db.rows with orders := db.rows.orders ++ [o] } :
          Rows).setIntent leg.intentId fun x => { x with status := .placed })
      fun _ => False := by
  have hvalid : exitTagFor ctx leg = .ok (exitTag ctx leg.optionType) := by
    unfold exitTagFor
    rw [validateTag_goes htag]
  unfold recordAck
  rw [meets_discard]
  unfold Bookkeeping.recordAck
  rw [hvalid, meets_bind, meets_lift]
  refine ⟨fun tag _ => ?_, fun _ h => nomatch h⟩
  rw [meets_bind]
  refine (create_goes hleg _ _ _ _).imp (fun i db₁ h => ?_) fun _ h => h
  obtain ⟨rfl, o, hdb₁, hquantity⟩ := h
  rw [meets_bind]
  refine (markAcknowledged_goes hdb₁ hunused).imp
    (fun _ db₂ hdb₂ => ?_) fun _ h => h
  have hintent : leg.intentId < db₂.rows.intents.length := by
    obtain ⟨x, hx, -⟩ := hleg.intent
    rw [hdb₂]
    exact (List.getElem?_eq_some_iff.1 hx).1
  have hresolve := resolveIntent_goes hintent .placed
  rw [meets_bind] at hresolve ⊢
  refine hresolve.imp (fun x db₃ h => ?_) fun _ h => h
  rw [meets_bind]
  refine h.imp (fun _ db₄ hdb₄ => ?_) fun _ h => h
  rw [meets_pure]
  refine ⟨{ o with brokerOrderId := some id, status := .open }, rfl,
    hquantity, ?_⟩
  rw [hdb₄, hdb₂]

/-- The commit that closes a leg. -/
private theorem closeTrade_goes {entry paid : ℚ} (hleg : leg.Of ctx k db.rows)
    (ht : db.rows.trades[leg.tradeId]? = some t)
    (hentry : t.entryPrice = some entry) (hpaid : 0 < paid) :
    Meets (closeTrade leg paid) db
      (fun _ db' => db'.rows = db.rows.closeLeg leg (db.rows.money paid)
        (some (db.rows.money (computeLegRealizedPnl entry paid t.quantity))))
      fun _ => False := by
  unfold closeTrade PositionRepository.getTradeById
    PositionRepository.updateTrade
  rw [meets_bind, meets_fetch, ht]
  dsimp only
  rw [hentry, meets_bind, meets_flush]
  refine ⟨fun hadm => ?_, fun hno => hno ?_⟩
  · obtain ⟨x, hx, -⟩ := hleg.intent
    exact @resolveIntent_goes ⟨_, hadm⟩ leg.intentId
      (List.getElem?_eq_some_iff.1 hx).1 .confirmed
  · refine db.admitted.setTrade (fun u hu => ?_) (fun _ => rfl)
      (fun _ => rfl) (fun _ => rfl) fun u hu => ?_
    · obtain ⟨hquantity, hentered, -⟩ :=
        db.admitted.checked.trades u (List.mem_of_getElem? hu)
      refine ⟨hquantity, hentered, fun q hq => ?_⟩
      cases hq
      exact MoneyColumns.keep_nonneg hpaid.le
    · have hscaled := Trade.kept_eq_iff.1
        (db.admitted.scaled.trades u (List.mem_of_getElem? hu))
      rw [Trade.kept_eq_iff]
      exact ⟨hscaled.1, congrArg some (Rows.money_money _ _),
        congrArg some (Rows.money_money _ _)⟩

/-- What `_close_leg` reads: the leg is CLOSED, or whether its intent was
started. -/
private theorem inspectLeg_goes (hleg : leg.Of ctx k db.rows)
    (ht : db.rows.trades[leg.tradeId]? = some t) :
    Meets (inspectLeg leg) db
      (fun r db' => db' = db
        ∧ (t.status = .closed
            ∧ (∃ result, r = .error result ∧ result.outcome = .closed)
          ∨ t.status ≠ .closed ∧ ∃ x, db.rows.intents[leg.intentId]? = some x
            ∧ x.brokerTag = exitTag ctx leg.optionType
            ∧ r = .ok (x.brokerCallStarted, exitTag ctx leg.optionType)))
      fun _ => False := by
  unfold inspectLeg PositionRepository.getTradeById
  rw [meets_bind, meets_fetch, ht]
  dsimp only
  rw [meets_ite, meets_pure]
  refine ⟨fun hclosed => ⟨rfl, .inl ⟨hclosed, _, rfl, rfl⟩⟩, fun hopen => ?_⟩
  rw [meets_bind]
  refine (getIntent_goes hleg).imp (fun x db' h => ?_) fun _ h => h
  obtain ⟨rfl, hx, htag⟩ := h
  rw [meets_pure, htag]
  exact ⟨rfl, .inr ⟨hopen, x, hx, htag, rfl⟩⟩

end ExitLogic

-- ============================================================ the two states

/-- No order of the leg has gone out, and its intent is started. -/
structure Placing (ctx : StrategyContext) (k : Nat) (leg : ExitLegIds)
    (w : World) : Prop where
  underway : Underway ctx k w
  recorded : leg.Of ctx k w.db.rows
  unsent : w.broker.Unsent (exitTag ctx leg.optionType)
  started : StartedUnder (exitTag ctx leg.optionType) w.db.rows

/-- One order of the leg has gone out. -/
structure Awaiting (ctx : StrategyContext) (k : Nat) (leg : ExitLegIds)
    (id : String) (w : World) : Prop where
  underway : Underway ctx k w
  recorded : leg.Of ctx k w.db.rows
  trade : ∃ t, w.db.rows.trades[leg.tradeId]? = some t ∧ t.status ≠ .closed
    ∧ t.entryPrice ≠ none ∧ w.Sent id (exitTag ctx leg.optionType) t

theorem Placing.passes (h : Placing ctx k leg w) (hp : Passes ctx w w') :
    Placing ctx k leg w' where
  underway := hp.carries.underway h.underway
  recorded := h.recorded.proceeds (hp.carries (k := k)).rows
  unsent := h.unsent.follows hp.waits.broker
  started := h.started.endures hp.kept.rows

theorem Awaiting.waits (h : Awaiting ctx k leg id w)
    (hw : Waits IntentsKept w w') (hstanding : Standing w.db.rows w'.db.rows)
    (hcarries : Carries ctx k w w') : Awaiting ctx k leg id w' where
  underway := hcarries.underway h.underway
  recorded := h.recorded.proceeds hcarries.rows
  trade := by
    obtain ⟨t, ht, hopen, hentry, hsent⟩ := h.trade
    refine ⟨t, ?_, hopen, hentry, hsent.waits hw⟩
    rw [hstanding.trades]
    exact ht

theorem Awaiting.passes (h : Awaiting ctx k leg id w)
    (hp : Passes ctx w w') : Awaiting ctx k leg id w' :=
  h.waits hp.kept hp.standing hp.carries

/-- The row of the acknowledgement. -/
private theorem Awaiting.acknowledged (h : Awaiting ctx k leg id w) {o : Order}
    (hid : o.brokerOrderId = some id) (hquantity : o.quantity = leg.quantity)
    (hdb : db.rows = ({ w.db.rows with orders := w.db.rows.orders ++ [o] } :
      Rows).setIntent leg.intentId fun x => { x with status := .placed }) :
    Carries ctx k w { w with db } ∧ Awaiting ctx k leg id { w with db } := by
  have hstanding : Standing w.db.rows db.rows := by
    rw [hdb]
    exact Session.Frame.trans (BlindToPushes.orders w.db.rows _)
      ((writesIntent_standing leg.intentId).status .placed _)
  have hwaits : Waits IntentsKept w { w with db } := by
    refine Waits.commit ?_
    rw [hdb]
    exact (writesIntent_intentsKept leg.intentId).status .placed
      { w.db.rows with orders := w.db.rows.orders ++ [o] }
  have hcarries : Carries ctx k w { w with db } := by
    refine .waits hwaits hstanding fun hfiled => ⟨?_, hfiled.tags⟩
    show ∀ o ∈ db.rows.orders, o.Fits ctx w.broker
    rw [hdb]
    intro x hx
    rcases List.mem_append.1 hx with hold | hnew
    · exact hfiled.rows x hold
    · rw [List.mem_singleton.1 hnew]
      refine ⟨fun _ => by rw [hid]; exact nofun, fun id' cur hid' hcur _ => ?_⟩
      obtain ⟨t, ht, -, -, hsent⟩ := h.trade
      obtain ⟨bo, hbo, -, hbought⟩ := hsent.order
      obtain ⟨-, -, -, -, hwhole⟩ := h.recorded.columns ht
      rw [hid] at hid'
      cases hid'
      rw [hbo] at hcur
      cases hcur
      rw [hquantity, hbought, hwhole]
  exact ⟨hcarries, h.waits hwaits hstanding hcarries⟩

/-- A BUY of the whole leg, under its tag. -/
structure ClosesUnder (ctx : StrategyContext) (leg : ExitLegIds)
    (request : PlaceOrderRequest) : Prop where
  tag : request.tag = exitTag ctx leg.optionType
  side : request.transactionType = .buy
  quantity : request.quantity = leg.quantity
  tradingsymbol : request.tradingsymbol = leg.tradingsymbol
  exchange : request.exchange = leg.exchange

variable {request : PlaceOrderRequest}

/-- An order of the leg that is accepted. -/
theorem Placing.accepted (h : Placing ctx k leg w)
    (hrequest : ClosesUnder ctx leg request) (hfresh : w.broker.IsFresh id)
    (hunused : ∀ o ∈ w.db.rows.orders, o.brokerOrderId ≠ some id) :
    Carries ctx k w { w with broker := w.broker.accept request id none }
      ∧ Awaiting ctx k leg id
        { w with broker := w.broker.accept request id none } := by
  obtain ⟨t, ht, -⟩ := h.recorded.trade
  obtain ⟨-, -, hsymbol, hexchange, hquantity⟩ := h.recorded.columns ht
  have hcloses : PlaceCall.Closes ⟨request, some id, none⟩ t :=
    ⟨hrequest.side, hrequest.quantity.trans hquantity.symm,
      hrequest.tradingsymbol.trans hsymbol.symm,
      hrequest.exchange.trans hexchange.symm⟩
  have hcarries : Carries ctx k w
      { w with broker := w.broker.accept request id none } := by
    refine .accepted h.recorded h.unsent h.started hfresh hunused hrequest.tag
      fun u hu => ?_
    rw [ht] at hu
    cases hu
    exact hcloses
  obtain ⟨hopen, hentry⟩ :=
    (h.recorded.stage h.underway.toClosing ht).of_unsent h.unsent
  exact ⟨hcarries, hcarries.underway h.underway, h.recorded, t, ht, hopen,
    hentry, h.unsent.accept hfresh hrequest.tag hcloses h.started⟩

/-- One that is turned away. -/
theorem Placing.refused (h : Placing ctx k leg w)
    (request : PlaceOrderRequest) (e : BrokerError) :
    Placing ctx k leg { w with broker := { w.broker with
      calls := w.broker.calls ++ [⟨request, none, some e⟩] } } where
  underway := (Carries.refused request e).underway h.underway
  recorded := h.recorded
  unsent := ⟨(w.broker.acceptedUnder_refuse request e _).trans
    h.unsent.accepted, h.unsent.unseen⟩
  started := h.started

/-- The intent of a leg is started. -/
private theorem started_placing (h : Underway ctx k w)
    (hleg : leg.Of ctx k w.db.rows)
    (hunsent : w.broker.Unsent (exitTag ctx leg.optionType))
    (hdb : db.rows = w.db.rows.setIntent leg.intentId fun x =>
      { x with brokerCallStarted := true, status := .submittedUnconfirmed }) :
    Carries ctx k w { w with db } ∧ Placing ctx k leg { w with db } := by
  have hkept : IntentsKept w.db.rows db.rows := by
    rw [hdb]
    exact (writesIntent_intentsKept leg.intentId).started w.db.rows
  have hcarries : Carries ctx k w { w with db } := by
    refine .waits (Waits.commit hkept) ?_ fun hfiled => ⟨?_, hfiled.tags⟩
    · rw [show (({ w with db } : World).db.rows) = db.rows from rfl, hdb]
      exact (writesIntent_standing leg.intentId).started w.db.rows
    · show ∀ o ∈ db.rows.orders, o.Fits ctx w.broker
      rw [hdb]
      exact hfiled.rows
  refine ⟨hcarries, hcarries.underway h, hleg.proceeds hcarries.rows, hunsent,
    ?_⟩
  obtain ⟨x, hx, htag⟩ := hleg.intent
  refine ⟨leg.intentId,
    { x with brokerCallStarted := true, status := .submittedUnconfirmed }, ?_,
    htag, rfl⟩
  show db.rows.intents[leg.intentId]? = _
  rw [hdb, Rows.setIntent_intents, List.getElem?_modify_eq, hx]
  rfl

/-- A CLOSED leg stays CLOSED. -/
theorem ClosedAt.proceeds {j : Nat} {r r' : Rows} (h : ClosedAt j r)
    (hr : Proceeds r r') : ClosedAt j r' := by
  obtain ⟨t, ht, hclosed⟩ := h
  obtain ⟨t', ht', -, hsame⟩ := hr.trades j t ht
  exact ⟨t', ht', (hsame hclosed) ▸ hclosed⟩

-- ============================================================== completing

/-- The program gets through under the promise, carrying the exit on, or
a commit has failed. -/
def Completes (ctx : StrategyContext) (k : Nat) (C : Move → Prop) {α : Type}
    (good : α → World → Prop) (p : Program α) (w : World) : Prop :=
  p.Trusts (Promised ctx C) (Closing ctx k) w
    (Prog.Comes (Carries ctx k) (Program.Faulted C) good w)

/-- The result of a leg that is CLOSED. -/
def LegDone (leg : ExitLegIds) (result : LegCloseResult) (w : World) : Prop :=
  result.outcome = .closed ∧ ClosedAt leg.tradeId w.db.rows

namespace Program

variable {C : Move → Prop} {α β : Type} {good : α → World → Prop}

/-- One unit of work that goes through. -/
theorem completes_commit {body : List Nat → Session α}
    (hclosing : Closing ctx k w)
    (hbody : ∀ m, Passes ctx w (w.interfere m) →
      Meets (body m.scan) (w.interfere m).db
        (fun a db => Carries ctx k (w.interfere m) { w.interfere m with db }
          ∧ good a { w.interfere m with db }) fun _ => False) :
    Completes ctx k C good (unitOfWork body) w := by
  refine trusts_unitOfWork hclosing (fun m f hm hf => ?_) fun m => ?_
  · exact ⟨(hclosing.filed.turn m).carries, .inr ⟨.of hm hf, _, rfl⟩⟩
  · have hturn := hclosing.filed.turn m
    refine (hbody m hturn).imp (fun a db h => ?_) fun _ h => h
    exact ⟨Prog.Frame.trans hturn.carries h.1, .inl ⟨a, rfl, h.2⟩⟩

/-- The reconciling commit of an order of the exit that has ended. -/
theorem completes_reconcile (h : Awaiting ctx k leg id w)
    (hbo : w.broker.current id = some bo) (hterm : bo.status.isTerminal = true) :
    Completes ctx k C (fun _ => Passes ctx w)
      (reconcileOrderTerminal id bo) w := by
  have htag : ExitTagged ctx bo.tag := by
    obtain ⟨t, -, -, -, hsent⟩ := h.trade
    obtain ⟨cur, hcur, htag, -⟩ := hsent.order
    rw [hbo] at hcur
    cases hcur
    exact ⟨_, htag⟩
  refine (trusts_reconcileOrderTerminal h.underway.filed h.underway.toClosing
    hbo htag hterm).mono fun r w' hr => ⟨hr.1.carries, ?_⟩
  rcases hr.2 with rfl | hfaulted
  · exact .inl ⟨(), rfl, hr.1⟩
  · exact .inr hfaulted

/-- The poll of an order of the exit sees it filled. -/
theorem completes_poll (h : Awaiting ctx k leg id w) :
    Completes ctx k C
      (fun polled w' => ∃ bo, polled = some bo ∧ bo.Executed
        ∧ w'.broker.current id = some bo ∧ Passes ctx w w')
      (pollUntilTerminal id ctx.fillAttempts) w := by
  obtain ⟨t, -, -, -, hsent⟩ := h.trade
  obtain ⟨cur, hcur, htag, -⟩ := hsent.order
  obtain ⟨attempts, hattempts⟩ :=
    Nat.exists_eq_succ_of_ne_zero (Nat.pos_iff_ne_zero.1 ctx.fillAttempts_pos)
  rw [hattempts]
  refine (trusts_pollUntilTerminal attempts h.underway.filed
    (fun w' hp => h.underway.toClosing.passes hp) hcur ⟨_, htag⟩ ?_).mono
    fun r w' hr => ?_
  · rw [hattempts]
    exact Nat.le_add_left _ _
  · obtain ⟨bo, rfl, hexecuted, hbo, -, hpasses⟩ := hr
    exact ⟨hpasses.carries, .inl ⟨_, rfl, bo, rfl, hexecuted, hbo, hpasses⟩⟩

end Program

namespace ExitLogic

variable {C : Move → Prop}

/-- A leg whose order is filled gets CLOSED. -/
theorem completes_closeOnComplete (h : Awaiting ctx k leg id w)
    (hbo : w.broker.current id = some bo) (hdone : bo.Executed)
    (reason : String) :
    Completes ctx k C (LegDone leg) (closeOnComplete leg id bo reason) w := by
  obtain ⟨hcomplete, price, hprice, hpos⟩ := hdone
  have hterm : bo.status.isTerminal = true := by rw [hcomplete]; rfl
  unfold closeOnComplete
  rw [hprice]
  dsimp only
  rw [if_neg (Rat.not_le.2 hpos)]
  refine Prog.Trusts.comes_bind (G := fun _ w' => ClosedAt leg.tradeId
    w'.db.rows) ?_ fun _ w' _ hclosed => .pure ⟨rfl, hclosed⟩
  refine Prog.Trusts.comes_bind (Program.completes_reconcile h hbo hterm)
    fun _ v _ hpasses => ?_
  have hv := h.passes hpasses
  refine Program.completes_commit hv.underway.toClosing fun m hturn => ?_
  obtain ⟨-, hleg, t, ht, hopen, hentry, hsent⟩ := hv.passes hturn
  obtain ⟨entry, hentered⟩ := Option.ne_none_iff_exists'.1 hentry
  refine (closeTrade_goes hleg ht hentered hpos).imp (fun _ db hdb => ?_)
    fun _ h => h
  obtain ⟨-, htype, -⟩ := hleg.columns ht
  refine ⟨.bought ht hopen hentered hpos ?_ hdb, ?_⟩
  · rw [htype]
    exact hsent.call
  · refine ⟨t.close ((v.interfere m).db.rows.money price) (some
      ((v.interfere m).db.rows.money
        (computeLegRealizedPnl entry price t.quantity))), ?_, rfl⟩
    dsimp only
    rw [hdb]
    unfold Rows.closeLeg
    rw [Rows.setIntent_trades, Rows.setTrade_trades, List.getElem?_modify_eq,
      ht]
    rfl

/-- An acknowledged close is recorded, polled and CLOSED. -/
theorem completes_confirmClose
    (htag : (exitTag ctx leg.optionType).length ≤ 20)
    (h : Awaiting ctx k leg id w)
    (hunused : ∀ o ∈ w.db.rows.orders, o.brokerOrderId ≠ some id) :
    Completes ctx k C (LegDone leg) (confirmClose ctx leg id) w := by
  unfold confirmClose
  refine Prog.Trusts.comes_bind (G := fun _ => Awaiting ctx k leg id)
    (Program.completes_commit h.underway.toClosing fun m hturn => ?_)
    fun _ v _ hv => ?_
  · have hunrecorded : Unrecorded ctx id w := by
      obtain ⟨t, -, -, -, hsent⟩ := h.trade
      obtain ⟨cur, hcur, hordered, -⟩ := hsent.order
      exact ⟨h.underway.filed, ⟨cur, hcur, _, hordered⟩, hunused⟩
    have hv := h.passes hturn
    refine (recordAck_goes hv.recorded htag
      (hunrecorded.interfere m).rows).imp (fun _ db h => ?_) fun _ h => h
    obtain ⟨o, hid, hquantity, hdb⟩ := h
    exact hv.acknowledged hid hquantity hdb
  refine Prog.Trusts.comes_bind (Program.completes_poll hv)
    fun polled v' _ hpolled => ?_
  obtain ⟨bo, rfl, hexecuted, hbo, hpasses⟩ := hpolled
  dsimp only
  rw [if_pos hexecuted.1]
  exact completes_closeOnComplete (hv.passes hpasses) hbo hexecuted _

/-- One attempt of the retry loop: its order goes through, or it is
turned away and was not the last one. -/
private theorem completes_attempt
    (htag : (exitTag ctx leg.optionType).length ≤ 20)
    (hrequest : ClosesUnder ctx leg request)
    (h : Placing ctx k leg w) (attempts : Nat) (reason : String)
    (hrest : ∀ v reason, Placing ctx k leg v →
      (v.broker.refusedUnder (exitTag ctx leg.optionType)).length
        = (w.broker.refusedUnder (exitTag ctx leg.optionType)).length + 1 →
      (v.broker.refusedUnder (exitTag ctx leg.optionType)).length
        < ctx.closeAttempts →
      Completes ctx k C (LegDone leg)
        (sendClose ctx leg request attempts reason) v) :
    Completes ctx k C (LegDone leg)
      (sendClose ctx leg request (attempts + 1) reason) w := by
  unfold sendClose Completes
  rw [Prog.trusts_bind]
  refine Program.trusts_tryPlaceOrder h.underway.toClosing
    (fun m id hfresh hunused => ?_) fun m e hkind hmore => ?_
  · have hturn := h.underway.filed.turn m
    obtain ⟨hcarries, hawaiting⟩ :=
      (h.passes hturn).accepted hrequest hfresh hunused
    rw [Prog.trusting_ok]
    exact (completes_confirmClose htag hawaiting hunused).mono fun _ _ h =>
      h.since (Prog.Frame.trans hturn.carries hcarries)
  · have hturn := h.underway.filed.turn m
    have hv := (h.passes hturn).refused request e
    have hcarries : Carries ctx k w _ :=
      Prog.Frame.trans hturn.carries (Carries.refused request e)
    have hcount := (w.interfere m).broker.refusedUnder_refuse hrequest.tag e
    have hsame : (w.interfere m).broker.refusedUnder
          (exitTag ctx leg.optionType)
        = w.broker.refusedUnder (exitTag ctx leg.optionType) := by
      unfold Broker.refusedUnder
      rw [hturn.waits.broker.calls]
    have hagain := fun reason => hrest _ reason hv
      (by rw [hcount, hsame]) (by rw [hcount]; exact hmore _)
    rw [Prog.trusting_ok]
    obtain ⟨kind, message⟩ := e
    dsimp only at hkind
    rcases hkind with rfl | rfl
    · exact (hagain _).mono fun _ _ h => h.since hcarries
    · exact (hagain _).mono fun _ _ h => h.since hcarries

/-- The retry loop gets its order through. -/
theorem completes_sendClose (htag : (exitTag ctx leg.optionType).length ≤ 20)
    (hrequest : ClosesUnder ctx leg request)
    (attempts : Nat) :
    ∀ (reason : String) {w : World}, Placing ctx k leg w →
      ctx.closeAttempts ≤ (w.broker.refusedUnder
        (exitTag ctx leg.optionType)).length + (attempts + 1) →
      Completes ctx k C (LegDone leg)
        (sendClose ctx leg request (attempts + 1) reason) w := by
  induction attempts with
  | zero =>
      intro reason w h hcount
      refine completes_attempt htag hrequest h 0 reason
        fun v _ _ hmore hfew => absurd hfew ?_
      omega
  | succ attempts ih =>
      intro reason w h hcount
      refine completes_attempt htag hrequest h (attempts + 1) reason
        fun v reason' hv hmore _ => ih reason' hv ?_
      omega

/-- An exit tag is not empty. -/
private theorem exitTag_nonempty (type : OptionType) :
    1 ≤ (exitTag ctx type).length := by
  have hlength := TagPurpose.length_text ctx type .exit
  dsimp only [TagPurpose.text] at hlength
  rw [hlength]
  exact Nat.le_add_left 1 _

/-- A leg no order of which has gone out is placed and CLOSED. -/
theorem completes_placeCloseWithRetries
    (htag : (exitTag ctx leg.optionType).length ≤ 20)
    (h : Underway ctx k w) (hleg : leg.Of ctx k w.db.rows)
    (hunsent : w.broker.Unsent (exitTag ctx leg.optionType)) :
    Completes ctx k C (LegDone leg)
      (placeCloseWithRetries ctx leg (exitTag ctx leg.optionType)) w := by
  unfold placeCloseWithRetries
  refine Prog.Trusts.comes_bind (G := fun _ => Placing ctx k leg)
    (Program.completes_commit h.toClosing fun m hturn => ?_)
    fun _ v _ hv => ?_
  · have hleg' := hleg.proceeds (hturn.carries (k := k)).rows
    refine (startClose_goes hleg').imp (fun _ db hdb => ?_) fun _ h => h
    exact started_placing (hturn.carries.underway h) hleg'
      (hunsent.follows hturn.waits.broker) hdb
  obtain ⟨request, hvalid⟩ := PlaceOrderRequest.validate_goes
    hv.recorded.quantity_pos ⟨exitTag_nonempty leg.optionType, htag⟩
    leg.exchange leg.tradingsymbol .buy ctx.config.productType
  rw [hvalid]
  obtain ⟨hexchange, hsymbol, hside, hwhole, hrequest⟩ :=
    PlaceOrderRequest.validate_ok hvalid
  obtain ⟨attempts, hattempts⟩ := Nat.exists_eq_succ_of_ne_zero
    (Nat.pos_iff_ne_zero.1 ctx.closeAttempts_pos)
  show Completes ctx k C _
    (sendClose ctx leg request ctx.closeAttempts "not attempted") v
  rw [hattempts]
  refine completes_sendClose htag ⟨hrequest, hside, hwhole, hsymbol, hexchange⟩
    attempts _ hv ?_
  rw [hattempts]
  exact Nat.le_add_left _ _

/-- Where nothing has gone out, there is nothing to adopt. -/
private theorem completes_adoptNothing (h : Placing ctx k leg w) :
    Completes ctx k C
      (fun adopted w' => adopted = none ∧ Placing ctx k leg w')
      (adoptExistingOrder ctx leg (exitTag ctx leg.optionType)) w := by
  unfold adoptExistingOrder Completes
  rw [Prog.trusts_bind]
  refine Program.trusts_tryFindOrderByTag h.underway.toClosing
    fun m found hfound => ?_
  have hturn := h.underway.filed.turn m
  have hv := h.passes hturn
  rw [hv.unsent.findOrderByTag] at hfound
  cases hfound
  exact ⟨hturn.carries, .inl ⟨none, rfl, rfl, hv⟩⟩

/-- Where an order has gone out, it is adopted and CLOSED. -/
private theorem completes_adoptOrder (h : Awaiting ctx k leg id w) :
    Completes ctx k C
      (fun adopted w' => ∃ result, adopted = some result
        ∧ LegDone leg result w')
      (adoptExistingOrder ctx leg (exitTag ctx leg.optionType)) w := by
  unfold adoptExistingOrder Completes
  rw [Prog.trusts_bind]
  refine Program.trusts_tryFindOrderByTag h.underway.toClosing
    fun m found hfound => ?_
  have hturn := h.underway.filed.turn m
  have hv := h.passes hturn
  obtain ⟨bo, hbo, rfl⟩ : ∃ bo, (w.interfere m).broker.current id = some bo
      ∧ found = some bo := by
    obtain ⟨t, -, -, -, hsent⟩ := hv.trade
    exact hsent.findOrderByTag hfound
  rw [Prog.trusting_ok]
  dsimp only
  rw [Broker.current_id hbo]
  suffices hpolled : Completes ctx k C _ _ (w.interfere m) from
    hpolled.mono fun _ _ h => h.since hturn.carries
  refine Prog.Trusts.comes_bind (Program.completes_poll hv)
    fun polled v' _ hpolled => ?_
  obtain ⟨terminal, rfl, hexecuted, hterminal, hpasses⟩ := hpolled
  dsimp only
  rw [if_pos hexecuted.1, Broker.current_id hterminal]
  refine Prog.Trusts.comes_bind (completes_closeOnComplete
    (hv.passes hpasses) hterminal hexecuted _) fun result _ _ hdone => ?_
  exact .pure ⟨result, rfl, hdone⟩

/-- What an exit knows of a leg it has looked at. -/
inductive Inspected (ctx : StrategyContext) (k : Nat) (leg : ExitLegIds)
    (w : World) : Except LegCloseResult (Bool × String) → Prop
  | closed {result : LegCloseResult} (h : LegDone leg result w) :
      Inspected ctx k leg w (.error result)
  | unstarted (h : Underway ctx k w) (hleg : leg.Of ctx k w.db.rows)
      (hunsent : w.broker.Unsent (exitTag ctx leg.optionType)) :
      Inspected ctx k leg w (.ok (false, exitTag ctx leg.optionType))
  | placing (h : Placing ctx k leg w) :
      Inspected ctx k leg w (.ok (true, exitTag ctx leg.optionType))
  | awaiting {id : String} (h : Awaiting ctx k leg id w) :
      Inspected ctx k leg w (.ok (true, exitTag ctx leg.optionType))

/-- Looking at a leg tells how far it is. -/
private theorem inspectLeg_inspects (h : Underway ctx k w)
    (hleg : leg.Of ctx k w.db.rows) :
    Meets (inspectLeg leg) w.db
      (fun r db => db = w.db ∧ Inspected ctx k leg w r) fun _ => False := by
  obtain ⟨t, ht, -⟩ := hleg.trade
  refine (inspectLeg_goes hleg ht).imp (fun r db hr => ?_) fun _ h => h
  obtain ⟨rfl, ⟨hclosed, result, rfl, hdone⟩ | ⟨hopen, x, hx, htag, rfl⟩⟩ := hr
  · exact ⟨rfl, .closed ⟨hdone, t, ht, hclosed⟩⟩
  refine ⟨rfl, ?_⟩
  have hstage := hleg.stage h.toClosing ht
  cases hstarted : x.brokerCallStarted with
  | true =>
      cases hstage with
      | unsent _ _ hunsent =>
          exact .placing ⟨h, hleg, hunsent, leg.intentId, x, hx, htag, hstarted⟩
      | sent id _ hentry hsent =>
          exact .awaiting ⟨h, hleg, t, ht, hopen, hentry, hsent⟩
      | closed hbought => exact absurd hbought.status hopen
  | false =>
      cases hstage with
      | unsent _ _ hunsent => exact .unstarted h hleg hunsent
      | sent id _ _ hsent =>
          -- its intent was started
          obtain ⟨i, y, hy, hytag, hystarted⟩ := hsent.started
          have hsame := key_inj w.db.admitted.unique.brokerTag hx hy
            (htag.trans hytag.symm)
          subst hsame
          rw [hx] at hy
          cases hy
          rw [hstarted] at hystarted
          cases hystarted
      | closed hbought => exact absurd hbought.status hopen

/-- A leg gets CLOSED, from wherever it is. -/
theorem completes_closeLeg (htag : (exitTag ctx leg.optionType).length ≤ 20)
    (h : Underway ctx k w) (hleg : leg.Of ctx k w.db.rows) :
    Completes ctx k C (LegDone leg) (closeLeg ctx leg) w := by
  unfold closeLeg
  refine Prog.Trusts.comes_bind (G := fun r w' => Inspected ctx k leg w' r)
    (Program.completes_commit h.toClosing fun m hturn => ?_)
    fun r v _ hinspected => ?_
  · refine (inspectLeg_inspects (hturn.carries.underway h)
      (hleg.proceeds (hturn.carries (k := k)).rows)).imp (fun r db hr => ?_)
      fun _ h => h
    obtain ⟨rfl, hr⟩ := hr
    exact ⟨Prog.Frame.refl _, hr⟩
  cases hinspected with
  | closed hdone => exact .pure hdone
  | unstarted h hleg hunsent =>
      exact completes_placeCloseWithRetries htag h hleg hunsent
  | placing h =>
      refine Prog.Trusts.comes_bind (completes_adoptNothing h)
        fun adopted v' _ hadopted => ?_
      obtain ⟨rfl, h'⟩ := hadopted
      exact completes_placeCloseWithRetries htag h'.underway h'.recorded
        h'.unsent
  | awaiting h =>
      refine Prog.Trusts.comes_bind (completes_adoptOrder h)
        fun adopted v' _ hadopted => ?_
      obtain ⟨result, rfl, hdone⟩ := hadopted
      exact .pure hdone

/-- The legs get CLOSED, one after the other. -/
theorem completes_closeLegs (htag : ∀ type, (exitTag ctx type).length ≤ 20)
    (legs : List ExitLegIds) :
    ∀ {w : World}, Underway ctx k w → (∀ leg ∈ legs, leg.Of ctx k w.db.rows) →
      Completes ctx k C
        (fun results w' => (∀ x ∈ results, x.2.outcome = .closed)
          ∧ ∀ leg ∈ legs, ClosedAt leg.tradeId w'.db.rows)
        (closeLegs ctx legs) w := by
  induction legs with
  | nil =>
      intro w _ _
      exact .pure ⟨List.forall_mem_nil _, List.forall_mem_nil _⟩
  | cons leg legs ih =>
      intro w h hlegs
      obtain ⟨hleg, hrest⟩ := List.forall_mem_cons.1 hlegs
      unfold closeLegs
      refine Prog.Trusts.comes_bind
        (completes_closeLeg (htag leg.optionType) h hleg)
        fun result v hv hdone => ?_
      refine Prog.Trusts.comes_bind (ih (hv.underway h) fun l hl =>
        (hrest l hl).proceeds hv.rows) fun results v' hv' hclosed => ?_
      refine .pure ⟨List.forall_mem_cons.2 ⟨hdone.1, hclosed.1⟩,
        List.forall_mem_cons.2 ⟨?_, hclosed.2⟩⟩
      exact hdone.2.proceeds hv'.rows

end ExitLogic

end AlgoPlatform
