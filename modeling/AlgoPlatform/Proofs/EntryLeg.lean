/-
What an entry leg reported FAILED may still be exposed to.

# The law

`_place_leg` takes two things for "no exposure": a placement that ended
in `BrokerConnectionError`, and an order seen terminal whose row is not
COMPLETE. `TakenForFlat` says so of one order, from what the broker
answered and who won the race for the row. A leg is reported FAILED
exactly when its order, if it has one, is taken for flat; so FAILED
means no exposure exactly when no order taken for flat fills.

# The defect

The broker may have accepted the order of a lost connection, and an
order cancelled or rejected may have filled in part.
-/
import AlgoPlatform.Proofs.Intents
import AlgoPlatform.Proofs.OrderRow

open Basis Basis.Session

namespace AlgoPlatform

-- ============================================================== the law

/-- From `w` to `w'` the broker showed the order's terminal snapshot. -/
def SeenTerminal (id : String) (w w' : World) (bo : BrokerOrder) : Prop :=
  bo.status.isTerminal = true
    ∧ ⟨id, some bo⟩ ∈ w'.broker.reads.drop w.broker.reads.length

/-- The write of the terminal snapshot lost its race, and the push
stream has not brought the row to COMPLETE since. -/
def LeftOpen (id : String) (w w' : World) : Prop :=
  id ∈ w'.deferred.drop w.deferred.length
    ∧ ∀ o ∈ w'.db.rows.orders, o.brokerOrderId = some id →
      o.status ≠ .complete

/-- `_place_leg` takes an order of the tag for one that never filled:
the call it was accepted by ended in a connection error, or it was seen
terminal and is not COMPLETE, or its row is not. -/
def TakenForFlat (tag id : String) (w w' : World) : Prop :=
  (∃ c ∈ w'.broker.acceptedUnder tag, c.acceptedAs = some id
      ∧ c.LostToConnection)
    ∨ ∃ bo, SeenTerminal id w w' bo
      ∧ (bo.status ≠ .complete ∨ LeftOpen id w w')

namespace EntryLogic

variable {ctx : StrategyContext} {leg : LegIds} {quantity : Nat}
  {id tag : String} {i : Nat} {w w' : World} {bo : BrokerOrder}

-- ==================================================== one acknowledged leg

/-- What settling a leg leaves, once its order was seen terminal. -/
structure Settled (id tag : String) (bo : BrokerOrder) (i : Nat)
    (w w' : World) (outcome : LegOutcome) : Prop where
  tracked : Tracked id tag i w'
  current : w'.broker.current id = some bo
  closed : RowClosed i w' ∨ w'.deferred = w.deferred ++ [id]
  outcome : ∃ o, w'.db.rows.orders[i]? = some o
    ∧ (outcome = .filled ∧ o.status = .complete
      ∨ outcome = .failed ∧ o.status ≠ .complete)

/-- What confirming an acknowledged leg leaves. -/
inductive Confirmed (id tag : String) (w w' : World) (outcome : LegOutcome) :
    Prop
  | unseen (seen : List ReadCall) (hseen : ∀ read ∈ seen, read.SawWorking id)
      (hreads : w'.broker.reads = w.broker.reads ++ seen)
      (houtcome : outcome = .ambiguous)
  | seen {bo : BrokerOrder} (i : Nat) (seen : List ReadCall)
      (hseen : ∀ read ∈ seen, read.SawWorking id)
      (hterm : bo.status.isTerminal = true)
      (hreads : w'.broker.reads = w.broker.reads ++ seen ++ [⟨id, some bo⟩])
      (hsettled : Settled id tag bo i w w' outcome)

/-- The last commit acts on what the row says. -/
theorem settle_meets (orderId : Nat) (brokerOrderId : String) (db : Db) :
    Meets (settle ctx leg orderId brokerOrderId) db
      (fun r db' => db'.rows.orders = db.rows.orders
        ∧ ∃ o, db.rows.orders[orderId]? = some o
          ∧ (r.outcome = .filled ∧ o.status = .complete
            ∨ r.outcome = .failed ∧ o.status ≠ .complete))
      fun _ => True := by
  unfold settle OrderRepository.getByIdOrRaise OrderRepository.getById
    OrderIntentRepository.getByIdOrRaise OrderIntentRepository.getById
    OrderIntentRepository.markFailed OrderIntentRepository.markStatus
  simp only [meets_bind, meets_fetch, meets_orRaise, meets_ite, meets_flush,
    meets_pure]
  refine ⟨fun o ho => ⟨fun hcomplete => ?_, fun hno => ⟨fun x _ =>
    ⟨fun _ => ⟨rfl, o, ho, .inr ⟨trivial, hno⟩⟩, fun _ => trivial⟩,
    fun _ => trivial⟩⟩, fun _ => trivial⟩
  cases o.averagePrice with
  | none => trivial
  | some price =>
      dsimp only
      rw [meets_ite]
      exact ⟨fun _ => trivial, fun _ => ⟨rfl, o, ho, .inl ⟨rfl, hcomplete⟩⟩⟩

/-- The tag of a leg's order rows is the leg's entry tag. -/
theorem entryTagFor_ok {t : String} (h : entryTagFor ctx leg = .ok t) :
    t = entryTag ctx leg.optionType :=
  validateTag_ok h

/-- The first commit creates the row of the order. -/
private theorem recordAck_tracked (hsole : w.broker.Sole id tag)
    (htag : tag = entryTag ctx leg.optionType)
    (hcur : w.broker.current id = some bo) (hquantity : bo.quantity = quantity) :
    Meets (recordAck ctx leg quantity id) w.db
      (fun i db => Tracked id tag i { w with db }) fun _ => True := by
  unfold recordAck
  cases htagFor : entryTagFor ctx leg with
  | error e =>
      unfold Bookkeeping.recordAck
      rw [meets_bind, meets_lift]
      exact ⟨fun t ht => (nomatch ht), fun _ _ => trivial⟩
  | ok t =>
      obtain rfl := (entryTagFor_ok htagFor).trans htag.symm
      refine (recordAck_meets w.db).imp (fun i db hrow => ?_) fun _ h => h
      obtain ⟨o, ho, hid, hotag, hq, hopen⟩ := hrow
      refine ⟨hsole, o, bo, ho, hcur, hid, hotag, hq.trans hquantity.symm, ?_⟩
      intro hterm
      rw [hopen] at hterm
      cases hterm

/-- Confirming an acknowledged leg. -/
private theorem confirmAndRecord_safe (hsole : w.broker.Sole id tag)
    (htag : tag = entryTag ctx leg.optionType)
    (hcur : w.broker.current id = some bo) (hquantity : bo.quantity = quantity) :
    (confirmAndRecord ctx leg quantity id).Safe (fun _ => True)
      (fun _ => True) w fun r w' =>
        ∀ res, r = .ok res → Confirmed id tag w w' res.outcome := by
  unfold confirmAndRecord
  rw [Prog.safe_bind]
  refine Program.safe_unitOfWork trivial (fun m f _ _ res h => nomatch h)
    fun m _ _ => ?_
  obtain ⟨cur, hcur', hbecomes⟩ :=
    (w.interfere_follows m).current id bo hcur
  refine (recordAck_tracked (w := w.interfere m)
    (hsole.follows (w.interfere_follows m)) htag hcur'
    (hbecomes.quantity.trans hquantity)).imp ?_ fun e _ res h => nomatch h
  intro i db htracked
  rw [Prog.andThen_ok, Prog.safe_bind]
  have hpoll := (Program.pollUntilTerminal_safe id ctx.fillAttempts
    { w.interfere m with db }).and
    ((Program.stays_pollUntilTerminal
      (P := fun v => Tracked id tag i v ∧ v.deferred = w.deferred)
      (fun m h => ⟨h.1.interfere m, (World.interfere_deferred _ m).trans h.2⟩)
      (fun read h => ⟨h.1.read read, h.2⟩) id ctx.fillAttempts).stays
      ⟨htracked, w.interfere_deferred m⟩)
  refine hpoll.imp (fun _ _ => trivial) fun r v hv => ?_
  obtain ⟨hpolled, htracked, hdeferred⟩ := hv
  cases hpolled with
  | exhausted seen hseen hlength hreads =>
      intro res hres
      cases hres
      refine .unseen seen hseen ?_ rfl
      rw [hreads, World.interfere_reads]
  | @terminal _ bo seen hseen hterm hcur hreads =>
      rw [Prog.andThen_ok]
      simp only [Prog.safe_bind]
      refine (htracked.reconcileOrderTerminal_safe hcur hterm).imp
        (fun _ _ => trivial) fun r u hu => ?_
      obtain ⟨e, m', rfl, -⟩ | ⟨rfl, hrec⟩ := hu
      · exact fun res h => nomatch h
      · rw [Prog.andThen_ok]
        refine Program.safe_unitOfWork trivial (fun m f _ _ res h => nomatch h)
          fun m' _ _ => ?_
        have htracked' := hrec.tracked.interfere m'
        refine (settle_meets i id (u.interfere m').db).imp ?_
          fun e _ res h => nomatch h
        intro res db' hres res' h
        cases h
        obtain ⟨horders, o, ho, houtcome⟩ := hres
        refine .seen i seen hseen hterm ?_ ?_
        · show (u.interfere m').broker.reads = _
          rw [World.interfere_reads, hrec.reads, hreads,
            World.interfere_reads]
        · refine ⟨htracked'.commit horders, ?_, ?_, ?_⟩
          · refine Broker.current_of_terminal ?_ hcur hterm
            exact hrec.follows.trans (u.interfere_follows m')
          · rcases hrec.closed with hclosed | hlost
            · left
              obtain ⟨o, ho, hterm⟩ :=
                hrec.tracked.closed_interfere hclosed m'
              exact ⟨o, by rw [horders]; exact ho, hterm⟩
            · right
              show (u.interfere m').deferred = _
              rw [World.interfere_deferred, hlost, hdeferred]
          · exact ⟨o, by rw [horders]; exact ho, houtcome⟩

/-- A confirmed leg is FAILED exactly when its order was seen terminal
and is not COMPLETE, or its row is not. -/
private theorem Confirmed.failed_iff {outcome : LegOutcome}
    (h : Confirmed id tag w w' outcome) :
    outcome = .failed ↔ ∃ bo, SeenTerminal id w w' bo
      ∧ (bo.status ≠ .complete ∨ LeftOpen id w w') := by
  cases h with
  | unseen seen hseen hreads houtcome =>
      subst houtcome
      refine ⟨fun h => (nomatch h), fun ⟨bo, ⟨hterm, hmem⟩, _⟩ => ?_⟩
      rw [hreads, List.drop_left] at hmem
      have hworking := (hseen _ hmem).2 bo rfl
      rw [hterm] at hworking
      cases hworking
  | @seen bo i seen hseen hterm hreads hsettled =>
      have hlast : ∀ bo', SeenTerminal id w w' bo' → bo' = bo := by
        intro bo' hbo'
        obtain ⟨hterm', hmem⟩ := hbo'
        rw [hreads, List.append_assoc, List.drop_left] at hmem
        rcases List.mem_append.1 hmem with hold | hnew
        · have hworking := (hseen _ hold).2 bo' rfl
          rw [hterm'] at hworking
          cases hworking
        · have hread := List.mem_singleton.1 hnew
          cases hread
          rfl
      obtain ⟨o, ho, houtcome⟩ := hsettled.outcome
      obtain ⟨o', cur, ho', hcur, htracks⟩ := hsettled.tracked.row
      obtain rfl := Option.some_inj.1 (ho.symm.trans ho')
      obtain rfl := Option.some_inj.1 (hsettled.current.symm.trans hcur)
      constructor
      · intro hfailed
        have hopen : o.status ≠ .complete := by
          rcases houtcome with ⟨hfilled, -⟩ | ⟨-, hne⟩
          · rw [hfilled] at hfailed
            cases hfailed
          · exact hne
        refine ⟨bo, ⟨hterm, ?_⟩, ?_⟩
        · rw [hreads, List.append_assoc, List.drop_left]
          simp
        by_cases hcomplete : bo.status = .complete
        · right
          rcases hsettled.closed with ⟨x, hx, hxterm⟩ | hlost
          · -- a closed row would say COMPLETE with the order
            obtain rfl := Option.some_inj.1 (ho.symm.trans hx)
            exact absurd ((htracks.agrees hxterm).complete.2 hcomplete) hopen
          · refine ⟨by rw [hlost, List.drop_left]; simp, ?_⟩
            intro x hx hxid
            obtain ⟨j, hj⟩ := List.getElem?_of_mem hx
            have hone : select (fun y => decide (y.brokerOrderId = some id))
                w'.db.rows.orders = [(i, o)] :=
              select_brokerOrderId ho htracks.brokerOrderId
            have hsel : select (fun y => decide (y.brokerOrderId = some id))
                w'.db.rows.orders = [(j, x)] := select_brokerOrderId hj hxid
            rw [hone] at hsel
            cases hsel
            exact hopen
        · exact .inl hcomplete
      · intro htaken
        obtain ⟨bo', hseen', hwhy⟩ := htaken
        obtain rfl := hlast bo' hseen'
        rcases houtcome with ⟨-, hcomplete⟩ | ⟨hfailed, -⟩
        · exfalso
          rcases hwhy with hne | hleft
          · have hagrees := htracks.agrees (by rw [hcomplete]; rfl)
            exact hne (hagrees.complete.1 hcomplete)
          · exact hleft.2 o (List.mem_of_getElem? ho) htracks.brokerOrderId
              hcomplete
        · exact hfailed

-- ============================================================ the placement

/-- The tag is free at the broker, and nothing was read or raced since
`w`. -/
structure Untouched (tag : String) (w w' : World) : Prop where
  accepted : w'.broker.acceptedUnder tag = []
  unborn : ∀ bo ∈ w'.broker.log, bo.tag ≠ some tag
  reads : w'.broker.reads = w.broker.reads
  deferred : w'.deferred = w.deferred

private theorem Untouched.interfere (h : Untouched tag w w') (m : Move) :
    Untouched tag w (w'.interfere m) where
  accepted := by
    rw [(w'.interfere_follows m).acceptedUnder]
    exact h.accepted
  unborn := by
    intro bo hbo
    rcases (w'.interfere_follows m).born bo hbo with hold | ⟨cur, hcur, hb⟩
    · exact h.unborn bo hold
    · rw [hb.tag]
      exact h.unborn cur (Broker.current_mem hcur)
  reads := (w'.interfere_reads m).trans h.reads
  deferred := (w'.interfere_deferred m).trans h.deferred

/-- The intent is started, and the tag is its own. -/
private theorem startIntent_meets {x : OrderIntent} {db : Db}
    (hx : db.rows.intents[leg.intentId]? = some x) :
    Meets (startIntent leg) db (fun t _ => t = x.brokerTag)
      fun _ => True := by
  unfold startIntent OrderIntentRepository.getByIdOrRaise
    OrderIntentRepository.getById OrderIntentRepository.markBrokerCallStarted
  simp only [meets_bind, meets_fetch, meets_orRaise, meets_flush, meets_pure]
  refine ⟨fun y hy => ⟨fun _ => ?_, fun _ => trivial⟩, fun _ => trivial⟩
  obtain rfl := Option.some_inj.1 (hx.symm.trans hy)
  rfl

/-- What `_place_leg` says of the orders under the tag, from a world whose
broker has just answered the placement. -/
private def Says (tag : String) (w : World) (r : Except Exc LegResult)
    (w' : World) : Prop :=
  ∀ res, r = .ok res → ∀ bo ∈ w'.broker.log, bo.tag = some tag →
    (res.outcome = .failed ↔ TakenForFlat tag bo.brokerOrderId w w')

/-- The one order accepted under the tag. -/
private theorem Untouched.accept {v : World} {request : PlaceOrderRequest}
    (h : Untouched tag w v) (htag : request.tag = tag)
    (raised : Option BrokerError) :
    (v.broker.accept request id raised).acceptedUnder tag
      = [⟨request, some id, raised⟩] := by
  rw [Broker.acceptedUnder_accept, h.accepted, if_pos htag, List.nil_append]

/-- The leg, once the broker has answered its placement. -/
private theorem afterPlacement_safe {v : World} {request : PlaceOrderRequest}
    {r : Except BrokerError String} {b : Broker}
    (htag : tag = entryTag ctx leg.optionType) (h : Untouched tag w v)
    (hplaced : v.broker.Placed request r b) (hreqtag : request.tag = tag)
    (hquantity : request.quantity = quantity) :
    (afterPlacement ctx leg quantity r).Safe (fun _ => True) (fun _ => True)
      { v with broker := b } (Says tag w) := by
  have hi := writesIntent_intentsKept leg.intentId
  cases hplaced with
  | @acked id hid =>
      have hsole : (v.broker.accept request id none).Sole id tag :=
        hid.sole h.unborn none
      have hcur : (v.broker.accept request id none).current id
          = some (request.accepted id) := by
        rw [Broker.current_accept, if_pos rfl]
      have hconfirm : (EntryLogic.confirmAndRecord ctx leg quantity id).Safe _ _
          { v with broker := v.broker.accept request id none } _ :=
        (confirmAndRecord_safe hsole htag hcur hquantity).and
          ((along_confirmAndRecord ctx hi quantity id).safe _)
      refine hconfirm.imp (fun _ _ => trivial) fun r w' hw' => ?_
      obtain ⟨hconf, hwaits⟩ := hw'
      intro res hres bo hbo hbotag
      rw [(hsole.follows hwaits.broker).only bo hbo hbotag,
        (hconf res hres).failed_iff]
      -- nothing was read or raced before the order was accepted
      have hseen : ∀ bo, SeenTerminal id { v with
          broker := v.broker.accept request id none } w' bo
            ↔ SeenTerminal id w w' bo := by
        intro bo
        show _ ∧ _ ∈ List.drop v.broker.reads.length _ ↔ _
        rw [h.reads]
        rfl
      have hleft : LeftOpen id { v with
          broker := v.broker.accept request id none } w'
            ↔ LeftOpen id w w' := by
        show _ ∈ List.drop v.deferred.length _ ∧ _ ↔ _
        rw [h.deferred]
        rfl
      simp only [hseen, hleft]
      refine ⟨.inr, fun htaken => ?_⟩
      rcases htaken with ⟨c, hc, -, e, he, -⟩ | hseen
      · rw [hwaits.broker.acceptedUnder, h.accept hreqtag,
          List.mem_singleton] at hc
        subst hc
        cases he
      · exact hseen
  | @lost id e hid hlive =>
      have hsole : (v.broker.accept request id (some e)).Sole id tag :=
        hid.sole h.unborn (some e)
      obtain ⟨kind, message⟩ := e
      cases kind with
      | connection =>
          -- accepted, and taken for unsent
          show (do
            markIntentFailed leg.intentId
            pure { outcome := .failed, reason := "not sent: " ++ message } :
              Program LegResult).Safe _ _ _ _
          rw [Prog.safe_bind]
          refine ((along_markIntentFailed (hi.status _)).safe _).imp
            (fun _ _ => trivial) fun r w' hwaits => ?_
          cases r with
          | error e => exact fun res h => nomatch h
          | ok u =>
              intro res hres bo hbo hbotag
              cases hres
              refine ⟨fun _ => .inl ?_, fun _ => rfl⟩
              rw [(hsole.follows hwaits.broker).only bo hbo hbotag,
                hwaits.broker.acceptedUnder, h.accept hreqtag]
              exact ⟨_, List.mem_singleton.2 rfl, rfl, _, rfl, rfl⟩
      | timeout =>
          intro res hres bo hbo hbotag
          cases hres
          refine ⟨fun h => (nomatch h), fun htaken => ?_⟩
          rcases htaken with ⟨c, hc, -, e, he, hkind⟩ | ⟨bo', ⟨-, hmem⟩, -⟩
          · rw [h.accept hreqtag, List.mem_singleton] at hc
            subst hc
            cases he
            cases hkind
          · have hreads : (v.broker.accept request id
                (some ⟨.timeout, message⟩)).reads = w.broker.reads := h.reads
            dsimp only at hmem
            rw [hreads, List.drop_length] at hmem
            cases hmem
      | orderRejected => cases hlive
      | invalidOrderRequest => cases hlive
      | rateLimitExceeded => cases hlive
      | _ => exact fun res h => nomatch h
  | refused e =>
      refine ((along_afterPlacement ctx hi quantity (.error e)).safe _).imp
        (fun _ _ => trivial) fun r w' hwaits => ?_
      intro res hres bo hbo hbotag
      exfalso
      rcases hwaits.broker.born bo hbo with hold | ⟨cur, hcur, hb⟩
      · exact h.unborn bo hold hbotag
      · exact h.unborn cur (Broker.current_mem hcur) (hb.tag ▸ hbotag)

/-- One leg, from a free tag. -/
private theorem placeLeg_safe {x : OrderIntent}
    (hx : w.db.rows.intents[leg.intentId]? = some x)
    (hxtag : x.brokerTag = entryTag ctx leg.optionType)
    (hw : Untouched (entryTag ctx leg.optionType) w w) :
    (placeLeg ctx leg quantity).Safe (fun _ => True) (fun _ => True) w
      (Says (entryTag ctx leg.optionType) w) := by
  rw [placeLeg_eq, Prog.safe_bind]
  refine Program.safe_unitOfWork trivial (fun m f _ _ res h => nomatch h)
    fun m _ _ => ?_
  obtain ⟨y, hy, hxy⟩ := (waits_interfere (R := IntentsKept) w m).rows _ x hx
  refine (startIntent_meets hy).imp (fun t db ht => ?_)
    fun e _ res h => nomatch h
  obtain rfl := ht.trans (hxy.brokerTag.trans hxtag)
  have hturn := hw.interfere m
  rw [Prog.andThen_ok, Prog.safe_bind, Prog.safe_done]
  cases hvalid : PlaceOrderRequest.validate leg.contract.exchange
      leg.tradingsymbol .sell quantity ctx.config.productType .market
      (entryTag ctx leg.optionType) with
  | error e => exact fun res h => nomatch h
  | ok request =>
      obtain ⟨-, -, -, hquantity, hreqtag⟩ :=
        PlaceOrderRequest.validate_ok hvalid
      rw [Prog.andThen_ok, Prog.safe_bind]
      refine Program.safe_tryPlaceOrder trivial fun m' r b _ hplaced => ?_
      rw [Prog.andThen_ok]
      have hfree : Untouched (entryTag ctx leg.optionType) w
          { w.interfere m with db } :=
        ⟨hturn.accepted, hturn.unborn, hturn.reads, hturn.deferred⟩
      exact afterPlacement_safe rfl (hfree.interfere m') hplaced hreqtag
        hquantity

end EntryLogic

/-- An order of a later book was in the book before, if nothing was
placed in between. -/
private theorem earlier_of_ordersTagged {b b' : Broker} {tag : String}
    {bo : BrokerOrder} (hb : b.Follows b') (hbo : bo ∈ b'.ordersTagged tag) :
    ∃ cur ∈ b.log, cur.brokerOrderId = bo.brokerOrderId
      ∧ cur.tag = some tag := by
  unfold Broker.ordersTagged at hbo
  obtain ⟨hcurrent, htag⟩ := List.mem_filter.1 hbo
  obtain ⟨id, -, hid⟩ := List.mem_filterMap.1 hcurrent
  have hbotag : bo.tag = some tag := by simpa using htag
  rcases hb.born bo (Broker.current_mem hid) with hold | ⟨cur, hcur, hbecomes⟩
  · exact ⟨bo, hold, rfl, hbotag⟩
  · exact ⟨cur, Broker.current_mem hcur, hbecomes.brokerOrderId.symm,
      hbecomes.tag ▸ hbotag⟩

/-- The broker goes on by itself. -/
private theorem follows_works (later : List BrokerOrder) :
    ∀ b : Broker, b.Follows (later.foldl Broker.works b) := by
  induction later with
  | nil => exact fun b => Broker.Follows.refl b
  | cons bo later ih => exact fun b => (b.follows_works bo).trans (ih _)

/-- `_place_leg` from a free tag, whatever the broker and the push stream
do during the run and `later`: a leg reported FAILED has no exposure
exactly when no order of the tag that fills in the end is one the code
takes for flat. -/
theorem placeLeg_failed_iff (ctx : StrategyContext) (leg : LegIds)
    (quantity : Nat) (w w' : World) (ms rest : List Move)
    (result : LegResult) (later : List BrokerOrder)
    (hintent : w.db.rows.intents[leg.intentId]?.map OrderIntent.brokerTag
      = some (entryTag ctx leg.optionType))
    (haccepted : w.broker.acceptedUnder (entryTag ctx leg.optionType) = [])
    (hunborn : ∀ bo ∈ w.broker.log,
      bo.tag ≠ some (entryTag ctx leg.optionType))
    (hrun : (EntryLogic.placeLeg ctx leg quantity).run ms w
      = (.returned result, w', rest)) :
    (result.outcome = .failed →
        ∀ bo ∈ (later.foldl Broker.works w'.broker).ordersTagged
          (entryTag ctx leg.optionType), bo.filledQuantity = 0)
      ↔ ∀ bo ∈ (later.foldl Broker.works w'.broker).ordersTagged
          (entryTag ctx leg.optionType), 0 < bo.filledQuantity →
          ¬ TakenForFlat (entryTag ctx leg.optionType) bo.brokerOrderId w
            w' := by
  obtain ⟨x, hx, hxtag⟩ := Option.map_eq_some_iff.1 hintent
  have hsafe : (EntryLogic.placeLeg ctx leg quantity).Safe _ _ w _ :=
    EntryLogic.placeLeg_safe hx hxtag ⟨haccepted, hunborn, rfl, rfl⟩
  have htold := hsafe.run (fun _ _ => trivial : ∀ m ∈ ms, True)
  rw [hrun] at htold
  have hfollows := follows_works later w'.broker
  constructor
  · intro hflat bo hbo hfilled htaken
    obtain ⟨cur, hcur, hid, htag⟩ := earlier_of_ordersTagged hfollows hbo
    have hfailed := (htold result rfl cur hcur htag).2 (hid ▸ htaken)
    have hzero := hflat hfailed bo hbo
    omega
  · intro hharmless hfailed bo hbo
    by_contra hne
    obtain ⟨cur, hcur, hid, htag⟩ := earlier_of_ordersTagged hfollows hbo
    have htaken := (htold result rfl cur hcur htag).1 hfailed
    exact hharmless bo hbo (Nat.pos_of_ne_zero hne) (hid ▸ htaken)

-- ============================================================ the defect

namespace SampleDay

/-- The morning's durable record, and its CE leg. -/
def recorded : World :=
  (EntryLogic.begin ctx inputs).after [still, still] morning

def ceLeg : LegIds where
  tradeId := 0
  intentId := 0
  tradingsymbol := (contract .ce).tradingsymbol
  contract := contract .ce

/-- The CE leg placed, its order filled 25 and then cancelled. -/
def cancelledPartly : Prog.Ending Exc LegResult × World × List Move :=
  (EntryLogic.placeLeg ctx ceLeg 75).run
    (legMoves (snapshot "A1" "E0-240704-CE" .sell .ce .cancelled third
      (some 100))) recorded

/-- The leg is reported FAILED. -/
def failedLeg : LegResult where
  outcome := .failed
  reason := "terminal CANCELLED after ack"

private theorem cancelledPartly_eq : cancelledPartly
    = (.returned failedLeg, cancelledPartly.2.1, cancelledPartly.2.2) :=
  Prod.ext (by decide +kernel) rfl

end SampleDay

/-- A leg reported FAILED is short 25. -/
theorem placeLeg_failedExposed :
    ¬ ∀ (ctx : StrategyContext) (leg : LegIds) (quantity : Nat) (w w' : World)
        (ms rest : List Move) (result : LegResult) (later : List BrokerOrder),
        w.db.rows.intents[leg.intentId]?.map OrderIntent.brokerTag
          = some (entryTag ctx leg.optionType) →
        w.broker.acceptedUnder (entryTag ctx leg.optionType) = [] →
        (∀ bo ∈ w.broker.log, bo.tag ≠ some (entryTag ctx leg.optionType)) →
        (EntryLogic.placeLeg ctx leg quantity).run ms w
          = (.returned result, w', rest) →
        result.outcome = .failed →
        ∀ bo ∈ (later.foldl Broker.works w'.broker).ordersTagged
          (entryTag ctx leg.optionType), bo.filledQuantity = 0 := by
  intro hclaim
  have hflat := hclaim SampleDay.ctx SampleDay.ceLeg 75 SampleDay.recorded _ _
    _ _ [] (by decide +kernel) (by decide +kernel) (by decide +kernel)
    SampleDay.cancelledPartly_eq rfl
  revert hflat
  decide +kernel

/-- There the order was seen CANCELLED, and fills 25. -/
theorem placeLeg_failed_iff_cancelledPartly :
    (SampleDay.failedLeg.outcome = .failed →
        ∀ bo ∈ SampleDay.cancelledPartly.2.1.broker.ordersTagged
          "E0-240704-CE", bo.filledQuantity = 0)
      ↔ ∀ bo ∈ SampleDay.cancelledPartly.2.1.broker.ordersTagged
          "E0-240704-CE", 0 < bo.filledQuantity →
          ¬ TakenForFlat "E0-240704-CE" bo.brokerOrderId SampleDay.recorded
            SampleDay.cancelledPartly.2.1 :=
  placeLeg_failed_iff SampleDay.ctx SampleDay.ceLeg 75 SampleDay.recorded _ _
    _ _ [] (by decide +kernel) (by decide +kernel) (by decide +kernel)
    SampleDay.cancelledPartly_eq

end AlgoPlatform
