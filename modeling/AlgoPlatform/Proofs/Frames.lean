/-
What the strategy's commits leave alone.

Each lemma says of one piece of the entry or the exit that it keeps any
relation between the rows that allows the writes the piece makes. Order
rows and breaks are always allowed; the writes of one intent's status
are `WritesIntent`, those of one trade a hypothesis. The invariants of
the other modules are all relations of this kind, so what a piece does
not do is proved here once.
-/
import AlgoPlatform.Model.Runs
import AlgoPlatform.Proofs.Environment

open Basis Basis.Session

namespace AlgoPlatform

/-- The relation allows intent `i` this status. -/
def WritesStatus (R : Rows → Rows → Prop) (i : Nat) (status : IntentStatus) :
    Prop :=
  ∀ r, R r (r.setIntent i fun x => { x with status })

/-- The relation allows intent `i` to be started. -/
def StartsIntent (R : Rows → Rows → Prop) (i : Nat) : Prop :=
  ∀ r, R r (r.setIntent i fun x =>
    { x with brokerCallStarted := true, status := .submittedUnconfirmed })

/-- The relation allows every write of one intent's status. -/
structure WritesIntent (R : Rows → Rows → Prop) (i : Nat) : Prop where
  status : ∀ status, WritesStatus R i status
  started : StartsIntent R i

/-- The relation allows every insert of an intent. -/
def AddsIntents (R : Rows → Rows → Prop) : Prop :=
  ∀ r x, R r { r with intents := r.intents ++ [x] }

/-- The relation allows the leg's trade to be closed at any usable
price. -/
def ClosesLeg (R : Rows → Rows → Prop) (leg : ExitLegIds) : Prop :=
  ∀ price, 0 < price → Keeps R (ExitLogic.closeTrade leg price)

/-- The relation allows the leg's trade to be opened at this price. -/
def FillsLeg (R : Rows → Rows → Prop) (leg : LegIds) (price : ℚ) : Prop :=
  ∀ r, R r (r.setTrade leg.tradeId fun t =>
    { t with entryPrice := some (r.money price), status := .open })

/-- What a program whose acts are under `A` can rely on of the prices it
is shown: of the order a poll ends with, and of the fill an entry settles
on. -/
structure Sight (A : Prog.Condition Move World) where
  polled : BrokerOrder → Prop
  settled : ℚ → Prop
  ofPoll : ∀ id attempts, (Program.pollUntilTerminal id attempts).Returns A
    fun r => ∀ bo, r = some bo → polled bo
  ofSettle : ∀ ctx leg orderId brokerOrderId,
    (Program.unitOfWork fun _ => EntryLogic.settle ctx leg orderId
      brokerOrderId).Returns A
      fun r => ∀ price, r.fillPrice = some price → settled price

/-- Nothing is relied on. -/
def Sight.blind {A : Prog.Condition Move World} : Sight A where
  polled := fun _ => True
  settled := fun _ => True
  ofPoll := fun _ _ => (Prog.returns_true _).imp fun _ _ _ _ => trivial
  ofSettle := fun _ _ _ _ => (Prog.returns_true _).imp fun _ _ _ _ => trivial

/-- What is asked of an act holds of the commit that closes the leg's
trade, at the usable price of a COMPLETE order that a poll ended with. -/
def ClosesInSight {A : Prog.Condition Move World} (sight : Sight A)
    (J : Prog.Condition Move World) (leg : ExitLegIds) : Prop :=
  ∀ bo price, sight.polled bo → bo.status = .complete →
    bo.averagePrice = some price → 0 < price →
    (Program.unitOfWork fun _ => ExitLogic.closeTrade leg price).Takes A J

theorem ClosesLeg.under {R : Rows → Rows → Prop} [BlindToOrders R]
    {A J : Prog.Condition Move World} [Bears R A J] {leg : ExitLegIds}
    (h : ClosesLeg R leg) : ClosesInSight (Sight.blind (A := A)) J leg :=
  fun _ price _ _ _ hprice => takes_waits (R := R)
    (Program.along_unitOfWork fun _ => h price hprice)

section Sessions

variable {R : Rows → Rows → Prop} [BlindToOrders R] {i : Nat}

-- ========================================================= repositories

theorem keeps_orRaise {α : Type} (id : Nat) (row : Option α) :
    Keeps R (orRaise id row : Session α) := by
  cases row with
  | none => exact keeps_throw _
  | some row => exact keeps_pure _

theorem keeps_getIntent (id : Nat) :
    Keeps R (OrderIntentRepository.getByIdOrRaise id) :=
  keeps_bind (keeps_fetch _) fun _ => keeps_orRaise _ _

theorem keeps_getOrder (id : Nat) :
    Keeps R (OrderRepository.getByIdOrRaise id) :=
  keeps_bind (keeps_fetch _) fun _ => keeps_orRaise _ _

theorem keeps_createOrder {tradeId : Nat} {intentId : Option Nat}
    {purpose : OrderPurpose} {side : TransactionType} {type : OrderType}
    {quantity : Nat} {tag : Option String} :
    Keeps R (OrderRepository.create tradeId intentId purpose side type
      quantity tag) :=
  keeps_bind (keeps_fetch _) fun _ =>
    keeps_bind (keeps_flush fun r => BlindToPushes.orders r _) fun _ =>
      keeps_pure _

theorem keeps_createBreak {breakType : ReconciliationBreakType}
    {positionId orderId intentId : Option Nat} :
    Keeps R (ReconciliationBreakRepository.create breakType positionId orderId
      intentId) :=
  keeps_flush fun r => BlindToOrders.breaks r _

omit [BlindToOrders R] in
theorem keeps_markStatus {status : IntentStatus} (h : WritesStatus R i status) :
    Keeps R (OrderIntentRepository.markStatus status i) :=
  keeps_flush h

omit [BlindToOrders R] in
theorem keeps_markBrokerCallStarted (h : StartsIntent R i) :
    Keeps R (OrderIntentRepository.markBrokerCallStarted i) :=
  keeps_flush h

/-- Look an intent up, then write its status. -/
theorem keeps_resolveIntent {status : IntentStatus}
    (h : WritesStatus R i status) :
    Keeps R (do let _ ← OrderIntentRepository.getByIdOrRaise i
                OrderIntentRepository.markStatus status i : Session Unit) :=
  keeps_bind (keeps_getIntent i) fun _ => keeps_markStatus h

omit [BlindToOrders R] in
theorem keeps_getOrCreate [Session.Frame R] {α : Type}
    {lookup : Session (Option (Nat × α))} {insert : Session (Nat × α)}
    (hlookup : Keeps R lookup) (hinsert : Keeps R insert) :
    Keeps R (getOrCreate lookup insert) := by
  refine keeps_bind hlookup fun row => ?_
  cases row with
  | some row => exact keeps_pure _
  | none =>
      refine keeps_tryCatch (keeps_bind hinsert fun _ => keeps_pure _)
        fun exc => ?_
      cases exc with
      | integrity =>
          refine keeps_bind hlookup fun row => ?_
          cases row with
          | some row => exact keeps_pure _
          | none => exact keeps_throw _
      | _ => exact keeps_throw _

omit [BlindToOrders R] in
/-- What get-or-create returns is what it looked up or what it
inserted. -/
theorem getOrCreate_meets {α : Type} {lookup : Session (Option (Nat × α))}
    {insert : Session (Nat × α)} {db : Db}
    {Q : (Nat × α) × Bool → Db → Prop} {E : Exc → Prop}
    (hlookup : Meets lookup db
      (fun row db' => db' = db ∧ ∀ x, row = some x → Q (x, false) db) E)
    (hinsert : lookup db = .ok (none, db) →
      Meets insert db (fun x db' => Q (x, true) db') E) :
    Meets (getOrCreate lookup insert) db Q E := by
  unfold getOrCreate
  rw [meets_bind]
  unfold Meets at hlookup
  unfold Meets
  cases hrow : lookup db with
  | error e => rw [hrow] at hlookup; exact hlookup
  | ok found =>
      obtain ⟨row, db'⟩ := found
      rw [hrow] at hlookup
      obtain ⟨rfl, hfound⟩ := hlookup
      cases row with
      | some x => exact hfound x rfl
      | none =>
          show Meets _ db' Q E
          rw [meets_tryCatch, meets_bind]
          refine (hinsert hrow).imp (fun x db'' h => h) fun e he => ?_
          cases e with
          | integrity =>
              rw [meets_bind]
              unfold Meets
              rw [hrow]
              exact he
          | _ => exact he

theorem keeps_getOrCreateIntent (hadd : AddsIntents R) {tradeId : Nat}
    {purpose : OrderPurpose} {side : TransactionType} {quantity : Nat}
    {key tag : String} :
    Keeps R (OrderIntentRepository.getOrCreate tradeId purpose side quantity
      key tag) :=
  keeps_getOrCreate
    (keeps_bind (keeps_fetch _) fun _ => keeps_scalarOneOrNone _)
    (keeps_bind (keeps_fetch _) fun _ =>
      keeps_bind (keeps_flush fun r => hadd r _) fun _ => keeps_pure _)

theorem keeps_getByInstanceAndDate (instanceId : Nat) (day : Date) :
    Keeps R (PositionRepository.getByInstanceAndDate instanceId day) :=
  keeps_bind (keeps_fetch _) fun _ => keeps_scalarOneOrNone _

-- ========================================================== bookkeeping

theorem keeps_recordAck (h : WritesStatus R i .placed) {tradeId : Nat}
    {purpose : OrderPurpose} {side : TransactionType} {quantity : Nat}
    {tag : Except Exc String} {brokerOrderId : String} :
    Keeps R (Bookkeeping.recordAck tradeId i purpose side quantity tag
      brokerOrderId) :=
  keeps_bind (keeps_lift tag) fun _ =>
    keeps_bind keeps_createOrder fun _ =>
      keeps_bind (keeps_setOrder _ _) fun _ =>
        keeps_bind (keeps_getIntent i) fun _ =>
          keeps_bind (keeps_markStatus h) fun _ => keeps_pure _

theorem along_recordRejection (h : WritesStatus R i .failed) {tradeId : Nat}
    {purpose : OrderPurpose} {side : TransactionType} {quantity : Nat}
    {tag : Except Exc String} {message : String} :
    Prog.Along (Waits R) (Bookkeeping.recordRejection tradeId i purpose side
      quantity tag message) :=
  Program.along_unitOfWork fun _ =>
    keeps_bind (keeps_lift tag) fun _ =>
      keeps_bind keeps_createOrder fun _ =>
        keeps_bind (keeps_setOrder _ _) fun _ =>
          keeps_resolveIntent h

theorem along_markIntentFailed (h : WritesStatus R i .failed) :
    Prog.Along (Waits R) (Bookkeeping.markIntentFailed i) :=
  Program.along_unitOfWork fun _ => keeps_resolveIntent h

theorem along_recordBreak {positionId : Nat} {intentId : Option Nat}
    {breakType : ReconciliationBreakType} :
    Prog.Along (Waits R) (Bookkeeping.recordBreak positionId intentId
      breakType) :=
  Prog.along_tryCatch
    (Program.along_unitOfWork fun _ => keeps_createBreak) fun _ =>
      Prog.along_pure _

end Sessions

-- ============================================================= the entry

/-- A leg reported FILLED has a positive fill price. -/
def LegResult.Priced (r : LegResult) : Prop :=
  r.outcome = .filled → ∃ price, 0 < price ∧ r.fillPrice = some price

namespace EntryLogic

variable {R : Rows → Rows → Prop} [BlindToOrders R]
variable (ctx : StrategyContext) {leg : LegIds}

theorem keeps_settle (h : WritesStatus R leg.intentId .failed) (orderId : Nat)
    (brokerOrderId : String) :
    Keeps R (settle ctx leg orderId brokerOrderId) := by
  refine keeps_bind (keeps_getOrder orderId) fun order => ?_
  refine keeps_ite ?_ ?_
  · cases order.averagePrice with
    | none => exact keeps_throw _
    | some price => exact keeps_ite (keeps_throw _) (keeps_pure _)
  · exact keeps_bind (keeps_getIntent _) fun _ =>
      keeps_bind (keeps_markStatus h) fun _ => keeps_pure _

theorem along_confirmAndRecord (hi : WritesIntent R leg.intentId)
    (quantity : Nat) (brokerOrderId : String) :
    Prog.Along (Waits R) (confirmAndRecord ctx leg quantity brokerOrderId) := by
  refine Prog.along_bind
    (Program.along_unitOfWork fun _ => keeps_recordAck (hi.status _))
    fun orderId => ?_
  refine Prog.along_bind (Program.along_pollUntilTerminal _ _) fun polled => ?_
  cases polled with
  | none => exact Prog.along_pure _
  | some bo =>
      exact Prog.along_bind (Program.along_reconcileOrderTerminal _ _) fun _ =>
        Program.along_unitOfWork fun _ => keeps_settle ctx (hi.status _) _ _

theorem keeps_startIntent (h : StartsIntent R leg.intentId) :
    Keeps R (startIntent leg) :=
  keeps_bind (keeps_getIntent _) fun _ =>
    keeps_bind (keeps_markBrokerCallStarted h) fun _ => keeps_pure _

/-- What `_place_leg` does once the broker has answered. -/
def afterPlacement (leg : LegIds) (quantity : Nat) :
    Except BrokerError String → Program LegResult
  | .ok brokerOrderId => confirmAndRecord ctx leg quantity brokerOrderId
  | .error e =>
      match e.kind with
      | .orderRejected | .invalidOrderRequest => do
          recordLegRejection ctx leg e.message
          pure { outcome := .failed,
                 reason := "rejected before ack: " ++ e.message }
      | .connection | .rateLimitExceeded => do
          markIntentFailed leg.intentId
          pure { outcome := .failed, reason := "not sent: " ++ e.message }
      | .timeout =>
          pure { outcome := .ambiguous,
                 reason := "ack timed out: " ++ e.message }
      | _ => throw (.broker e)

theorem placeLeg_eq (quantity : Nat) :
    placeLeg ctx leg quantity = (do
      let tag ← Program.unitOfWork fun _ => startIntent leg
      let request ← Prog.done (PlaceOrderRequest.validate leg.contract.exchange
        leg.tradingsymbol .sell quantity ctx.config.productType .market tag)
      let placement ← Program.tryBroker (Program.placeOrder request)
      afterPlacement ctx leg quantity placement) := by
  unfold placeLeg afterPlacement
  rfl

theorem along_afterPlacement (hi : WritesIntent R leg.intentId)
    (quantity : Nat) (placement : Except BrokerError String) :
    Prog.Along (Waits R) (afterPlacement ctx leg quantity placement) := by
  cases placement with
  | ok brokerOrderId => exact along_confirmAndRecord ctx hi _ _
  | error e =>
      have hrejected : Prog.Along (Waits R) (do
          recordLegRejection ctx leg e.message
          pure { outcome := .failed,
                 reason := "rejected before ack: " ++ e.message } :
            Program LegResult) :=
        Prog.along_bind (along_recordRejection (hi.status _)) fun _ =>
          Prog.along_pure _
      have hunsent : Prog.Along (Waits R) (do
          markIntentFailed leg.intentId
          pure { outcome := .failed, reason := "not sent: " ++ e.message } :
            Program LegResult) :=
        Prog.along_bind (along_markIntentFailed (hi.status _)) fun _ =>
          Prog.along_pure _
      obtain ⟨kind, message⟩ := e
      cases kind with
      | orderRejected => exact hrejected
      | invalidOrderRequest => exact hrejected
      | connection => exact hunsent
      | rateLimitExceeded => exact hunsent
      | timeout => exact Prog.along_pure _
      | _ => exact Prog.along_throw _

theorem takes_placeLeg {A J : Prog.Condition Move World} [BearsPlacing R A J]
    (hi : WritesIntent R leg.intentId) (quantity : Nat) :
    (placeLeg ctx leg quantity).Takes A J := by
  rw [placeLeg_eq]
  refine Prog.takes_bind (takes_waits (R := R)
    (Program.along_unitOfWork fun _ => keeps_startIntent hi.started)) fun tag => ?_
  refine Prog.takes_bind (Prog.takes_done _) fun request => ?_
  refine Prog.takes_bind
    (Program.takes_tryBroker (BearsPlacing.places R _)) fun placement => ?_
  exact takes_waits (along_afterPlacement ctx hi _ _)

private theorem yields_settle (orderId : Nat) (brokerOrderId : String) :
    Yields LegResult.Priced (settle ctx leg orderId brokerOrderId) := by
  refine yields_bind fun order => yields_ite ?_ ?_
  · cases order.averagePrice with
    | none => exact yields_throw _
    | some price =>
        intro db
        dsimp only
        rw [meets_ite]
        refine ⟨fun _ => trivial, fun hprice => ?_⟩
        rw [meets_pure]
        exact fun _ => ⟨price, not_le.1 hprice, rfl⟩
  · exact yields_bind fun _ => yields_bind fun _ =>
      yields_pure fun h => nomatch h

/-- A leg is reported FILLED only at a positive price. -/
theorem placeLeg_priced (leg : LegIds) (quantity : Nat) :
    Prog.Ensures (fun r (_ : World) => LegResult.Priced r)
      (placeLeg ctx leg quantity) := by
  have hunfilled : ∀ {outcome : LegOutcome} {reason : String},
      outcome ≠ .filled → Prog.Ensures (fun r (_ : World) => LegResult.Priced r)
        (pure { outcome, reason } : Program LegResult) :=
    fun hne => Prog.ensures_pure fun _ h => absurd h hne
  rw [placeLeg_eq]
  refine Prog.ensures_last fun tag => Prog.ensures_last fun request =>
    Prog.ensures_last fun placement => ?_
  cases placement with
  | ok brokerOrderId =>
      refine Prog.ensures_last fun orderId => Prog.ensures_last
        fun polled => ?_
      cases polled with
      | none => exact hunfilled nofun
      | some bo =>
          exact Prog.ensures_last fun _ => Program.ensures_unitOfWork
            fun _ w => yields_settle ctx orderId brokerOrderId w.db
  | error e =>
      obtain ⟨kind, message⟩ := e
      cases kind with
      | orderRejected => exact Prog.ensures_last fun _ => hunfilled nofun
      | invalidOrderRequest => exact Prog.ensures_last fun _ => hunfilled nofun
      | connection => exact Prog.ensures_last fun _ => hunfilled nofun
      | rateLimitExceeded => exact Prog.ensures_last fun _ => hunfilled nofun
      | timeout => exact hunfilled nofun
      | _ => exact Prog.ensures_throw _

/-- What it is filled at is what it settled on. -/
theorem placeLeg_settled {A : Prog.Condition Move World} (sight : Sight A)
    (leg : LegIds) (quantity : Nat) :
    (placeLeg ctx leg quantity).Returns A
      fun r => ∀ price, r.fillPrice = some price → sight.settled price := by
  have hunfilled : ∀ {outcome : LegOutcome} {reason : String},
      (pure { outcome, reason } : Program LegResult).Returns A
        fun r => ∀ price, r.fillPrice = some price → sight.settled price :=
    Prog.returns_pure nofun
  rw [placeLeg_eq]
  refine Prog.returns_last fun tag => Prog.returns_last fun request =>
    Prog.returns_last fun placement => ?_
  cases placement with
  | ok brokerOrderId =>
      refine Prog.returns_last fun orderId => Prog.returns_last
        fun polled => ?_
      cases polled with
      | none => exact hunfilled
      | some bo => exact Prog.returns_last fun _ => sight.ofSettle _ _ _ _
  | error e =>
      obtain ⟨kind, message⟩ := e
      cases kind with
      | orderRejected => exact Prog.returns_last fun _ => hunfilled
      | invalidOrderRequest => exact Prog.returns_last fun _ => hunfilled
      | connection => exact Prog.returns_last fun _ => hunfilled
      | rateLimitExceeded => exact Prog.returns_last fun _ => hunfilled
      | timeout => exact hunfilled
      | _ => exact Prog.returns_throw _

theorem takes_buyBack {A J : Prog.Condition Move World} [BearsPlacing R A J]
    (hadd : AddsIntents R) (hi : ∀ i, WritesIntent R i) (quantity : Nat) :
    (buyBack ctx leg quantity).Takes A J := by
  refine Prog.takes_bind (takes_waits (R := R)
    (Program.along_unitOfWork fun _ => ?_)) fun started => ?_
  · exact keeps_bind (keeps_lift _) fun _ =>
      keeps_bind (keeps_getOrCreateIntent hadd) fun _ =>
        keeps_bind (keeps_markBrokerCallStarted (hi _).started) fun _ => keeps_pure _
  · refine Prog.takes_bind (Prog.takes_done _) fun request => ?_
    refine Prog.takes_bind (BearsPlacing.places R _) fun id => ?_
    exact takes_waits (R := R) (Prog.along_bind
      (Program.along_pollUntilTerminal _ _) fun _ => Prog.along_pure _)

/-- What an entry that one of its gates turns away comes to: the day has
its position, it is an expiry day, or risk blocks it. -/
def TurnedAway (outcome : EntryOutcome) : Prop :=
  outcome = .skippedAlreadyExists ∨ outcome = .skippedExpiryDay
    ∨ outcome = .blockedByRisk

/-- `enter` up to its first broker call: the gates write nothing, and what
they let through is for the durable record to say. -/
theorem safe_begin {inputs : EntryInputs} {w : World} {I : World → Prop}
    {Q : Except Exc (Except EntryResult DurableRecord) → World → Prop}
    (hI : ∀ w', Waits R w w' → I w')
    (hraises : ∀ e w', Waits R w w' → Q (.error e) w')
    (hturned : ∀ result w', TurnedAway result.outcome → Waits R w w' →
      Q (.ok (.error result)) w')
    (hrecord : ∀ selection w', Waits R w w' →
      (createDurableRecord ctx selection).Safe (fun _ => True) I w'
        fun r w'' => (∀ e, r = .error e → Q (.error e) w'')
          ∧ (r = .ok none → ∀ result, TurnedAway result.outcome →
            Q (.ok (.error result)) w'')
          ∧ ∀ d, r = .ok (some d) → Q (.ok (.ok d)) w'') :
    (begin ctx inputs).Safe (fun _ => True) I w Q := by
  have hfind : Prog.Along (Waits R) (findExistingPosition ctx) :=
    Program.along_unitOfWork fun _ =>
      keeps_bind (keeps_getByInstanceAndDate _ _) fun _ => keeps_pure _
  unfold begin
  rw [Prog.safe_bind]
  refine (hfind.safe w).imp hI fun r w₁ hwaits => ?_
  cases r with
  | error e => exact hraises e w₁ hwaits
  | ok found =>
      rw [Prog.andThen_ok]
      cases found with
      | some state => exact hturned _ _ (.inl rfl) hwaits
      | none =>
          simp only [Prog.safe_bind, Prog.safe_done]
          cases shouldSkipExpiryDay ctx inputs with
          | error e => exact hraises e w₁ hwaits
          | ok skip =>
              rw [Prog.andThen_ok]
              cases skip with
              | true => exact hturned _ _ (.inr (.inl rfl)) hwaits
              | false =>
                  simp only [Bool.false_eq_true, if_false, Prog.safe_bind,
                    Prog.safe_done]
                  cases checkRisk inputs with
                  | error e => exact hraises e w₁ hwaits
                  | ok blocked =>
                      rw [Prog.andThen_ok]
                      cases blocked with
                      | some reason =>
                          exact hturned _ _ (.inr (.inr rfl)) hwaits
                      | none =>
                          rw [Prog.safe_bind, Prog.safe_done]
                          cases inputs.selection with
                          | error e => exact hraises e w₁ hwaits
                          | ok selection =>
                              rw [Prog.andThen_ok, Prog.safe_bind]
                              refine (hrecord selection w₁ hwaits).mono
                                fun r w₂ hr => ?_
                              obtain ⟨herror, hnone, hsome⟩ := hr
                              cases r with
                              | error e => exact herror e rfl
                              | ok durable =>
                                  rw [Prog.andThen_ok]
                                  cases durable with
                                  | none => exact hnone rfl _ (.inl rfl)
                                  | some d => exact hsome d rfl

/-- Both fills, the premium and its thresholds, and OPEN. -/
theorem keeps_openPosition {durable : DurableRecord}
    {thresholds : PremiumThresholds} {cePrice pePrice : ℚ}
    (hce : FillsLeg R durable.ce cePrice) (hpe : FillsLeg R durable.pe pePrice)
    (hposition : ∀ r (premium target stoploss : ℚ),
      R r (r.setPosition durable.positionId fun p =>
        { p with combinedEntryPremium := some premium,
                 targetPremium := some target,
                 stoplossPremium := some stoploss }))
    (hopen : ∀ reason, Keeps R (PositionStateMachine.transition
      durable.positionId .open .strategy reason))
    (hi : ∀ i, WritesStatus R i .confirmed) :
    Keeps R (openPosition durable thresholds cePrice pePrice) := by
  have hfill : ∀ {leg : LegIds} {price : ℚ}, FillsLeg R leg price →
      Keeps R (openPosition.fillLeg leg price) := by
    intro leg price hleg
    refine keeps_bind (keeps_fetch _) fun row => ?_
    cases row with
    | none => exact keeps_throw _
    | some trade => exact keeps_flush hleg
  refine keeps_bind (keeps_fetch _) fun row => ?_
  cases row with
  | none => exact keeps_throw _
  | some position =>
      refine keeps_bind (hfill hce) fun _ => keeps_bind (hfill hpe) fun _ => ?_
      refine keeps_bind (keeps_flush fun r => hposition r _ _ _) fun _ => ?_
      refine keeps_bind (hopen _) fun _ => ?_
      exact keeps_bind (keeps_resolveIntent (hi _)) fun _ =>
        keeps_resolveIntent (hi _)

/-- A relation that allows the OPEN write holds along the finalization. -/
theorem along_finalizeOpen {durable : DurableRecord}
    (hopen : ∀ thresholds cePrice pePrice,
      Keeps R (openPosition durable thresholds cePrice pePrice))
    (ceResult peResult : LegResult) :
    Prog.Along (Waits R) (finalizeOpen ctx durable ceResult peResult) := by
  unfold finalizeOpen
  cases ceResult.fillPrice with
  | none => exact Prog.along_throw _
  | some cePrice =>
      cases peResult.fillPrice with
      | none => exact Prog.along_throw _
      | some pePrice =>
          refine Prog.along_bind (Prog.along_done _) fun thresholds =>
            Prog.along_tryCatch ?_ fun _ => ?_
          · exact Prog.along_bind (Program.along_unitOfWork fun _ =>
              hopen thresholds cePrice pePrice) fun _ => Prog.along_pure _
          · exact Prog.along_bind along_recordBreak fun _ => Prog.along_pure _

end EntryLogic

-- ============================================================== the exit

namespace ExitLogic

variable {R : Rows → Rows → Prop} [BlindToOrders R]
variable {A J : Prog.Condition Move World} {sight : Sight A}
variable (ctx : StrategyContext) {leg : ExitLegIds}

theorem keeps_inspectLeg : Keeps R (inspectLeg leg) := by
  refine keeps_bind (keeps_fetch _) fun trade => ?_
  cases trade with
  | none => exact keeps_throw _
  | some trade =>
      exact keeps_ite (keeps_pure _)
        (keeps_bind (keeps_getIntent _) fun _ => keeps_pure _)

variable (R) in
theorem takes_closeOnComplete [Bears R A J] (hc : ClosesInSight sight J leg)
    (brokerOrderId : String) {bo : BrokerOrder} (hbo : sight.polled bo)
    (hcomplete : bo.status = .complete) (reason : String) :
    (closeOnComplete leg brokerOrderId bo reason).Takes A J := by
  unfold closeOnComplete
  cases haverage : bo.averagePrice with
  | none => exact Prog.takes_pure _
  | some price =>
      dsimp only
      split_ifs with hprice
      · exact Prog.takes_pure _
      · refine Prog.takes_bind ?_ fun _ => Prog.takes_pure _
        exact Prog.takes_bind
          (takes_waits (R := R) (Program.along_reconcileOrderTerminal _ _))
          fun _ => hc bo price hbo hcomplete haverage (not_le.1 hprice)

variable (R) in
theorem takes_adoptExistingOrder [Bears R A J]
    (hc : ClosesInSight sight J leg) (tag : String) :
    (adoptExistingOrder ctx leg tag).Takes A J := by
  refine Prog.takes_bind (takes_waits (R := R)
    (Program.along_tryBroker (Program.along_reads _))) fun found => ?_
  cases found with
  | error e => exact Prog.takes_pure _
  | ok found =>
      cases found with
      | none => exact Prog.takes_pure _
      | some existing =>
          refine Prog.takes_bind_returns
            (takes_waits (R := R) (Program.along_pollUntilTerminal _ _))
            (sight.ofPoll _ _) fun polled hpolled => ?_
          cases polled with
          | none => exact Prog.takes_pure _
          | some terminal =>
              dsimp only
              split_ifs with hcomplete
              · exact Prog.takes_bind (takes_closeOnComplete R hc _
                  (hpolled _ rfl) hcomplete _) fun _ => Prog.takes_pure _
              · exact Prog.takes_pure _

theorem along_recordCloseRejection (h : WritesStatus R leg.intentId .failed)
    (message : String) :
    Prog.Along (Waits R) (recordCloseRejection ctx leg message) :=
  along_recordRejection h

theorem takes_confirmClose [Bears R A J] (hi : WritesIntent R leg.intentId)
    (hc : ClosesInSight sight J leg) (brokerOrderId : String) :
    (confirmClose ctx leg brokerOrderId).Takes A J := by
  refine Prog.takes_bind (takes_waits (R := R) (Program.along_unitOfWork
    fun _ => keeps_discard (keeps_recordAck (hi.status _)))) fun _ => ?_
  refine Prog.takes_bind_returns
    (takes_waits (R := R) (Program.along_pollUntilTerminal _ _))
    (sight.ofPoll _ _) fun polled hpolled => ?_
  cases polled with
  | none => exact Prog.takes_pure _
  | some terminal =>
      dsimp only
      split_ifs with hcomplete
      · exact takes_closeOnComplete R hc _ (hpolled _ rfl) hcomplete _
      · refine Prog.takes_bind ?_ fun _ => Prog.takes_pure _
        exact Prog.takes_bind
          (takes_waits (R := R) (Program.along_reconcileOrderTerminal _ _))
          fun _ => takes_waits (R := R) (along_markIntentFailed (hi.status _))

theorem takes_sendClose [BearsPlacing R A J] (hi : WritesIntent R leg.intentId)
    (hc : ClosesInSight sight J leg) (request : PlaceOrderRequest)
    (attempts : Nat) :
    ∀ reason, (sendClose ctx leg request attempts reason).Takes A J := by
  induction attempts with
  | zero =>
      intro reason
      exact takes_waits (R := R) (Prog.along_bind
        (along_markIntentFailed (hi.status _)) fun _ => Prog.along_pure _)
  | succ attempts ih =>
      intro reason
      refine Prog.takes_bind
        (Program.takes_tryBroker (BearsPlacing.places R _)) fun r => ?_
      cases r with
      | ok id => exact takes_confirmClose ctx hi hc id
      | error e =>
          obtain ⟨kind, message⟩ := e
          have hrejected := Prog.takes_bind
            (takes_waits (A := A) (J := J) (along_recordCloseRejection (R := R)
              ctx (hi.status _) message))
            fun _ => Prog.takes_pure
              ({ outcome := .failed, reason := "rejected: " ++ message } :
                LegCloseResult)
          cases kind with
          | connection => exact ih _
          | rateLimitExceeded => exact ih _
          | orderRejected => exact hrejected
          | invalidOrderRequest => exact hrejected
          | timeout => exact Prog.takes_pure _
          | _ => exact Prog.takes_throw _

/-- One leg, whichever way it goes. -/
theorem takes_closeLeg [BearsPlacing R A J] (hi : WritesIntent R leg.intentId)
    (hc : ClosesInSight sight J leg) : (closeLeg ctx leg).Takes A J := by
  have hplace : ∀ tag, (placeCloseWithRetries ctx leg tag).Takes A J := by
    intro tag
    refine Prog.takes_bind (takes_waits (R := R) (Program.along_unitOfWork
      fun _ => keeps_bind (keeps_getIntent _) fun _ =>
        keeps_markBrokerCallStarted hi.started)) fun _ => ?_
    exact Prog.takes_bind (Prog.takes_done _) fun request =>
      takes_sendClose ctx hi hc request _ _
  refine Prog.takes_bind (takes_waits (R := R)
    (Program.along_unitOfWork fun _ => keeps_inspectLeg)) fun inspected => ?_
  cases inspected with
  | error result => exact Prog.takes_pure _
  | ok attempted =>
      refine Prog.takes_ite ?_ (hplace _)
      refine Prog.takes_bind (takes_adoptExistingOrder R ctx hc _)
        fun adopted => ?_
      cases adopted with
      | some result => exact Prog.takes_pure _
      | none => exact hplace _

end ExitLogic

-- ========================================================== the recovery

namespace Strategy1

variable (ctx : StrategyContext)

theorem along_inferPendingExitReason {R : Rows → Rows → Prop}
    [BlindToOrders R] (positionId : Nat) :
    Prog.Along (Waits R) (inferPendingExitReason positionId) :=
  Prog.along_bind (Program.along_unitOfWork fun _ => keeps_fetch _) fun _ =>
    Prog.along_pure _

theorem along_attach {R : Rows → Rows → Prop} [BlindToOrders R] :
    Prog.Along (Waits R) (attach ctx) := by
  have hload : ∀ positionId scan,
      Keeps R (Monitor.loadMonitored positionId scan) := by
    intro positionId scan
    refine keeps_bind (keeps_fetch _) fun row => keeps_bind (keeps_orRaise _ _)
      fun position => keeps_bind (keeps_fetch _) fun trades => ?_
    cases Monitor.byType .ce trades with
    | none => exact keeps_throw _
    | some call =>
        cases Monitor.byType .pe trades with
        | none => exact keeps_throw _
        | some put => exact keeps_pure _
  refine Prog.along_bind (Program.along_unitOfWork fun scan => ?_)
    fun found => ?_
  · refine keeps_bind (keeps_getByInstanceAndDate _ _) fun row => ?_
    cases row with
    | none => exact keeps_pure _
    | some row =>
        obtain ⟨positionId, position⟩ := row
        dsimp only
        cases position.state with
        | «open» => exact keeps_bind (hload _ _) fun _ => keeps_pure _
        | _ => exact keeps_pure _
  · dsimp only
    cases (Monitor.attach {} (.ok found)).1.raised with
    | some exc => exact Prog.along_throw _
    | none => exact Prog.along_pure _

/-- A recovery is an exit at most, between commits the invariant
allows. -/
theorem recover_safe {R : Rows → Rows → Prop} [BlindToOrders R]
    {C : Move → Prop} {I : World → Prop}
    (hwait : ∀ {w w'}, Waits R w w' → I w → I w')
    (hmark : ∀ positionId reason, Prog.Along (Waits R)
      (markPositionErrorAndFreeze ctx positionId reason))
    (hexit : ∀ acquired reason w, I w →
      (ExitLogic.exit ctx acquired reason).Safe C I w
        fun _ => I)
    (acquired : Bool) (w : World) (hw : I w) :
    (recover ctx acquired).Safe C I w fun _ => I := by
  have halong : ∀ {α : Type} {p : Program α} {w : World},
      Prog.Along (Waits R) p → I w →
        p.Safe C I w fun _ => I := by
    intro α p w hp hw
    exact (hp.safe w).imp (fun _ h => hwait h hw) fun _ _ h => hwait h hw
  unfold recover
  rw [Prog.safe_bind]
  refine (halong (Program.along_unitOfWork fun _ =>
    keeps_getByInstanceAndDate _ _) hw).mono fun found w hw => ?_
  cases found with
  | error e => exact hw
  | ok found =>
      rw [Prog.andThen_ok]
      cases found with
      | none => exact hw
      | some row =>
          cases hstate : row.2.state with
          | exitPending =>
              simp only [hstate, Prog.safe_bind]
              refine (halong (along_inferPendingExitReason _) hw).mono
                fun reason w hw => ?_
              cases reason with
              | error e => exact hw
              | ok reason =>
                  rw [Prog.andThen_ok, Prog.safe_bind]
                  refine (hexit acquired reason w hw).mono fun result w hw => ?_
                  cases result <;> exact hw
          | entryPending =>
              simp only [hstate, Prog.safe_bind]
              refine (halong (hmark _ _) hw).mono fun result w hw => ?_
              cases result <;> exact hw
          | idle => simp only [hstate]; exact hw
          | «open» =>
              simp only [hstate]
              exact halong (along_attach ctx) hw
          | closed => simp only [hstate]; exact hw
          | error => simp only [hstate]; exact hw

end Strategy1

-- =================================================================== runs

/-- What every job in `J` keeps at every act under moves in `C`, a run of
such jobs under such moves keeps. -/
theorem World.run_safe {ctx : StrategyContext} {C : Move → Prop}
    {I : World → Prop} {J : Job → Prop}
    (h : ∀ job w, J job → I w →
      (job.program ctx).Safe C I w fun _ => I)
    (ss : List Start) (hss : ∀ s ∈ ss, J s.job)
    (hmoves : ∀ s ∈ ss, ∀ m ∈ s.moves, C m) :
    ∀ w, I w → I (w.run ctx ss) := by
  induction ss with
  | nil => exact fun _ hw => hw
  | cons s ss ih =>
      intro w hw
      refine ih (fun s' hs' => hss s' (List.mem_cons_of_mem _ hs'))
        (fun s' hs' => hmoves s' (List.mem_cons_of_mem _ hs')) _ ?_
      exact (h s.job w (hss s (List.mem_cons_self ..)) hw).after
        (hmoves s (List.mem_cons_self ..))

end AlgoPlatform
