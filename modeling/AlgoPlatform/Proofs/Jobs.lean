/-
What the strategy's whole jobs leave alone.

`AllowsTrading R` lists the writes an entry, an exit and a recovery make:
any write to intents and instances, new trades and columns of the old
ones, a position's columns other than its state, day and instance, and
its state through the gate of the state machine. The insert of the day's
position is asked for apart, since it is what some relations are about.

A relation may also allow less: the writes of one position and its own
trades (`AllowsStraddle`), or a realized P&L only where the position is
closed (`AllowsCycles`). A relation that allows every cycle holds along
every act of every job (`AllowsCycles.job`), whatever runs beside it.

Some properties are not kept by every act: whether a trade has a price is
decided by the two commits that write one, the entry's OPEN and the
exit's CLOSED. `BearsStraddle R J` and `BearsCycles R J` ask for these two
commits what `J` asks of an act, and for everything else that `R` is
kept. What the two commits write is what the program was shown before, so
`Sight` says what can be relied on of that. The walks through the jobs
are made there, once, and a relation that allows all the writes is the
case in which nothing is set apart and nothing relied on.
-/
import AlgoPlatform.Proofs.Frames

open Basis Basis.Session

namespace AlgoPlatform

/-- What a column write leaves of a position. -/
structure Position.Stands (p q : Position) : Prop where
  state : q.state = p.state
  strategyInstanceId : q.strategyInstanceId = p.strategyInstanceId
  tradeDate : q.tradeDate = p.tradeDate

/-- What a column write leaves of a trade. -/
structure Trade.Stands (t u : Trade) : Prop where
  positionId : u.positionId = t.positionId
  optionType : u.optionType = t.optionType

/-- The relation allows what is written of one position once it is
there, and of the instances. -/
structure AllowsPosition (R : Rows → Rows → Prop) (id : Nat) : Prop where
  inst : ∀ r i status, R r (r.setInstance i fun s => { s with status })
  position : ∀ r (f : Position → Position),
    (∀ p : Position, p.Stands (f p)) → R r (r.setPosition id f)
  transition : ∀ toState actor reason,
    Keeps R (PositionStateMachine.transition id toState actor reason)

/-- The relation allows what ends a cycle of one position: the columns
that hold no realized P&L, the state through its gate, and the close that
writes both. -/
structure AllowsEnding (R : Rows → Rows → Prop) (id : Nat) : Prop where
  inst : ∀ r i status, R r (r.setInstance i fun s => { s with status })
  column : ∀ r (f : Position → Position),
    (∀ p : Position, p.Stands (f p) ∧ (f p).realizedPnl = p.realizedPnl) →
    R r (r.setPosition id f)
  transition : ∀ toState actor reason,
    Keeps R (PositionStateMachine.transition id toState actor reason)
  close : ∀ ctx reason actor scan,
    Keeps R (ExitLogic.closePosition ctx id reason actor scan)

/-- The relation allows what a cycle writes of one position and of these
trades, once they are there. -/
structure AllowsStraddle (R : Rows → Rows → Prop) (id : Nat)
    (own : Nat → Prop) : Prop extends AllowsEnding R id where
  intents : AddsIntents R
  intent : ∀ i, WritesIntent R i
  trade : ∀ r i, own i → ∀ f, (∀ t : Trade, t.Stands (f t)) →
    R r (r.setTrade i f)

/-- The relation allows what comes with a new position: its trades,
PENDING, and their intents. -/
structure AllowsRecord (R : Rows → Rows → Prop) : Prop where
  intents : AddsIntents R
  trades : ∀ r (t : Trade), t.status = .pending →
    R r { r with trades := r.trades ++ [t] }

/-- The relation allows every position's cycle, and new trades. -/
structure AllowsCycles (R : Rows → Rows → Prop) : Prop extends
    AllowsRecord R where
  straddle : ∀ id, AllowsStraddle R id fun _ => True

/-- The relation allows what the strategy's jobs write, the insert of a
position apart. -/
structure AllowsTrading (R : Rows → Rows → Prop) : Prop extends
    AllowsRecord R where
  intent : ∀ i, WritesIntent R i
  trade : ∀ r i f, (∀ t : Trade, t.Stands (f t)) → R r (r.setTrade i f)
  inst : ∀ r i status, R r (r.setInstance i fun s => { s with status })
  position : ∀ r i (f : Position → Position),
    (∀ p : Position, p.Stands (f p)) → R r (r.setPosition i f)
  transition : ∀ id toState actor reason,
    Keeps R (PositionStateMachine.transition id toState actor reason)

/-- What is asked of an act holds of the two commits of a cycle that
price a trade, at the prices it was shown, and the relation allows what
else the cycle writes: of the trades, what leaves them neither OPEN nor
CLOSED. -/
structure BearsStraddle (R : Rows → Rows → Prop)
    {A : Prog.Condition Move World} (sight : Sight A)
    (J : Prog.Condition Move World) (id : Nat) (own : Nat → Prop) : Prop
    extends AllowsEnding R id where
  intents : AddsIntents R
  intent : ∀ i, WritesIntent R i
  unpriced : ∀ r i, own i → ∀ f, (∀ t : Trade, t.Stands (f t)
    ∧ (f t).status ≠ .open ∧ (f t).status ≠ .closed) → R r (r.setTrade i f)
  opens : ∀ durable : DurableRecord, durable.positionId = id →
    own durable.ce.tradeId → own durable.pe.tradeId →
    ∀ thresholds cePrice pePrice, 0 < cePrice → sight.settled cePrice →
      0 < pePrice → sight.settled pePrice →
      (Program.unitOfWork fun _ => EntryLogic.openPosition durable thresholds
        cePrice pePrice).Takes A J
  closes : ∀ leg : ExitLegIds, own leg.tradeId → ClosesInSight sight J leg

/-- And for every position, new trades allowed. -/
structure BearsCycles (R : Rows → Rows → Prop)
    {A : Prog.Condition Move World} (sight : Sight A)
    (J : Prog.Condition Move World) : Prop extends AllowsRecord R where
  straddle : ∀ id, BearsStraddle R sight J id fun _ => True

/-- The relation allows the insert of the instance's position of the
day. -/
def AllowsEntry (R : Rows → Rows → Prop) (ctx : StrategyContext) : Prop :=
  ∀ selection, Keeps R
    (PositionRepository.getOrCreate (EntryLogic.newPosition ctx selection))

-- ======================================================== one position

/-- Freezing an instance writes its status. -/
theorem keeps_freezing {R : Rows → Rows → Prop} [BlindToOrders R]
    (hinst : ∀ r i status, R r (r.setInstance i fun s => { s with status }))
    (instanceId : Nat) : Keeps R (Bookkeeping.freezeInstance instanceId) := by
  refine keeps_bind (keeps_fetch _) fun row => ?_
  cases row with
  | none => exact keeps_pure _
  | some inst =>
      exact keeps_ite (keeps_flush fun r => hinst r _ _) (keeps_pure _)

namespace AllowsEnding

variable {R : Rows → Rows → Prop} {id : Nat} (h : AllowsEnding R id)

include h in
theorem update {f : Position → Position}
    (hf : ∀ p : Position, p.Stands (f p) ∧ (f p).realizedPnl = p.realizedPnl) :
    Keeps R (PositionRepository.update id f) :=
  keeps_flush fun r => h.column r f hf

variable [BlindToOrders R]

include h in
private theorem errorPosition (reason : String) :
    Keeps R (Bookkeeping.errorPosition id reason) := by
  refine keeps_bind (keeps_fetch _) fun row => ?_
  cases row with
  | none => exact keeps_pure _
  | some position =>
      refine keeps_ite (keeps_bind (h.update fun _ => ⟨⟨rfl, rfl, rfl⟩, rfl⟩)
        fun _ => h.transition _ _ _) (keeps_pure _)

include h in
theorem failToError (instanceId : Nat) (reason : String) :
    Prog.Along (Waits R) (Bookkeeping.failToError instanceId id reason) :=
  Program.along_unitOfWork fun _ =>
    keeps_bind (h.errorPosition _) fun _ => keeps_freezing h.inst _

variable (ctx : StrategyContext)

include h in
/-- The end of an exit of the position. -/
theorem conclude {prepared : PreparedExit} (hid : prepared.positionId = id)
    (reason : ExitReason) (results : List (OptionType × LegCloseResult)) :
    Prog.Along (Waits R) (ExitLogic.conclude ctx prepared reason results) := by
  subst hid
  refine Prog.along_ite ?_ ?_
  · refine Prog.along_tryCatch ?_ fun _ => ?_
    · exact Prog.along_bind (Program.along_unitOfWork fun scan =>
        h.close ctx _ _ scan) fun _ => Prog.along_pure _
    · exact Prog.along_bind along_recordBreak fun _ => Prog.along_pure _
  · refine Prog.along_bind along_recordBreak fun _ => ?_
    exact Prog.along_bind (h.failToError _ _) fun _ => Prog.along_pure _

include h in
/-- The restart's verdict on an entry that was cut off. -/
theorem markPositionErrorAndFreeze (reason : String) :
    Prog.Along (Waits R)
      (Strategy1.markPositionErrorAndFreeze ctx id reason) := by
  refine Program.along_unitOfWork fun _ => ?_
  refine keeps_bind (keeps_bind (keeps_fetch _) fun row => ?_) fun _ =>
    keeps_freezing h.inst _
  cases row with
  | none => exact keeps_pure _
  | some position =>
      exact keeps_ite (keeps_bind (h.update fun _ => ⟨⟨rfl, rfl, rfl⟩, rfl⟩)
        fun _ => h.transition _ _ _) (keeps_pure _)

end AllowsEnding

/-- A relation that lets every column of a position be written lets it be
closed. -/
theorem AllowsPosition.ending {R : Rows → Rows → Prop} [BlindToOrders R]
    {id : Nat} (h : AllowsPosition R id) : AllowsEnding R id where
  inst := h.inst
  column := fun r f hf => h.position r f fun p => (hf p).1
  transition := h.transition
  close := by
    intro ctx reason actor scan
    refine keeps_bind (keeps_fetch _) fun row => ?_
    cases row with
    | none => exact keeps_throw _
    | some position =>
        refine keeps_bind (keeps_fetch _) fun trades =>
          keeps_bind (keeps_lift _) fun legs => ?_
        refine keeps_bind (keeps_flush fun r => h.position r _ fun _ =>
          ⟨rfl, rfl, rfl⟩) fun _ => ?_
        exact keeps_bind (h.transition _ _ _) fun _ => keeps_pure _

-- ======================================================== one straddle

namespace AllowsStraddle

variable {R : Rows → Rows → Prop} {id : Nat} {own : Nat → Prop}
variable (h : AllowsStraddle R id own) [BlindToOrders R]

include h in
private theorem openPosition {durable : DurableRecord}
    (hid : durable.positionId = id) (hce : own durable.ce.tradeId)
    (hpe : own durable.pe.tradeId) (thresholds : PremiumThresholds)
    (cePrice pePrice : ℚ) :
    Keeps R
      (EntryLogic.openPosition durable thresholds cePrice pePrice) := by
  subst hid
  exact EntryLogic.keeps_openPosition
    (fun r => h.trade r _ hce _ fun _ => ⟨rfl, rfl⟩)
    (fun r => h.trade r _ hpe _ fun _ => ⟨rfl, rfl⟩)
    (fun r _ _ _ => h.column r _ fun _ => ⟨⟨rfl, rfl, rfl⟩, rfl⟩)
    (h.transition _ _) fun i => (h.intent i).status _

include h in
theorem closesLeg {leg : ExitLegIds} (hleg : own leg.tradeId) :
    ClosesLeg R leg := by
  intro price hprice
  refine keeps_bind (keeps_fetch _) fun row => ?_
  cases row with
  | none => exact keeps_throw _
  | some trade =>
      exact keeps_bind (keeps_flush fun r => h.trade r _ hleg _ fun _ =>
        ⟨rfl, rfl⟩) fun _ => keeps_resolveIntent ((h.intent _).status _)

include h in
/-- A relation that allows every write sets no commit apart. -/
theorem bears {A J : Prog.Condition Move World} [Bears R A J] :
    BearsStraddle R (Sight.blind (A := A)) J id own :=
  { h with
    unpriced := fun r i hi f hf => h.trade r i hi f fun t => (hf t).1
    opens := fun _ hid hce hpe _ _ _ _ _ _ _ => takes_waits (R := R)
      (Program.along_unitOfWork fun _ => h.openPosition hid hce hpe _ _ _)
    closes := fun _ hleg => (h.closesLeg hleg).under }

end AllowsStraddle

namespace BearsStraddle

variable {R : Rows → Rows → Prop} {A J : Prog.Condition Move World}
  {sight : Sight A} {id : Nat} {own : Nat → Prop}
variable (h : BearsStraddle R sight J id own) [BlindToOrders R]

section Entry

open EntryLogic

variable (ctx : StrategyContext) {durable : DurableRecord}

/-- A leg reported FILLED has a positive price, and it is one it settled
on. -/
private def FilledAt (sight : Sight A) (r : LegResult) : Prop :=
  r.Priced ∧ ∀ price, r.fillPrice = some price → sight.settled price

variable (sight) in
omit [BlindToOrders R] in
private theorem placeLeg_filledAt (leg : LegIds) (quantity : Nat) :
    (placeLeg ctx leg quantity).Returns A (FilledAt sight) :=
  (placeLeg_priced ctx leg quantity).returns.and
    (placeLeg_settled ctx sight leg quantity)

include h in
private theorem finalizeOpen [Bears R A J] (hid : durable.positionId = id)
    (hown : own durable.ce.tradeId ∧ own durable.pe.tradeId)
    {ceResult peResult : LegResult} (hce : FilledAt sight ceResult)
    (hpe : FilledAt sight peResult) (hceFilled : ceResult.outcome = .filled)
    (hpeFilled : peResult.outcome = .filled) :
    (finalizeOpen ctx durable ceResult peResult).Takes A J := by
  obtain ⟨cePrice, hcePos, hceFill⟩ := hce.1 hceFilled
  obtain ⟨pePrice, hpePos, hpeFill⟩ := hpe.1 hpeFilled
  unfold EntryLogic.finalizeOpen
  rw [hceFill, hpeFill]
  refine Prog.takes_bind (Prog.takes_done _) fun thresholds => ?_
  refine Prog.takes_tryCatch ?_ fun _ => ?_
  · exact Prog.takes_bind (h.opens durable hid hown.1 hown.2 thresholds cePrice
      pePrice hcePos (hce.2 _ hceFill) hpePos (hpe.2 _ hpeFill)) fun _ =>
        Prog.takes_pure _
  · exact Prog.takes_bind (takes_waits (R := R) along_recordBreak) fun _ =>
      Prog.takes_pure _

include h in
private theorem autoUnwind [BearsPlacing R A J] {leg : LegIds}
    (hleg : own leg.tradeId) (quantity : Nat) :
    (autoUnwind ctx leg quantity).Takes A J := by
  refine Prog.takes_bind (Program.takes_tryBroker
    (takes_buyBack ctx h.intents h.intent quantity)) fun bought => ?_
  cases bought with
  | error e => exact Prog.takes_pure _
  | ok bought =>
      obtain ⟨intentId, bo⟩ := bought
      refine Prog.takes_bind (takes_waits (R := R)
        (Program.along_unitOfWork fun _ => ?_)) fun _ => Prog.takes_pure _
      refine keeps_bind (keeps_bind (keeps_fetch _) fun row => ?_) fun _ => ?_
      · cases row with
        | none => exact keeps_pure _
        | some trade =>
            refine keeps_flush fun r => h.unpriced r _ hleg _ fun t => ?_
            dsimp only
            split_ifs <;> exact ⟨⟨rfl, rfl⟩, nofun, nofun⟩
      · exact keeps_bind (keeps_getIntent _) fun _ => keeps_ite
          (keeps_markStatus ((h.intent _).status _))
          (keeps_markStatus ((h.intent _).status _))

include h in
/-- Everything `enter` does once its durable record is committed. -/
theorem placeAndFinalize [BearsPlacing R A J] (hid : durable.positionId = id)
    (hown : own durable.ce.tradeId ∧ own durable.pe.tradeId) :
    (placeAndFinalize ctx durable).Takes A J := by
  have hfail : ∀ outcome reason, (EntryLogic.failToError ctx
      durable.positionId outcome reason).Takes A J := by
    intro outcome reason
    rw [hid]
    exact takes_waits (R := R) (Prog.along_bind (h.failToError _ _) fun _ =>
      Prog.along_pure _)
  have hbreak : ∀ intentId breakType, (EntryLogic.recordBreak
      durable.positionId intentId breakType).Takes A J :=
    fun _ _ => takes_waits (R := R) along_recordBreak
  refine Prog.takes_bind_returns (takes_placeLeg ctx (h.intent _) _)
    (placeLeg_filledAt sight ctx _ _) fun ceResult hce => ?_
  cases hceOutcome : ceResult.outcome with
  | failed => exact hfail _ _
  | ambiguous => exact Prog.takes_bind (hbreak _ _) fun _ => hfail _ _
  | filled =>
      refine Prog.takes_bind_returns (takes_placeLeg ctx (h.intent _) _)
        (placeLeg_filledAt sight ctx _ _) fun peResult hpe => ?_
      by_cases hpeOutcome : peResult.outcome = .filled
      · rw [if_pos hpeOutcome]
        exact h.finalizeOpen ctx hid hown hce hpe hceOutcome hpeOutcome
      rw [if_neg hpeOutcome]
      refine Prog.takes_bind (h.autoUnwind ctx hown.1 _) fun unwound => ?_
      exact Prog.takes_bind (hbreak _ _) fun _ => hfail _ _

end Entry

section Exit

open ExitLogic

variable (ctx : StrategyContext)

include h in
private theorem prepareLegs (trades : List (Nat × Trade)) :
    ∀ legs, Keeps R (prepareLegs ctx trades legs) := by
  induction trades with
  | nil => exact fun _ => keeps_pure _
  | cons trade trades ih =>
      intro legs
      refine keeps_bind ?_ fun leg => ih _
      exact keeps_bind (keeps_lift _) fun _ =>
        keeps_bind (keeps_getOrCreateIntent h.intents) fun _ => keeps_pure _

include h in
/-- The exit record of the position, once it is looked up. -/
theorem prepare (position : Position) (reason : ExitReason)
    (actor : StateTransitionActor) (scan : List Nat) :
    Keeps R (do
      beginExit id position reason actor
      let trades ← PositionRepository.listTradesForPosition scan id
      let legs ← ExitLogic.prepareLegs ctx trades []
      pure (.ok { positionId := id, legs } :
        Except ExitResult PreparedExit)) := by
  refine keeps_bind (keeps_ite (h.transition _ _ _) (keeps_pure _))
    fun _ => ?_
  exact keeps_bind (keeps_fetch _) fun trades =>
    keeps_bind (h.prepareLegs ctx trades []) fun _ => keeps_pure _

include h in
theorem closeLegs [BearsPlacing R A J] {legs : List ExitLegIds}
    (hlegs : ∀ leg ∈ legs, own leg.tradeId) :
    (closeLegs ctx legs).Takes A J := by
  induction legs with
  | nil => exact Prog.takes_pure _
  | cons leg legs ih =>
      obtain ⟨hleg, hrest⟩ := List.forall_mem_cons.1 hlegs
      refine Prog.takes_bind
        (takes_closeLeg ctx (h.intent _) (h.closes leg hleg)) fun _ => ?_
      exact Prog.takes_bind (ih hrest) fun _ => Prog.takes_pure _

include h in
/-- Everything `exit` does once its record is committed. -/
theorem closeAndConclude [BearsPlacing R A J] {prepared : PreparedExit}
    (hid : prepared.positionId = id)
    (hlegs : ∀ leg ∈ prepared.legs, own leg.tradeId) (reason : ExitReason) :
    (do let results ← ExitLogic.closeLegs ctx prepared.legs
        conclude ctx prepared reason results : Program ExitResult).Takes A J :=
  Prog.takes_bind (h.closeLegs ctx hlegs) fun _ =>
    takes_waits (h.conclude ctx hid _ _)

end Exit

end BearsStraddle

-- ============================================================== every job

namespace AllowsRecord

variable {R : Rows → Rows → Prop} (h : AllowsRecord R) [BlindToOrders R]
variable (ctx : StrategyContext)

include h in
/-- One leg of the durable record. -/
theorem createLeg (positionId quantity : Nat) (strike : ℚ)
    (contract : BrokerInstrument) :
    Keeps R (EntryLogic.createLeg ctx positionId quantity strike contract) := by
  refine keeps_bind (keeps_bind (keeps_fetch _) fun _ =>
    keeps_bind (keeps_flush fun r => h.trades r _ rfl) fun _ =>
      keeps_pure _)
    fun tradeId => ?_
  refine keeps_bind (keeps_lift _) fun tag => ?_
  exact keeps_bind (keeps_getOrCreateIntent h.intents) fun _ => keeps_pure _

include h in
/-- The durable record, its position insert allowed. -/
theorem createDurableRecord (hentry : AllowsEntry R ctx)
    (selection : StraddleStrikeSelection) :
    Prog.Along (Waits R) (EntryLogic.createDurableRecord ctx selection) := by
  refine Program.along_unitOfWork fun _ => ?_
  refine keeps_bind (hentry selection) fun x => ?_
  obtain ⟨⟨positionId, position⟩, created⟩ := x
  refine keeps_ite ?_ (keeps_pure _)
  refine keeps_bind (h.createLeg ctx _ _ _ _) fun ce => ?_
  exact keeps_bind (h.createLeg ctx _ _ _ _) fun pe => keeps_pure _

end AllowsRecord

namespace BearsCycles

variable {R : Rows → Rows → Prop} {A J : Prog.Condition Move World}
  {sight : Sight A}
variable (h : BearsCycles R sight J) [BlindToOrders R] [BearsPlacing R A J]
variable (ctx : StrategyContext)

include h in
private theorem enter (hentry : AllowsEntry R ctx) (inputs : EntryInputs) :
    (EntryLogic.enter ctx inputs).Takes A J := by
  have hbegin : Prog.Along (Waits R) (EntryLogic.begin ctx inputs) := by
    refine Prog.along_bind (Program.along_unitOfWork fun _ =>
      keeps_bind (keeps_getByInstanceAndDate _ _) fun _ => keeps_pure _)
      fun found => ?_
    cases found with
    | some state => exact Prog.along_pure _
    | none =>
        refine Prog.along_bind (Prog.along_done _) fun skip => ?_
        refine Prog.along_ite (Prog.along_pure _) ?_
        refine Prog.along_bind (Prog.along_done _) fun blocked => ?_
        cases blocked with
        | some reason => exact Prog.along_pure _
        | none =>
            refine Prog.along_bind (Prog.along_done _) fun selection => ?_
            refine Prog.along_bind (h.createDurableRecord ctx hentry _)
              fun durable => ?_
            cases durable with
            | none => exact Prog.along_pure _
            | some durable => exact Prog.along_pure _
  refine Prog.takes_bind (takes_waits (R := R) hbegin) fun begun => ?_
  cases begun with
  | error result => exact Prog.takes_pure _
  | ok durable =>
      exact (h.straddle _).placeAndFinalize ctx rfl ⟨trivial, trivial⟩

include h in
/-- Every act of an exit. -/
theorem exit (acquired : Bool) (reason : ExitReason) :
    (ExitLogic.exit ctx acquired reason).Takes A J := by
  have hprepare : Prog.Along (Waits R)
      (ExitLogic.prepareExit ctx reason (actorByReason reason)) := by
    refine Program.along_unitOfWork fun scan => ?_
    refine keeps_bind (keeps_getByInstanceAndDate _ _) fun row => ?_
    cases row with
    | none => exact keeps_pure _
    | some row =>
        exact keeps_ite (keeps_pure _) (keeps_ite (keeps_pure _)
          ((h.straddle _).prepare ctx _ _ _ _))
  refine Prog.takes_ite ?_ (Prog.takes_pure _)
  refine Prog.takes_bind (takes_waits (R := R) hprepare) fun prepared => ?_
  cases prepared with
  | error result => exact Prog.takes_pure _
  | ok prepared =>
      exact (h.straddle _).closeAndConclude ctx rfl (fun _ _ => trivial) _

include h in
/-- Every act of a recovery. -/
theorem recover (acquired : Bool) :
    (Strategy1.recover ctx acquired).Takes A J := by
  refine Prog.takes_bind (takes_waits (R := R)
    (Program.along_unitOfWork fun _ => keeps_getByInstanceAndDate _ _))
    fun found => ?_
  cases found with
  | none => exact Prog.takes_pure _
  | some row =>
      obtain ⟨positionId, position⟩ := row
      dsimp only
      cases position.state with
      | exitPending =>
          refine Prog.takes_bind (takes_waits (R := R)
            (Strategy1.along_inferPendingExitReason _)) fun reason => ?_
          exact Prog.takes_bind (h.exit ctx acquired reason) fun _ =>
            Prog.takes_pure _
      | entryPending =>
          exact Prog.takes_bind (takes_waits
            ((h.straddle _).markPositionErrorAndFreeze ctx _)) fun _ =>
              Prog.takes_pure _
      | «open» => exact takes_waits (R := R) (Strategy1.along_attach ctx)
      | _ => exact Prog.takes_pure _

include h in
/-- Every act of every job of the strategy. -/
theorem job (hentry : AllowsEntry R ctx) (job : Job) :
    (job.program ctx).Takes A J := by
  cases job with
  | enter inputs => exact Prog.takes_discard (h.enter ctx hentry inputs)
  | exit acquired reason => exact Prog.takes_discard (h.exit ctx acquired reason)
  | recover acquired => exact Prog.takes_discard (h.recover ctx acquired)

end BearsCycles

/-- Every cycle is allowed, so no commit is set apart. -/
theorem AllowsCycles.bears {R : Rows → Rows → Prop} (h : AllowsCycles R)
    [BlindToOrders R] {A J : Prog.Condition Move World} [Bears R A J] :
    BearsCycles R (Sight.blind (A := A)) J :=
  { h with straddle := fun id => (h.straddle id).bears }

namespace AllowsTrading

variable {R : Rows → Rows → Prop} (h : AllowsTrading R) [BlindToOrders R]

include h in
theorem cycles : AllowsCycles R where
  toAllowsRecord := h.toAllowsRecord
  straddle := fun id =>
    { AllowsPosition.ending ⟨h.inst, fun r => h.position r id, h.transition id⟩
        with
      intents := h.intents
      intent := h.intent
      trade := fun r i _ => h.trade r i }

include h in
/-- Everything `enter` does once its durable record is committed. -/
theorem placeAndFinalize (ctx : StrategyContext) (durable : DurableRecord) :
    Prog.Along (OnRows R) (EntryLogic.placeAndFinalize ctx durable) :=
  (h.cycles.straddle _).bears.placeAndFinalize ctx rfl ⟨trivial, trivial⟩

end AllowsTrading

end AlgoPlatform
