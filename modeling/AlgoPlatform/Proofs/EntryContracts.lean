/-
An entry trades the two contracts of its selection, and these are listed.

`Places P` says of two worlds that every `place_order` call between them
satisfies `P`; a program that waits places nothing (`Waits.places`), so
along `enter` only `_place_leg` and `_auto_unwind` matter, and they take
exchange and symbol from the leg (`along_placeLeg_leg`, `along_autoUnwind_leg`).
The legs are those of the durable record, which are the selection's
(`begin_legs`); with what a selection is, every order of the entry names a
row of the exchange's dump (`entry_orders_listed`).

The selection looks up the expiries, then the call's contract, then the
put's, and a dump may be fetched anew in between. So each leg has its own
dump: the call's is the one the exchange had after the first two look-ups,
the put's the one after the third.
-/
import AlgoPlatform.Proofs.NakedLeg
import AlgoPlatform.Proofs.StrikeSelector

open Basis Basis.Session

namespace AlgoPlatform

-- ================================================== what a program places

variable {P : PlaceOrderRequest → Prop}

/-- Every `place_order` call made from one world to the other is one of
these. -/
def Places (P : PlaceOrderRequest → Prop) (w w' : World) : Prop :=
  ∃ calls, w'.broker.calls = w.broker.calls ++ calls
    ∧ ∀ c ∈ calls, P c.request

instance : Prog.Frame (Places P) where
  refl := fun _ => ⟨[], (List.append_nil _).symm,
    fun _ hc => absurd hc List.not_mem_nil⟩
  trans := by
    rintro w₁ w₂ w₃ ⟨calls, hcalls, h⟩ ⟨calls', hcalls', h'⟩
    refine ⟨calls ++ calls', ?_, fun c hc => ?_⟩
    · rw [hcalls', hcalls, List.append_assoc]
    · rcases List.mem_append.1 hc with hc | hc
      · exact h c hc
      · exact h' c hc

theorem Places.callsSince {w w' : World} (h : Places P w w') :
    ∀ c ∈ w.callsSince w', P c.request := by
  obtain ⟨calls, hcalls, hP⟩ := h
  rw [World.callsSince_of hcalls]
  exact hP

theorem Waits.places {R : Rows → Rows → Prop} {w w' : World}
    (h : Waits R w w') : Places P w w' :=
  ⟨[], h.broker.calls.trans (List.append_nil _).symm,
    fun _ hc => absurd hc List.not_mem_nil⟩

/-- A program that waits places none. -/
theorem along_places {R : Rows → Rows → Prop} {α : Type} {p : Program α}
    (h : Prog.Along (Waits R) p) : Prog.Along (Places P) p :=
  h.mono fun _ _ => Waits.places

theorem along_placeOrder_places {request : PlaceOrderRequest}
    (h : P request) : Prog.Along (Places P) (Program.placeOrder request) := by
  refine Prog.along_atomic fun m w => ?_
  obtain ⟨r, hplaced, -⟩ :=
    (w.interfere m).broker.placeOrder_placed request m.place
  obtain ⟨c, hcalls, hrequest, -⟩ := hplaced.call
  have hbefore : (w.interfere m).broker.calls = w.broker.calls :=
    (waits_interfere (R := AnyRows) w m).broker.calls
  refine ⟨[c], hcalls.trans (congrArg (· ++ [c]) hbefore), fun c' hc' => ?_⟩
  rw [List.mem_singleton.1 hc', hrequest]
  exact h

-- ============================================================== the entry

/-- An order of one side for the whole of a leg. -/
structure LegOrder (side : TransactionType) (exchange : Exchange)
    (tradingsymbol : String) (quantity : Nat) (request : PlaceOrderRequest) :
    Prop where
  side : request.transactionType = side
  exchange : request.exchange = exchange
  tradingsymbol : request.tradingsymbol = tradingsymbol
  quantity : request.quantity = quantity

namespace EntryLogic

variable (ctx : StrategyContext) {leg : LegIds}

/-- `_place_leg` sells the leg. -/
theorem along_placeLeg_leg (quantity : Nat)
    (hP : ∀ request, LegOrder .sell leg.contract.exchange leg.tradingsymbol
      quantity request → P request) :
    Prog.Along (Places P) (placeLeg ctx leg quantity) := by
  rw [placeLeg_eq]
  refine Prog.along_bind (along_places
    (Program.along_unitOfWork_anyRows _)) fun tag => ?_
  cases hvalid : PlaceOrderRequest.validate leg.contract.exchange
      leg.tradingsymbol .sell quantity ctx.config.productType .market tag with
  | error e => exact Prog.along_done _
  | ok request =>
      obtain ⟨hexchange, hsymbol, hside, hquantity, -⟩ :=
        PlaceOrderRequest.validate_ok hvalid
      change Prog.Along (Places P) (do
        let placement ← Program.tryBroker (Program.placeOrder request)
        afterPlacement ctx leg quantity placement)
      refine Prog.along_bind (Program.along_tryBroker (along_placeOrder_places
        (hP _ ⟨hside, hexchange, hsymbol, hquantity⟩))) fun placement => ?_
      exact along_places (along_afterPlacement ctx
        (writesIntent_ledgerKept leg.intentId) quantity placement)

/-- `_auto_unwind` buys it back. -/
theorem along_autoUnwind_leg (quantity : Nat)
    (hP : ∀ request, LegOrder .buy leg.contract.exchange leg.tradingsymbol
      quantity request → P request) :
    Prog.Along (Places P) (autoUnwind ctx leg quantity) := by
  refine Prog.along_bind (Program.along_tryBroker ?_) fun bought => ?_
  · refine Prog.along_bind (along_places
      (Program.along_unitOfWork_anyRows _)) fun started => ?_
    obtain ⟨intentId, intent⟩ := started
    dsimp only
    cases hvalid : PlaceOrderRequest.validate leg.contract.exchange
        leg.tradingsymbol .buy quantity ctx.config.productType .market
        intent.brokerTag with
    | error e => exact Prog.along_done _
    | ok request =>
        obtain ⟨hexchange, hsymbol, hside, hquantity, -⟩ :=
          PlaceOrderRequest.validate_ok hvalid
        change Prog.Along (Places P) (do
          let brokerOrderId ← Program.placeOrder request
          let bo ← Program.pollUntilTerminal brokerOrderId ctx.fillAttempts
          pure (intentId, bo))
        refine Prog.along_bind (along_placeOrder_places
          (hP _ ⟨hside, hexchange, hsymbol, hquantity⟩)) fun id => ?_
        exact along_places (R := AnyRows) (Prog.along_bind
          (Program.along_pollUntilTerminal _ _) fun _ => Prog.along_pure _)
  · cases bought with
    | error e => exact Prog.along_pure _
    | ok bought => exact Prog.along_bind (along_places
        (Program.along_unitOfWork_anyRows _)) fun _ => Prog.along_pure _

-- ================================================================ the legs

/-- The record is of the selection: its legs are the two contracts, and
its quantity is the lots of the call's size. -/
structure RecordOf (selection : StraddleStrikeSelection) (d : DurableRecord) :
    Prop where
  quantity : d.quantity = ctx.config.lots * selection.call.lotSize
  ce : d.ce.contract = selection.call
  ceSymbol : d.ce.tradingsymbol = selection.call.tradingsymbol
  pe : d.pe.contract = selection.put
  peSymbol : d.pe.tradingsymbol = selection.put.tradingsymbol

private theorem yields_createLeg (positionId quantity : Nat) (strike : ℚ)
    (contract : BrokerInstrument) :
    Yields (fun leg => leg.contract = contract
        ∧ leg.tradingsymbol = contract.tradingsymbol)
      (createLeg ctx positionId quantity strike contract) := by
  refine yields_bind fun tradeId => yields_bind fun tag =>
    yields_bind fun found => ?_
  obtain ⟨⟨intentId, intent⟩, created⟩ := found
  exact yields_pure ⟨rfl, rfl⟩

theorem createDurableRecord_legs (selection : StraddleStrikeSelection) :
    Prog.Ensures (fun r (_ : World) => ∀ d, r = some d →
      RecordOf ctx selection d) (createDurableRecord ctx selection) := by
  refine Program.ensures_unitOfWork fun _ w => ?_
  refine (yields_bind (P := fun r => ∀ d, r = some d →
    RecordOf ctx selection d) fun found => ?_) w.db
  obtain ⟨⟨positionId, position⟩, created⟩ := found
  refine yields_ite ?_ (yields_pure nofun)
  intro db
  dsimp only
  rw [meets_bind]
  refine (yields_createLeg ctx _ _ _ selection.call db).imp
    (fun ce db' hce => ?_) fun _ _ => trivial
  rw [meets_bind]
  refine (yields_createLeg ctx _ _ _ selection.put db').imp
    (fun pe db'' hpe => ?_) fun _ _ => trivial
  rw [meets_pure]
  rintro d ⟨⟩
  exact ⟨rfl, hce.1, hce.2, hpe.1, hpe.2⟩

/-- What `enter` goes on with is of the selection it was given. -/
theorem begin_legs {inputs : EntryInputs} {selection : StraddleStrikeSelection}
    (h : inputs.selection = .ok selection) :
    Prog.Ensures (fun r (_ : World) => ∀ d, r = .ok d →
      RecordOf ctx selection d) (begin ctx inputs) := by
  have hturned : ∀ result : EntryResult, Prog.Ensures
      (fun r (_ : World) => ∀ d, r = .ok d → RecordOf ctx selection d)
      (pure (.error result) : Program (Except EntryResult DurableRecord)) :=
    fun _ => Prog.ensures_pure fun _ => nofun
  refine Prog.ensures_last fun found => ?_
  cases found with
  | some state => exact hturned _
  | none =>
      refine Prog.ensures_last fun skip =>
        Prog.ensures_ite (hturned _) (Prog.ensures_last fun blocked => ?_)
      cases blocked with
      | some reason => exact hturned _
      | none =>
          have hselection : Prog.Ensures (fun s (_ : World) => s = selection)
              (Prog.done inputs.selection : Program _) := by
            intro w s hs
            exact Except.ok.inj (hs.symm.trans h)
          refine Prog.ensures_bind hselection fun s w hs => ?_
          refine Prog.ensures_bind (createDurableRecord_legs ctx s)
            (fun r w hr => ?_) w
          cases r with
          | none => exact hturned _ w
          | some d =>
              refine Prog.ensures_pure (fun _ d' hd' => ?_) w
              cases hd'
              rw [← hs]
              exact hr d rfl

/-- Nothing is placed before that. -/
theorem along_begin (inputs : EntryInputs) :
    Prog.Along (Waits AnyRows) (begin ctx inputs) := by
  refine Prog.along_bind (Program.along_unitOfWork_anyRows _) fun found => ?_
  cases found with
  | some state => exact Prog.along_pure _
  | none =>
      refine Prog.along_bind (Prog.along_done _) fun skip => Prog.along_ite
        (Prog.along_pure _) (Prog.along_bind (Prog.along_done _)
          fun blocked => ?_)
      cases blocked with
      | some reason => exact Prog.along_pure _
      | none =>
          refine Prog.along_bind (Prog.along_done _) fun selection => ?_
          refine Prog.along_bind (Program.along_unitOfWork_anyRows _)
            fun durable => ?_
          cases durable with
          | none => exact Prog.along_pure _
          | some durable => exact Prog.along_pure _

-- =============================================================== its orders

/-- The SELL of the call, the SELL of the put, or the BUY that unwinds the
call, each for the whole of the leg. -/
def StraddleOrder (selection : StraddleStrikeSelection)
    (request : PlaceOrderRequest) : Prop :=
  LegOrder .sell selection.call.exchange selection.call.tradingsymbol
      (ctx.config.lots * selection.call.lotSize) request
    ∨ LegOrder .sell selection.put.exchange selection.put.tradingsymbol
      (ctx.config.lots * selection.call.lotSize) request
    ∨ LegOrder .buy selection.call.exchange selection.call.tradingsymbol
      (ctx.config.lots * selection.call.lotSize) request

/-- After the durable record, every order is one for a leg of it. -/
theorem along_placeAndFinalize {selection : StraddleStrikeSelection}
    {d : DurableRecord} (h : RecordOf ctx selection d) :
    Prog.Along (Places (StraddleOrder ctx selection))
      (placeAndFinalize ctx d) := by
  have hce : ∀ request, LegOrder .sell d.ce.contract.exchange
      d.ce.tradingsymbol d.quantity request →
      StraddleOrder ctx selection request := by
    rw [h.ce, h.ceSymbol, h.quantity]
    exact fun request => Or.inl
  have hpe : ∀ request, LegOrder .sell d.pe.contract.exchange
      d.pe.tradingsymbol d.quantity request →
      StraddleOrder ctx selection request := by
    rw [h.pe, h.peSymbol, h.quantity]
    exact fun request hsell => .inr (.inl hsell)
  have hunwind : ∀ request, LegOrder .buy d.ce.contract.exchange
      d.ce.tradingsymbol d.quantity request →
      StraddleOrder ctx selection request := by
    rw [h.ce, h.ceSymbol, h.quantity]
    exact fun request hbuy => .inr (.inr hbuy)
  have hfail : ∀ outcome reason, Prog.Along (Waits AnyRows)
      (failToError ctx d.positionId outcome reason) := fun _ _ =>
    Prog.along_bind (Program.along_unitOfWork_anyRows _) fun _ =>
      Prog.along_pure _
  refine Prog.along_bind (along_placeLeg_leg ctx d.quantity hce)
    fun ceResult => ?_
  cases ceResult.outcome with
  | failed => exact along_places (hfail _ _)
  | ambiguous =>
      exact along_places (Prog.along_bind along_recordBreak fun _ => hfail _ _)
  | filled =>
      refine Prog.along_bind (along_placeLeg_leg ctx d.quantity hpe)
        fun peResult => Prog.along_ite (along_places
          (along_finalizeOpen ctx (fun _ _ _ => keeps_anyRows _) ceResult
            peResult)) ?_
      refine Prog.along_bind (along_autoUnwind_leg ctx d.quantity hunwind)
        fun unwound => ?_
      exact along_places (Prog.along_bind along_recordBreak fun _ => hfail _ _)

/-- Every order of an entry, its unwind included, is one for the whole of
a leg of its selection. -/
theorem along_enter_orders {inputs : EntryInputs}
    {selection : StraddleStrikeSelection}
    (h : inputs.selection = .ok selection) :
    Prog.Along (Places (StraddleOrder ctx selection)) (enter ctx inputs) := by
  refine Prog.takes_bind_returns (along_places (along_begin ctx inputs))
    (begin_legs ctx h).returns fun r hr => ?_
  cases r with
  | error result => exact Prog.along_pure _
  | ok d => exact along_placeAndFinalize ctx (hr d rfl)

end EntryLogic

-- ======================================================= what is traded

open InstrumentDump StrikeSelector

theorem KiteInstrument.forEntry_reads {contract : KiteInstrument}
    {leg : BrokerInstrument} (h : contract.forEntry = some leg) :
    leg.exchange = contract.exchange
      ∧ leg.tradingsymbol = contract.tradingsymbol
      ∧ leg.lotSize = contract.lotSize := by
  unfold KiteInstrument.forEntry at h
  simp only [Option.bind_eq_bind, Option.bind_eq_some_iff] at h
  obtain ⟨optionType, -, h⟩ := h
  split at h
  · cases h
    exact ⟨rfl, rfl, rfl⟩
  · cases h

theorem SelectedStraddle.forEntry_reads {s : SelectedStraddle}
    {selection : StraddleStrikeSelection} (h : s.forEntry = some selection) :
    (selection.call.exchange = s.call.exchange
        ∧ selection.call.tradingsymbol = s.call.tradingsymbol
        ∧ selection.call.lotSize = s.call.lotSize)
      ∧ selection.put.exchange = s.put.exchange
        ∧ selection.put.tradingsymbol = s.put.tradingsymbol
        ∧ selection.put.lotSize = s.put.lotSize := by
  unfold SelectedStraddle.forEntry at h
  simp only [Option.bind_eq_bind, Option.bind_eq_some_iff] at h
  obtain ⟨call, hcall, put, hput, h⟩ := h
  split at h
  · cases h
    exact ⟨KiteInstrument.forEntry_reads hcall, KiteInstrument.forEntry_reads hput⟩
  · cases h

/-- An entry that was given what `select` returned, after any history of
the dumps: the call is listed by the exchange's dump as its own look-up
found it, the put by the dump as the look-up after it did, both at the
selected strike and expiry; and wherever the entry is cut off, whatever
the broker and the database answered, each order it placed sells the one
or the other, or buys the call back. -/
theorem entry_orders_listed {sel : StrikeSelector} {history : List DumpCall}
    {instrument : String} {spotLtp : ℚ} {asOf : Day} {meets : SelectMeets}
    {s : SelectedStraddle} {d' : InstrumentDump}
    (hselect : sel.select (run sel.cfg {} history).2 instrument spotLtp asOf
      meets = (.ok s, d'))
    {inputs : EntryInputs} {selection : StraddleStrikeSelection}
    (hentry : s.forEntry = some selection)
    (hinputs : inputs.selection = .ok selection) (ctx : StrategyContext)
    (ms : List Move) (w : World) :
    ∃ spec, sel.configs instrument = some spec
      ∧ ListedAfter sel.cfg
        (history ++ (selectCalls meets spec.exchange).take 2)
        (legQuery spec instrument s.expiry s.atmStrike .ce) s.call
      ∧ ListedAfter sel.cfg (history ++ selectCalls meets spec.exchange)
        (legQuery spec instrument s.expiry s.atmStrike .pe) s.put
      ∧ ∀ c ∈ w.callsSince ((EntryLogic.enter ctx inputs).after ms w),
        LegOrder .sell s.call.exchange s.call.tradingsymbol
            (ctx.config.lots * s.call.lotSize) c.request
          ∨ LegOrder .sell s.put.exchange s.put.tradingsymbol
            (ctx.config.lots * s.call.lotSize) c.request
          ∨ LegOrder .buy s.call.exchange s.call.tradingsymbol
            (ctx.config.lots * s.call.lotSize) c.request := by
  obtain ⟨spec, computed, hspec, -, -, -, hcall, hput, -⟩ := select_listed hselect
  refine ⟨spec, hspec, hcall, hput, fun c hc => ?_⟩
  obtain ⟨⟨hexchange, hsymbol, hlot⟩, hexchange', hsymbol', -⟩ :=
    SelectedStraddle.forEntry_reads hentry
  rw [← hexchange, ← hsymbol, ← hlot, ← hexchange', ← hsymbol']
  exact ((EntryLogic.along_enter_orders ctx hinputs).after ms w).callsSince c hc

namespace SampleDay

/-- The straddle of the day, as it is selected. -/
def selected : SelectedStraddle where
  instrument := "NIFTY"
  exchange := .nfo
  spotLtp := 24510
  strikeInterval := 50
  atmStrike := 24500
  expiry := ctx.today
  call := dayContract 11 .ce
  put := dayContract 12 .pe

/-- The dump after it. -/
def selectedDump : InstrumentDump :=
  (niftySelector.select (run niftySelector.cfg {} morningLoad).2 "NIFTY" 24510
    selectionDay cutOffMeets).2

private theorem selected_eq : niftySelector.select
    (run niftySelector.cfg {} morningLoad).2 "NIFTY" 24510 selectionDay
    cutOffMeets = (.ok selected, selectedDump) := by
  have hselected : (niftySelector.select (run niftySelector.cfg {}
      morningLoad).2 "NIFTY" 24510 selectionDay cutOffMeets).1
        = .ok selected := by
    decide +kernel
  unfold selectedDump
  rw [← hselected]

/-- The sample's entry is given what was selected. -/
private theorem selected_given : ∃ selection,
    selected.forEntry = some selection ∧ inputs.selection = .ok selection :=
  ⟨_, rfl, rfl⟩

/-- The entry of the day places its two orders, for what was selected in
the morning. -/
theorem entry_listed :
    (morning.callsSince
        ((EntryLogic.enter ctx inputs).after entry.moves morning)).length = 2
      ∧ ∃ spec, niftySelector.configs "NIFTY" = some spec
        ∧ ListedAfter niftySelector.cfg
          (morningLoad ++ (selectCalls cutOffMeets spec.exchange).take 2)
          (legQuery spec "NIFTY" selected.expiry selected.atmStrike .ce)
          selected.call
        ∧ ListedAfter niftySelector.cfg
          (morningLoad ++ selectCalls cutOffMeets spec.exchange)
          (legQuery spec "NIFTY" selected.expiry selected.atmStrike .pe)
          selected.put
        ∧ ∀ c ∈ morning.callsSince
            ((EntryLogic.enter ctx inputs).after entry.moves morning),
          LegOrder .sell selected.call.exchange selected.call.tradingsymbol
              (ctx.config.lots * selected.call.lotSize) c.request
            ∨ LegOrder .sell selected.put.exchange selected.put.tradingsymbol
              (ctx.config.lots * selected.call.lotSize) c.request
            ∨ LegOrder .buy selected.call.exchange
              selected.call.tradingsymbol
              (ctx.config.lots * selected.call.lotSize) c.request := by
  refine ⟨by decide +kernel, ?_⟩
  obtain ⟨selection, hentry, hinputs⟩ := selected_given
  exact entry_orders_listed selected_eq hentry hinputs ctx entry.moves morning

end SampleDay

end AlgoPlatform
