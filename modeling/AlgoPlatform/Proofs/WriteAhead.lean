/-
Every order was written down before it was placed.

# The law

Whatever `place_order` call the broker has ever received, there is a
committed intent whose broker call is marked started and which asks for
that order: its tag, its side, its quantity, and the symbol and exchange
of its trade. So a crash anywhere leaves no order at the broker that the
database cannot account for.

# The argument

A thread places under an intent it has itself marked started, in an
earlier act of its own. Between the two acts anything may happen, but
nothing that deletes or renames a row (`RowsKept`): what the thread knows
of its intent is carried over (`Prog.Beside.carry`). That the intent is
the leg's own, and not one an earlier session left under the same key, is
`Booked`.
-/
import AlgoPlatform.Proofs.Beside
import AlgoPlatform.Proofs.Idempotence
import AlgoPlatform.Proofs.IntentRecord
import AlgoPlatform.Proofs.StateGraph

open Basis Basis.Session

namespace AlgoPlatform

-- ============================================================== the law

/-- The intent asks for just this order, and says that it is being
placed. -/
structure OrderIntent.Asks (r : Rows) (x : OrderIntent)
    (request : PlaceOrderRequest) : Prop where
  started : x.brokerCallStarted = true
  tag : x.brokerTag = request.tag
  side : x.transactionType = request.transactionType
  quantity : x.quantity = request.quantity
  trade : ∃ t, r.trades[x.tradeId]? = some t
    ∧ t.tradingSymbol = request.tradingsymbol ∧ t.exchange = request.exchange

/-- Every call the broker has received was asked for. -/
def WrittenAhead (w : World) : Prop :=
  ∀ c ∈ w.broker.calls, ∃ x ∈ w.db.rows.intents, x.Asks w.db.rows c.request

/-- The law, with what keeps it, at a broker that may also have orders
under `foreign` tags: any other order is one of the platform's calls. -/
structure Ahead (foreign : String → Prop) (w : World) : Prop where
  booked : Booked w.db.rows
  written : WrittenAhead w
  own : ∀ bo ∈ w.broker.log, ∀ tag, bo.tag = some tag →
    foreign tag ∨ ∃ c ∈ w.broker.calls, c.request.tag = tag

theorem OrderIntent.Asks.kept {x y : OrderIntent} {request : PlaceOrderRequest}
    {r r' : Rows} (h : x.Asks r request) (hkept : RowsKept r r')
    (hx : x.Endures y) : y.Asks r' request := by
  obtain ⟨t, ht, hsymbol, hexchange⟩ := h.trade
  obtain ⟨u, hu, horigin⟩ := hkept.trades _ t ht
  simp only [Trade.origin, Prod.mk.injEq] at horigin
  obtain ⟨-, -, hsymbol', hexchange', -⟩ := horigin
  exact ⟨hx.started h.started, hx.brokerTag.trans h.tag,
    hx.transactionType.trans h.side, hx.quantity.trans h.quantity,
    u, hx.tradeId ▸ hu, hsymbol'.trans hsymbol, hexchange'.trans hexchange⟩

/-- Calls that were asked for stay so. -/
theorem WrittenAhead.kept {w w' : World} (h : WrittenAhead w)
    (hkept : RowsKept w.db.rows w'.db.rows)
    (hcalls : w'.broker.calls = w.broker.calls) : WrittenAhead w' := by
  intro c hc
  rw [hcalls] at hc
  obtain ⟨x, hx, hasks⟩ := h c hc
  obtain ⟨i, hi⟩ := List.getElem?_of_mem hx
  obtain ⟨y, hy, hendures⟩ := hkept.intents i x hi
  exact ⟨y, List.mem_of_getElem? hy, hasks.kept hkept hendures⟩

/-- What places nothing and inserts nothing keeps the law. -/
theorem Ahead.waits {foreign : String → Prop} {w w' : World}
    (h : Ahead foreign w) (hw : Waits RowsStand w w') : Ahead foreign w' where
  booked := hw.rows.booked h.booked
  written := h.written.kept hw.rows.toRowsKept hw.broker.calls
  own := by
    intro bo hbo tag htag
    rw [hw.broker.calls]
    rcases hw.broker.born bo hbo with hold | ⟨cur, hcur, hbecomes⟩
    · exact h.own bo hold tag htag
    · exact h.own cur (Broker.current_mem hcur) tag (hbecomes.tag.symm.trans htag)

/-- A program that places nothing and inserts nothing is right beside the
others. -/
theorem beside_of_stands {foreign : String → Prop} {α : Type}
    {p : Program α} {seen : World} (h : Prog.Along (Waits RowsStand) p) :
    p.Beside (Ahead foreign) (OnRows RowsKept) seen fun _ _ => True :=
  h.beside fun _ _ hw hs => ⟨hs.waits hw, hw.rows.toRowsKept⟩

variable {foreign : String → Prop} {ctx : StrategyContext}

-- ============================================================== placing

/-- The leg may be placed on this side under this tag. -/
private structure LegTerms.Placeable (terms : LegTerms) (ctx : StrategyContext)
    (side : TransactionType) (tag : String) (w : World) : Prop where
  recorded : terms.Recorded ctx w.db.rows
  started : terms.Started side tag w.db.rows

private theorem LegTerms.Placeable.kept {terms : LegTerms}
    {side : TransactionType} {tag : String} (w w' : World)
    (hkept : OnRows RowsKept w w') (h : terms.Placeable ctx side tag w) :
    terms.Placeable ctx side tag w' := by
  obtain ⟨i, x, hx, htag, hstarted, htrade, hside, hquantity⟩ := h.started
  obtain ⟨y, hy, hendures⟩ := hkept.intents i x hx
  exact ⟨h.recorded.kept hkept, i, y, hy, hendures.brokerTag.trans htag,
    hendures.started hstarted, hendures.tradeId.trans htrade,
    hendures.transactionType.trans hside, hendures.quantity.trans hquantity⟩

/-- A call for a leg that may be placed keeps the law. -/
private theorem Ahead.placed {w : World} (h : Ahead foreign w)
    {terms : LegTerms} {side : TransactionType} {tag : String}
    (hleg : terms.Placeable ctx side tag w) {product : ProductType}
    {request : PlaceOrderRequest}
    (hvalid : PlaceOrderRequest.validate terms.exchange terms.tradingsymbol side
      terms.quantity product .market tag = .ok request)
    {r : Except BrokerError String} {b : Broker}
    (hplaced : w.broker.Placed request r b) :
    Ahead foreign { w with broker := b } := by
  obtain ⟨hexchange, hsymbol, hside, hquantity, htag⟩ :=
    PlaceOrderRequest.validate_ok hvalid
  obtain ⟨c, hcalls, hrequest⟩ := hplaced.calls
  refine ⟨h.booked, fun c' hc' => ?_, fun bo hbo tag' htag' => ?_⟩
  · dsimp only at hc' ⊢
    rw [hcalls] at hc'
    rcases List.mem_append.1 hc' with hold | hnew
    · exact h.written c' hold
    rw [List.mem_singleton.1 hnew, hrequest]
    obtain ⟨t, -, ht, -, -, htsymbol, htexchange, -, -⟩ := hleg.recorded.trade
    obtain ⟨i, x, hx, hxtag, hstarted, htrade, hxside, hxquantity⟩ := hleg.started
    exact ⟨x, List.mem_of_getElem? hx, hstarted, hxtag.trans htag.symm,
      hxside.trans hside.symm, hxquantity.trans hquantity.symm, t,
      htrade ▸ ht, htsymbol.trans hsymbol.symm, htexchange.trans hexchange.symm⟩
  · dsimp only at hbo ⊢
    rw [hcalls]
    rcases hplaced.log_mem hbo with hold | hnew
    · refine (h.own bo hold tag' htag').imp_right fun hcall => ?_
      obtain ⟨c', hc', htag''⟩ := hcall
      exact ⟨c', List.mem_append_left _ hc', htag''⟩
    · rw [hnew] at htag'
      exact .inr ⟨c, List.mem_append_right _ (List.mem_singleton_self c),
        hrequest ▸ Option.some_inj.1 htag'⟩

variable {seen : World}

/-- The environment's turn. -/
theorem turnKeeps_ahead : TurnKeeps (Ahead foreign) (OnRows RowsKept) := by
  intro m w hw
  have hturn : Waits RowsStand w (w.interfere m) := waits_interfere w m
  exact ⟨hw.waits hturn, hturn.rows.toRowsKept⟩

/-- One call for a leg that may be placed. -/
private theorem beside_placeLeg {terms : LegTerms} {side : TransactionType}
    {tag : String} (hleg : terms.Placeable ctx side tag seen)
    {product : ProductType} {request : PlaceOrderRequest}
    (hvalid : PlaceOrderRequest.validate terms.exchange terms.tradingsymbol side
      terms.quantity product .market tag = .ok request) :
    (Program.placeOrder request).Beside (Ahead foreign) (OnRows RowsKept) seen
      fun _ _ => True :=
  Program.beside_placeOrder turnKeeps_ahead fun w _ _ hseen hw hplaced =>
    ⟨⟨hw.placed (LegTerms.Placeable.kept _ w hseen hleg) hvalid hplaced,
      Session.Frame.refl w.db.rows⟩, trivial⟩

/-- A session that inserts, among the others. -/
private theorem beside_enters {α : Type} {body : List Nat → Session α}
    {P : α → Rows → Prop}
    (hbody : ∀ scan (db : Db), Booked db.rows → RowsKept seen.db.rows db.rows →
      Meets (body scan) db
        (fun a db' => Enters db.rows db'.rows ∧ P a db'.rows) fun _ => True) :
    (Program.unitOfWork body).Beside (Ahead foreign) (OnRows RowsKept) seen
      fun r w => ∀ a, r = .ok a → P a w.db.rows := by
  refine Program.beside_unitOfWork turnKeeps_ahead (fun f w _ _ a ha => ?_)
    fun scan w hseen hw => (hbody scan w.db hw.booked hseen).imp
      (fun a db h => ?_) fun e _ a ha => ?_
  · cases ha
  · obtain ⟨⟨hbooked, hkept⟩, hP⟩ := h
    refine ⟨⟨⟨hbooked, hw.written.kept hkept rfl, hw.own⟩, hkept⟩,
      fun a' ha' => ?_⟩
    cases ha'
    exact hP
  · cases ha

-- ============================================================= the entry

namespace EntryLogic

variable {leg : LegIds} {quantity : Nat}

/-- A leg of the durable record is started, placed and settled. -/
private theorem placeLeg_beside
    (hrecorded : (leg.terms quantity).Recorded ctx seen.db.rows)
    (hintended : (leg.terms quantity).Intended .sell leg.intentId seen.db.rows) :
    (placeLeg ctx leg quantity).Beside (Ahead foreign) (OnRows RowsKept) seen
      fun _ _ => True := by
  rw [placeLeg_eq]
  refine Prog.beside_bind (beside_enters (P := fun tag r =>
    (leg.terms quantity).Recorded ctx r
      ∧ (leg.terms quantity).Started .sell tag r) fun _ db h hkept => ?_)
    (fun tag w hw => ?_) fun _ _ _ => trivial
  · obtain ⟨x, hx, hterms⟩ := hintended.kept hkept
    unfold startIntent OrderIntentRepository.getByIdOrRaise
      OrderIntentRepository.getById
    rw [meets_bind, meets_bind, meets_fetch, meets_orRaise]
    refine ⟨fun y hy => ?_, fun _ => trivial⟩
    rw [hx] at hy
    cases hy
    rw [meets_bind]
    refine (markStarted_enters h hx hterms).imp (fun _ db' hstarted => ?_)
      fun _ h => h
    rw [meets_pure]
    exact ⟨hstarted.1, (hrecorded.kept hkept).kept hstarted.1.kept, hstarted.2⟩
  · obtain ⟨hrecorded', hstarted⟩ := hw tag rfl
    refine Prog.beside_bind (P := fun r w' => w' = w ∧ PlaceOrderRequest.validate
      leg.contract.exchange leg.tradingsymbol .sell quantity
      ctx.config.productType .market tag = r) ⟨rfl, rfl⟩
      (fun request w' hvalid => ?_) fun _ _ _ => trivial
    obtain ⟨rfl, hvalid⟩ := hvalid
    refine Prog.beside_bind (Program.beside_tryBroker
      (beside_placeLeg ⟨hrecorded', hstarted⟩ hvalid)
      (Q := fun _ _ => True) (fun _ _ _ => trivial) (fun _ _ _ => trivial)
      fun _ _ _ => trivial) (fun placement w'' _ => ?_) fun _ _ _ => trivial
    exact beside_of_stands
      (along_afterPlacement ctx (writesIntent_rowsStand _) quantity placement)

/-- Both fills onto the trades, and what follows from them. -/
private theorem along_rowsStand_finalizeOpen (durable : DurableRecord)
    (ceResult peResult : LegResult) :
    Prog.Along (Waits RowsStand)
      (finalizeOpen ctx durable ceResult peResult) := by
  have hfill : ∀ (leg : LegIds) (price : ℚ), FillsLeg RowsStand leg price := by
    refine fun leg price r => rowsStand_setTrade (fun t => ?_) r leg.tradeId
    rfl
  have hposition := allowsPosition_rowsStand durable.positionId
  refine along_finalizeOpen ctx (fun thresholds cePrice pePrice => ?_) _ _
  exact keeps_openPosition (hfill _ _) (hfill _ _)
    (fun r _ _ _ => hposition.position r _ fun _ => ⟨rfl, rfl, rfl⟩)
    (hposition.transition _ _) fun i => (writesIntent_rowsStand i).status _

/-- A filled leg is bought back under an intent of its own. -/
private theorem autoUnwind_beside
    (hrecorded : (leg.terms quantity).Recorded ctx seen.db.rows) :
    (autoUnwind ctx leg quantity).Beside (Ahead foreign) (OnRows RowsKept) seen
      fun _ _ => True := by
  have hbuy : (buyBack ctx leg quantity).Beside (Ahead foreign)
    (OnRows RowsKept) seen
      fun _ _ => True := by
    refine Prog.beside_bind (beside_enters (P := fun row r =>
      (leg.terms quantity).Recorded ctx r
        ∧ (leg.terms quantity).Started .buy row.2.brokerTag r)
      fun _ db h hkept => ?_) (fun row w hw => ?_) fun _ _ _ => trivial
    · exact (startUnwind_enters h (hrecorded.kept hkept)).imp
        (fun row db' hrow => ⟨hrow.1,
          (hrecorded.kept hkept).kept hrow.1.kept, hrow.2⟩) fun _ h => h
    · obtain ⟨intentId, intent⟩ := row
      obtain ⟨hrecorded', hstarted⟩ := hw _ rfl
      refine Prog.beside_bind (P := fun r w' => w' = w
        ∧ PlaceOrderRequest.validate leg.contract.exchange leg.tradingsymbol
          .buy quantity ctx.config.productType .market intent.brokerTag = r)
        ⟨rfl, rfl⟩ (fun request w' hvalid => ?_) fun _ _ _ => trivial
      obtain ⟨rfl, hvalid⟩ := hvalid
      refine Prog.beside_bind (beside_placeLeg ⟨hrecorded', hstarted⟩ hvalid)
        (fun id w'' _ => beside_of_stands (Prog.along_bind
          (Program.along_pollUntilTerminal _ _) fun _ => Prog.along_pure _))
        fun _ _ _ => trivial
  refine Prog.beside_bind (Program.beside_tryBroker hbuy (Q := fun _ _ => True)
    (fun _ _ _ => trivial) (fun _ _ _ => trivial) fun _ _ _ => trivial)
    (fun bought w _ => ?_) fun _ _ _ => trivial
  cases bought with
  | error e => trivial
  | ok bought =>
      obtain ⟨intentId, bo⟩ := bought
      refine beside_of_stands (Prog.along_bind
        (Program.along_unitOfWork fun _ => ?_) fun _ => Prog.along_pure _)
      refine keeps_bind (keeps_bind (keeps_fetch _) fun row => ?_) fun _ => ?_
      · cases row with
        | none => exact keeps_pure _
        | some trade =>
            refine keeps_flush fun r => rowsStand_setTrade (fun t => ?_) r _
            split_ifs <;> rfl
      · exact keeps_bind (keeps_getIntent _) fun _ => keeps_ite
          (keeps_markStatus ((writesIntent_rowsStand _).status _))
          (keeps_markStatus ((writesIntent_rowsStand _).status _))

/-- Everything `enter` does once its durable record is committed. -/
private theorem placeAndFinalize_beside {durable : DurableRecord}
    (hprimed : Primed ctx durable seen.db.rows) :
    (placeAndFinalize ctx durable).Beside (Ahead foreign) (OnRows RowsKept) seen
      fun _ _ => True := by
  have hstable : ∀ w w', OnRows RowsKept w w' →
      Primed ctx durable w.db.rows → Primed ctx durable w'.db.rows :=
    fun _ _ hkept h => h.kept hkept
  have hfail : ∀ {seen : World} outcome reason,
      (failToError ctx durable.positionId outcome reason).Beside (Ahead foreign)
        (OnRows RowsKept) seen fun _ _ => True :=
    fun outcome reason => beside_of_stands (Prog.along_bind
      ((allowsPosition_rowsStand _).ending.failToError _ _)
      fun _ => Prog.along_pure _)
  have hbreak : ∀ {seen : World} intentId breakType,
      (recordBreak durable.positionId intentId breakType).Beside (Ahead foreign)
        (OnRows RowsKept) seen fun _ _ => True :=
    fun _ _ => beside_of_stands along_recordBreak
  unfold placeAndFinalize
  refine Prog.beside_bind ((placeLeg_beside hprimed.ce hprimed.ceIntent).carry
    hprimed hstable) (fun ceResult w hw => ?_) fun _ _ _ => trivial
  cases ceResult.outcome with
  | failed => exact hfail _ _
  | ambiguous =>
      exact Prog.beside_bind (hbreak _ _) (fun _ _ _ => hfail _ _)
        fun _ _ _ => trivial
  | filled =>
      refine Prog.beside_bind ((placeLeg_beside hw.2.pe hw.2.peIntent).carry
        hw.2 hstable) (fun peResult w' hw' => ?_) fun _ _ _ => trivial
      refine Prog.beside_ite
        (fun _ => beside_of_stands (along_rowsStand_finalizeOpen _ _ _))
        fun _ => ?_
      refine Prog.beside_bind (autoUnwind_beside hw'.2.ce)
        (fun unwound _ _ => ?_) fun _ _ _ => trivial
      exact Prog.beside_bind (hbreak _ _) (fun _ _ _ => hfail _ _)
        fun _ _ _ => trivial

private theorem enter_beside (inputs : EntryInputs) :
    (enter ctx inputs).Beside (Ahead foreign) (OnRows RowsKept) seen
      fun _ _ => True := by
  have hfind : (findExistingPosition ctx).Beside (Ahead foreign)
    (OnRows RowsKept) seen
      fun _ _ => True :=
    beside_of_stands (Program.along_unitOfWork fun _ =>
      keeps_bind (keeps_getByInstanceAndDate _ _) fun _ => keeps_pure _)
  refine Prog.beside_bind (P := fun r w => ∀ d, r = .ok (.ok d) →
    Primed ctx d w.db.rows) ?_ (fun begun w hw => ?_) fun _ _ _ => trivial
  · unfold begin
    refine Prog.beside_bind hfind (fun found w _ => ?_)
      fun _ _ _ _ hd => by cases hd
    cases found with
    | some state => exact fun _ hd => by cases hd
    | none =>
        refine Prog.beside_bind (P := fun _ _ => True) trivial
          (fun skip w _ => ?_) fun _ _ _ _ hd => by cases hd
        refine Prog.beside_ite (fun _ _ hd => by cases hd) fun _ => ?_
        refine Prog.beside_bind (P := fun _ _ => True) trivial
          (fun blocked w _ => ?_) fun _ _ _ _ hd => by cases hd
        cases blocked with
        | some reason => exact fun _ hd => by cases hd
        | none =>
            refine Prog.beside_bind (P := fun _ _ => True) trivial
              (fun selection w _ => ?_) fun _ _ _ _ hd => by cases hd
            refine Prog.beside_bind (beside_enters (P := fun r rows =>
              ∀ d, r = some d → Primed ctx d rows) fun _ db h _ =>
                createDurableRecord_enters db h selection)
              (fun durable w hw => ?_) fun _ _ _ _ hd => by cases hd
            cases durable with
            | none => exact fun _ hd => by cases hd
            | some durable =>
                intro d hd
                cases hd
                exact hw _ rfl _ rfl
  · cases begun with
    | error result => trivial
    | ok durable => exact placeAndFinalize_beside (hw durable rfl)

end EntryLogic

-- ============================================================== the exit

namespace ExitLogic

variable {leg : ExitLegIds} {tag : String}

/-- The tag is the one of the leg's intent. -/
private def Tagged (leg : ExitLegIds) (tag : String) (r : Rows) : Prop :=
  ∃ x : OrderIntent, r.intents[leg.intentId]? = some x ∧ x.brokerTag = tag

private theorem Tagged.kept {r r' : Rows} (h : Tagged leg tag r)
    (hkept : RowsKept r r') : Tagged leg tag r' := by
  obtain ⟨x, hx, htag⟩ := h
  obtain ⟨y, hy, hendures⟩ := hkept.intents _ x hx
  exact ⟨y, hy, hendures.brokerTag.trans htag⟩

/-- The retry loop, for a leg that may be placed. -/
private theorem sendClose_beside {request : PlaceOrderRequest}
    (hvalid : PlaceOrderRequest.validate leg.exchange leg.tradingsymbol .buy
      leg.quantity ctx.config.productType .market tag = .ok request)
    (attempts : Nat) :
    ∀ (reason : String) (seen : World), leg.terms.Placeable ctx .buy tag seen →
      (sendClose ctx leg request attempts reason).Beside (Ahead foreign)
        (OnRows RowsKept) seen fun _ _ => True := by
  have hi := writesIntent_rowsStand leg.intentId
  induction attempts with
  | zero =>
      exact fun _ _ _ => beside_of_stands (Prog.along_bind
        (along_markIntentFailed (hi.status _)) fun _ => Prog.along_pure _)
  | succ attempts ih =>
      intro reason seen hleg
      refine Prog.beside_bind (Program.beside_tryBroker
        ((beside_placeLeg hleg hvalid).carry hleg LegTerms.Placeable.kept)
        (Q := fun r w => ∀ e, r = .ok (.error e) →
          leg.terms.Placeable ctx .buy tag w)
        (fun _ _ _ _ he => by cases he) (fun _ w hw _ _ => hw.2)
        fun _ w hw _ he => by cases he) (fun placement w hw => ?_)
        fun _ _ _ => trivial
      cases placement with
      | ok id =>
          exact beside_of_stands
            (takes_confirmClose ctx hi (closesLeg_rowsStand leg).under id)
      | error e =>
          have hagain := ih ("not sent: " ++ e.message) w (hw e rfl)
          have hrejected : ∀ result : LegCloseResult, (do
              recordCloseRejection ctx leg e.message
              pure result : Program LegCloseResult).Beside (Ahead foreign)
                (OnRows RowsKept) w fun _ _ => True :=
            fun result => beside_of_stands (Prog.along_bind
              (along_recordCloseRejection ctx (hi.status _) _)
              fun _ => Prog.along_pure _)
          obtain ⟨kind, message⟩ := e
          cases kind with
          | connection => exact hagain
          | rateLimitExceeded => exact hagain
          | orderRejected => exact hrejected _
          | invalidOrderRequest => exact hrejected _
          | _ => trivial

/-- The intent is marked started, and the close is sent. -/
private theorem placeCloseWithRetries_beside
    (hleg : Prepared ctx seen.db.rows leg) (htag : Tagged leg tag seen.db.rows) :
    (placeCloseWithRetries ctx leg tag).Beside (Ahead foreign)
      (OnRows RowsKept) seen fun _ _ => True := by
  refine Prog.beside_bind (beside_enters (P := fun _ r =>
    leg.terms.Recorded ctx r ∧ leg.terms.Started .buy tag r)
    fun _ db h hkept => ?_) (fun _ w hw => ?_) fun _ _ _ => trivial
  · obtain ⟨hrecorded, x, hx, hterms⟩ := hleg.kept hkept
    obtain ⟨y, hy, rfl⟩ := htag.kept hkept
    rw [hx] at hy
    cases hy
    unfold OrderIntentRepository.getByIdOrRaise OrderIntentRepository.getById
    rw [meets_bind, meets_bind, meets_fetch, meets_orRaise]
    refine ⟨fun y hy => ?_, fun _ => trivial⟩
    rw [hx] at hy
    cases hy
    exact (markStarted_enters h hx hterms).imp (fun _ db' hstarted =>
      ⟨hstarted.1, hrecorded.kept hstarted.1.kept, hstarted.2⟩) fun _ h => h
  · obtain ⟨hrecorded, hstarted⟩ := hw _ rfl
    refine Prog.beside_bind (P := fun r w' => w' = w ∧ PlaceOrderRequest.validate
      leg.exchange leg.tradingsymbol .buy leg.quantity ctx.config.productType
      .market tag = r) ⟨rfl, rfl⟩ (fun request w' hvalid => ?_)
      fun _ _ _ => trivial
    obtain ⟨rfl, hvalid⟩ := hvalid
    exact sendClose_beside hvalid _ _ _ ⟨hrecorded, hstarted⟩

/-- One leg: looked up first if it was started before, else placed. -/
private theorem closeLeg_beside (hleg : Prepared ctx seen.db.rows leg) :
    (closeLeg ctx leg).Beside (Ahead foreign) (OnRows RowsKept) seen
      fun _ _ => True := by
  have hstable : ∀ {tag} (w w' : World), OnRows RowsKept w w' →
      Prepared ctx w.db.rows leg ∧ Tagged leg tag w.db.rows →
      Prepared ctx w'.db.rows leg ∧ Tagged leg tag w'.db.rows :=
    fun _ _ hkept h => ⟨h.1.kept hkept, h.2.kept hkept⟩
  have hinspect : (Program.unitOfWork fun _ => inspectLeg leg).Beside
      (Ahead foreign) (OnRows RowsKept) seen fun r w => ∀ attempted tag,
        r = .ok (.ok (attempted, tag)) → Tagged leg tag w.db.rows := by
    refine Program.beside_unitOfWork turnKeeps_ahead
      (fun _ _ _ _ _ _ h => by cases h) fun _ w _ hw => ?_
    have hquiet : Ahead foreign w ∧ OnRows RowsKept w w :=
      ⟨hw, Session.Frame.refl w.db.rows⟩
    unfold inspectLeg PositionRepository.getTradeById
    rw [meets_bind, meets_fetch]
    cases w.db.rows.trades[leg.tradeId]? with
    | none => exact fun _ _ h => by cases h
    | some trade =>
        dsimp only
        rw [meets_ite]
        refine ⟨fun _ => ⟨hquiet, fun _ _ h => by cases h⟩, fun _ => ?_⟩
        unfold OrderIntentRepository.getByIdOrRaise OrderIntentRepository.getById
        rw [meets_bind, meets_bind, meets_fetch, meets_orRaise]
        refine ⟨fun x hx => ⟨hquiet, fun _ _ h => ?_⟩, fun _ _ _ h => by cases h⟩
        cases h
        exact ⟨x, hx, rfl⟩
  refine Prog.beside_bind (hinspect.carry
    (J := fun w => Prepared ctx w.db.rows leg) hleg
    fun w w' (hkept : RowsKept w.db.rows w'.db.rows) h => h.kept hkept)
    (fun inspected w hw => ?_) fun _ _ _ => trivial
  obtain ⟨htagged, hleg'⟩ := hw
  cases inspected with
  | error result => trivial
  | ok inspected =>
      obtain ⟨attempted, tag⟩ := inspected
      have htag := htagged attempted tag rfl
      refine Prog.beside_ite (fun _ => ?_)
        fun _ => placeCloseWithRetries_beside hleg' htag
      refine Prog.beside_bind ((beside_of_stands (takes_adoptExistingOrder RowsStand
        ctx (closesLeg_rowsStand leg).under tag)).carry ⟨hleg', htag⟩ hstable)
        (fun adopted w' hw' => ?_) fun _ _ _ => trivial
      cases adopted with
      | some result => trivial
      | none => exact placeCloseWithRetries_beside hw'.2.1 hw'.2.2

private theorem closeLegs_beside (legs : List ExitLegIds) :
    ∀ seen : World, (∀ leg ∈ legs, Prepared ctx seen.db.rows leg) →
      (closeLegs ctx legs).Beside (Ahead foreign) (OnRows RowsKept) seen
        fun _ _ => True := by
  induction legs with
  | nil => exact fun _ _ => trivial
  | cons leg legs ih =>
      intro seen hlegs
      obtain ⟨hleg, hrest⟩ := List.forall_mem_cons.1 hlegs
      refine Prog.beside_bind ((closeLeg_beside hleg).carry
        (J := fun w => ∀ leg ∈ legs, Prepared ctx w.db.rows leg) hrest
        fun w w' (hkept : RowsKept w.db.rows w'.db.rows) h leg hmem =>
          (h leg hmem).kept hkept)
        (fun _ w hw => ?_) fun _ _ _ => trivial
      exact Prog.beside_bind (ih w hw.2) (fun _ _ _ => trivial)
        fun _ _ _ => trivial

private theorem exit_beside (acquired : Bool) (reason : ExitReason) :
    (exit ctx acquired reason).Beside (Ahead foreign) (OnRows RowsKept) seen
      fun _ _ => True := by
  refine Prog.beside_ite (fun _ => ?_) fun _ => trivial
  refine Prog.beside_bind (beside_enters (P := fun r rows =>
    ∀ prepared, r = .ok prepared →
      ∀ leg ∈ prepared.legs, Prepared ctx rows leg) fun scan db h _ =>
        prepareSession_enters db h reason (actorByReason reason) scan)
    (fun prepared w hw => ?_) fun _ _ _ => trivial
  cases prepared with
  | error result => trivial
  | ok prepared =>
      refine Prog.beside_bind
        (closeLegs_beside prepared.legs w (hw _ rfl prepared rfl))
        (fun results w' _ => ?_) fun _ _ _ => trivial
      exact beside_of_stands
        ((allowsPosition_rowsStand _).ending.conclude ctx rfl reason results)

end ExitLogic

-- ================================================================== runs

namespace Strategy1

private theorem recover_beside (acquired : Bool) :
    (recover ctx acquired).Beside (Ahead foreign) (OnRows RowsKept) seen
      fun _ _ => True := by
  refine Prog.beside_bind (beside_of_stands (Program.along_unitOfWork fun _ =>
    keeps_getByInstanceAndDate _ _)) (fun found w _ => ?_) fun _ _ _ => trivial
  cases found with
  | none => trivial
  | some row =>
      obtain ⟨positionId, position⟩ := row
      dsimp only
      cases position.state with
      | exitPending =>
          refine Prog.beside_bind
            (beside_of_stands (along_inferPendingExitReason _))
            (fun reason _ _ => ?_) fun _ _ _ => trivial
          exact Prog.beside_bind (ExitLogic.exit_beside acquired reason)
            (fun _ _ _ => trivial) fun _ _ _ => trivial
      | entryPending =>
          exact Prog.beside_bind (beside_of_stands
            ((allowsPosition_rowsStand _).ending.markPositionErrorAndFreeze ctx _))
            (fun _ _ _ => trivial) fun _ _ _ => trivial
      | «open» => exact beside_of_stands (along_attach ctx)
      | _ => trivial

end Strategy1

/-- Every writer is right beside the others. -/
private theorem writer_beside {reconciler : Option PositionReconciler}
    (hseam : ∀ s ∈ reconciler, s.Finishes ∧ s.SparesLegs) (writer : Writer)
    (seen : World) :
    (writer.program reconciler).Beside (Ahead foreign) (OnRows RowsKept) seen
      fun _ _ => True := by
  have hdiscard : ∀ {α : Type} {p : Program α},
      p.Beside (Ahead foreign) (OnRows RowsKept) seen (fun _ _ => True) →
      (discard p).Beside (Ahead foreign) (OnRows RowsKept) seen
        fun _ _ => True :=
    fun hp => Prog.beside_bind hp (fun _ _ _ => trivial) fun _ _ _ => trivial
  cases writer with
  | strategy ctx job =>
      cases job with
      | enter inputs => exact hdiscard (EntryLogic.enter_beside inputs)
      | exit acquired reason => exact hdiscard (ExitLogic.exit_beside acquired reason)
      | recover acquired => exact hdiscard (Strategy1.recover_beside acquired)
  | reconcile =>
      exact hdiscard (beside_of_stands
        (ReconciliationEngine.along_rowsStand_reconcile hseam))

/-- The law and what keeps it hold throughout. -/
theorem ahead_run (foreign : String → Prop)
    {reconciler : Option PositionReconciler}
    (hseam : ∀ s ∈ reconciler, s.Finishes ∧ s.SparesLegs) {w : World}
    (hw : Ahead foreign w) (es : List (Pool.Event Writer Move)) :
    Ahead foreign
      (Pool.run (Writer.program reconciler) (Pool.idle w) es).state :=
  (Pool.run_beside (p := Pool.idle w) (R := OnRows RowsKept)
    (fun writer _ s _ => writer_beside hseam writer s)
    (fun _ ht => nomatch ht) hw).1

/-- In every interleaving of the writers, each cut off anywhere, every
call the broker has received is one that a committed intent, marked
started, asks for. -/
theorem orders_written_ahead {reconciler : Option PositionReconciler}
    (hseam : ∀ s ∈ reconciler, s.Finishes ∧ s.SparesLegs) {w : World}
    (hbooked : Booked w.db.rows) (hw : WrittenAhead w)
    (es : List (Pool.Event Writer Move)) :
    WrittenAhead (Pool.run (Writer.program reconciler) (Pool.idle w) es).state :=
  (ahead_run (fun _ => True) hseam
    ⟨hbooked, hw, fun _ _ _ _ => .inl trivial⟩ es).written

namespace SampleDay

/-- The sample seam moves the position by `transition_state` alone. -/
theorem seam_sparesLegs : seam.SparesLegs := by
  have hmove : ∀ id toState, Keeps SameLegs
      (PositionRepository.transitionState id toState .recovery none) :=
    fun id toState => by
      refine keeps_bind (keeps_fetch _) fun row => keeps_bind ?_ fun position =>
        keeps_flush fun _ => ⟨rfl, rfl⟩
      cases row with
      | none => exact keeps_throw _
      | some position => exact keeps_pure _
  exact fun id => ⟨hmove id .open, hmove id .closed⟩

theorem seam_lawful : ∀ s ∈ some seam, s.Finishes ∧ s.SparesLegs := by
  intro s hs
  cases hs
  exact ⟨seam_finishes, seam_sparesLegs⟩

/-- A pass runs beside an entry that is cut off once its first leg is
placed. -/
def placedAndCut : List (Pool.Event Writer Move) :=
  [.start (.strategy SampleDay.ctx (.enter inputs)), .start .reconcile,
    .acts 0 still, .acts 1 still, .acts 0 still, .acts 1 still, .acts 0 still,
    .acts 0 { place := .ack "A1" }, .acts 1 still]

theorem placedAndCut_written_ahead :
    (Pool.run (Writer.program (some seam)) (Pool.idle morning)
        placedAndCut).state.broker.calls.length = 1
      ∧ WrittenAhead (Pool.run (Writer.program (some seam)) (Pool.idle morning)
        placedAndCut).state :=
  ⟨by decide +kernel, orders_written_ahead seam_lawful (booked_of_empty rfl rfl)
    (fun _ hc => absurd hc List.not_mem_nil) _⟩

end SampleDay

end AlgoPlatform
