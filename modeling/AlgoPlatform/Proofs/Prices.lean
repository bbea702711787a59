/-
The price of every fill a trade is held to.

# The law

An OPEN leg was sold at some positive price and a CLOSED one bought back
at one (`Trade.Priced`). The entry and the exit refuse to write a leg
without such a price. The reconciliation does not ask: `_apply_fill`
takes the snapshot's average price, else the order row's, else zero, and
writes what it gets. And nobody asks what the column keeps: a price
below half of its last place passes every check for a positive one and
is stored as zero.

So the law holds in every interleaving of every writer as long as each
fill the reconciliation applies has a price in one of the two places
(`IntentPriced`), and no read of the broker shows a filled order at a
price the columns lose (`ReadsKept`). It fails at the first that has
not.

# The argument

The exit closes a leg at the price of a COMPLETE order its poll ended
with, and the poll read it under the condition. The entry opens one at
the price of the order row, which holds what the columns keep already
(`Rows.Scaled`), so it is lost at no second write. The pass has the
order book it read under the condition. Every other act keeps the law
whatever it finds.
-/
import AlgoPlatform.Basis.Under
import AlgoPlatform.Proofs.Resolution
import AlgoPlatform.Proofs.StateGraph

open Basis Basis.Session

namespace AlgoPlatform

-- ============================================================== the law

/-- An OPEN leg has a positive entry price, a CLOSED one a positive exit
price. -/
def Trade.Priced (t : Trade) : Prop :=
  (t.status = .open → ∃ price, t.entryPrice = some price ∧ 0 < price)
    ∧ (t.status = .closed → ∃ price, t.exitPrice = some price ∧ 0 < price)

instance : DecidablePred Trade.Priced := fun t =>
  decidable_of_iff
    ((t.status = .open → ∃ price ∈ t.entryPrice, 0 < price)
      ∧ (t.status = .closed → ∃ price ∈ t.exitPrice, 0 < price)) Iff.rfl

/-- Every trade has the price its status asks for. -/
def Rows.Priced (r : Rows) : Prop := ∀ t ∈ r.trades, t.Priced

instance : DecidablePred Rows.Priced := fun r =>
  inferInstanceAs (Decidable (∀ t ∈ r.trades, t.Priced))

-- ======================================================== the condition

/-- A price that `or` does not take for a missing one. -/
def UsablePrice (price : Option ℚ) : Prop := ∃ p ∈ price, p ≠ 0

/-- A fill of this purpose leaves a leg of this status held to the price
the fill writes. -/
def heldToPrice : OrderPurpose → TradeLegStatus → Bool
  | .entry, .pending | .entry, .open | .exit, .open | .exit, .closed => true
  | _, _ => false

/-- The fill the pass is about to apply for this intent has a price: in
the broker's one order under its tag, or in the order row. A fill the row
has no room for is not applied. -/
def FillPriced (ordersByTag : List (String × List BrokerOrder))
    (intentId : Nat) (r : Rows) : Prop :=
  ∀ intent bo order trade, r.intents[intentId]? = some intent →
    intent.status.isInDoubt = true →
    ordersUnder ordersByTag intent.brokerTag = [bo] → bo.Filled →
    LandsOn r intentId intent bo order → bo.filledQuantity ≤ order.quantity →
    r.trades[intent.tradeId]? = some trade →
    heldToPrice intent.purpose trade.status = true →
    UsablePrice bo.averagePrice ∨ UsablePrice order.averagePrice

/-- Of an act: if it is `_reconcile_one_intent` and gets to its session,
the fill it is about to apply has a price. -/
def IntentPriced : Prog.Condition Move World := fun f m w =>
  ∀ ordersByTag intentId k,
    ReconciliationEngine.reconcileOneIntent ordersByTag intentId = .act f k →
    m.fault = none → FillPriced ordersByTag intentId (w.interfere m).db.rows

/-- The columns keep something of the price, if the snapshot has one and
it is a filled order's. -/
def BrokerOrder.PriceKept (money : ℚ → ℚ) (bo : BrokerOrder) : Prop :=
  bo.Filled → ∀ p ∈ bo.averagePrice, p ≠ 0 → money p ≠ 0

instance (money : ℚ → ℚ) : DecidablePred (BrokerOrder.PriceKept money) :=
  fun bo => inferInstanceAs
    (Decidable (bo.Filled → ∀ p ∈ bo.averagePrice, p ≠ 0 → money p ≠ 0))

/-- Of an act: if it reads an order or the order book, no answer shows a
filled order at a price the columns lose. -/
def ReadsKept : Prog.Condition Move World := fun f m w =>
  (∀ id k, Program.getOrder id = .act f k → ∀ bo,
      ((w.interfere m).broker.getOrder id m.read).1 = .ok bo →
      bo.PriceKept (w.interfere m).db.rows.money)
    ∧ ∀ k, Program.getOrders = .act f k → ∀ orders,
      (w.interfere m).broker.getOrders m.read = .ok orders →
      ∀ bo ∈ orders, bo.PriceKept (w.interfere m).db.rows.money

/-- What is asked of an act. -/
def FillsPriced : Prog.Condition Move World := fun f m w =>
  IntentPriced f m w ∧ ReadsKept f m w

/-- `or` takes the price if it is usable, else what it falls back on. -/
theorem priceOr_cases (price : Option ℚ) (fallback : ℚ) :
    (∃ p ∈ price, p ≠ 0 ∧ priceOr price fallback = p)
      ∨ ¬ UsablePrice price ∧ priceOr price fallback = fallback := by
  cases price with
  | none => exact .inr ⟨nofun, rfl⟩
  | some p =>
      by_cases hp : p = 0
      · refine .inr ⟨?_, if_pos hp⟩
        rintro ⟨q, hq, hne⟩
        cases hq
        exact hne hp
      · exact .inl ⟨p, rfl, hp, if_neg hp⟩

/-- The columns keep something of the price of a fill that has one: the
snapshot's is kept, and the row's was. -/
theorem money_fillPrice_ne_zero {money : ℚ → ℚ} {bo : BrokerOrder}
    {order : Order} (hfilled : bo.Filled) (hbo : bo.PriceKept money)
    (horder : order.kept money = order)
    (h : UsablePrice bo.averagePrice ∨ UsablePrice order.averagePrice) :
    money (fillPrice bo order) ≠ 0 := by
  unfold fillPrice
  rcases priceOr_cases bo.averagePrice (priceOr order.averagePrice 0)
    with ⟨p, hp, hne, heq⟩ | ⟨hno, heq⟩
  · rw [heq]
    exact hbo hfilled p hp hne
  rcases priceOr_cases order.averagePrice 0 with ⟨p, hp, hne, horeq⟩ | ⟨hno', -⟩
  · have hkept := Order.kept_eq_iff.1 horder
    rw [Option.mem_def.1 hp, Option.map_some, Option.some_inj] at hkept
    rw [heq, horeq, hkept]
    exact hne
  · exact absurd (h.resolve_left hno) hno'

/-- The order row the fill lands on holds what its columns keep. -/
theorem LandsOn.kept {r : Rows} {intentId : Nat} {intent : OrderIntent}
    {bo : BrokerOrder} {order : Order} (hr : r.Scaled)
    (h : LandsOn r intentId intent bo order) : order.kept r.money = order := by
  have hmem : ∀ {i : Nat} {p : Order → Bool}, select p r.orders = [(i, order)] →
      order ∈ r.orders := fun hfound => List.mem_of_getElem?
    (mem_select.1 (hfound ▸ List.mem_singleton.2 rfl)).1
  cases h with
  | byId i order found => exact hr.orders order (hmem found)
  | byTag i order unknown found => exact hr.orders order (hmem found)
  | created unknown untagged => rfl

-- ============================================================ the frames

/-- On these columns: they stay, and the law is kept. -/
def KeepsPrices (c : MoneyColumns) (r r' : Rows) : Prop :=
  r.columns = c → r'.columns = c ∧ (r.Priced → r'.Priced)

variable {c : MoneyColumns}

theorem keepsPrices_of_eq {r r' : Rows} (hcolumns : r'.columns = r.columns)
    (h : r'.trades = r.trades) : KeepsPrices c r r' := by
  refine fun hc => ⟨hcolumns.trans hc, fun hr t ht => ?_⟩
  rw [h] at ht
  exact hr t ht

instance : BlindToOrders (KeepsPrices c) where
  refl := fun _ hc => ⟨hc, id⟩
  trans := fun h h' hc => ⟨(h' (h hc).1).1, (h' (h hc).1).2 ∘ (h hc).2⟩
  orders := fun _ _ => keepsPrices_of_eq rfl rfl
  breaks := fun _ _ => keepsPrices_of_eq rfl rfl

theorem keepsPrices_setTrade {r : Rows} {i : Nat} {f : Trade → Trade}
    (h : r.columns = c →
      ∀ t, r.trades[i]? = some t → t.Priced → (f t).Priced) :
    KeepsPrices c r (r.setTrade i f) := fun hc =>
  ⟨hc, fun hr =>
    forall_modify hr fun t ht => h hc t ht (hr t (List.mem_of_getElem? ht))⟩

theorem allowsVerdict_prices (id : Nat) : AllowsVerdict (KeepsPrices c) id where
  breaks := fun _ _ => keepsPrices_of_eq rfl rfl
  position := fun _ _ => keepsPrices_of_eq rfl rfl
  transition := fun _ _ => keepsPrices_of_eq rfl rfl
  inst := fun _ _ _ => keepsPrices_of_eq rfl rfl

theorem writesStatus_prices (i : Nat) (status : IntentStatus) :
    WritesStatus (KeepsPrices c) i status :=
  fun _ => keepsPrices_of_eq rfl rfl

theorem allowsRecord_prices : AllowsRecord (KeepsPrices c) where
  intents := fun _ _ => keepsPrices_of_eq rfl rfl
  trades := by
    refine fun r t ht hc => ⟨hc, fun hr t' ht' => ?_⟩
    rcases List.mem_append.1 ht' with ht' | ht'
    · exact hr t' ht'
    · rw [List.mem_singleton.1 ht']
      exact ⟨fun h => (nomatch ht.symm.trans h), fun h => (nomatch ht.symm.trans h)⟩

theorem allowsPosition_prices (id : Nat) :
    AllowsPosition (KeepsPrices c) id where
  inst := fun _ _ _ => keepsPrices_of_eq rfl rfl
  position := fun _ _ _ => keepsPrices_of_eq rfl rfl
  transition := by
    intro toState actor reason
    refine keeps_bind (keeps_fetch _) fun row => keeps_bind (keeps_orRaise _ _)
      fun position => keeps_ite (keeps_pure _) (keeps_ite ?_ (keeps_throw _))
    exact ReconciliationEngine.keeps_transitionState (allowsVerdict_prices id)
      _ _ _

theorem allowsEntry_prices (ctx : StrategyContext) :
    AllowsEntry (KeepsPrices c) ctx := by
  intro selection
  refine keeps_getOrCreate (keeps_getByInstanceAndDate _ _) ?_
  refine keeps_bind (keeps_fetch _) fun _ => ?_
  exact keeps_bind (keeps_flush fun _ => keepsPrices_of_eq rfl rfl) fun _ =>
    keeps_pure _

-- ==================================================== the priced commits

/-- What the columns keep of a positive price is positive, unless they
lose it. -/
theorem MoneyColumns.keep_pos {p : ℚ} (hp : 0 < p) (hne : c.keep p ≠ 0) :
    0 < c.keep p :=
  lt_of_le_of_ne (MoneyColumns.keep_nonneg hp.le) (Ne.symm hne)

theorem keepsPrices_closeTrade {leg : ExitLegIds} {price : ℚ}
    (hprice : 0 < c.keep price) :
    Keeps (KeepsPrices c) (ExitLogic.closeTrade leg price) := by
  refine keeps_bind (keeps_fetch _) fun row => ?_
  cases row with
  | none => exact keeps_throw _
  | some trade =>
      refine keeps_bind (keeps_flush fun r => keepsPrices_setTrade
        fun hc t _ _ => ?_) fun _ => keeps_resolveIntent (writesStatus_prices _ _)
      refine ⟨fun h => (nomatch h), fun _ => ⟨_, rfl, ?_⟩⟩
      rw [Rows.money, hc]
      exact hprice

theorem keepsPrices_openPosition {durable : DurableRecord}
    {thresholds : PremiumThresholds} {cePrice pePrice : ℚ}
    (hce : 0 < c.keep cePrice) (hpe : 0 < c.keep pePrice) :
    Keeps (KeepsPrices c)
      (EntryLogic.openPosition durable thresholds cePrice pePrice) := by
  have hfill : ∀ {leg : LegIds} {price : ℚ}, 0 < c.keep price →
      FillsLeg (KeepsPrices c) leg price := by
    refine fun hprice r => keepsPrices_setTrade fun hc t _ _ =>
      ⟨fun _ => ⟨_, rfl, ?_⟩, fun h => (nomatch h)⟩
    rw [Rows.money, hc]
    exact hprice
  exact EntryLogic.keeps_openPosition (hfill hce) (hfill hpe)
    (fun _ _ _ _ => keepsPrices_of_eq rfl rfl)
    ((allowsPosition_prices _).transition _ _) fun i => writesStatus_prices i _

/-- An entry settles on a price the row has, and the row holds what the
columns keep. -/
theorem settle_meets {ctx : StrategyContext} {leg : LegIds} {orderId : Nat}
    {brokerOrderId : String} {db : Db} :
    Meets (EntryLogic.settle ctx leg orderId brokerOrderId) db
      (fun r _ => ∀ price, r.fillPrice = some price →
        db.rows.money price = price) fun _ => True := by
  unfold EntryLogic.settle OrderRepository.getByIdOrRaise
    OrderRepository.getById
  rw [meets_bind, meets_bind, meets_fetch, meets_orRaise]
  refine ⟨fun order horder => ?_, fun _ => trivial⟩
  rw [meets_ite]
  refine ⟨fun _ => ?_, fun _ => ?_⟩
  · have hscaled := db.admitted.scaled.orders order
      (List.mem_of_getElem? horder)
    have hkept := Order.kept_eq_iff.1 hscaled
    cases hprice : order.averagePrice with
    | none => trivial
    | some price =>
        dsimp only
        rw [meets_ite]
        refine ⟨fun _ => trivial, fun _ price' hprice' => ?_⟩
        cases hprice'
        rw [hprice] at hkept
        exact Option.some_inj.1 hkept
  · have hno : Yields (fun r : LegResult => r.fillPrice = none) (do
        let _ ← OrderIntentRepository.getByIdOrRaise leg.intentId
        OrderIntentRepository.markFailed leg.intentId
        pure { outcome := .failed,
               reason := "terminal " ++ order.status.value ++ " after ack" } :
          Session LegResult) :=
      yields_bind fun _ => yields_bind fun _ => yields_pure rfl
    refine (hno db).imp (fun r _ hr price hprice => ?_) fun _ h => h
    rw [hr] at hprice
    cases hprice

-- ==================================================== one intent's session

namespace ReconciliationEngine

variable {db : Db} {intentId : Nat} {intent : OrderIntent} {bo : BrokerOrder}

/-- A fill leaves a priced leg priced, if it has a price where the leg is
held to one. -/
theorem fillTrade_priced {purpose : OrderPurpose} {price : ℚ} {t : Trade}
    (ht : t.Priced)
    (hprice : heldToPrice purpose t.status = true → 0 < price) :
    (fillTrade purpose price t).Priced := by
  obtain ⟨hopen, hclosed⟩ := ht
  cases purpose with
  | entry =>
      unfold fillTrade
      constructor
      · intro hstatus
        refine ⟨price, rfl, hprice ?_⟩
        cases hs : t.status <;> simp_all [heldToPrice]
      · intro hstatus
        refine hclosed ?_
        cases hs : t.status <;> simp_all
  | exit =>
      unfold fillTrade
      constructor
      · intro hstatus
        refine hopen ?_
        cases hs : t.status <;> simp_all
      · intro hstatus
        refine ⟨price, rfl, hprice ?_⟩
        cases hs : t.status <;> simp_all [heldToPrice]

/-- Whatever settling an intent leaves keeps the law where the fill has a
price and the columns keep it. -/
theorem resolution_priced {r r' : Rows} (hr : r.Scaled)
    (h : Resolution intentId intent bo r r') (hbo : bo.PriceKept r.money)
    (hpriced : ∀ order trade, bo.Filled → LandsOn r intentId intent bo order →
      bo.filledQuantity ≤ order.quantity →
      r.trades[intent.tradeId]? = some trade →
      heldToPrice intent.purpose trade.status = true →
      UsablePrice bo.averagePrice ∨ UsablePrice order.averagePrice) :
    KeepsPrices c r r' := by
  cases h with
  | @filled order os bs filled lands room nonneg orders breaks _ =>
      refine fun hc => ⟨hc, fun hr' => forall_modify hr' fun trade htrade => ?_⟩
      refine fillTrade_priced (hr' trade (List.mem_of_getElem? htrade))
        fun hheld => ?_
      have husable := hpriced order trade filled lands room htrade hheld
      exact lt_of_le_of_ne (nonneg trade htrade) (Ne.symm
        (money_fillPrice_ne_zero filled hbo (lands.kept hr) husable))
  | dead terminal unfilled orders => exact keepsPrices_of_eq rfl rfl
  | inFlight live orders acked same => exact keepsPrices_of_eq rfl rfl

private theorem keeps_prices_errorPositionOfIntent (intent : OrderIntent)
    (reason : String) :
    Keeps (KeepsPrices c) (errorPositionOfIntent intent reason) := by
  refine keeps_bind (keeps_fetch _) fun trade => ?_
  cases trade with
  | none => exact keeps_pure _
  | some trade =>
      refine keeps_bind (keeps_fetch _) fun position => ?_
      cases position with
      | none => exact keeps_pure _
      | some position =>
          exact keeps_ite (keeps_pure _)
            (keeps_errorByRecovery (allowsVerdict_prices _) _ _)

/-- Settling an intent keeps the law where the condition holds. -/
theorem intentSession_meets {ordersByTag : List (String × List BrokerOrder)}
    (hkept : ∀ tag, ∀ bo ∈ ordersUnder ordersByTag tag,
      bo.PriceKept db.rows.money)
    (hpriced : FillPriced ordersByTag intentId db.rows) :
    Meets (intentSession intentId ordersByTag) db
      (fun _ db' => KeepsPrices c db.rows db'.rows) fun _ => True := by
  have hsame : KeepsPrices c db.rows db.rows := Session.Frame.refl _
  unfold intentSession OrderIntentRepository.getById
  rw [meets_bind, meets_fetch]
  cases hintent : db.rows.intents[intentId]? with
  | none => exact hsame
  | some intent =>
      dsimp only
      rw [meets_ite]
      refine ⟨fun hdoubt => ?_, fun _ => hsame⟩
      rcases horders : ordersUnder ordersByTag intent.brokerTag
        with _ | ⟨bo, _ | ⟨bo', rest⟩⟩
      · exact keeps_bind (keeps_markStatus (writesStatus_prices _ _))
          (fun _ => keeps_pure _) db
      · refine resolveIntentAgainstOrder_resolution.imp (fun _ db' h => ?_)
          fun _ h => h
        exact resolution_priced db.admitted.scaled h
          (hkept intent.brokerTag bo (horders ▸ List.mem_singleton.2 rfl))
          fun order trade => hpriced intent bo order trade hintent hdoubt horders
      · exact keeps_bind (keeps_recordBreak (allowsVerdict_prices 0).breaks)
          (fun _ => keeps_bind (keeps_prices_errorPositionOfIntent _ _)
            fun _ => keeps_pure _) db

/-- The orders under a tag are the order book's. -/
theorem mem_ordersUnder {orders : List BrokerOrder} {tag : String}
    (h : bo ∈ ordersUnder (groupOrdersByTag orders) tag) : bo ∈ orders := by
  unfold ordersUnder at h
  cases hlookup : (groupOrdersByTag orders).lookup tag with
  | none =>
      rw [hlookup] at h
      cases h
  | some under =>
      rw [hlookup] at h
      obtain ⟨before, after, hsplit, -⟩ := List.lookup_eq_some_iff.1 hlookup
      have hmem : (tag, under) ∈ groupOrdersByTag orders := by
        rw [hsplit]
        exact List.mem_append_right _ (List.mem_cons_self ..)
      obtain ⟨tag', -, heq⟩ := List.mem_map.1 hmem
      cases heq
      exact List.mem_of_mem_filter h

end ReconciliationEngine

-- ================================================================= runs

/-- What finishing a position leaves of its legs: the seam computes the
position's figures from the recorded fills. -/
def SameFills (r r' : Rows) : Prop :=
  r'.columns = r.columns
    ∧ r'.trades.map (fun t => (t.status, t.entryPrice, t.exitPrice))
      = r.trades.map fun t => (t.status, t.entryPrice, t.exitPrice)

/-- The seam reads the recorded fills and writes none. -/
def PositionReconciler.SparesFills (s : PositionReconciler) : Prop :=
  ∀ id, Keeps SameFills (s.finalizeEntry id)
    ∧ Keeps SameFills (s.finalizeExit id)

theorem SameFills.keepsPrices {r r' : Rows} (h : SameFills r r') :
    KeepsPrices c r r' := by
  obtain ⟨hcolumns, hfills⟩ := h
  refine fun hc => ⟨hcolumns.trans hc, fun hr t' ht' => ?_⟩
  have hmem := List.mem_map_of_mem
    (f := fun t : Trade => (t.status, t.entryPrice, t.exitPrice)) ht'
  rw [hfills] at hmem
  obtain ⟨t, ht, heq⟩ := List.mem_map.1 hmem
  simp only [Prod.mk.injEq] at heq
  obtain ⟨hstatus, hentry, hexit⟩ := heq
  have hpriced := hr t ht
  unfold Trade.Priced at hpriced ⊢
  rw [← hstatus, ← hentry, ← hexit]
  exact hpriced

/-- The law holds of the stored rows, and these are their columns. -/
def PricedOn (c : MoneyColumns) (w : World) : Prop :=
  w.db.rows.columns = c ∧ w.db.rows.Priced

theorem PricedOn.of_keepsPrices {w w' : World} (hw : PricedOn c w)
    (h : KeepsPrices c w.db.rows w'.db.rows) : PricedOn c w' :=
  ⟨(h hw.1).1, (h hw.1).2 hw.2⟩

/-- An act that meets the condition and finds the law. -/
abbrev Priced (c : MoneyColumns) : Prog.Condition Move World :=
  Prog.Given FillsPriced (PricedOn c)

instance : BearsPlacing (KeepsPrices c) (Priced c) (Prog.Leaves (PricedOn c)) where
  waits := fun hgiven hwaits => hgiven.2.of_keepsPrices hwaits.rows
  places := fun request => Prog.Takes.mono
    (Program.along_placeOrder (R := KeepsPrices c) request)
    (fun _ _ _ _ => trivial) fun _ _ _ hgiven hrows =>
      hgiven.2.of_keepsPrices hrows

/-- The columns an act that finds the law reads on. -/
theorem Priced.columns {β : Type} {f : Move → World → β × World} {m : Move}
    {w : World} (h : Priced c f m w) : (w.interfere m).db.rows.columns = c :=
  (h.2.of_keepsPrices
    (waits_interfere (R := KeepsPrices c) w m).rows).1

/-- A poll is shown no filled order at a price the columns lose. -/
theorem returns_getOrder (id : String) :
    (Program.getOrder id).Returns (Priced c) (BrokerOrder.PriceKept c.keep) := by
  refine Prog.returns_atomic fun m w hgiven bo hbo => ?_
  have hkept := hgiven.1.2.1 id _ rfl bo hbo
  rwa [Rows.money, Priced.columns hgiven] at hkept

/-- Nor is a pass. -/
theorem returns_getOrders :
    Program.getOrders.Returns (Priced c)
      fun orders => ∀ bo ∈ orders, bo.PriceKept c.keep := by
  refine Prog.returns_atomic fun m w hgiven orders horders => ?_
  have hkept := hgiven.1.2.2 _ rfl orders horders
  rwa [Rows.money, Priced.columns hgiven] at hkept

/-- What a program can rely on under the condition. -/
def pricedSight (c : MoneyColumns) : Sight (Priced c) where
  polled := BrokerOrder.PriceKept c.keep
  settled := fun price => c.keep price = price
  ofPoll := fun id => Program.returns_pollUntilTerminal (returns_getOrder id)
  ofSettle := by
    refine fun ctx leg orderId brokerOrderId =>
      Program.returns_unitOfWork fun f m w hgiven => ?_
    have hmeets : Meets (EntryLogic.settle ctx leg orderId brokerOrderId)
        (w.interfere m).db _ _ := settle_meets
    rwa [Rows.money, Priced.columns hgiven] at hmeets

/-- The two commits that price a trade do so at what they were shown. -/
theorem bearsCycles_prices :
    BearsCycles (KeepsPrices c) (pricedSight c) (Prog.Leaves (PricedOn c)) :=
  { allowsRecord_prices with
    straddle := fun id =>
      { (allowsPosition_prices id).ending with
        intents := allowsRecord_prices.intents
        intent := fun i => ⟨fun status => writesStatus_prices i status,
          fun _ => keepsPrices_of_eq rfl rfl⟩
        unpriced := fun _ _ _ _ hf => keepsPrices_setTrade fun _ t _ _ =>
          ⟨fun h => absurd h (hf t).2.1, fun h => absurd h (hf t).2.2⟩
        opens := fun _ _ _ _ _ _ _ hce hceKept hpe hpeKept =>
          takes_waits (R := KeepsPrices c) (Program.along_unitOfWork fun _ =>
            keepsPrices_openPosition (hceKept.symm ▸ hce)
              (hpeKept.symm ▸ hpe))
        closes := fun _ _ _ price hpolled hcomplete haverage hprice =>
          takes_waits (R := KeepsPrices c) (Program.along_unitOfWork fun _ =>
            keepsPrices_closeTrade (MoneyColumns.keep_pos hprice
              (hpolled (.inl hcomplete) price haverage hprice.ne'))) } }

/-- The one act that is held to a price in one of the two places. -/
theorem upholds_reconcileOneIntent {ordersByTag : List (String × List BrokerOrder)}
    (hkept : ∀ tag, ∀ bo ∈ ordersUnder ordersByTag tag, bo.PriceKept c.keep)
    (intentId : Nat) :
    (ReconciliationEngine.reconcileOneIntent ordersByTag intentId).Upholds
      FillsPriced (PricedOn c) := by
  refine Prog.takes_atomic fun m w hgiven => ?_
  have hturn := hgiven.2.of_keepsPrices
    (waits_interfere (R := KeepsPrices c) w m).rows
  unfold Prog.Leaves
  dsimp only
  cases hfault : m.fault with
  | some fault => exact hturn
  | none =>
      have hmeets : Meets (ReconciliationEngine.intentSession intentId
          ordersByTag) (w.interfere m).db _ _ :=
        ReconciliationEngine.intentSession_meets (c := c)
          (by rwa [Rows.money, Priced.columns hgiven])
          (hgiven.1.1 ordersByTag intentId _ rfl hfault)
      unfold Meets at hmeets
      dsimp only
      cases hrun : ReconciliationEngine.intentSession intentId ordersByTag
          (w.interfere m).db with
      | error e => exact hturn
      | ok x =>
          rw [hrun] at hmeets
          have hkept : KeepsPrices c (w.interfere m).db.rows x.2.rows := hmeets
          exact hturn.of_keepsPrices hkept

theorem upholds_each {f : Nat → Program ReconciliationItem}
    (hf : ∀ id, (f id).Upholds FillsPriced (PricedOn c)) (ids : List Nat) :
    (ReconciliationEngine.each f ids).Upholds FillsPriced (PricedOn c) := by
  induction ids with
  | nil => exact Prog.takes_pure _
  | cons id ids ih =>
      exact Prog.takes_bind (hf id) fun _ =>
        Prog.takes_bind ih fun _ => Prog.takes_pure _

theorem upholds_reconcile {reconciler : Option PositionReconciler}
    (hspares : ∀ s ∈ reconciler, s.SparesFills) :
    (ReconciliationEngine.reconcile reconciler).Upholds FillsPriced
      (PricedOn c) := by
  have hread : ∀ {α : Type} (f : Move → Broker → Except Exc α),
      (Program.tryBroker (Program.reads f)).Upholds FillsPriced (PricedOn c) :=
    fun f => takes_waits (R := KeepsPrices c)
      (Program.along_tryBroker (Program.along_reads f))
  have hwork : ∀ {α : Type} {body : List Nat → Session α},
      (∀ scan, Keeps (KeepsPrices c) (body scan)) →
      (Program.unitOfWork body).Upholds FillsPriced (PricedOn c) :=
    fun hbody => takes_waits (R := KeepsPrices c)
      (Program.along_unitOfWork hbody)
  refine Prog.takes_bind_returns (hread _)
    (Program.returns_tryBroker returns_getOrders) fun orders horders => ?_
  cases orders with
  | error e => exact Prog.takes_pure _
  | ok orders =>
      refine Prog.takes_bind (hread _) fun positions => ?_
      refine Prog.takes_bind (hwork fun _ => keeps_fetch _) fun ids => ?_
      refine Prog.takes_bind (upholds_each (fun id =>
        upholds_reconcileOneIntent (fun tag bo hbo => horders orders rfl bo
          (ReconciliationEngine.mem_ordersUnder hbo)) id) ids) fun _ => ?_
      refine Prog.takes_bind (hwork fun _ =>
        ReconciliationEngine.keeps_orphanSession (allowsVerdict_prices 0).breaks
          _) fun _ => ?_
      refine Prog.takes_bind (hwork fun _ =>
        keeps_bind (keeps_fetch _) fun _ => keeps_fetch _) fun ids => ?_
      refine Prog.takes_bind (upholds_each (fun id => hwork fun scan => ?_) ids)
        fun _ => Prog.takes_pure _
      refine ReconciliationEngine.keeps_positionSession
        (allowsVerdict_prices id) (fun s hs => ?_) _ scan
      obtain ⟨hentry, hexit⟩ := hspares s hs id
      exact ⟨fun db => (hentry db).imp (fun _ _ h => h.keepsPrices) fun _ h => h,
        fun db => (hexit db).imp (fun _ _ h => h.keepsPrices) fun _ h => h⟩

theorem upholds_writer {reconciler : Option PositionReconciler}
    (hspares : ∀ s ∈ reconciler, s.SparesFills) (writer : Writer) :
    (writer.program reconciler).Upholds FillsPriced (PricedOn c) := by
  cases writer with
  | strategy ctx job =>
      exact bearsCycles_prices.job ctx (allowsEntry_prices ctx) job
  | reconcile => exact Prog.takes_discard (upholds_reconcile hspares)

/-- In every interleaving of the writers and of the push stream, each
cut off anywhere, in which every fill the reconciliation applies has a
price and no read shows one the columns lose, no trade is ever stored
without the price its status asks for. -/
theorem trades_stay_priced {reconciler : Option PositionReconciler}
    (hspares : ∀ s ∈ reconciler, s.SparesFills) {w : World}
    (hw : w.db.rows.Priced) {es : List (Pool.Event Writer Move)}
    (hfills : Pool.Under FillsPriced (Writer.program reconciler)
      (Pool.idle w) es) :
    (Pool.run (Writer.program reconciler) (Pool.idle w) es).state.db.rows.Priced :=
  (Pool.run_upholds (I := PricedOn w.db.rows.columns) (p := Pool.idle w)
    (upholds_writer hspares) (fun _ ht => by cases ht) ⟨rfl, hw⟩ hfills).2

-- ========================================================= a missing price

/-- Whatever prices the broker reports, no run stores a trade without the
price its status asks for. -/
def PricesAlwaysKept (reconciler : Option PositionReconciler) : Prop :=
  ∀ w : World, w.db.rows.Priced → ∀ es : List (Pool.Event Writer Move),
    (Pool.run (Writer.program reconciler) (Pool.idle w) es).state.db.rows.Priced

/-- Every intent in doubt has its order row, and every order row a
price. -/
def OrdersPriced (r : Rows) : Prop :=
  (∀ intent ∈ r.intents, intent.status.isInDoubt = true →
      ∃ o ∈ r.orders, o.brokerTag = some intent.brokerTag)
    ∧ ∀ o ∈ r.orders, ∃ p ∈ o.averagePrice, p ≠ 0

instance : DecidablePred OrdersPriced := fun _ =>
  inferInstanceAs (Decidable (_ ∧ _))

/-- Whatever the broker reports, the fill finds a price in its row. -/
theorem OrdersPriced.fillPriced {r : Rows} (h : OrdersPriced r)
    (ordersByTag : List (String × List BrokerOrder)) (intentId : Nat) :
    FillPriced ordersByTag intentId r := by
  intro intent bo order trade hintent hdoubt _ _ hlands _ _ _
  have hmem : ∀ {i : Nat} {p : Order → Bool}, select p r.orders = [(i, order)] →
      order ∈ r.orders := fun hfound => List.mem_of_getElem?
    (mem_select.1 (hfound ▸ List.mem_singleton.2 rfl)).1
  right
  cases hlands with
  | byId i order found => exact h.2 order (hmem found)
  | byTag i order unknown found => exact h.2 order (hmem found)
  | created unknown untagged =>
      obtain ⟨o, ho, htag⟩ := h.1 intent (List.mem_of_getElem? hintent) hdoubt
      have hno := select_eq_nil.1 untagged o ho
      simp [htag] at hno

/-- The columns keep something of the price of every snapshot the broker
has produced. -/
def LogKept (w : World) : Prop :=
  ∀ bo ∈ w.broker.log, bo.PriceKept w.db.rows.money

instance : DecidablePred LogKept := fun w =>
  inferInstanceAs
    (Decidable (∀ bo ∈ w.broker.log, bo.PriceKept w.db.rows.money))

/-- Then so do they of whatever it shows. -/
theorem LogKept.readsKept {β : Type} {f : Move → World → β × World} {m : Move}
    {w : World} (h : LogKept (w.interfere m)) : ReadsKept f m w := by
  constructor
  · exact fun id _ _ bo hbo => h bo (Broker.getOrder_mem hbo)
  · intro _ _ orders horders bo hbo
    refine h bo ?_
    unfold Broker.getOrders at horders
    cases hread : m.read with
    | some e =>
        rw [hread] at horders
        cases horders
    | none =>
        rw [hread] at horders
        cases horders
        obtain ⟨id, -, hcurrent⟩ := List.mem_filterMap.1 hbo
        exact Broker.current_mem hcurrent

/-- Then any act meets the condition. -/
theorem OrdersPriced.underStep {p : Pool Move World Exc} {m : Move}
    (h : OrdersPriced (p.state.interfere m).db.rows)
    (hlog : LogKept (p.state.interfere m)) (i : Nat) :
    p.UnderStep FillsPriced (.acts i m : Pool.Event Writer Move) := by
  intro t _
  unfold Prog.NextMeets
  cases t.prog with
  | done r => trivial
  | act f k =>
      exact ⟨fun ordersByTag intentId _ _ _ => h.fillPriced _ _, hlog.readsKept⟩

namespace SampleDay

/-- An entry cut off after its first leg is acknowledged, and a pass that
finds that leg COMPLETE without an average price. -/
def unpriced : List (Pool.Event Writer Move) :=
  [.start (.strategy ctx (.enter inputs)), .acts 0 still, .acts 0 still,
    .acts 0 still, .acts 0 { place := .ack "A1" }, .acts 0 still,
    .start .reconcile,
    .acts 1 { events := [.works (snapshot "A1" "E0-240704-CE" .sell .ce
      .complete lot none)] },
    .acts 1 still, .acts 1 still, .acts 1 still]

/-- The call leg is stored OPEN at an entry price of zero. -/
theorem unpriced_opens_at_zero : ¬ PricesAlwaysKept none := by
  intro hclaim
  exact absurd (hclaim morning (by decide) unpriced) (by decide +kernel)

instance : BlindToPushes SameFills where
  refl := fun _ => ⟨rfl, rfl⟩
  trans := fun h h' => ⟨h'.1.trans h.1, h'.2.trans h.2⟩
  orders := fun _ _ => ⟨rfl, rfl⟩

theorem seam_sparesFills : seam.SparesFills := by
  have hverdict : ∀ id, AllowsVerdict SameFills id := fun _ =>
    ⟨fun _ _ => ⟨rfl, rfl⟩, fun _ _ => ⟨rfl, rfl⟩, fun _ _ => ⟨rfl, rfl⟩,
      fun _ _ _ => ⟨rfl, rfl⟩⟩
  exact fun id => ⟨ReconciliationEngine.keeps_transitionState (hverdict id) _ _ _,
    ReconciliationEngine.keeps_transitionState (hverdict id) _ _ _⟩

/-- The stream pushes a part of the second leg, and the pass finds the
whole of it without an average price. -/
def partlyPushed : List (Pool.Event Writer Move) :=
  [.start .reconcile,
    .acts 0 { events := [.works (snapshot "A2" "E0-240704-PE" .sell .pe .open
        third (some 80)), .pushes 0,
      .works (snapshot "A2" "E0-240704-PE" .sell .pe .complete lot none)] },
    .acts 0 still, .acts 0 still, .acts 0 still, .acts 0 still]

/-- The order row has the price the snapshot has not. -/
theorem trades_stay_priced_partlyPushed :
    (Pool.run (Writer.program (some seam)) (Pool.idle bothAcked)
      partlyPushed).state.db.rows.Priced :=
  trades_stay_priced (fun s hs => by cases hs; exact seam_sparesFills)
    (by decide +kernel)
    ⟨trivial, OrdersPriced.underStep (by decide +kernel) (by decide +kernel) 0,
      OrdersPriced.underStep (by decide +kernel) (by decide +kernel) 0,
      OrdersPriced.underStep (by decide +kernel) (by decide +kernel) 0,
      OrdersPriced.underStep (by decide +kernel) (by decide +kernel) 0,
      OrdersPriced.underStep (by decide +kernel) (by decide +kernel) 0, trivial⟩

end SampleDay

end AlgoPlatform
