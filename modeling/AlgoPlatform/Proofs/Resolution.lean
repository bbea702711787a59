/-
What settling one intent writes.

`_resolve_intent_against_order` finds or creates the order row of the
intent's one broker order, and then does one of three things:
it applies the fill, it fails the intent, or it leaves the order in
flight. `Resolution` says exactly which rows each of the three leaves,
so what a pass does to any table is read off here without walking the
session again.
-/
import AlgoPlatform.Proofs.Reconcile

open Basis Basis.Session

namespace AlgoPlatform

-- ========================================================= the order row

/-- The pass applies a fill for this order. -/
def BrokerOrder.Filled (bo : BrokerOrder) : Prop :=
  bo.status = .complete ∨ bo.status.isTerminal = true ∧ 0 < bo.filledQuantity

instance : DecidablePred BrokerOrder.Filled := fun _ =>
  inferInstanceAs (Decidable (_ ∨ _))

/-- The order row a broker order belongs to: found by id, else by tag,
else the one created for the intent. -/
inductive LandsOn (r : Rows) (intentId : Nat) (intent : OrderIntent)
    (bo : BrokerOrder) : Order → Prop
  | byId (i : Nat) (order : Order)
      (found : select (fun o => o.brokerOrderId = some bo.brokerOrderId)
        r.orders = [(i, order)]) : LandsOn r intentId intent bo order
  | byTag (i : Nat) (order : Order)
      (unknown : select (fun o => o.brokerOrderId = some bo.brokerOrderId)
        r.orders = [])
      (found : select (fun o => o.brokerTag = some intent.brokerTag)
        r.orders = [(i, order)]) : LandsOn r intentId intent bo order
  | created
      (unknown : select (fun o => o.brokerOrderId = some bo.brokerOrderId)
        r.orders = [])
      (untagged : select (fun o => o.brokerTag = some intent.brokerTag)
        r.orders = []) :
      LandsOn r intentId intent bo
        { tradeId := intent.tradeId, intentId := some intentId,
          purpose := intent.purpose, transactionType := intent.transactionType,
          orderType := .market, quantity := intent.quantity,
          brokerTag := some intent.brokerTag }

/-- What an update leaves of an order row: its tag, and its broker id
once it has one. -/
structure Order.Keeps (o o' : Order) : Prop where
  tag : o'.brokerTag = o.brokerTag
  id : ∀ x, o.brokerOrderId = some x → o'.brokerOrderId = some x

theorem Order.Keeps.refl (o : Order) : o.Keeps o := ⟨rfl, fun _ h => h⟩

theorem Order.Keeps.trans {a b c : Order} (hab : a.Keeps b) (hbc : b.Keeps c) :
    a.Keeps c :=
  ⟨hbc.tag.trans hab.tag, fun x hx => hbc.id x (hab.id x hx)⟩

/-- Rows are updated in place, and what is new carries the tag. -/
structure OrdersKept (tag : String) (os os' : List Order) : Prop where
  kept : ∀ o ∈ os, ∃ o' ∈ os', o.Keeps o'
  fresh : ∀ o' ∈ os', (∃ o ∈ os, o.Keeps o') ∨ o'.brokerTag = some tag

theorem OrdersKept.refl (tag : String) (os : List Order) :
    OrdersKept tag os os :=
  ⟨fun o ho => ⟨o, ho, .refl o⟩, fun o ho => .inl ⟨o, ho, .refl o⟩⟩

theorem OrdersKept.trans {tag : String} {os os' os'' : List Order}
    (h : OrdersKept tag os os') (h' : OrdersKept tag os' os'') :
    OrdersKept tag os os'' where
  kept := by
    intro o ho
    obtain ⟨o', ho', hold⟩ := h.kept o ho
    obtain ⟨o'', ho'', hold'⟩ := h'.kept o' ho'
    exact ⟨o'', ho'', hold.trans hold'⟩
  fresh := by
    intro o'' ho''
    rcases h'.fresh o'' ho'' with ⟨o', ho', hold'⟩ | htag
    · rcases h.fresh o' ho' with ⟨o, ho, hold⟩ | htag
      · exact .inl ⟨o, ho, hold.trans hold'⟩
      · exact .inr (hold'.tag.trans htag)
    · exact .inr htag

theorem ordersKept_modify {tag : String} {os : List Order} {i : Nat}
    {f : Order → Order} (hf : ∀ o, os[i]? = some o → o.Keeps (f o)) :
    OrdersKept tag os (os.modify i f) where
  kept := by
    intro o ho
    obtain ⟨j, hj⟩ := List.getElem?_of_mem ho
    refine ⟨if i = j then f o else o, ?_, ?_⟩
    · refine List.mem_of_getElem? (i := j) ?_
      rw [List.getElem?_modify, hj]
      rfl
    · split_ifs with hij
      · exact hf o (hij ▸ hj)
      · exact .refl o
  fresh := by
    intro o' ho'
    obtain ⟨j, hj⟩ := List.getElem?_of_mem ho'
    rw [List.getElem?_modify] at hj
    obtain ⟨o, ho, rfl⟩ := Option.map_eq_some_iff.1 hj
    refine .inl ⟨o, List.mem_of_getElem? ho, ?_⟩
    split_ifs with hij
    · exact hf o (hij ▸ ho)
    · exact .refl o

theorem ordersKept_append {tag : String} {os : List Order} {o : Order}
    (ho : o.brokerTag = some tag) : OrdersKept tag os (os ++ [o]) where
  kept := fun o' ho' => ⟨o', List.mem_append_left _ ho', .refl o'⟩
  fresh := by
    intro o' ho'
    rcases List.mem_append.1 ho' with ho' | ho'
    · exact .inl ⟨o', ho', .refl o'⟩
    · rw [List.mem_singleton.1 ho']
      exact .inr ho

/-- The broker's order has its row: one under its id, or else every row
under its tag belongs to some order. -/
def Acked (os : List Order) (id tag : String) : Prop :=
  (∃ o ∈ os, o.brokerOrderId = some id)
    ∨ (∃ o ∈ os, o.brokerTag = some tag)
      ∧ ∀ o ∈ os, o.brokerTag = some tag → o.brokerOrderId ≠ none

/-- What is settled under another tag leaves an order its row. -/
theorem OrdersKept.acked {tag tag' id : String} {os os' : List Order}
    (h : OrdersKept tag os os') (hne : tag' ≠ tag) (hacked : Acked os id tag') :
    Acked os' id tag' := by
  rcases hacked with ⟨o, ho, hid⟩ | ⟨⟨o, ho, htag⟩, hbound⟩
  · obtain ⟨o', ho', hold⟩ := h.kept o ho
    exact .inl ⟨o', ho', hold.id id hid⟩
  · obtain ⟨o', ho', hold⟩ := h.kept o ho
    refine .inr ⟨⟨o', ho', hold.tag.trans htag⟩, fun o'' ho'' htag'' => ?_⟩
    rcases h.fresh o'' ho'' with ⟨o₀, ho₀, hold₀⟩ | hnew
    · have hbound₀ := hbound o₀ ho₀ (hold₀.tag.symm.trans htag'')
      obtain ⟨x, hx⟩ := Option.ne_none_iff_exists'.1 hbound₀
      rw [hold₀.id x hx]
      exact Option.some_ne_none x
    · rw [hnew] at htag''
      cases htag''
      exact absurd rfl hne

-- ============================================================ the outcome

/-- The price a fill is written at, before the column rounds it. -/
def fillPrice (bo : BrokerOrder) (order : Order) : ℚ :=
  priceOr bo.averagePrice (priceOr order.averagePrice 0)

/-- The order filled the intent in full. -/
def BrokerOrder.Fulfils (bo : BrokerOrder) (intent : OrderIntent) : Prop :=
  bo.status = .complete ∧ bo.filledQuantity = intent.quantity

instance (bo : BrokerOrder) (intent : OrderIntent) :
    Decidable (bo.Fulfils intent) :=
  inferInstanceAs (Decidable (_ ∧ _))

/-- What settling an intent against its one broker order leaves. -/
inductive Resolution (intentId : Nat) (intent : OrderIntent)
    (bo : BrokerOrder) (r : Rows) : Rows → Prop
  /-- The fill is on the order row and on the trade, the intent
  CONFIRMED. -/
  | filled {order : Order} {os : List Order}
      {bs : List ReconciliationBreak} (filled : bo.Filled)
      (lands : LandsOn r intentId intent bo order)
      (room : bo.filledQuantity ≤ order.quantity)
      (nonneg : ∀ t, r.trades[intent.tradeId]? = some t →
        0 ≤ r.money (fillPrice bo order))
      (orders : OrdersKept intent.brokerTag r.orders os)
      (breaks : r.breaks <+: bs)
      (disputed : ¬ bo.Fulfils intent → ∃ b ∈ bs, b.intentId = some intentId) :
      Resolution intentId intent bo r
        { r with
          orders := os
          trades := r.trades.modify intent.tradeId
            (ReconciliationEngine.fillTrade intent.purpose
              (r.money (fillPrice bo order)))
          intents := r.intents.modify intentId fun i =>
            { i with status := .confirmed }
          breaks := bs }
  /-- Terminal without a fill: the intent FAILED. -/
  | dead {os : List Order} (terminal : bo.status.isTerminal = true)
      (unfilled : ¬ bo.Filled)
      (orders : OrdersKept intent.brokerTag r.orders os) :
      Resolution intentId intent bo r
        { r with
          orders := os
          intents := r.intents.modify intentId fun i =>
            { i with status := .failed } }
  /-- Still working, and its order row known. -/
  | inFlight {os : List Order} (live : bo.status.isTerminal = false)
      (orders : OrdersKept intent.brokerTag r.orders os)
      (acked : Acked os bo.brokerOrderId intent.brokerTag)
      (same : Acked r.orders bo.brokerOrderId intent.brokerTag →
        os = r.orders) :
      Resolution intentId intent bo r { r with orders := os }

namespace ReconciliationEngine

variable {db : Db} {intentId : Nat} {intent : OrderIntent} {bo : BrokerOrder}

-- =========================================================== the session

/-- The row the session finds or creates. -/
theorem orderRow_lands : Meets (orderRow intentId intent bo) db
    (fun x db' => LandsOn db.rows intentId intent bo x.1.2
      ∧ db'.rows.orders[x.1.1]? = some x.1.2
      ∧ (x.1.2.brokerOrderId = none
        ∨ Acked db'.rows.orders bo.brokerOrderId intent.brokerTag)
      ∧ ∃ os, OrdersKept intent.brokerTag db.rows.orders os
        ∧ db'.rows = { db.rows with orders := os }
        ∧ (Acked db.rows.orders bo.brokerOrderId intent.brokerTag →
          x.1.2.brokerOrderId ≠ none ∧ os = db.rows.orders))
      fun _ => True := by
  unfold orderRow OrderRepository.getByBrokerOrderId
    OrderRepository.getByBrokerTag OrderRepository.create
    OrderRepository.getByIdOrRaise OrderRepository.getById
  rw [meets_bind, meets_bind, meets_fetch, meets_scalarOneOrNone]
  refine ⟨fun unknown => ?_, fun row found => ?_, fun _ => trivial⟩
  · dsimp only
    rw [meets_bind, meets_bind, meets_fetch, meets_scalarOneOrNone]
    refine ⟨fun untagged => ?_, fun row found => ?_, fun _ => trivial⟩
    · dsimp only
      rw [meets_bind, meets_bind, meets_fetch, meets_bind, meets_flush]
      refine ⟨fun hadmits => ?_, fun _ => trivial⟩
      rw [meets_pure, meets_bind, meets_bind, meets_fetch, meets_orRaise]
      refine ⟨fun order horder => ?_, fun _ => trivial⟩
      rw [meets_pure]
      have hcreated := horder
      dsimp only at hcreated
      rw [List.getElem?_concat_length] at hcreated
      cases hcreated
      refine ⟨.created unknown untagged, horder, .inl rfl, _,
        ordersKept_append rfl, rfl, fun hacked => ?_⟩
      -- no row of the order's, so it was not acknowledged
      rcases hacked with ⟨o, ho, hid⟩ | ⟨⟨o, ho, htag⟩, -⟩
      · have hno := select_eq_nil.1 unknown o ho
        simp [hid] at hno
      · have hno := select_eq_nil.1 untagged o ho
        simp [htag] at hno
    · obtain ⟨i, order⟩ := row
      rw [meets_pure]
      have hrow := mem_select.1 (found ▸ List.mem_singleton.2 rfl)
      have hown : Acked db.rows.orders bo.brokerOrderId intent.brokerTag →
          order.brokerOrderId ≠ none := by
        intro hacked
        rcases hacked with ⟨o, ho, hid⟩ | ⟨-, hbound⟩
        · have hno := select_eq_nil.1 unknown o ho
          simp [hid] at hno
        · exact hbound order (List.mem_of_getElem? hrow.1)
            (by simpa using hrow.2)
      refine ⟨.byTag i order unknown found, hrow.1, ?_, db.rows.orders,
        .refl _ _, rfl, fun hacked => ⟨hown hacked, rfl⟩⟩
      by_cases hid : order.brokerOrderId = none
      · exact .inl hid
      · refine .inr (.inr ⟨⟨order, List.mem_of_getElem? hrow.1, by
          simpa using hrow.2⟩, fun o ho htag => ?_⟩)
        obtain ⟨j, hj⟩ := List.getElem?_of_mem ho
        have hmem : (j, o) ∈ select (fun o => o.brokerTag
            = some intent.brokerTag) db.rows.orders :=
          mem_select.2 ⟨hj, by simpa using htag⟩
        rw [found] at hmem
        cases List.mem_singleton.1 hmem
        exact hid
  · obtain ⟨i, order⟩ := row
    rw [meets_pure]
    have hrow := mem_select.1 (found ▸ List.mem_singleton.2 rfl)
    refine ⟨.byId i order found, hrow.1, .inr (.inl ⟨order,
      List.mem_of_getElem? hrow.1, by simpa using hrow.2⟩), db.rows.orders,
      .refl _ _, rfl, fun _ => ⟨fun hnone => ?_, rfl⟩⟩
    have hid : order.brokerOrderId = some bo.brokerOrderId := by
      simpa using hrow.2
    rw [hnone] at hid
    cases hid

/-- The row is the order's from here on. -/
private theorem acknowledge_meets {orderId : Nat} {order : Order}
    (horder : db.rows.orders[orderId]? = some order)
    (hacked : order.brokerOrderId = none
      ∨ Acked db.rows.orders bo.brokerOrderId intent.brokerTag) :
    Meets (acknowledge orderId order bo) db
      (fun _ db' => Acked db'.rows.orders bo.brokerOrderId intent.brokerTag
        ∧ (∃ o, db'.rows.orders[orderId]? = some o
          ∧ o.quantity = order.quantity)
        ∧ ∃ os, OrdersKept intent.brokerTag db.rows.orders os
          ∧ db'.rows = { db.rows with orders := os }
          ∧ (order.brokerOrderId ≠ none → os = db.rows.orders))
      fun _ => True := by
  unfold acknowledge OrderRepository.markAcknowledged
  rw [meets_ite, meets_flush, meets_pure]
  refine ⟨fun hnone => ⟨fun _ => ?_, fun _ => trivial⟩, fun hsome => ?_⟩
  · have hrow : (db.rows.orders.modify orderId fun o : Order =>
        { o with brokerOrderId := some bo.brokerOrderId,
                 status := .open })[orderId]?
          = some { order with brokerOrderId := some bo.brokerOrderId,
                              status := .open } := by
      rw [List.getElem?_modify_eq, horder]
      rfl
    refine ⟨.inl ⟨_, List.mem_of_getElem? hrow, rfl⟩, ⟨_, hrow, rfl⟩, _, ?_,
      rfl, fun hsome => absurd hnone hsome⟩
    refine ordersKept_modify fun o ho => ⟨rfl, fun x hx => ?_⟩
    rw [horder] at ho
    cases ho
    rw [hnone] at hx
    cases hx
  · exact ⟨hacked.resolve_left hsome, ⟨order, horder, rfl⟩, db.rows.orders,
      .refl _ _, rfl, fun _ => rfl⟩

private theorem modify_modify_status (is : List OrderIntent) (i : Nat)
    (status status' : IntentStatus) :
    ((is.modify i fun x => { x with status }).modify i
        fun x => { x with status := status' })
      = is.modify i fun x => { x with status := status' } := by
  refine List.ext_getElem? fun j => ?_
  rw [List.getElem?_modify, List.getElem?_modify, List.getElem?_modify]
  cases is[j]? with
  | none => rfl
  | some x => by_cases hij : i = j <;> simp [hij]

private theorem fillTrade_nonneg {purpose : OrderPurpose} {price : ℚ}
    {t : Trade} (h : (fillTrade purpose price t).Check) : 0 ≤ price := by
  cases purpose with
  | entry => exact h.2.1 _ rfl
  | exit => exact h.2.2 _ rfl

/-- `_apply_fill`, on a row the schema let it write. -/
theorem applyFill_meets {orderId : Nat} {order o : Order}
    (ho : db.rows.orders[orderId]? = some o)
    (hquantity : o.quantity = order.quantity) :
    Meets (applyFill intentId intent orderId order bo) db
      (fun _ db' => bo.filledQuantity ≤ order.quantity
        ∧ (∀ t, db.rows.trades[intent.tradeId]? = some t →
          0 ≤ db.rows.money (fillPrice bo order))
        ∧ ∃ os, OrdersKept intent.brokerTag db.rows.orders os
          ∧ db'.rows = { db.rows with
              orders := os
              trades := db.rows.trades.modify intent.tradeId
                (fillTrade intent.purpose
                  (db.rows.money (fillPrice bo order)))
              intents := db.rows.intents.modify intentId fun i =>
                { i with status := .confirmed } }) fun _ => True := by
  have hhold : OrdersKept intent.brokerTag db.rows.orders
      (db.rows.orders.modify orderId fun o : Order =>
        { o with status := .complete, filledQuantity := bo.filledQuantity,
                 averagePrice := some (db.rows.money (fillPrice bo order)) }) :=
    ordersKept_modify fun o _ => ⟨rfl, fun _ h => h⟩
  unfold applyFill OrderRepository.recordFill PositionRepository.updateTradeIfAny
    PositionRepository.getTradeById PositionRepository.updateTrade
    OrderIntentRepository.markPlaced OrderIntentRepository.markConfirmed
    OrderIntentRepository.markStatus
  rw [meets_bind, meets_flush]
  refine ⟨fun hrow => ?_, fun _ => trivial⟩
  -- the schema has let the fill onto the row, so there was room
  have hroom : bo.filledQuantity ≤ order.quantity :=
    hquantity ▸ (Rows.Admissible.order_check hrow ho).2
  rw [meets_bind, meets_bind, meets_fetch]
  dsimp only
  rw [Rows.setOrder_trades]
  cases htrade : db.rows.trades[intent.tradeId]? with
  | none =>
      rw [meets_pure, meets_bind, meets_flush]
      refine ⟨fun _ => ?_, fun _ => trivial⟩
      rw [meets_flush]
      refine ⟨fun _ => ⟨hroom, fun t ht => ?_, _, hhold, ?_⟩,
        fun _ => trivial⟩
      · cases ht
      have hnone : db.rows.trades.modify intent.tradeId
          (fillTrade intent.purpose (db.rows.money (fillPrice bo order)))
            = db.rows.trades := by
        rw [List.modify_eq_self]
        exact List.getElem?_eq_none_iff.1 htrade
      rw [hnone, ← modify_modify_status _ _ .placed]
      rfl
  | some trade =>
      rw [meets_flush]
      refine ⟨fun htrades => ?_, fun _ => trivial⟩
      rw [meets_bind, meets_flush]
      refine ⟨fun _ => ?_, fun _ => trivial⟩
      rw [meets_flush]
      refine ⟨fun _ => ⟨hroom, fun t ht => ?_, _, hhold, ?_⟩,
        fun _ => trivial⟩
      · exact fillTrade_nonneg (Rows.Admissible.trade_check htrades htrade)
      · rw [← modify_modify_status _ _ .placed]
        rfl

/-- `_resolve_intent_against_order`. -/
theorem resolveIntentAgainstOrder_resolution :
    Meets (resolveIntentAgainstOrder intentId intent bo) db
      (fun _ db' => Resolution intentId intent bo db.rows db'.rows)
      fun _ => True := by
  unfold resolveIntentAgainstOrder
  rw [meets_bind]
  refine orderRow_lands.imp (fun x db₁ hrow => ?_) fun _ h => h
  obtain ⟨⟨orderId, order⟩, created⟩ := x
  obtain ⟨hlands, horder, hacked, os₁, hhold₁, hrows₁, hsame₁⟩ := hrow
  dsimp only at hlands horder hacked hsame₁ ⊢
  rw [meets_bind]
  refine (acknowledge_meets horder hacked).imp (fun _ db₂ hack => ?_)
    fun _ h => h
  obtain ⟨hacked₂, ⟨o, ho, hquantity⟩, os₂, hhold₂, hrows₂, hsame₂⟩ := hack
  have hhold : OrdersKept intent.brokerTag db.rows.orders os₂ := by
    rw [hrows₁] at hhold₂
    exact hhold₁.trans hhold₂
  have hrows : db₂.rows = { db.rows with orders := os₂ } := by
    rw [hrows₂, hrows₁]
  -- a fill, and the breaks recorded after it
  have hfill : bo.Filled → ∀ rest : Session ReconciliationItem,
      (∀ db₃, Meets rest db₃ (fun _ db₄ => ∃ bs, db₃.rows.breaks <+: bs
        ∧ (¬ bo.Fulfils intent → ∃ b ∈ bs, b.intentId = some intentId)
        ∧ db₄.rows = { db₃.rows with breaks := bs }) fun _ => True) →
      Meets (do applyFill intentId intent orderId order bo; rest) db₂
        (fun _ db' => Resolution intentId intent bo db.rows db'.rows)
        fun _ => True := by
    intro hfilled rest hrest
    rw [meets_bind]
    refine (applyFill_meets ho hquantity).imp (fun _ db₃ hafter => ?_)
      fun _ h => h
    obtain ⟨hroom, hnonneg, os₃, hhold₃, hrows₃⟩ := hafter
    refine (hrest db₃).imp (fun _ db₄ hbreaks => ?_) fun _ h => h
    obtain ⟨bs, hbs, hdisputed, hrows₄⟩ := hbreaks
    rw [hrows] at hrows₃ hnonneg hhold₃
    rw [hrows₃] at hrows₄ hbs
    rw [hrows₄]
    exact .filled hfilled hlands hroom hnonneg (hhold.trans hhold₃) hbs
      hdisputed
  have hsilent : bo.Fulfils intent → ∀ (item : ReconciliationItem) (db₃ : Db),
      Meets (pure item : Session ReconciliationItem) db₃
        (fun _ db₄ => ∃ bs, db₃.rows.breaks <+: bs
          ∧ (¬ bo.Fulfils intent → ∃ b ∈ bs, b.intentId = some intentId)
          ∧ db₄.rows = { db₃.rows with breaks := bs }) fun _ => True :=
    fun hfull _ db₃ => ⟨db₃.rows.breaks, List.prefix_refl _,
      fun hno => absurd hfull hno, rfl⟩
  have hbreak : ∀ (item : ReconciliationItem) (db₃ : Db),
      Meets (do
        ReconciliationBreakRepository.create .quantityMismatch none
          (some orderId) (some intentId)
        pure item : Session ReconciliationItem) db₃
        (fun _ db₄ => ∃ bs, db₃.rows.breaks <+: bs
          ∧ (¬ bo.Fulfils intent → ∃ b ∈ bs, b.intentId = some intentId)
          ∧ db₄.rows = { db₃.rows with breaks := bs }) fun _ => True := by
    intro item db₃
    unfold ReconciliationBreakRepository.create
    rw [meets_bind, meets_flush]
    refine ⟨fun _ => ?_, fun _ => trivial⟩
    rw [meets_pure]
    exact ⟨_, List.prefix_append _ _, fun _ => ⟨_, List.mem_append_right _
      (List.mem_singleton_self _), rfl⟩, rfl⟩
  have hwaits : bo.status.isTerminal = false →
      Resolution intentId intent bo db.rows db₂.rows := by
    intro hlive
    rw [hrows] at hacked₂ ⊢
    refine .inFlight hlive hhold hacked₂ fun hbefore => ?_
    obtain ⟨hsome, hos₁⟩ := hsame₁ hbefore
    rw [hsame₂ hsome, hrows₁]
    exact hos₁
  cases hstatus : bo.status with
  | complete =>
      refine hfill (.inl hstatus) _ fun db₃ => ?_
      rw [meets_ite]
      exact ⟨fun _ => hbreak _ db₃, fun hfull =>
        hsilent ⟨hstatus, not_not.1 hfull⟩ _ db₃⟩
  | pending =>
      dsimp only
      rw [meets_ite, meets_pure, meets_pure]
      exact ⟨fun _ => hwaits (by rw [hstatus]; rfl),
        fun _ => hwaits (by rw [hstatus]; rfl)⟩
  | «open» =>
      dsimp only
      rw [meets_ite, meets_pure, meets_pure]
      exact ⟨fun _ => hwaits (by rw [hstatus]; rfl),
        fun _ => hwaits (by rw [hstatus]; rfl)⟩
  | _ =>
      have hterminal : bo.status.isTerminal = true := by rw [hstatus]; rfl
      dsimp only
      rw [meets_ite]
      refine ⟨fun hpos => ?_, fun hnone => ?_⟩
      · exact hfill (.inr ⟨hterminal, hpos⟩) _ fun db₃ => hbreak _ db₃
      · unfold OrderRepository.recordRejection OrderIntentRepository.markFailed
          OrderIntentRepository.markStatus
        rw [meets_bind, meets_flush]
        refine ⟨fun _ => ?_, fun _ => trivial⟩
        rw [meets_bind, meets_flush]
        refine ⟨fun _ => ?_, fun _ => trivial⟩
        rw [meets_pure]
        dsimp only
        rw [hrows]
        refine .dead hterminal ?_ (hhold.trans (ordersKept_modify fun o _ =>
          ⟨rfl, fun _ h => h⟩))
        intro hfilled
        rcases hfilled with hcomplete | ⟨_, hpos⟩
        · rw [hstatus] at hcomplete
          cases hcomplete
        · exact hnone hpos

end ReconciliationEngine

end AlgoPlatform
