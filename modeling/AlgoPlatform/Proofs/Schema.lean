/-
Which writes the schema admits.

One lemma per kind of write: an update is admitted if it keeps the keys
and foreign keys of its row and the row still passes its CHECKs, an
insert if the new row does and its keys are new. A proof that a unit of
work commits asks these and nothing else.
-/
import AlgoPlatform.Model.Repositories

open Basis

namespace AlgoPlatform

-- ================================================================ money

@[simp] theorem MoneyColumns.keep_exact (x : ℚ) :
    MoneyColumns.exact.keep x = x := rfl

/-- What a column keeps, it keeps again. -/
@[simp] theorem MoneyColumns.keep_keep (c : MoneyColumns) (x : ℚ) :
    c.keep (c.keep x) = c.keep x := by
  cases c with
  | numeric4 => exact (onGrid_round 10000 x).round_eq (by decide)
  | exact => rfl

theorem MoneyColumns.keep_nonneg {c : MoneyColumns} {x : ℚ} (hx : 0 ≤ x) :
    0 ≤ c.keep x := by
  cases c with
  | numeric4 => exact round_nonneg hx
  | exact => exact hx

/-- What `Numeric(18, 4)` keeps as it is has four decimals. -/
private theorem onGrid_of_keep {x : ℚ}
    (h : MoneyColumns.numeric4.keep x = x) : OnGrid 10000 x := by
  rw [← h]
  exact onGrid_round 10000 x

/-- A sum of kept figures is kept. -/
theorem MoneyColumns.keep_sum {c : MoneyColumns} {xs : List ℚ}
    (h : ∀ x ∈ xs, c.keep x = x) : c.keep xs.sum = xs.sum := by
  cases c with
  | numeric4 =>
      exact (onGrid_sum fun x hx => onGrid_of_keep (h x hx)).round_eq
        (by decide)
  | exact => rfl

/-- So is a multiple of the difference of two kept prices. -/
theorem MoneyColumns.keep_sub_mul {c : MoneyColumns} {x y : ℚ}
    (hx : c.keep x = x) (hy : c.keep y = y) (n : Nat) :
    c.keep ((x - y) * n) = (x - y) * n := by
  cases c with
  | numeric4 =>
      rw [sub_eq_add_neg]
      exact (((onGrid_of_keep hx).add (onGrid_of_keep hy).neg).mul_nat
        n).round_eq (by decide)
  | exact => rfl

@[simp] theorem Rows.money_money (r : Rows) (x : ℚ) :
    r.money (r.money x) = r.money x :=
  r.columns.keep_keep x

theorem Trade.kept_eq_iff {money : ℚ → ℚ} {t : Trade} :
    t.kept money = t ↔ t.entryPrice.map money = t.entryPrice
      ∧ t.exitPrice.map money = t.exitPrice
      ∧ t.realizedPnl.map money = t.realizedPnl := by
  constructor
  · intro h
    exact ⟨congrArg Trade.entryPrice h, congrArg Trade.exitPrice h,
      congrArg Trade.realizedPnl h⟩
  · rintro ⟨hentry, hexit, hpnl⟩
    unfold Trade.kept
    rw [hentry, hexit, hpnl]

theorem Order.kept_eq_iff {money : ℚ → ℚ} {o : Order} :
    o.kept money = o ↔ o.averagePrice.map money = o.averagePrice :=
  ⟨congrArg Order.averagePrice,
    fun h => congrArg (fun price => { o with averagePrice := price }) h⟩

/-- The stored P&L of some trades is kept as it is, and so is its sum. -/
theorem Rows.Scaled.money_pnl {r : Rows} (h : r.Scaled) {ts : List Trade}
    (hts : ∀ t ∈ ts, t ∈ r.trades) :
    r.money (ts.map fun t => t.realizedPnl.getD 0).sum
      = (ts.map fun t => t.realizedPnl.getD 0).sum := by
  refine MoneyColumns.keep_sum fun x hx => ?_
  obtain ⟨t, ht, rfl⟩ := List.mem_map.1 hx
  have hpnl := (Trade.kept_eq_iff.1 (h.trades t (hts t ht))).2.2
  cases hstored : t.realizedPnl with
  | none => exact MoneyColumns.keep_sum (List.forall_mem_nil _)
  | some pnl =>
      rw [hstored] at hpnl
      exact Option.some_inj.1 hpnl

namespace Rows

variable {r : Rows} {i : Nat}

-- =================================================== columns of updates

section Columns

variable (r i)

@[simp] theorem setOrder_orders (f : Order → Order) :
    (r.setOrder i f).orders = r.orders.modify i f := rfl

@[simp] theorem setOrder_intents (f : Order → Order) :
    (r.setOrder i f).intents = r.intents := rfl

@[simp] theorem setOrder_trades (f : Order → Order) :
    (r.setOrder i f).trades = r.trades := rfl

@[simp] theorem setOrder_positions (f : Order → Order) :
    (r.setOrder i f).positions = r.positions := rfl

@[simp] theorem setIntent_orders (f : OrderIntent → OrderIntent) :
    (r.setIntent i f).orders = r.orders := rfl

@[simp] theorem setIntent_intents (f : OrderIntent → OrderIntent) :
    (r.setIntent i f).intents = r.intents.modify i f := rfl

@[simp] theorem setIntent_trades (f : OrderIntent → OrderIntent) :
    (r.setIntent i f).trades = r.trades := rfl

@[simp] theorem setIntent_positions (f : OrderIntent → OrderIntent) :
    (r.setIntent i f).positions = r.positions := rfl

@[simp] theorem setTrade_orders (f : Trade → Trade) :
    (r.setTrade i f).orders = r.orders := rfl

@[simp] theorem setTrade_intents (f : Trade → Trade) :
    (r.setTrade i f).intents = r.intents := rfl

@[simp] theorem setTrade_trades (f : Trade → Trade) :
    (r.setTrade i f).trades = r.trades.modify i f := rfl

@[simp] theorem setTrade_positions (f : Trade → Trade) :
    (r.setTrade i f).positions = r.positions := rfl

@[simp] theorem setPosition_orders (f : Position → Position) :
    (r.setPosition i f).orders = r.orders := rfl

@[simp] theorem setPosition_intents (f : Position → Position) :
    (r.setPosition i f).intents = r.intents := rfl

@[simp] theorem setPosition_trades (f : Position → Position) :
    (r.setPosition i f).trades = r.trades := rfl

@[simp] theorem setPosition_positions (f : Position → Position) :
    (r.setPosition i f).positions = r.positions.modify i f := rfl

@[simp] theorem setInstance_orders (f : StrategyInstance → StrategyInstance) :
    (r.setInstance i f).orders = r.orders := rfl

@[simp] theorem setInstance_intents (f : StrategyInstance → StrategyInstance) :
    (r.setInstance i f).intents = r.intents := rfl

@[simp] theorem setInstance_trades (f : StrategyInstance → StrategyInstance) :
    (r.setInstance i f).trades = r.trades := rfl

@[simp] theorem setInstance_positions
    (f : StrategyInstance → StrategyInstance) :
    (r.setInstance i f).positions = r.positions := rfl

end Columns

-- ============================================================= updates

namespace Admissible

/-- An order row may change anything but its keys. -/
theorem setOrder (h : r.Admissible) {f : Order → Order}
    (hcheck : ∀ o, r.orders[i]? = some o → (f o).Check)
    (htrade : ∀ o, r.orders[i]? = some o → (f o).tradeId = o.tradeId)
    (hintent : ∀ o, r.orders[i]? = some o → (f o).intentId = o.intentId)
    (hscale : ∀ o, r.orders[i]? = some o → (f o).kept r.money = f o)
    (hid : ((r.orders.modify i f).filterMap (·.brokerOrderId)).Nodup) :
    (r.setOrder i f).Admissible where
  checked :=
    { h.checked with orders := forall_modify h.checked.orders hcheck }
  unique := { h.unique with brokerOrderId := hid }
  linked :=
    { h.linked with
      orderTrades := forall_modify h.linked.orderTrades fun o ho =>
        (htrade o ho).symm ▸ h.linked.orderTrades o (List.mem_of_getElem? ho)
      orderIntents := forall_modify h.linked.orderIntents fun o ho =>
        (hintent o ho).symm ▸ h.linked.orderIntents o (List.mem_of_getElem? ho)
      breakOrders := fun b hb j hj => by
        rw [Rows.setOrder, List.length_modify]
        exact h.linked.breakOrders b hb j hj }
  scaled :=
    { h.scaled with orders := forall_modify h.scaled.orders hscale }

/-- An order row that keeps its broker order id keeps it unique. -/
theorem brokerOrderId_modify (h : r.Admissible) {f : Order → Order}
    (hid : ∀ o, r.orders[i]? = some o → (f o).brokerOrderId = o.brokerOrderId) :
    ((r.orders.modify i f).filterMap (·.brokerOrderId)).Nodup := by
  rw [filterMap_modify_of_eq hid]
  exact h.unique.brokerOrderId

/-- An intent may change its status and its started mark. -/
theorem setIntent (h : r.Admissible) {f : OrderIntent → OrderIntent}
    (hquantity : ∀ x, (f x).quantity = x.quantity)
    (htrade : ∀ x, (f x).tradeId = x.tradeId)
    (hkey : ∀ x, (f x).idempotencyKey = x.idempotencyKey)
    (htag : ∀ x, (f x).brokerTag = x.brokerTag) :
    (r.setIntent i f).Admissible where
  checked :=
    { h.checked with
      intents := forall_modify h.checked.intents fun x hx =>
        (hquantity x).symm ▸ h.checked.intents x (List.mem_of_getElem? hx) }
  unique :=
    { h.unique with
      idempotencyKey := by
        rw [setIntent_intents, map_modify_of_eq fun x _ => hkey x]
        exact h.unique.idempotencyKey
      brokerTag := by
        rw [setIntent_intents, map_modify_of_eq fun x _ => htag x]
        exact h.unique.brokerTag }
  linked :=
    { h.linked with
      intents := forall_modify h.linked.intents fun x hx =>
        (htrade x).symm ▸ h.linked.intents x (List.mem_of_getElem? hx)
      orderIntents := fun o ho j hj => by
        rw [setIntent_intents, List.length_modify]
        exact h.linked.orderIntents o ho j hj
      breakIntents := fun b hb j hj => by
        rw [setIntent_intents, List.length_modify]
        exact h.linked.breakIntents b hb j hj }
  scaled := { h.scaled with }

/-- A trade may change its prices, its P&L and its status. -/
theorem setTrade (h : r.Admissible) {f : Trade → Trade}
    (hcheck : ∀ t, r.trades[i]? = some t → (f t).Check)
    (hposition : ∀ t, (f t).positionId = t.positionId)
    (htype : ∀ t, (f t).optionType = t.optionType)
    (hstrike : ∀ t, (f t).strike = t.strike)
    (hscale : ∀ t, r.trades[i]? = some t → (f t).kept r.money = f t) :
    (r.setTrade i f).Admissible where
  checked :=
    { h.checked with trades := forall_modify h.checked.trades hcheck }
  unique :=
    { h.unique with
      positionTypeStrike := by
        rw [setTrade_trades, map_modify_of_eq fun t _ => by
          rw [hposition, htype, hstrike]]
        exact h.unique.positionTypeStrike }
  linked :=
    { h.linked with
      trades := forall_modify h.linked.trades fun t ht =>
        (hposition t).symm ▸ h.linked.trades t (List.mem_of_getElem? ht)
      intents := fun x hx => by
        rw [setTrade_trades, List.length_modify]
        exact h.linked.intents x hx
      orderTrades := fun o ho => by
        rw [setTrade_trades, List.length_modify]
        exact h.linked.orderTrades o ho }
  scaled :=
    { h.scaled with trades := forall_modify h.scaled.trades hscale }

/-- A position may change anything but its instance and day. -/
theorem setPosition (h : r.Admissible) {f : Position → Position}
    (hcheck : ∀ p, r.positions[i]? = some p → (f p).Check)
    (hinstance : ∀ p, (f p).strategyInstanceId = p.strategyInstanceId)
    (hdate : ∀ p, (f p).tradeDate = p.tradeDate)
    (hscale : ∀ p, r.positions[i]? = some p → (f p).kept r.money = f p) :
    (r.setPosition i f).Admissible where
  checked :=
    { h.checked with positions := forall_modify h.checked.positions hcheck }
  unique :=
    { h.unique with
      instanceTradeDate := by
        rw [setPosition_positions, map_modify_of_eq fun p _ => by
          rw [hinstance, hdate]]
        exact h.unique.instanceTradeDate }
  linked :=
    { h.linked with
      positions := forall_modify h.linked.positions fun p hp =>
        (hinstance p).symm ▸ h.linked.positions p (List.mem_of_getElem? hp)
      trades := fun t ht => by
        rw [setPosition_positions, List.length_modify]
        exact h.linked.trades t ht
      transitions := fun t ht => by
        rw [setPosition_positions, List.length_modify]
        exact h.linked.transitions t ht
      breakPositions := fun b hb j hj => by
        rw [setPosition_positions, List.length_modify]
        exact h.linked.breakPositions b hb j hj }
  scaled :=
    { h.scaled with positions := forall_modify h.scaled.positions hscale }

/-- An instance may change its status. -/
theorem setInstance (h : r.Admissible)
    {f : StrategyInstance → StrategyInstance}
    (hkey : ∀ s, ((f s).strategyId, (f s).instrument, (f s).accountId)
      = (s.strategyId, s.instrument, s.accountId)) :
    (r.setInstance i f).Admissible where
  checked := { h.checked with }
  unique :=
    { h.unique with
      strategyInstrumentAccount := by
        rw [Rows.setInstance, map_modify_of_eq fun s _ => hkey s]
        exact h.unique.strategyInstrumentAccount }
  linked :=
    { h.linked with
      positions := fun p hp => by
        rw [Rows.setInstance, List.length_modify]
        exact h.linked.positions p hp }
  scaled := { h.scaled with }

-- ============================================================= inserts

/-- A new order row with no broker order id and no price yet. -/
theorem addOrder (h : r.Admissible) {o : Order} (hcheck : o.Check)
    (htrade : o.tradeId < r.trades.length)
    (hintent : ∀ j ∈ o.intentId, j < r.intents.length)
    (hid : o.brokerOrderId = none) (hprice : o.averagePrice = none) :
    ({ r with orders := r.orders ++ [o] } : Rows).Admissible where
  checked :=
    { h.checked with
      orders := by
        simpa [or_imp, forall_and] using ⟨h.checked.orders, hcheck⟩ }
  unique :=
    { h.unique with
      brokerOrderId := by simpa [hid] using h.unique.brokerOrderId }
  linked :=
    { h.linked with
      orderTrades := by
        simpa [or_imp, forall_and] using ⟨h.linked.orderTrades, htrade⟩
      orderIntents := by
        intro x hx j hj
        rcases List.mem_append.1 hx with hx | hx
        · exact h.linked.orderIntents x hx j hj
        · rw [List.mem_singleton] at hx
          exact hintent j (hx ▸ hj)
      breakOrders := fun b hb j hj => by
        rw [List.length_append]
        exact Nat.lt_add_right _ (h.linked.breakOrders b hb j hj) }
  scaled :=
    { h.scaled with
      orders := by
        have hkept : o.kept r.money = o := by
          rw [Order.kept_eq_iff, hprice, Option.map_none]
        simpa [or_imp, forall_and] using ⟨h.scaled.orders, hkept⟩ }

/-- A new intent under a new key and a new tag. -/
theorem addIntent (h : r.Admissible) {x : OrderIntent}
    (hquantity : 0 < x.quantity) (htrade : x.tradeId < r.trades.length)
    (hkey : ∀ y ∈ r.intents, y.idempotencyKey ≠ x.idempotencyKey)
    (htag : ∀ y ∈ r.intents, y.brokerTag ≠ x.brokerTag) :
    ({ r with intents := r.intents ++ [x] } : Rows).Admissible where
  checked :=
    { h.checked with
      intents := by
        simpa [or_imp, forall_and] using ⟨h.checked.intents, hquantity⟩ }
  unique :=
    { h.unique with
      idempotencyKey := by
        rw [List.map_append, List.map_singleton, List.nodup_append]
        refine ⟨h.unique.idempotencyKey, List.nodup_singleton _, ?_⟩
        simpa using hkey
      brokerTag := by
        rw [List.map_append, List.map_singleton, List.nodup_append]
        refine ⟨h.unique.brokerTag, List.nodup_singleton _, ?_⟩
        simpa using htag }
  linked :=
    { h.linked with
      intents := by
        simpa [or_imp, forall_and] using ⟨h.linked.intents, htrade⟩
      orderIntents := fun o ho j hj => by
        rw [List.length_append]
        exact Nat.lt_add_right _ (h.linked.orderIntents o ho j hj)
      breakIntents := fun b hb j hj => by
        rw [List.length_append]
        exact Nat.lt_add_right _ (h.linked.breakIntents b hb j hj) }
  scaled := { h.scaled with }

/-- A new audit row of an existing position. -/
theorem addTransition (h : r.Admissible) {t : PositionStateTransition}
    (hposition : t.positionId < r.positions.length) :
    ({ r with transitions := r.transitions ++ [t] } : Rows).Admissible where
  checked := { h.checked with }
  unique := { h.unique with }
  linked :=
    { h.linked with
      transitions := by
        simpa [or_imp, forall_and] using ⟨h.linked.transitions, hposition⟩ }
  scaled := { h.scaled with }

/-- A new break about existing rows. -/
theorem addBreak (h : r.Admissible) {b : ReconciliationBreak}
    (hposition : ∀ j ∈ b.positionId, j < r.positions.length)
    (horder : ∀ j ∈ b.orderId, j < r.orders.length)
    (hintent : ∀ j ∈ b.intentId, j < r.intents.length) :
    ({ r with breaks := r.breaks ++ [b] } : Rows).Admissible where
  checked := { h.checked with }
  unique := { h.unique with }
  linked :=
    { h.linked with
      breakPositions := by
        intro x hx
        rcases List.mem_append.1 hx with hx | hx
        · exact h.linked.breakPositions x hx
        · rw [List.mem_singleton] at hx
          exact hx ▸ hposition
      breakOrders := by
        intro x hx
        rcases List.mem_append.1 hx with hx | hx
        · exact h.linked.breakOrders x hx
        · rw [List.mem_singleton] at hx
          exact hx ▸ horder
      breakIntents := by
        intro x hx
        rcases List.mem_append.1 hx with hx | hx
        · exact h.linked.breakIntents x hx
        · rw [List.mem_singleton] at hx
          exact hx ▸ hintent }
  scaled := { h.scaled with }

/-- An order update the schema lets through satisfies its checks. -/
theorem order_check {f : Order → Order} (h : (r.setOrder i f).Admissible)
    {o : Order} (ho : r.orders[i]? = some o) : (f o).Check := by
  refine h.checked.orders (f o) (List.mem_of_getElem? (i := i) ?_)
  rw [Rows.setOrder_orders, List.getElem?_modify_eq, ho]
  rfl

/-- A trade update the schema lets through satisfies its checks. -/
theorem trade_check {f : Trade → Trade} (h : (r.setTrade i f).Admissible)
    {t : Trade} (ht : r.trades[i]? = some t) : (f t).Check := by
  refine h.checked.trades (f t) (List.mem_of_getElem? (i := i) ?_)
  rw [Rows.setTrade_trades, List.getElem?_modify_eq, ht]
  rfl

end Admissible

end Rows

end AlgoPlatform
