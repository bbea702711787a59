/-
What one broker snapshot does to one order row.

`advanceRow` is the row's own transition, and both writers are that
transition applied to the row they locate: the lemmas here are the only
ones that open `applyBrokerOrderUpdate`.
-/
import AlgoPlatform.Model.OrderUpdates
import AlgoPlatform.Proofs.Schema

open Basis Basis.Session

namespace AlgoPlatform

/-- A row learns its broker order id if it has none. -/
def Order.learn (o : Order) (bo : BrokerOrder) : Order :=
  if o.brokerOrderId = none ∧ bo.brokerOrderId ≠ "" then
    { o with brokerOrderId := some bo.brokerOrderId }
  else o

/-- The transition a snapshot makes an order row take, in a table whose
price column keeps `money` of a price. -/
def Order.advance (money : ℚ → ℚ) (o : Order) (bo : BrokerOrder) : Order :=
  if o.status.isTerminal then o
  else
    match bo.status with
    | .complete =>
        { o.learn bo with status := .complete,
                          filledQuantity := bo.filledQuantity,
                          averagePrice := some (money
                            (priceOr bo.averagePrice 0)) }
    | .rejected | .error =>
        { o.learn bo with status := .rejected,
                          errorMessage := some (rejectionMessage bo) }
    | .cancelled => { o.learn bo with status := .cancelled }
    | .pending | .open =>
        if o.filledQuantity < bo.filledQuantity then
          { o.learn bo with status := .open,
                            filledQuantity := bo.filledQuantity,
                            averagePrice := some (money (priceOr bo.averagePrice
                              (priceOr o.averagePrice 0))) }
        else o.learn bo

variable {money : ℚ → ℚ} {o : Order} {bo : BrokerOrder} {i : Nat} {db : Db}

-- ============================================================== the row

/-- A terminal row never changes again. -/
theorem Order.advance_terminal (h : o.status.isTerminal = true) :
    o.advance money bo = o := by
  rw [Order.advance, if_pos h]

@[simp] theorem Order.learn_bound {id : String}
    (h : o.brokerOrderId = some id) : o.learn bo = o := by
  simp [Order.learn, h]

theorem Order.advance_brokerOrderId {id : String}
    (h : o.brokerOrderId = some id) : (o.advance money bo).brokerOrderId = some id := by
  unfold Order.advance
  cases bo.status <;> simp only [Order.learn_bound h] <;> split_ifs <;> exact h

@[simp] theorem Order.learn_quantity : (o.learn bo).quantity = o.quantity := by
  unfold Order.learn; split_ifs <;> rfl

@[simp] theorem Order.learn_filledQuantity :
    (o.learn bo).filledQuantity = o.filledQuantity := by
  unfold Order.learn; split_ifs <;> rfl

@[simp] theorem Order.learn_tradeId : (o.learn bo).tradeId = o.tradeId := by
  unfold Order.learn; split_ifs <;> rfl

@[simp] theorem Order.learn_intentId : (o.learn bo).intentId = o.intentId := by
  unfold Order.learn; split_ifs <;> rfl

@[simp] theorem Order.learn_status : (o.learn bo).status = o.status := by
  unfold Order.learn; split_ifs <;> rfl

@[simp] theorem Order.advance_quantity :
    (o.advance money bo).quantity = o.quantity := by
  unfold Order.advance
  cases bo.status <;> dsimp only <;> split_ifs <;> simp

@[simp] theorem Order.advance_tradeId :
    (o.advance money bo).tradeId = o.tradeId := by
  unfold Order.advance
  cases bo.status <;> dsimp only <;> split_ifs <;> simp

@[simp] theorem Order.advance_intentId :
    (o.advance money bo).intentId = o.intentId := by
  unfold Order.advance
  cases bo.status <;> dsimp only <;> split_ifs <;> simp

-- ========================================================== the decision

/-- Two updates of one row are one update. -/
private theorem setOrder_setOrder {r : Rows} (f g : Order → Order) :
    (r.setOrder i f).setOrder i g = r.setOrder i (g ∘ f) := by
  unfold Rows.setOrder
  rw [List.modify_modify_eq]

/-- An update that leaves the row alone leaves the table alone. -/
theorem setOrder_of_eq {r : Rows} {f : Order → Order}
    (ho : r.orders[i]? = some o) (hf : f o = o) : r.setOrder i f = r := by
  unfold Rows.setOrder
  congr
  refine List.ext_getElem? fun j => ?_
  rw [List.getElem?_modify]
  by_cases hij : i = j
  · subst hij
    simp [ho, hf]
  · simp [hij]

/-- Updates that agree on the row agree on the table. -/
theorem setOrder_congr {r : Rows} {f g : Order → Order}
    (ho : r.orders[i]? = some o) (hfg : f o = g o) :
    r.setOrder i f = r.setOrder i g := by
  unfold Rows.setOrder
  congr 1
  refine List.ext_getElem? fun j => ?_
  rw [List.getElem?_modify, List.getElem?_modify]
  by_cases hij : i = j
  · subst hij
    simp [ho, hfg]
  · simp [hij]

/-- A snapshot the row can hold: the row is bound, and the snapshot fills
no more than the row ordered. -/
def Order.Holds (o : Order) (bo : BrokerOrder) : Prop :=
  o.brokerOrderId ≠ none ∧ bo.filledQuantity ≤ o.quantity

/-- The columns a write of the decision leaves alone, and the quantity and
the price it may write. -/
private structure Harmless (money : ℚ → ℚ) (bo : BrokerOrder)
    (f : Order → Order) : Prop where
  tradeId : ∀ x, (f x).tradeId = x.tradeId
  intentId : ∀ x, (f x).intentId = x.intentId
  brokerOrderId : ∀ x, (f x).brokerOrderId = x.brokerOrderId
  quantity : ∀ x, (f x).quantity = x.quantity
  filledQuantity : ∀ x, (f x).filledQuantity = x.filledQuantity
    ∨ (f x).filledQuantity = bo.filledQuantity
  averagePrice : ∀ x, (f x).averagePrice = x.averagePrice
    ∨ ∃ price, (f x).averagePrice = some (money price)

/-- The schema admits such a write on a row that can hold the
snapshot. -/
private theorem Harmless.admissible {f : Order → Order}
    (hf : Harmless db.rows.money bo f) (ho : db.rows.orders[i]? = some o)
    (hfit : bo.filledQuantity ≤ o.quantity) :
    (db.rows.setOrder i f).Admissible := by
  have hadm : db.rows.Admissible := db.admitted
  refine hadm.setOrder (fun x hx => ?_) (fun x _ => hf.tradeId x)
    (fun x _ => hf.intentId x) (fun x hx => ?_)
    (hadm.brokerOrderId_modify fun x _ => hf.brokerOrderId x)
  · obtain ⟨hpos, hle⟩ := hadm.checked.orders x (List.mem_of_getElem? hx)
    obtain rfl : x = o := Option.some_inj.1 (hx.symm.trans ho)
    refine ⟨(hf.quantity x).symm ▸ hpos, ?_⟩
    rcases hf.filledQuantity x with h | h <;> rw [h, hf.quantity x] <;> assumption
  · rw [Order.kept_eq_iff]
    rcases hf.averagePrice x with h | ⟨price, h⟩ <;> rw [h]
    · exact Order.kept_eq_iff.1
        (hadm.scaled.orders x (List.mem_of_getElem? hx))
    · rw [Option.map_some, Rows.money_money]

/-- The one decision: a commit has moved exactly the given row, by
`advance`; only a row that cannot hold the snapshot is an integrity
error. -/
theorem applyBrokerOrderUpdate_meets (ho : db.rows.orders[i]? = some o) :
    Meets (applyBrokerOrderUpdate i o bo) db
      (fun _ db' => db'.rows = db.rows.setOrder i (·.advance db.rows.money bo))
      (fun e => e = .integrity ∧ ¬ o.Holds bo) := by
  unfold applyBrokerOrderUpdate
  by_cases hterm : o.status.isTerminal = true
  · rw [if_pos hterm, meets_pure]
    exact (setOrder_of_eq ho (Order.advance_terminal hterm)).symm
  rw [if_neg hterm, meets_bind]
  have hlearn : Meets (learnBrokerOrderId i o bo) db
      (fun _ db' => db'.rows = db.rows.setOrder i (·.learn bo))
      (fun e => e = .integrity ∧ ¬ o.Holds bo) := by
    unfold learnBrokerOrderId
    by_cases hl : o.brokerOrderId = none ∧ bo.brokerOrderId ≠ ""
    · rw [if_pos hl, meets_flush]
      refine ⟨fun _ => setOrder_congr ho ?_, fun _ => ⟨rfl, fun h => h.1 hl.1⟩⟩
      rw [Order.learn, if_pos hl]
    · rw [if_neg hl, meets_pure]
      refine (setOrder_of_eq ho ?_).symm
      rw [Order.learn, if_neg hl]
  refine hlearn.imp (fun _ db' hdb' => ?_) fun _ => id
  have ho' : db'.rows.orders[i]? = some (o.learn bo) := by
    rw [hdb', Rows.setOrder_orders, List.getElem?_modify_eq, ho]
    rfl
  have hmoney : db'.rows.money = db.rows.money := by rw [hdb']; rfl
  -- every branch writes on top of what the row has learned
  have hfill : ∀ (f : (ℚ → ℚ) → Order → Order) (out : OrderUpdateOutcome),
      Harmless db.rows.money bo (f db.rows.money) →
      f db.rows.money (o.learn bo) = o.advance db.rows.money bo →
      Meets (do flush fun r => r.setOrder i (f r.money)
                pure out : Session _) db'
        (fun _ db' => db'.rows = db.rows.setOrder i (·.advance db.rows.money bo))
        (fun e => e = .integrity ∧ ¬ o.Holds bo) := by
    intro f out hharm hf
    rw [meets_bind, meets_flush, hmoney]
    refine ⟨fun _ => ?_, fun hno => ⟨rfl, fun hholds => hno ?_⟩⟩
    · rw [meets_pure]
      show db'.rows.setOrder i _ = _
      rw [hdb', setOrder_setOrder]
      exact setOrder_congr ho hf
    · have hwrite : Harmless db'.rows.money bo (f db.rows.money) := by
        rw [hmoney]
        exact hharm
      exact hwrite.admissible ho' (by simpa using hholds.2)
  have hwrite : ∀ (f : Order → Order) (out : OrderUpdateOutcome),
      Harmless db.rows.money bo f → f (o.learn bo) = o.advance db.rows.money bo →
      Meets (do flush (·.setOrder i f); pure out : Session _) db'
        (fun _ db' => db'.rows = db.rows.setOrder i (·.advance db.rows.money bo))
        (fun e => e = .integrity ∧ ¬ o.Holds bo) :=
    fun f => hfill fun _ => f
  have hnone : o.learn bo = o.advance db.rows.money bo →
      db'.rows = db.rows.setOrder i (·.advance db.rows.money bo) := by
    intro hf
    rw [hdb']
    exact setOrder_congr ho hf
  have hpart := fun h => hfill (fun money o' => { o' with
      status := .open, filledQuantity := bo.filledQuantity,
      averagePrice := some (money (priceOr bo.averagePrice
        (priceOr o.averagePrice 0))) }) .appliedPartialFill
    (by constructor <;> simp) h
  cases hs : bo.status with
  | complete =>
      exact hfill (fun money o => { o with
          status := .complete, filledQuantity := bo.filledQuantity,
          averagePrice := some (money (priceOr bo.averagePrice 0)) }) _
        (by constructor <;> simp) (by simp [Order.advance, hterm, hs])
  | rejected =>
      exact hwrite _ _ (by constructor <;> simp)
        (by simp [Order.advance, hterm, hs])
  | error =>
      exact hwrite _ _ (by constructor <;> simp)
        (by simp [Order.advance, hterm, hs])
  | cancelled =>
      exact hwrite _ _ (by constructor <;> simp)
        (by simp [Order.advance, hterm, hs])
  | pending =>
      by_cases hlt : o.filledQuantity < bo.filledQuantity
      · simp only [hlt, if_true]
        exact hpart (by simp [Order.advance, hterm, hs, hlt])
      · simp only [hlt, if_false, meets_pure]
        exact hnone (by simp [Order.advance, hterm, hs, hlt])
  | «open» =>
      by_cases hlt : o.filledQuantity < bo.filledQuantity
      · simp only [hlt, if_true]
        exact hpart (by simp [Order.advance, hterm, hs, hlt])
      · simp only [hlt, if_false, meets_pure]
        exact hnone (by simp [Order.advance, hterm, hs, hlt])

-- =========================================================== the writers

/-- The row bound to a broker order id is the one an id lookup finds. -/
theorem select_brokerOrderId {id : String} (ho : db.rows.orders[i]? = some o)
    (hid : o.brokerOrderId = some id) :
    select (fun o => decide (o.brokerOrderId = some id)) db.rows.orders
      = [(i, o)] :=
  select_of_unique_key db.admitted.unique.brokerOrderId ho hid

/-- The push path on a bound row: the row advances, and nothing else
changes. -/
theorem process_bound (ho : db.rows.orders[i]? = some o)
    (hid : o.brokerOrderId = some bo.brokerOrderId)
    (hne : bo.brokerOrderId ≠ "") (hfit : bo.filledQuantity ≤ o.quantity) :
    (OrderUpdateProcessor.process bo db).2.rows
      = db.rows.setOrder i (·.advance db.rows.money bo) := by
  have hupdate : Meets (OrderUpdateProcessor.update bo) db
      (fun _ db' => db'.rows = db.rows.setOrder i (·.advance db.rows.money bo))
      (fun _ => False) := by
    unfold OrderUpdateProcessor.update OrderUpdateProcessor.locate
      OrderRepository.getByBrokerOrderId
    simp only [hne, if_false, meets_bind, meets_fetch,
      select_brokerOrderId ho hid, scalarOneOrNone, meets_pure]
    refine (applyBrokerOrderUpdate_meets ho).imp (fun _ _ => id) ?_
    rintro e ⟨-, hno⟩
    exact hno ⟨by simp [hid], hfit⟩
  unfold OrderUpdateProcessor.process
  unfold Meets at hupdate
  cases hrun : OrderUpdateProcessor.update bo db with
  | error e => rw [hrun] at hupdate; exact hupdate.elim
  | ok x => rw [hrun] at hupdate; exact hupdate

/-- The poll path on a bound row does what the push path does. -/
theorem reconcileTerminal_bound (ho : db.rows.orders[i]? = some o)
    (hid : o.brokerOrderId = some bo.brokerOrderId)
    (hfit : bo.filledQuantity ≤ o.quantity) :
    Meets (reconcileTerminal bo.brokerOrderId bo) db
      (fun _ db' => db'.rows = db.rows.setOrder i (·.advance db.rows.money bo))
      (fun _ => False) := by
  unfold reconcileTerminal OrderRepository.getByBrokerOrderId
  simp only [meets_bind, meets_fetch, select_brokerOrderId ho hid,
    scalarOneOrNone, meets_pure, meets_discard]
  refine (applyBrokerOrderUpdate_meets ho).imp (fun _ _ => id) ?_
  rintro e ⟨-, hno⟩
  exact hno ⟨by simp [hid], hfit⟩

end AlgoPlatform
