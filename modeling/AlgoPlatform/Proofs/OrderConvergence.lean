/-
An order row under every reordering, duplication and loss of its
broker's snapshots.

# The law

The row is a fold of `Order.advance` over whatever arrives. It never
unfills and its terminal status is final, whatever arrives. It ends in
the final snapshot's status; it ends in its filled quantity if the
order completed, and otherwise only if that quantity had been delivered
before, because the cancellation and rejection writes carry none.
-/
import AlgoPlatform.Model.Runs
import AlgoPlatform.Proofs.RowUpdate

open Basis Basis.Session

namespace AlgoPlatform

-- ============================================================= history

/-- The snapshots a broker produces of one order: working ones, then one
that ends it. -/
structure OrderHistory where
  progress : List BrokerOrder
  final : BrokerOrder
  id_ne : final.brokerOrderId ≠ ""
  same_id : ∀ bo ∈ progress, bo.brokerOrderId = final.brokerOrderId
  same_quantity : ∀ bo ∈ progress, bo.quantity = final.quantity
  working : ∀ bo ∈ progress, bo.status.isTerminal = false
  ended : final.status = .complete ∨ final.status = .cancelled
    ∨ final.status = .rejected
  nondecreasing : (progress ++ [final]).Pairwise
    (·.filledQuantity ≤ ·.filledQuantity)

/-- Every snapshot of the order. -/
def OrderHistory.snapshots (h : OrderHistory) : List BrokerOrder :=
  h.progress ++ [h.final]

/-- The two entry points a snapshot reaches its row through. -/
inductive DeliveryPath
  | push | poll
  deriving DecidableEq, Repr

abbrev Delivery := DeliveryPath × BrokerOrder

/-- One delivery, committed. -/
def deliver (db : Db) (d : Delivery) : Db :=
  match d.1 with
  | .push => (OrderUpdateProcessor.process d.2 db).2
  | .poll =>
      match reconcileTerminal d.2.brokerOrderId d.2 db with
      | .ok (_, db') => db'
      | .error _ => db

/-- Deliveries, one at a time. -/
def deliverAll (db : Db) (ds : List Delivery) : Db := ds.foldl deliver db

/-- The row acknowledged for the order of a history, before anything of
it is delivered. -/
structure Acknowledged (h : OrderHistory) (o : Order) : Prop where
  bound : o.brokerOrderId = some h.final.brokerOrderId
  working : o.status.isTerminal = false
  quantity : o.quantity = h.final.quantity
  filled_le : o.filledQuantity ≤ h.final.filledQuantity

/-- Deliveries a history can give rise to that lose everything but the
final snapshot, at most. -/
structure DeliveredFrom (h : OrderHistory) (ds : List Delivery) : Prop where
  mem : ∀ d ∈ ds, d.2 ∈ h.snapshots
  final : ∃ d ∈ ds, d.2 = h.final

/-- The row ends as the final snapshot, and on the way it neither
unfills nor leaves a terminal status. -/
structure Converges (h : OrderHistory) (db : Db) (i : Nat)
    (ds : List Delivery) : Prop where
  ends : ∃ o, (deliverAll db ds).rows.orders[i]? = some o
    ∧ o.status = h.final.status ∧ o.filledQuantity = h.final.filledQuantity
  advances : ∀ (before : List Delivery) (d : Delivery) (rest : List Delivery),
    ds = before ++ d :: rest → ∀ o o',
    (deliverAll db before).rows.orders[i]? = some o →
    (deliverAll db (before ++ [d])).rows.orders[i]? = some o' →
    o.filledQuantity ≤ o'.filledQuantity
      ∧ (o.status.isTerminal = true → o'.status = o.status)

/-- The final filled quantity is known before the final snapshot first
arrives: it is the row's own, or an earlier delivery carried it. -/
def FilledSeenBefore (h : OrderHistory) (o : Order) (ds : List Delivery) :
    Prop :=
  o.filledQuantity = h.final.filledQuantity
    ∨ ∃ d ∈ ds.takeWhile (fun d => d.2 ≠ h.final),
        d.2.filledQuantity = h.final.filledQuantity

-- ============================================================== the row

/-- The row after deliveries, in a table whose price column keeps `money`
of a price. -/
def Order.advanceAll (money : ℚ → ℚ) (o : Order) (ds : List Delivery) : Order :=
  ds.foldl (fun o d => o.advance money d.2) o

variable {h : OrderHistory} {o : Order} {bo : BrokerOrder} {i : Nat} {db : Db}
  {ds : List Delivery} {money : ℚ → ℚ}

theorem OrderHistory.filled_le (hbo : bo ∈ h.snapshots) :
    bo.filledQuantity ≤ h.final.filledQuantity := by
  rcases List.mem_append.1 hbo with hbo | hbo
  · exact (List.pairwise_append.1 h.nondecreasing).2.2 bo hbo h.final (by simp)
  · rw [List.mem_singleton.1 hbo]

theorem OrderHistory.quantity_eq (hbo : bo ∈ h.snapshots) :
    bo.quantity = h.final.quantity := by
  rcases List.mem_append.1 hbo with hbo | hbo
  · exact h.same_quantity bo hbo
  · rw [List.mem_singleton.1 hbo]

theorem OrderHistory.id_eq (hbo : bo ∈ h.snapshots) :
    bo.brokerOrderId = h.final.brokerOrderId := by
  rcases List.mem_append.1 hbo with hbo | hbo
  · exact h.same_id bo hbo
  · rw [List.mem_singleton.1 hbo]

theorem OrderHistory.working_of_ne (hbo : bo ∈ h.snapshots)
    (hne : bo ≠ h.final) : bo.status.isTerminal = false := by
  rcases List.mem_append.1 hbo with hbo | hbo
  · exact h.working bo hbo
  · exact absurd (List.mem_singleton.1 hbo) hne

/-- A working snapshot keeps a working row working, and filled to the
larger of the two. -/
theorem Order.advance_working (money : ℚ → ℚ) {id : String}
    (hid : o.brokerOrderId = some id)
    (ho : o.status.isTerminal = false) (hbo : bo.status.isTerminal = false) :
    (o.advance money bo).status.isTerminal = false
      ∧ (o.advance money bo).filledQuantity
        = max o.filledQuantity bo.filledQuantity := by
  unfold Order.advance
  rw [Order.learn_bound hid, if_neg (by simp [ho])]
  cases hs : bo.status <;> rw [hs] at hbo <;> try cases hbo
  all_goals
    dsimp only
    split_ifs with hlt
    · exact ⟨rfl, by simp only; omega⟩
    · exact ⟨ho, by omega⟩

/-- The final snapshot ends a working row in its status. The filled
quantity follows only if the order completed. -/
theorem Order.advance_final {id : String} (hid : o.brokerOrderId = some id)
    (ho : o.status.isTerminal = false) :
    (o.advance money h.final).status = h.final.status
      ∧ (o.advance money h.final).filledQuantity
        = if h.final.status = .complete then h.final.filledQuantity
          else o.filledQuantity := by
  unfold Order.advance
  rw [Order.learn_bound hid, if_neg (by simp [ho])]
  rcases h.ended with hs | hs | hs <;> simp [hs]

theorem OrderHistory.final_terminal (h : OrderHistory) :
    h.final.status.isTerminal = true := by
  rcases h.ended with hs | hs | hs <;> rw [hs] <;> rfl

/-- The largest filled quantity delivered before the final snapshot, or
already in the row. -/
def seenFilled (h : OrderHistory) (filled : Nat) (ds : List Delivery) : Nat :=
  (ds.takeWhile fun d => d.2 ≠ h.final).foldl
    (fun n d => max n d.2.filledQuantity) filled

private theorem advanceAll_terminal (ho : o.status.isTerminal = true) :
    o.advanceAll money ds = o := by
  induction ds with
  | nil => rfl
  | cons d ds ih =>
      show (o.advance money d.2).advanceAll money ds = o
      rw [Order.advance_terminal ho]
      exact ih

/-- The row after deliveries of a history: filled to what was seen until
the final snapshot arrived, and in its status from then on. -/
theorem Order.advanceAll_eq (money : ℚ → ℚ) {id : String}
    (hid : o.brokerOrderId = some id)
    (ho : o.status.isTerminal = false) (hds : ∀ d ∈ ds, d.2 ∈ h.snapshots) :
    let seen := seenFilled h o.filledQuantity ds
    if ∃ d ∈ ds, d.2 = h.final then
      (o.advanceAll money ds).status = h.final.status
        ∧ (o.advanceAll money ds).filledQuantity
          = if h.final.status = .complete then h.final.filledQuantity else seen
    else
      (o.advanceAll money ds).status.isTerminal = false
        ∧ (o.advanceAll money ds).filledQuantity = seen := by
  induction ds generalizing o with
  | nil => simpa [Order.advanceAll, seenFilled] using ho
  | cons d ds ih =>
      have hmem := hds d (by simp)
      have hall : o.advanceAll money (d :: ds)
          = (o.advance money d.2).advanceAll money ds := rfl
      by_cases hd : d.2 = h.final
      · obtain ⟨hstatus, hfilled⟩ := Order.advance_final (h := h) hid ho
        have hterm : (o.advance money d.2).status.isTerminal = true := by
          rw [hd, hstatus, h.final_terminal]
        rw [hall, advanceAll_terminal hterm, hd]
        simp [hd, hstatus, hfilled, seenFilled]
      · have hwork := h.working_of_ne hmem hd
        obtain ⟨hstatus, hfilled⟩ :=
          Order.advance_working money hid ho hwork
        have hnext := ih (Order.advance_brokerOrderId hid) hstatus
          fun d' hd' => hds d' (by simp [hd'])
        have hiff : (∃ d' ∈ d :: ds, d'.2 = h.final) ↔ ∃ d' ∈ ds, d'.2 = h.final := by
          rw [List.exists_mem_cons_iff, or_iff_right hd]
        have hseen : seenFilled h o.filledQuantity (d :: ds)
            = seenFilled h (o.advance money d.2).filledQuantity ds := by
          simp [seenFilled, hd, hfilled]
        rw [hall, hseen]
        simpa only [hiff] using hnext

-- ========================================================= the database

/-- A delivery moves the row it is about, and no other. -/
theorem deliver_rows (hack : Acknowledged h o)
    (ho : db.rows.orders[i]? = some o') (hid : o'.brokerOrderId = o.brokerOrderId)
    (hq : o'.quantity = o.quantity) {d : Delivery} (hd : d.2 ∈ h.snapshots) :
    (deliver db d).rows = db.rows.setOrder i (·.advance db.rows.money d.2) := by
  have hbound : o'.brokerOrderId = some d.2.brokerOrderId := by
    rw [hid, hack.bound, h.id_eq hd]
  have hfit : d.2.filledQuantity ≤ o'.quantity := by
    rw [hq, hack.quantity, ← h.quantity_eq hd]
    exact d.2.filled_le
  obtain ⟨path, bo⟩ := d
  cases path with
  | push =>
      exact process_bound ho hbound (h.id_eq hd ▸ h.id_ne) hfit
  | poll =>
      have hpoll := reconcileTerminal_bound ho hbound hfit
      unfold Meets at hpoll
      unfold deliver
      cases hrun : reconcileTerminal bo.brokerOrderId bo db with
      | error e => rw [hrun] at hpoll; exact hpoll.elim
      | ok x => rw [hrun] at hpoll; simpa [hrun] using hpoll

theorem Order.advanceAll_brokerOrderId {id : String}
    (hid : o.brokerOrderId = some id) :
    (o.advanceAll money ds).brokerOrderId = some id := by
  induction ds generalizing o with
  | nil => exact hid
  | cons d ds ih => exact ih (Order.advance_brokerOrderId hid)

/-- The database refines the row: after any deliveries, the order's row is
the fold. -/
theorem deliverAll_row (hack : Acknowledged h o)
    (ho : db.rows.orders[i]? = some o) (hds : ∀ d ∈ ds, d.2 ∈ h.snapshots) :
    (deliverAll db ds).rows.orders[i]? = some (o.advanceAll db.rows.money ds) := by
  have hgen : ∀ (ds : List Delivery) (db : Db) (o' : Order),
      db.rows.orders[i]? = some o' → o'.brokerOrderId = o.brokerOrderId →
      o'.quantity = o.quantity → (∀ d ∈ ds, d.2 ∈ h.snapshots) →
      (deliverAll db ds).rows.orders[i]?
        = some (o'.advanceAll db.rows.money ds) := by
    intro ds
    induction ds with
    | nil => intro db o' ho' _ _ _; exact ho'
    | cons d ds ih =>
        intro db o' ho' hid hq hds
        have hstep := deliver_rows hack ho' hid hq (hds d (by simp))
        have hmoney : (deliver db d).rows.money = db.rows.money := by
          rw [hstep]
          rfl
        have hrest := ih (deliver db d) (o'.advance db.rows.money d.2)
        rw [hmoney] at hrest
        refine hrest ?_ ?_ ?_ ?_
        · rw [hstep, Rows.setOrder_orders, List.getElem?_modify_eq, ho']
          rfl
        · rw [hack.bound]
          exact Order.advance_brokerOrderId (hid.trans hack.bound)
        · rw [Order.advance_quantity, hq]
        · exact fun d' hd' => hds d' (by simp [hd'])
  exact hgen ds db o ho rfl rfl hds

-- ============================================================== the law

private theorem foldl_max_le {filled n : Nat} (hn : n ≤ filled)
    (hds : ∀ d ∈ ds, d.2.filledQuantity ≤ filled) :
    ds.foldl (fun n d => max n d.2.filledQuantity) n ≤ filled := by
  induction ds generalizing n with
  | nil => exact hn
  | cons d ds ih =>
      exact ih (max_le hn (hds d (by simp))) fun d' hd' => hds d' (by simp [hd'])

private theorem foldl_max_eq_iff {filled n : Nat} (hn : n ≤ filled)
    (hds : ∀ d ∈ ds, d.2.filledQuantity ≤ filled) :
    ds.foldl (fun n d => max n d.2.filledQuantity) n = filled
      ↔ n = filled ∨ ∃ d ∈ ds, d.2.filledQuantity = filled := by
  induction ds generalizing n with
  | nil => simp
  | cons d ds ih =>
      have hd := hds d (by simp)
      have htail := ih (n := max n d.2.filledQuantity) (max_le hn hd)
        fun d' hd' => hds d' (by simp [hd'])
      simp only [List.foldl_cons, htail, List.mem_cons, exists_eq_or_imp]
      have hmax : max n d.2.filledQuantity = filled
          ↔ n = filled ∨ d.2.filledQuantity = filled := by omega
      rw [hmax, or_assoc]

/-- The final filled quantity was seen in time exactly when the row was
full to it when the final snapshot came. -/
theorem seenFilled_eq_iff (hack : Acknowledged h o)
    (hds : ∀ d ∈ ds, d.2 ∈ h.snapshots) :
    seenFilled h o.filledQuantity ds = h.final.filledQuantity
      ↔ FilledSeenBefore h o ds :=
  foldl_max_eq_iff hack.filled_le fun d hd =>
    h.filled_le (hds d (List.takeWhile_subset _ hd))

/-- Whatever of its history arrives, in whatever order, a row never
unfills and never leaves a terminal status. -/
theorem Order.advanceAll_advances (hack : Acknowledged h o)
    (hds : ∀ d ∈ ds, d.2 ∈ h.snapshots) {d : Delivery} (hd : d.2 ∈ h.snapshots) :
    (o.advanceAll money ds).filledQuantity
        ≤ ((o.advanceAll money ds).advance money d.2).filledQuantity
      ∧ ((o.advanceAll money ds).status.isTerminal = true →
        ((o.advanceAll money ds).advance money d.2).status
          = (o.advanceAll money ds).status) := by
  refine ⟨?_, fun hterm => by rw [Order.advance_terminal hterm]⟩
  by_cases hterm : (o.advanceAll money ds).status.isTerminal = true
  · rw [Order.advance_terminal hterm]
  have hwork : (o.advanceAll money ds).status.isTerminal = false := by simpa using hterm
  have hid : (o.advanceAll money ds).brokerOrderId = some h.final.brokerOrderId :=
    Order.advanceAll_brokerOrderId hack.bound
  by_cases hfinal : d.2 = h.final
  · obtain ⟨-, hfilled⟩ := Order.advance_final (h := h) hid hwork
    rw [hfinal, hfilled]
    have hrow := Order.advanceAll_eq money hack.bound hack.working hds
    by_cases hsome : ∃ d ∈ ds, d.2 = h.final
    · rw [if_pos hsome] at hrow
      rw [hrow.1, h.final_terminal] at hterm
      exact absurd rfl hterm
    · rw [if_neg hsome] at hrow
      split_ifs with hcomplete
      · rw [hrow.2]
        exact foldl_max_le hack.filled_le fun d hd =>
          h.filled_le (hds d (List.takeWhile_subset _ hd))
      · exact le_rfl
  · rw [(Order.advance_working money hid hwork (h.working_of_ne hd hfinal)).2]
    exact le_max_left _ _

/-- Order rows converge to the broker exactly when the order completed,
or its final filled quantity had arrived before its end did. -/
theorem orderRow_converges_iff (h : OrderHistory) (db : Db) (i : Nat)
    (o : Order) (ds : List Delivery) (ho : db.rows.orders[i]? = some o)
    (hack : Acknowledged h o) (hds : DeliveredFrom h ds) :
    Converges h db i ds
      ↔ h.final.status = .complete ∨ FilledSeenBefore h o ds := by
  have hrow := Order.advanceAll_eq db.rows.money hack.bound hack.working hds.mem
  simp only [hds.final, if_true] at hrow
  obtain ⟨hstatus, hfilled⟩ := hrow
  have hends : (∃ o', (deliverAll db ds).rows.orders[i]? = some o'
      ∧ o'.status = h.final.status ∧ o'.filledQuantity = h.final.filledQuantity)
      ↔ h.final.status = .complete ∨ FilledSeenBefore h o ds := by
    rw [deliverAll_row hack ho hds.mem, ← seenFilled_eq_iff hack hds.mem]
    simp only [Option.some.injEq, exists_eq_left', hstatus, true_and, hfilled]
    by_cases hcomplete : h.final.status = .complete <;> simp [hcomplete]
  refine ⟨fun hconv => hends.1 hconv.ends, fun hcond => ⟨hends.2 hcond, ?_⟩⟩
  intro before d rest hsplit o₁ o₂ h₁ h₂
  have hbefore : ∀ d ∈ before, d.2 ∈ h.snapshots := fun d' hd' =>
    hds.mem d' (by rw [hsplit]; simp [hd'])
  have hd : d.2 ∈ h.snapshots := hds.mem d (by rw [hsplit]; simp)
  rw [deliverAll_row hack ho hbefore] at h₁
  have hupto : ∀ d' ∈ before ++ [d], d'.2 ∈ h.snapshots := fun d' hd' =>
    hds.mem d' (by rw [hsplit]; simp at hd' ⊢; tauto)
  rw [deliverAll_row hack ho hupto] at h₂
  cases h₁
  cases h₂
  simpa [Order.advanceAll] using Order.advanceAll_advances hack hbefore hd

-- =========================================================== an instance

namespace Sample

/-- The day of the sample runs. -/
def day : Date := SampleDay.ctx.today

/-- One open order row of 75, acknowledged as `A1`. -/
def openRow : Order :=
  { tradeId := 0, intentId := none, purpose := .entry, transactionType := .sell,
    orderType := .market, quantity := 75, status := .open,
    brokerOrderId := some "A1", brokerTag := some "E0-240704-CE" }

/-- The rows around it. -/
def openRows : Rows where
  instances := [{ strategyId := "strategy_1", instrument := "NIFTY",
                  accountId := 1, exchange := .nfo, status := .active }]
  positions := [{ strategyInstanceId := 0, tradeDate := day,
                  state := .entryPending }]
  trades := [{ positionId := 0, optionType := .ce,
               tradingSymbol := "NIFTY24JUL24500CE", exchange := .nfo,
               strike := 24500, quantity := 75 }]
  orders := [openRow]

def openDb : Db := ⟨openRows, by decide⟩

/-- A snapshot of the order `id`. -/
def snapshot (id tag : String) (status : OrderStatus) (filled : Nat)
    (price : Option ℚ) (hle : filled ≤ 75) : BrokerOrder :=
  { brokerOrderId := id, tag := some tag, status, exchange := .nfo,
    tradingsymbol := "NIFTY24JUL24500CE", transactionType := .sell,
    product := .intraday, orderType := .market, quantity := 75,
    filledQuantity := filled, averagePrice := price, statusMessage := none,
    quantity_pos := Nat.succ_pos 74, filled_le := hle }

/-- Filled 25, then cancelled: 25 stand. -/
def cancelledPartly : OrderHistory where
  progress := [snapshot "A1" "E0-240704-CE" .open 25 (some 100) (by decide)]
  final := snapshot "A1" "E0-240704-CE" .cancelled 25 (some 100) (by decide)
  id_ne := by decide
  same_id := by decide
  same_quantity := by decide
  working := by decide
  ended := by decide
  nondecreasing := by decide

theorem openRow_acknowledged : Acknowledged cancelledPartly openRow :=
  ⟨rfl, rfl, rfl, by decide⟩

end Sample

/-- The push stream loses the partial fill and delivers the cancellation:
the row ends CANCELLED with nothing filled, and 25 stand. -/
theorem orderRow_not_converging :
    ¬ ∀ (h : OrderHistory) (db : Db) (i : Nat) (o : Order)
        (ds : List Delivery), db.rows.orders[i]? = some o →
        Acknowledged h o → DeliveredFrom h ds → Converges h db i ds := by
  intro hclaim
  have hconv := hclaim Sample.cancelledPartly Sample.openDb 0 Sample.openRow
    [(.push, Sample.cancelledPartly.final)] rfl Sample.openRow_acknowledged
    ⟨by decide, by decide⟩
  obtain ⟨o, ho, -, hfilled⟩ := hconv.ends
  have hrow : ((deliverAll Sample.openDb
      [(.push, Sample.cancelledPartly.final)]).rows.orders[0]?).map
        (·.filledQuantity) = some 0 := by decide
  rw [ho, Option.map_some, hfilled] at hrow
  exact absurd hrow (by decide)

/-- With the partial fill delivered first, the same order's row
converges. -/
theorem orderRow_converges_cancelledPartly :
    Converges Sample.cancelledPartly Sample.openDb 0
        (Sample.cancelledPartly.snapshots.map fun bo => (.poll, bo))
      ↔ Sample.cancelledPartly.final.status = .complete
        ∨ FilledSeenBefore Sample.cancelledPartly Sample.openRow
          (Sample.cancelledPartly.snapshots.map fun bo => (.poll, bo)) :=
  orderRow_converges_iff _ _ _ _ _ rfl Sample.openRow_acknowledged
    ⟨by decide, by decide⟩

end AlgoPlatform
