/-
The simulated broker's orders, fills and positions tell one story.

# What holds in every state

`Sound` ties the three together: an order's filled quantity and average
price are those of its fills, it is complete only when nothing is left to
fill, and a position is the sum of what its orders filled. `Onward` is
what one state keeps of an earlier one: fills are not taken back and a
terminal status stays.

# How it is kept

The broker changes an order in one way, by writing it back with some
fills, none for a cancel or a modification (`rewrite_keeps`). Everything
else it does leaves orders, fills and positions alone, or appends an order
nothing was filled of. So each part of a call keeps both, and so does any
run (`lifecycle`), whatever is drawn, whatever the clock says, and also
when prices or callbacks raise.
-/
import Mathlib.Algebra.BigOperators.Group.List.Basic
import Mathlib.Algebra.Order.Field.Rat
import Mathlib.Data.Int.Cast.Lemmas
import AlgoPlatform.Model.SimulationBroker

open Basis

namespace AlgoPlatform

-- =============================================== statement vocabulary

/-- What an order filled, with the sign of its side. -/
def SimOrder.signedFilled (o : SimOrder) : Int :=
  o.transactionType.signed o.filledQuantity

/-- How much some fills filled. -/
def quantityOf (fills : List Fill) : Int := (fills.map Fill.quantity).sum

/-- What some fills cost. -/
def valueOf (fills : List Fill) : ℚ :=
  (fills.map fun fill => fill.price * (fill.quantity : ℚ)).sum

/-- The quantity-weighted mean price of some fills. -/
def meanPrice (fills : List Fill) : Option ℚ :=
  if fills = [] then none else some (valueOf fills / quantityOf fills)

namespace SimulationBroker

/-- The fills of an order. -/
def fillsOf (b : SimulationBroker) (i : Nat) : List Fill :=
  b.fills.filter (·.brokerOrderId = i)

/-- The signed filled quantity of all orders of a position. -/
def booked (b : SimulationBroker) (key : PositionKey) : Int :=
  (b.orders.map fun o => if o.key = key then o.signedFilled else 0).sum

/-- An order agrees with its fills. -/
structure OrderSound (o : SimOrder) (fills : List Fill) : Prop where
  filled_nonneg : 0 ≤ o.filledQuantity
  filled_le : o.filledQuantity ≤ o.quantity
  quantity_pos : 0 < o.quantity
  complete : o.status = .complete → o.filledQuantity = o.quantity
  filled : o.filledQuantity = quantityOf fills
  average : o.averagePrice = meanPrice fills

/-- The book, the fills and the positions agree. -/
structure Sound (b : SimulationBroker) : Prop where
  orders : ∀ i o, b.orders[i]? = some o → OrderSound o (b.fillsOf i)
  ledger : ∀ key, (b.position key).quantity = b.booked key
  known : ∀ fill ∈ b.fills,
    fill.brokerOrderId < b.orders.length ∧ 0 < fill.quantity

/-- What a later state keeps of the orders. -/
def Onward (b b' : SimulationBroker) : Prop :=
  ∀ (i : Nat) (o : SimOrder), b.orders[i]? = some o →
    ∃ o', b'.orders[i]? = some o'
    ∧ o.filledQuantity ≤ o'.filledQuantity
    ∧ (o.status.isTerminal → o'.status = o.status)

theorem Onward.refl (b : SimulationBroker) : Onward b b :=
  fun _ o ho => ⟨o, ho, le_refl _, fun _ => rfl⟩

theorem Onward.trans {b b' b'' : SimulationBroker} (h : Onward b b')
    (h' : Onward b' b'') : Onward b b'' := by
  intro i o ho
  obtain ⟨o', ho', hle, hterminal⟩ := h i o ho
  obtain ⟨o'', ho'', hle', hterminal'⟩ := h' i o' ho'
  refine ⟨o'', ho'', hle.trans hle', fun ht => ?_⟩
  have hstatus := hterminal ht
  exact (hterminal' (hstatus ▸ ht)).trans hstatus

/-- From a sound state this leads onward to a sound state. -/
def Keeps (b b' : SimulationBroker) : Prop := Sound b → Sound b' ∧ Onward b b'

theorem Keeps.refl (b : SimulationBroker) : Keeps b b := fun h => ⟨h, .refl b⟩

theorem Keeps.trans {b b' b'' : SimulationBroker} (h : Keeps b b')
    (h' : Keeps b' b'') : Keeps b b'' := by
  intro hb
  obtain ⟨hb', honward⟩ := h hb
  obtain ⟨hb'', honward'⟩ := h' hb'
  exact ⟨hb'', honward.trans honward'⟩

/-- A state with the same orders, fills and positions. -/
theorem keeps_of_eq {b b' : SimulationBroker} (horders : b'.orders = b.orders)
    (hfills : b'.fills = b.fills) (hpositions : b'.positions = b.positions) :
    Keeps b b' := by
  intro h
  refine ⟨⟨?_, ?_, ?_⟩, ?_⟩
  · rw [horders]
    unfold fillsOf
    rw [hfills]
    exact h.orders
  · unfold position booked
    rw [horders, hpositions]
    exact h.ledger
  · rw [horders, hfills]
    exact h.known
  · intro i o ho
    rw [← horders] at ho
    exact ⟨o, ho, le_refl _, fun _ => rfl⟩

-- ============================================================== writing

/-- `_update_position` adds the signed quantity. -/
theorem updatePosition_quantity (position : SimPosition)
    (side : TransactionType) (filledQty : Int) (fillPrice : ℚ) :
    (updatePosition position side filledQty fillPrice).quantity
      = position.quantity + side.signed filledQty := by
  unfold updatePosition
  dsimp only
  split
  · split
    · rename_i hflat
      exact hflat.symm
    · rfl
  · rfl

theorem quantityOf_append (fills more : List Fill) :
    quantityOf (fills ++ more) = quantityOf fills + quantityOf more := by
  unfold quantityOf
  rw [List.map_append, List.sum_append]

theorem valueOf_append (fills more : List Fill) :
    valueOf (fills ++ more) = valueOf fills + valueOf more := by
  unfold valueOf
  rw [List.map_append, List.sum_append]

theorem quantityOf_pos {fills : List Fill} (hne : fills ≠ [])
    (hpos : ∀ fill ∈ fills, 0 < fill.quantity) : 0 < quantityOf fills := by
  induction fills with
  | nil => exact absurd rfl hne
  | cons fill fills ih =>
      obtain ⟨hfill, hfills⟩ := List.forall_mem_cons.1 hpos
      show 0 < fill.quantity + quantityOf fills
      by_cases hnil : fills = []
      · subst hnil
        simpa [quantityOf] using hfill
      · have := ih hnil hfills
        omega

/-- Writing one order back changes a position's sum by what that order
filled more. -/
theorem booked_set {b : SimulationBroker} {i : Nat} {o new : SimOrder}
    (ho : b.orders[i]? = some o) (hkey : new.key = o.key)
    (key : PositionKey) :
    ({ b with orders := b.orders.set i new }).booked key
      = b.booked key
        + if o.key = key then new.signedFilled - o.signedFilled else 0 := by
  obtain ⟨hi, rfl⟩ := List.getElem?_eq_some_iff.1 ho
  unfold booked
  dsimp only
  rw [List.map_set, List.sum_set', dif_pos (by simpa using hi),
    List.getElem_map, hkey]
  by_cases hk : b.orders[i].key = key
  · simp only [hk, if_true]
    omega
  · simp [hk]

/-- The signs of a side distribute. -/
theorem signed_sub (side : TransactionType) (q q' : Int) :
    side.signed (q + q') - side.signed q = side.signed q' := by
  cases side with
  | buy => show q + q' - q = q'; omega
  | sell => show -(q + q') - -q = -q'; omega

/-- The one way an order changes: it is written back with some fills of its
own, and its position moves by them. -/
theorem rewrite_keeps {b b' : SimulationBroker} {i : Nat} {o new : SimOrder}
    (fs : List Fill) (ho : b.orders[i]? = some o)
    (hlive : o.status.isTerminal = false)
    (horders : b'.orders = b.orders.set i new)
    (hfills : b'.fills = b.fills ++ fs)
    (hown : ∀ fill ∈ fs, fill.brokerOrderId = i ∧ 0 < fill.quantity)
    (hposition : ∀ key, (b'.position key).quantity = (b.position key).quantity
      + if o.key = key then o.transactionType.signed (quantityOf fs) else 0)
    (hkey : new.key = o.key) (hside : new.transactionType = o.transactionType)
    (hfilled : new.filledQuantity = o.filledQuantity + quantityOf fs)
    (hnew : Sound b → OrderSound new (b.fillsOf i ++ fs)) : Keeps b b' := by
  intro h
  obtain ⟨hi, _⟩ := List.getElem?_eq_some_iff.1 ho
  have hfillsOf : ∀ j, b'.fillsOf j
      = b.fillsOf j ++ if j = i then fs else [] := by
    intro j
    unfold fillsOf
    rw [hfills, List.filter_append]
    congr 1
    by_cases hj : j = i
    · subst hj
      rw [if_pos rfl, List.filter_eq_self]
      exact fun fill hfill => decide_eq_true (hown fill hfill).1
    · rw [if_neg hj, List.filter_eq_nil_iff]
      intro fill hfill
      simpa [(hown fill hfill).1] using Ne.symm hj
  refine ⟨⟨?_, ?_, ?_⟩, ?_⟩
  · intro j o' ho'
    rw [hfillsOf]
    rw [horders] at ho'
    by_cases hj : i = j
    · subst hj
      rw [List.getElem?_set_self hi] at ho'
      cases ho'
      simpa using hnew h
    · rw [List.getElem?_set_ne hj] at ho'
      rw [if_neg (Ne.symm hj), List.append_nil]
      exact h.orders j o' ho'
  · intro key
    have hbooked : b'.booked key = ({ b with orders := b.orders.set i new }
        : SimulationBroker).booked key := by
      unfold booked
      rw [horders]
    rw [hposition, hbooked, booked_set ho hkey, h.ledger]
    congr 1
    unfold SimOrder.signedFilled
    rw [hside, hfilled, signed_sub]
  · intro fill hfill
    rw [horders, List.length_set]
    rw [hfills] at hfill
    rcases List.mem_append.1 hfill with hold | hmore
    · exact h.known fill hold
    · obtain ⟨rfl, hpos⟩ := hown fill hmore
      exact ⟨hi, hpos⟩
  · intro j o' ho'
    rw [horders]
    by_cases hj : i = j
    · subst hj
      rw [ho] at ho'
      cases ho'
      refine ⟨new, List.getElem?_set_self hi, ?_, fun ht => ?_⟩
      · rw [hfilled]
        by_cases hnil : fs = []
        · subst hnil
          simp [quantityOf]
        · have := quantityOf_pos hnil fun fill hfill => (hown fill hfill).2
          omega
      · rw [hlive] at ht
        cases ht
    · exact ⟨o', by rw [List.getElem?_set_ne hj, ho'], le_refl _, fun _ => rfl⟩

/-- Writing an order back without a fill. -/
theorem write_keeps {b : SimulationBroker} {i : Nat} {o new : SimOrder}
    (ho : b.orders[i]? = some o) (hlive : o.status.isTerminal = false)
    (hkey : new.key = o.key) (hside : new.transactionType = o.transactionType)
    (hfilled : new.filledQuantity = o.filledQuantity)
    (haverage : new.averagePrice = o.averagePrice)
    (hle : o.filledQuantity ≤ o.quantity → new.filledQuantity ≤ new.quantity)
    (hquantity : 0 < o.quantity → 0 < new.quantity)
    (hcomplete : new.status = .complete → new.quantity ≤ new.filledQuantity) :
    Keeps b (write i o new b).2 := by
  refine rewrite_keeps [] ho hlive rfl (List.append_nil _).symm nofun
    (fun key => ?_) hkey hside (by simp [hfilled, quantityOf]) fun h => ?_
  · simp only [quantityOf, List.map_nil, List.sum_nil]
    cases o.transactionType <;> simp [TransactionType.signed] <;> rfl
  · obtain ⟨hnonneg, hle', hpos, _, hfill, havg⟩ := h.orders i o ho
    rw [List.append_nil]
    refine ⟨hfilled ▸ hnonneg, hle hle', hquantity hpos, fun hc => ?_,
      hfilled.trans hfill, haverage.trans havg⟩
    have := hcomplete hc
    have := hle hle'
    omega

/-- The mean with one more fill, as `_apply_fill` computes it. -/
theorem meanPrice_snoc {fills : List Fill} {fill : Fill}
    (hpos : ∀ f ∈ fills, 0 < f.quantity) :
    meanPrice (fills ++ [fill])
      = some (((meanPrice fills).getD 0 * quantityOf fills
          + fill.price * fill.quantity) / (quantityOf fills + fill.quantity : Int)) := by
  have hvalue : valueOf [fill] = fill.price * fill.quantity := by
    simp [valueOf]
  have hquantity : quantityOf [fill] = fill.quantity := by simp [quantityOf]
  have hcost : (meanPrice fills).getD 0 * quantityOf fills = valueOf fills := by
    unfold meanPrice
    by_cases hnil : fills = []
    · subst hnil
      simp [valueOf, quantityOf]
    · have hne : (quantityOf fills : ℚ) ≠ 0 :=
        Int.cast_ne_zero.2 (quantityOf_pos hnil hpos).ne'
      rw [if_neg hnil, Option.getD_some, div_mul_cancel₀ _ hne]
  rw [hcost]
  unfold meanPrice
  rw [if_neg (by simp), valueOf_append, quantityOf_append, hvalue, hquantity]

-- ============================================================= matching

section FinishStep

variable (cfg : SimulationConfig) (now : ℚ) (o : SimOrder)

@[simp] theorem finishStep_key : (o.finishStep cfg now).key = o.key := by
  unfold SimOrder.finishStep
  split <;> rfl

@[simp] theorem finishStep_side :
    (o.finishStep cfg now).transactionType = o.transactionType := by
  unfold SimOrder.finishStep
  split <;> rfl

@[simp] theorem finishStep_quantity :
    (o.finishStep cfg now).quantity = o.quantity := by
  unfold SimOrder.finishStep
  split <;> rfl

@[simp] theorem finishStep_filled :
    (o.finishStep cfg now).filledQuantity = o.filledQuantity := by
  unfold SimOrder.finishStep
  split <;> rfl

@[simp] theorem finishStep_average :
    (o.finishStep cfg now).averagePrice = o.averagePrice := by
  unfold SimOrder.finishStep
  split <;> rfl

/-- A step completes an order only when nothing is left to fill. -/
theorem finishStep_complete (h : (o.finishStep cfg now).status = .complete) :
    o.quantity ≤ o.filledQuantity := by
  unfold SimOrder.finishStep at h
  split at h
  · assumption
  · cases h

end FinishStep

variable {cfg : SimulationConfig} {env : SimAnswers} {b : SimulationBroker}

/-- A step fills at most what is left. -/
theorem stepQty_le (o : SimOrder) :
    o.stepQty ≤ o.quantity - o.filledQuantity := by
  unfold SimOrder.stepQty
  dsimp only
  split
  · exact le_refl _
  · exact min_le_right _ _

/-- A fill moves the position of its order and no other. -/
theorem applyFill_position (i : Nat) (o : SimOrder) (filledDelta : Int)
    (fillPrice : ℚ) (key : PositionKey) :
    (b.applyFill i o filledDelta fillPrice).position key
      = if key = o.key then updatePosition (b.position o.key)
          o.transactionType filledDelta fillPrice
        else b.position key := by
  unfold position applyFill
  dsimp only
  rw [Dict.get_put]
  split <;> rfl

/-- A step of the plan that fills something. -/
theorem fill_keeps {i : Nat} {o : SimOrder} {filledDelta : Int}
    {fillPrice now : ℚ} (ho : b.orders[i]? = some o)
    (hlive : o.status.isTerminal = false) (hpos : 0 < filledDelta)
    (hle : filledDelta ≤ o.quantity - o.filledQuantity) :
    Keeps b (write i o ((o.fill filledDelta fillPrice).finishStep cfg now)
      (b.applyFill i o filledDelta fillPrice)).2 := by
  have hquantity : quantityOf [⟨i, filledDelta, fillPrice⟩] = filledDelta := by
    simp [quantityOf]
  refine rewrite_keeps [⟨i, filledDelta, fillPrice⟩] ho hlive rfl rfl
    (by simpa using hpos) (fun key => ?_) (finishStep_key ..)
    (finishStep_side ..) ?_ fun h => ?_
  · rw [hquantity]
    show ((b.applyFill i o filledDelta fillPrice).position key).quantity = _
    rw [applyFill_position]
    by_cases hk : key = o.key
    · subst hk
      rw [if_pos rfl, if_pos rfl, updatePosition_quantity]
    · rw [if_neg hk, if_neg (Ne.symm hk), Int.add_zero]
  · rw [hquantity]
    exact finishStep_filled ..
  · obtain ⟨hnonneg, _, hq, _, hfilled, haverage⟩ := h.orders i o ho
    have hknown : ∀ f ∈ b.fillsOf i, 0 < f.quantity := fun f hf =>
      (h.known f (List.mem_of_mem_filter hf)).2
    refine ⟨?_, ?_, ?_, ?_, ?_, ?_⟩
    · rw [finishStep_filled]
      show 0 ≤ o.filledQuantity + filledDelta
      omega
    · rw [finishStep_filled, finishStep_quantity]
      show o.filledQuantity + filledDelta ≤ o.quantity
      omega
    · rw [finishStep_quantity]
      exact hq
    · intro hc
      have hdone : o.quantity ≤ o.filledQuantity + filledDelta :=
        finishStep_complete _ _ _ hc
      rw [finishStep_filled, finishStep_quantity]
      show o.filledQuantity + filledDelta = o.quantity
      omega
    · rw [finishStep_filled, quantityOf_append, hquantity, ← hfilled]
      rfl
    · rw [finishStep_average, meanPrice_snoc hknown, ← haverage, ← hfilled]
      rfl

instance : Std.Refl Keeps := ⟨Keeps.refl⟩
instance : IsTrans SimulationBroker Keeps := ⟨fun _ _ _ => Keeps.trans⟩

/-- An order's turn in a pass. -/
theorem processDueOrder_keeps {force : Bool} {now : ℚ}
    {getLtp : Except Exc ℚ} {i : Nat} {o : SimOrder}
    (ho : b.orders[i]? = some o) :
    Keeps b (processDueOrder cfg force now getLtp i o b).2 := by
  unfold processDueOrder
  by_cases hterminal : o.status.isTerminal = true
  · rw [if_pos hterminal]
    exact .refl b
  have hlive : o.status.isTerminal = false := Bool.eq_false_iff.2 hterminal
  rw [if_neg hterminal]
  split
  · exact .refl b
  split
  · exact write_keeps ho hlive rfl rfl rfl rfl id id nofun
  cases getLtp with
  | error e => exact .refl b
  | ok fillPrice =>
      rw [Step.bind_ok (Step.lift_apply ..)]
      split
      · rename_i hstep
        exact fill_keeps ho hlive hstep (stepQty_le o)
      · exact write_keeps ho hlive (finishStep_key ..) (finishStep_side ..)
          (finishStep_filled ..) (finishStep_average ..)
          (fun hle => by simpa using hle) (fun hq => by simpa using hq)
          (fun hc => by simpa using finishStep_complete _ _ _ hc)

-- ============================================================= dispatch

/-- Handing updates to callbacks touches nothing of the book. -/
structure SameBook (b b' : SimulationBroker) : Prop where
  orders : b'.orders = b.orders
  fills : b'.fills = b.fills
  positions : b'.positions = b.positions
  changes : b'.changes = b.changes
  callbacks : b'.callbacks = b.callbacks
  wsConnected : b'.wsConnected = b.wsConnected
  matching : b'.matching = b.matching

theorem SameBook.keeps {b b' : SimulationBroker} (h : SameBook b b') :
    Keeps b b' :=
  keeps_of_eq h.orders h.fills h.positions

instance : Std.Refl SameBook := ⟨fun _ => ⟨rfl, rfl, rfl, rfl, rfl, rfl, rfl⟩⟩

instance : IsTrans SimulationBroker SameBook := ⟨fun _ _ _ h h' =>
  ⟨h'.orders.trans h.orders, h'.fills.trans h.fills,
    h'.positions.trans h.positions, h'.changes.trans h.changes,
    h'.callbacks.trans h.callbacks, h'.wsConnected.trans h.wsConnected,
    h'.matching.trans h.matching⟩⟩

theorem callAll_same (hears : Nat → Option Exc) (update : Update)
    (callbacks : List Nat) :
    Step.Leads SameBook (callAll hears update callbacks) := by
  induction callbacks with
  | nil => exact Step.Leads.pure _
  | cons callback callbacks ih =>
      refine Step.Leads.bind (.modify fun b => ?_) fun _ => ?_
      · exact ⟨rfl, rfl, rfl, rfl, rfl, rfl, rfl⟩
      · cases hears callback with
        | some e => exact Step.Leads.lift _
        | none => exact ih

theorem dispatchOrderUpdate_same (hears : Nat → Option Exc)
    (update : Update) :
    Step.Leads SameBook (dispatchOrderUpdate hears update) := by
  refine Step.Leads.bind .get fun b => ?_
  split
  · exact callAll_same hears update _
  · exact Step.Leads.pure _

theorem dispatchAll_same (env : SimAnswers) (pass : Nat)
    (updates : List Update) :
    Step.Leads SameBook (dispatchAll env pass updates) := by
  induction updates with
  | nil => exact Step.Leads.pure _
  | cons update updates ih =>
      exact (dispatchOrderUpdate_same _ update).bind fun _ => ih

-- ================================================================= pump

section Pump

/- What every turn and every dispatch does, the whole matching does. -/
variable {R : SimulationBroker → SimulationBroker → Prop} [Std.Refl R]
  [IsTrans SimulationBroker R]
  (hturn : ∀ (force : Bool) (now : ℚ) (getLtp : Except Exc ℚ) (i : Nat)
    (o : SimOrder) (b : SimulationBroker), b.orders[i]? = some o →
    R b (processDueOrder cfg force now getLtp i o b).2)
  (hsame : ∀ b b', SameBook b b' → R b b')

include hturn in
theorem processAll_leads (force : Bool) (pass : Nat) (ids : List Nat) :
    Step.Leads R (processAll cfg force env pass ids) := by
  induction ids with
  | nil => exact Step.Leads.pure _
  | cons i ids ih =>
      have hfirst : Step.Leads R (processTurn cfg force env pass i) := by
        intro b
        unfold processTurn
        rw [Step.bind_ok (Step.get_apply b)]
        cases ho : b.orders[i]? with
        | none => exact Std.Refl.refl b
        | some o => exact hturn _ _ _ i o b ho
      refine hfirst.bind fun updated => ?_
      exact ih.bind fun updates => Step.Leads.pure _

include hturn hsame

theorem resolveDueOrders_leads (force : Bool) (pass : Nat) :
    Step.Leads R (resolveDueOrders cfg force env pass) := by
  refine Step.Leads.get.bind fun b => ?_
  refine (processAll_leads hturn force pass _).bind fun updates => ?_
  exact Step.Leads.bind
    (fun b => hsame _ _ (dispatchAll_same env pass updates b))
    fun _ => Step.Leads.pure _

theorem pump_leads : Step.Leads R (pump cfg env) := by
  have hdrain : ∀ fuel pass, Step.Leads R (drain cfg env fuel pass) := by
    intro fuel
    induction fuel with
    | zero => exact fun _ => Step.Leads.pure _
    | succ fuel ih =>
        intro pass
        refine (resolveDueOrders_leads hturn hsame true pass).bind
          fun updates => ?_
        split
        · exact Step.Leads.pure _
        · exact ih (pass + 1)
  refine Step.Leads.get.bind fun b => ?_
  split
  · exact hdrain _ 0
  · exact (resolveDueOrders_leads hturn hsame false 0).bind
      fun _ => Step.Leads.pure _

end Pump

theorem resolveDueOrders_keeps (force : Bool) (pass : Nat) :
    Step.Leads Keeps (resolveDueOrders cfg force env pass) :=
  resolveDueOrders_leads (fun _ _ _ _ _ _ ho => processDueOrder_keeps ho)
    (fun _ _ h => h.keeps) force pass

theorem pump_keeps : Step.Leads Keeps (pump cfg env) :=
  pump_leads (fun _ _ _ _ _ _ ho => processDueOrder_keeps ho)
    fun _ _ h => h.keeps

-- ================================================================ calls

/-- A new order has no fills, and its position stays. -/
theorem record_keeps (request : PlaceOrderRequest) :
    Keeps b (b.record cfg env request) := by
  intro h
  have hfresh : b.fillsOf b.orders.length = [] := by
    unfold fillsOf
    rw [List.filter_eq_nil_iff]
    intro fill hfill
    have := (h.known fill hfill).1
    simp
    omega
  refine ⟨⟨?_, ?_, ?_⟩, ?_⟩
  · intro i o ho
    show OrderSound o (b.fillsOf i)
    unfold record at ho
    by_cases hi : i < b.orders.length
    · rw [List.getElem?_append_left hi] at ho
      exact h.orders i o ho
    · obtain rfl : i = b.orders.length := by
        have := (List.getElem?_eq_some_iff.1 ho).1
        rw [List.length_append, List.length_singleton] at this
        omega
      rw [List.getElem?_concat_length] at ho
      cases ho
      rw [hfresh]
      have hq := request.quantity_pos
      exact ⟨le_refl _, Int.natCast_nonneg _, Int.natCast_pos.2 hq, nofun, rfl,
        rfl⟩
  · intro key
    have hnone : ∀ o : SimOrder, o.filledQuantity = 0 → (if o.key = key then
        o.signedFilled else 0) = 0 := by
      intro o hzero
      unfold SimOrder.signedFilled
      rw [hzero]
      cases o.transactionType <;> simp [TransactionType.signed]
    unfold booked record
    dsimp only
    rw [List.map_append, List.sum_append, List.map_singleton,
      List.sum_singleton, hnone _ rfl, Int.add_zero]
    exact h.ledger key
  · intro fill hfill
    obtain ⟨hlt, hpos⟩ := h.known fill hfill
    refine ⟨?_, hpos⟩
    unfold record
    rw [List.length_append]
    omega
  · intro i o ho
    refine ⟨o, ?_, le_refl _, fun _ => rfl⟩
    unfold record
    rw [List.getElem?_append_left (List.getElem?_eq_some_iff.1 ho).1]
    exact ho

theorem placeOrder_keeps (request : PlaceOrderRequest)
    (timeout : Option ℚ) :
    Step.Leads Keeps (placeOrder cfg env request timeout) := by
  refine Step.Leads.get.bind fun b => ?_
  refine (Step.Leads.lift _).bind fun _ => ?_
  refine (Step.Leads.modify fun b => record_keeps request).bind fun _ => ?_
  split
  · exact Step.Leads.lift _
  · exact pump_keeps.bind fun _ => Step.Leads.pure _

/-- What is known of an order that `modify_order` goes on with. -/
theorem checkModifying_ok {request : ModifyOrderRequest} {timeout : Option ℚ}
    {o : SimOrder} (h : b.checkModifying cfg env request timeout = .ok o) :
    b.orders[request.brokerOrderId]? = some o ∧ o.status.isTerminal = false
      ∧ ∀ q, request.quantity = some q → o.filledQuantity ≤ q := by
  obtain ⟨_, _, h⟩ := except_bind_ok h
  obtain ⟨_, _, h⟩ := except_bind_ok h
  cases ho : b.orders[request.brokerOrderId]? with
  | none => rw [ho] at h; cases h
  | some found =>
      rw [ho] at h
      dsimp only at h
      split at h
      · cases h
      · rename_i hlive
        split at h
        · cases h
        · rename_i hquantity
          cases h
          refine ⟨rfl, Bool.eq_false_iff.2 hlive, fun q hq => ?_⟩
          rw [hq] at hquantity
          simpa using hquantity

/-- What is known of an order that `cancel_order` goes on with. -/
theorem checkCancelling_ok {brokerOrderId : Nat} {timeout : Option ℚ}
    {o : SimOrder}
    (h : b.checkCancelling cfg env brokerOrderId timeout = .ok o) :
    b.orders[brokerOrderId]? = some o ∧ o.status.isTerminal = false := by
  obtain ⟨_, _, h⟩ := except_bind_ok h
  obtain ⟨_, _, h⟩ := except_bind_ok h
  cases ho : b.orders[brokerOrderId]? with
  | none => rw [ho] at h; cases h
  | some found =>
      rw [ho] at h
      dsimp only at h
      split at h
      · cases h
      · rename_i hlive
        cases h
        exact ⟨rfl, Bool.eq_false_iff.2 hlive⟩

theorem modifyOrder_keeps (request : ModifyOrderRequest)
    (timeout : Option ℚ) :
    Step.Leads Keeps (modifyOrder cfg env request timeout) := by
  intro b
  unfold modifyOrder
  rw [Step.bind_ok (Step.get_apply b)]
  refine Step.bind_leads (R := Keeps) (.refl b) fun o ho => ?_
  obtain ⟨ho, hlive, hquantity⟩ := checkModifying_ok ho
  refine Step.bind_leads (R := Keeps) ?_ fun updated _ =>
    (dispatchOrderUpdate_same _ updated _).keeps
  refine write_keeps ho hlive rfl rfl rfl rfl (fun hle => ?_)
    (fun hpos => ?_) fun hc => ?_
  · show o.filledQuantity ≤ request.quantity.getD o.quantity
    cases hq : request.quantity with
    | none => exact hle
    | some q => exact hquantity q hq
  · show 0 < request.quantity.getD o.quantity
    cases hq : request.quantity with
    | none => exact hpos
    | some q => exact request.quantity_pos q hq
  · have hstatus : o.status = .complete := hc
    rw [hstatus] at hlive
    cases hlive

theorem cancelOrder_keeps (brokerOrderId : Nat) (timeout : Option ℚ) :
    Step.Leads Keeps (cancelOrder cfg env brokerOrderId timeout) := by
  intro b
  unfold cancelOrder
  rw [Step.bind_ok (Step.get_apply b)]
  refine Step.bind_leads (R := Keeps) (.refl b) fun o ho => ?_
  obtain ⟨ho, hlive⟩ := checkCancelling_ok ho
  exact Step.bind_leads (R := Keeps)
    (write_keeps ho hlive rfl rfl rfl rfl id id nofun)
    fun updated _ => (dispatchOrderUpdate_same _ updated _).keeps

theorem read_keeps {α : Type} (timeout : Option ℚ)
    (look : SimulationBroker → Except Exc α) :
    Step.Leads Keeps (read cfg env timeout look) := by
  refine (Step.Leads.lift _).bind fun _ => pump_keeps.bind fun _ => ?_
  exact Step.Leads.get.bind fun b => Step.Leads.lift _

theorem tick_keeps : Keeps b (b.tick cfg env) := by
  have hpass : Keeps b (resolveDueOrders cfg false env 0 b).2 :=
    resolveDueOrders_keeps false 0 b
  unfold tick
  split
  · split
    · rename_i heq
      rw [heq] at hpass
      exact hpass.trans (keeps_of_eq rfl rfl rfl)
    · rename_i heq
      rw [heq] at hpass
      exact hpass
  · exact .refl b

-- ================================================================= runs

/-- One step of any kind. -/
theorem step_keeps (call : Op × SimAnswers) : Keeps b (step cfg b call) := by
  obtain ⟨op, env⟩ := call
  cases op with
  | authenticate =>
      show Keeps b (authenticate cfg b).2
      unfold authenticate
      split
      · exact .refl b
      · exact keeps_of_eq rfl rfl rfl
  | connectWebsocket =>
      show Keeps b (connectWebsocket cfg env b).2
      unfold connectWebsocket
      split
      · exact .refl b
      · exact keeps_of_eq rfl rfl rfl
  | disconnectWebsocket => exact keeps_of_eq rfl rfl rfl
  | registerOrderUpdateCallback => exact keeps_of_eq rfl rfl rfl
  | close => exact keeps_of_eq rfl rfl rfl
  | placeOrder request timeout => exact placeOrder_keeps request timeout b
  | modifyOrder request timeout => exact modifyOrder_keeps request timeout b
  | cancelOrder id timeout => exact cancelOrder_keeps id timeout b
  | getOrder id timeout => exact read_keeps timeout _ b
  | getOrders timeout => exact read_keeps timeout _ b
  | findOrderByTag tag timeout => exact read_keeps timeout _ b
  | getPositions timeout => exact read_keeps timeout _ b
  | tick => exact tick_keeps

theorem run_keeps (steps : List (Op × SimAnswers)) :
    Keeps b (b.run cfg steps) := by
  induction steps generalizing b with
  | nil => exact .refl b
  | cons call steps ih => exact (step_keeps call).trans ih

/-- A broker just started has no orders. -/
theorem sound_init (cfg : SimulationConfig) : Sound (init cfg) := by
  refine ⟨fun i o ho => ?_, fun _ => rfl, nofun⟩
  have hnone : ([] : List SimOrder)[i]? = some o := ho
  cases hnone

/-- In every state a run reaches the orders, their fills and the positions
agree, and whatever happens afterwards takes back no fill and leaves every
terminal status. -/
theorem lifecycle (cfg : SimulationConfig)
    (steps more : List (Op × SimAnswers)) :
    Sound ((init cfg).run cfg steps)
      ∧ Onward ((init cfg).run cfg steps)
          (((init cfg).run cfg steps).run cfg more) := by
  obtain ⟨hsound, _⟩ := (run_keeps steps : Keeps _ ((init cfg).run cfg steps))
    (sound_init cfg)
  exact ⟨hsound, (run_keeps more hsound).2⟩

end SimulationBroker

end AlgoPlatform
