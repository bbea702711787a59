/-
What a raising price source or callback does to the simulated broker.

# Which exception comes out

Matching asks for prices and hands out updates with no handler anywhere,
so the first exception ends the whole call. Which one that is depends only
on the book before and on what the injected parts answer, not on the
prices: how many passes touch an order is fixed by its plan
(`SimOrder.passesLeft`). `pump_result` says so.

# What is left behind

`place_order` matches after the order is in the book, so it is atomic
exactly if the first exception of the matching, if there is one, is the
timeout that callers take for an unknown outcome
(`placeOrder_atomic_iff`).
-/
import AlgoPlatform.Proofs.SimulatedLedger

open Basis

namespace AlgoPlatform

-- =============================================== statement vocabulary

/-- `BrokerTimeoutError`. -/
def Exc.isTimeout : Exc → Bool
  | .broker e => e.kind = .timeout
  | _ => false

/-- What an answer raises. -/
def raisedBy {α : Type} : Except Exc α → Option Exc
  | .error e => some e
  | .ok _ => none

/-- The order is worked on in a pass at this time. -/
def SimOrder.due (o : SimOrder) (force : Bool) (now : ℚ) : Bool :=
  !o.status.isTerminal && (force || decide (o.resolveAt ≤ now))

namespace SimulationBroker

/-- The order is touched by a pass. -/
def touched (b : SimulationBroker) (force : Bool) (env : SimAnswers)
    (pass i : Nat) : Bool :=
  b.orders[i]?.any (·.due force (env.now pass i))

/-- The order is one the matching rejects, for which it asks no price. -/
def rejects (b : SimulationBroker) (i : Nat) : Bool :=
  b.orders[i]?.any (·.outcome = .rejected)

/-- How many forced passes an order of the book takes. -/
def passesOf (b : SimulationBroker) (i : Nat) : Nat :=
  (b.orders[i]?.map SimOrder.passesLeft).getD 0

/-- The first price that is asked for and raises, among some orders in
their order. -/
def priceRaise (b : SimulationBroker) (env : SimAnswers) (pass : Nat)
    (touch : Nat → Bool) (ids : List Nat) : Option Exc :=
  ids.findSome? fun i =>
    if touch i && !b.rejects i then raisedBy (env.getLtp pass i) else none

/-- The first callback that raises when it is handed the orders' updates. -/
def callbackRaise (b : SimulationBroker) (env : SimAnswers) (pass : Nat)
    (ids : List Nat) : Option Exc :=
  if b.wsConnected then
    ids.findSome? fun i => (List.range b.callbacks).findSome? (env.hears pass i)
  else none

/-- The first exception of a pass that touches these orders. -/
def passRaise (b : SimulationBroker) (env : SimAnswers) (pass : Nat)
    (touch : Nat → Bool) : Option Exc :=
  let ids := List.range b.orders.length
  (b.priceRaise env pass touch ids).or
    (b.callbackRaise env pass (ids.filter touch))

/-- The first exception of the matching in a call: forced passes for as
long as an order's plan lasts, or one pass over the orders that are due. -/
def firstRaise (cfg : SimulationConfig) (env : SimAnswers)
    (b : SimulationBroker) : Option Exc :=
  if cfg.synchronous then
    (List.range b.passesLeft).findSome? fun pass =>
      b.passRaise env pass fun i => pass < b.passesOf i
  else b.passRaise env 0 (b.touched false env 0)

-- ================================================================ plans

/-- An order has passes left exactly if it is not terminal. -/
theorem passesLeft_pos (o : SimOrder) :
    0 < o.passesLeft ↔ o.status.isTerminal = false := by
  unfold SimOrder.passesLeft
  cases hterminal : o.status.isTerminal with
  | true => simp
  | false =>
      simp only [Bool.false_eq_true, if_false, iff_true]
      split
      · exact Nat.one_pos
      · unfold passesFor
        split
        · exact Nat.one_pos
        · exact Nat.one_pos
        · dsimp only
          split <;> omega

/-- A rejected order has none left. -/
theorem reject_passesLeft {o : SimOrder} (now : ℚ)
    (hlive : o.status.isTerminal = false) (houtcome : o.outcome = .rejected) :
    (o.reject now).passesLeft = o.passesLeft - 1 := by
  unfold SimOrder.passesLeft
  rw [hlive, houtcome]
  rfl

/-- A step of the plan uses up one pass, whatever the price. -/
theorem finishStep_passesLeft (cfg : SimulationConfig) (now : ℚ)
    {o filled : SimOrder} (hlive : o.status.isTerminal = false)
    (houtcome : o.outcome ≠ .rejected) (hquantity : filled.quantity = o.quantity)
    (hsteps : filled.remainingSteps = o.remainingSteps)
    (hstep : filled.stepQuantity = o.stepQuantity)
    (hsame : filled.outcome = o.outcome)
    (hfilled : filled.filledQuantity = o.filledQuantity + max 0 o.stepQty) :
    (filled.finishStep cfg now).passesLeft = o.passesLeft - 1 := by
  have hdone : filled.filledQuantity ≥ filled.quantity →
      (filled.finishStep cfg now).passesLeft = 0 := by
    intro h
    unfold SimOrder.finishStep
    rw [if_pos h]
    rfl
  have hplan : o.passesLeft = passesFor o.stepQuantity o.remainingSteps.toNat
      (o.quantity - o.filledQuantity) := by
    unfold SimOrder.passesLeft
    rw [hlive, if_neg (by simp), if_neg houtcome]
  rw [hplan]
  by_cases hlast : o.remainingSteps ≤ 1
  · have hqty : o.stepQty = o.quantity - o.filledQuantity := by
      unfold SimOrder.stepQty
      exact if_pos hlast
    rw [hdone (by rw [hfilled, hquantity, hqty]; omega)]
    have hone : o.remainingSteps.toNat = 0 ∨ o.remainingSteps.toNat = 1 := by
      omega
    rcases hone with h | h
    · rw [h]
      rfl
    · rw [h]
      rfl
  · have hqty : o.stepQty
        = min o.stepQuantity (o.quantity - o.filledQuantity) := by
      unfold SimOrder.stepQty
      exact if_neg hlast
    obtain ⟨steps, hsteps'⟩ : ∃ steps, o.remainingSteps.toNat = steps + 2 :=
      ⟨o.remainingSteps.toNat - 2, by omega⟩
    rw [hsteps', passesFor, ← hqty]
    by_cases hleft : o.quantity - o.filledQuantity - max 0 o.stepQty ≤ 0
    · rw [if_pos hleft, hdone (by rw [hfilled, hquantity]; omega)]
    · rw [if_neg hleft, Nat.add_sub_cancel_left]
      unfold SimOrder.finishStep
      rw [if_neg (by rw [hfilled, hquantity]; omega)]
      unfold SimOrder.passesLeft
      rw [if_neg (by simp [OrderStatus.isTerminal]), if_neg (hsame ▸ houtcome)]
      dsimp only
      rw [hsteps, hstep, hquantity, hfilled]
      congr 1
      · omega
      · omega

theorem finishStep_outcome (cfg : SimulationConfig) (now : ℚ) (o : SimOrder) :
    (o.finishStep cfg now).outcome = o.outcome := by
  unfold SimOrder.finishStep
  split <;> rfl

-- ================================================================ turns

/-- What a part of a pass did that touched these orders and raised
nothing. -/
structure Passed (b b' : SimulationBroker) (ids : List Nat)
    (touch : Nat → Bool) (updates : List Update) : Prop where
  length : b'.orders.length = b.orders.length
  others : ∀ i, i ∉ ids → b'.orders[i]? = b.orders[i]?
  passes : ∀ i ∈ ids,
    b'.passesOf i = if touch i then b.passesOf i - 1 else b.passesOf i
  rejects : ∀ i, b'.rejects i = b.rejects i
  announced : updates.map (·.brokerOrderId) = ids.filter touch
  changes : b'.changes = b.changes ++ updates.filter (·.changed)
  delivered : b'.delivered = b.delivered
  callbacks : b'.callbacks = b.callbacks
  wsConnected : b'.wsConnected = b.wsConnected
  matching : b'.matching = b.matching

/-- Nothing was touched. -/
theorem passed_untouched {b : SimulationBroker} {i : Nat}
    {touch : Nat → Bool} (h : touch i = false) : Passed b b [i] touch [] where
  length := rfl
  others _ _ := rfl
  passes j hj := by
    obtain rfl := List.mem_singleton.1 hj
    simp [h]
  rejects _ := rfl
  announced := by simp [h]
  changes := by simp
  delivered := rfl
  callbacks := rfl
  wsConnected := rfl
  matching := rfl

/-- One order was written back after one pass of its plan. -/
theorem passed_write {b b' : SimulationBroker} {i : Nat} {o new : SimOrder}
    {touch : Nat → Bool} (ho : b.orders[i]? = some o) (h : touch i = true)
    (hpasses : new.passesLeft = o.passesLeft - 1)
    (houtcome : new.outcome = o.outcome) (horders : b'.orders = b.orders)
    (hchanges : b'.changes = b.changes) (hdelivered : b'.delivered = b.delivered)
    (hcallbacks : b'.callbacks = b.callbacks)
    (hconnected : b'.wsConnected = b.wsConnected)
    (hmatching : b'.matching = b.matching) :
    Step.Ends none ((some <$> write i o new) b')
      fun updated b'' => Passed b b'' [i] touch updated.toList := by
  obtain ⟨hi, _⟩ := List.getElem?_eq_some_iff.1 ho
  have hset : (write i o new b').2.orders = b.orders.set i new :=
    congrArg (List.set · i new) horders
  refine ⟨_, (write i o new b').2, rfl, ?_, ?_, ?_, ?_, ?_, ?_, ?_, ?_, ?_, ?_⟩
  · rw [hset, List.length_set]
  · intro j hj
    rw [hset, List.getElem?_set_ne (Ne.symm (by simpa using hj))]
  · intro j hj
    obtain rfl := List.mem_singleton.1 hj
    unfold passesOf
    rw [hset, List.getElem?_set_self hi, ho, h]
    exact hpasses
  · intro j
    unfold SimulationBroker.rejects
    rw [hset]
    by_cases hj : i = j
    · subst hj
      rw [List.getElem?_set_self hi, ho]
      simp [houtcome]
    · rw [List.getElem?_set_ne hj]
  · simp [h]
  · unfold write
    dsimp only
    rw [hchanges]
    split <;> simp_all
  · exact hdelivered
  · exact hcallbacks
  · exact hconnected
  · exact hmatching

/-- An order's turn. -/
theorem processTurn_ends (cfg : SimulationConfig) (force : Bool)
    (env : SimAnswers) (pass i : Nat) (b : SimulationBroker)
    {touch : Nat → Bool} (htouch : touch i = b.touched force env pass i) :
    Step.Ends (b.priceRaise env pass touch [i])
      (processTurn cfg force env pass i b)
      fun updated b' => Passed b b' [i] touch updated.toList := by
  unfold processTurn
  rw [Step.bind_ok (Step.get_apply b)]
  unfold priceRaise
  rw [List.findSome?_singleton]
  cases ho : b.orders[i]? with
  | none =>
      have hno : touch i = false := by
        rw [htouch]
        unfold touched
        rw [ho]
        rfl
      rw [hno]
      exact .pure (passed_untouched hno)
  | some o =>
      have hdue : touch i = o.due force (env.now pass i) := by
        rw [htouch]
        unfold touched
        rw [ho]
        rfl
      have hrejects : b.rejects i = decide (o.outcome = .rejected) := by
        unfold rejects
        rw [ho]
        rfl
      dsimp only
      unfold processDueOrder
      unfold SimOrder.due at hdue
      by_cases hterminal : o.status.isTerminal = true
      · rw [if_pos hterminal]
        have hno : touch i = false := by simp [hdue, hterminal]
        rw [hno]
        exact .pure (passed_untouched hno)
      have hlive : o.status.isTerminal = false := Bool.eq_false_iff.2 hterminal
      rw [if_neg hterminal]
      by_cases hlater : ¬ force = true ∧ env.now pass i < o.resolveAt
      · rw [if_pos hlater]
        have hno : touch i = false := by
          simp [hdue, hlater.1, not_le.2 hlater.2]
        rw [hno]
        exact .pure (passed_untouched hno)
      rw [if_neg hlater]
      have hyes : touch i = true := by
        rw [hdue, hlive]
        by_cases hforce : force = true
        · simp [hforce]
        · simp [hforce, not_lt.1 fun hlt => hlater ⟨hforce, hlt⟩]
      by_cases houtcome : o.outcome = .rejected
      · rw [if_pos houtcome, hrejects, if_neg (by simp [houtcome])]
        exact passed_write ho hyes (reject_passesLeft _ hlive houtcome) rfl rfl
          rfl rfl rfl rfl rfl
      rw [if_neg houtcome, hrejects, if_pos (by simp [hyes, houtcome])]
      cases hltp : env.getLtp pass i with
      | error e =>
          rw [Step.bind_error (Step.lift_apply ..)]
          rfl
      | ok fillPrice =>
          rw [Step.bind_ok (Step.lift_apply ..)]
          split
          · rename_i hstep
            refine passed_write ho hyes (finishStep_passesLeft cfg _ hlive
              houtcome rfl rfl rfl rfl ?_) ?_ rfl rfl rfl rfl rfl rfl
            · show o.filledQuantity + o.stepQty = _
              omega
            · exact finishStep_outcome ..
          · rename_i hstep
            refine passed_write ho hyes (finishStep_passesLeft cfg _ hlive
              houtcome rfl rfl rfl rfl ?_) ?_ rfl rfl rfl rfl rfl rfl
            · omega
            · exact finishStep_outcome ..

/-- Turns of different orders add up. -/
theorem Passed.cons {b b' b'' : SimulationBroker} {i : Nat} {ids : List Nat}
    {touch : Nat → Bool} {first updates : List Update}
    (h : Passed b b' [i] touch first) (h' : Passed b' b'' ids touch updates)
    (hi : i ∉ ids) : Passed b b'' (i :: ids) touch (first ++ updates) where
  length := h'.length.trans h.length
  others j hj := by
    rw [List.mem_cons, not_or] at hj
    rw [h'.others j hj.2, h.others j (by simpa using hj.1)]
  passes j hj := by
    rcases List.mem_cons.1 hj with rfl | hj
    · have hstays : b''.passesOf j = b'.passesOf j := by
        unfold passesOf
        rw [h'.others j hi]
      rw [hstays]
      exact h.passes j (List.mem_singleton_self j)
    · have hbefore : b'.passesOf j = b.passesOf j := by
        unfold passesOf
        rw [h.others j fun hmem => hi (List.mem_singleton.1 hmem ▸ hj)]
      rw [h'.passes j hj, hbefore]
  rejects j := (h'.rejects j).trans (h.rejects j)
  announced := by
    rw [List.map_append, h.announced, h'.announced]
    by_cases htouch : touch i = true <;> simp [htouch]
  changes := by
    rw [h'.changes, h.changes, List.filter_append, List.append_assoc]
  delivered := h'.delivered.trans h.delivered
  callbacks := h'.callbacks.trans h.callbacks
  wsConnected := h'.wsConnected.trans h.wsConnected
  matching := h'.matching.trans h.matching

theorem passed_nil (b : SimulationBroker) (touch : Nat → Bool) :
    Passed b b [] touch [] where
  length := rfl
  others _ _ := rfl
  passes _ hi := nomatch hi
  rejects _ := rfl
  announced := rfl
  changes := (List.append_nil _).symm
  delivered := rfl
  callbacks := rfl
  wsConnected := rfl
  matching := rfl

theorem priceRaise_cons (b : SimulationBroker) (env : SimAnswers) (pass : Nat)
    (touch : Nat → Bool) (i : Nat) (ids : List Nat) :
    b.priceRaise env pass touch (i :: ids)
      = (b.priceRaise env pass touch [i]).or
          (b.priceRaise env pass touch ids) := by
  unfold priceRaise
  rw [List.findSome?_cons, List.findSome?_singleton]
  split <;> rename_i heq <;> rw [heq] <;> rfl

/-- The turns of a pass. -/
theorem processAll_ends (cfg : SimulationConfig) (force : Bool)
    (env : SimAnswers) (pass : Nat) {ids : List Nat} (hids : ids.Nodup)
    (b : SimulationBroker) {touch : Nat → Bool}
    (htouch : ∀ i ∈ ids, touch i = b.touched force env pass i) :
    Step.Ends (b.priceRaise env pass touch ids)
      (processAll cfg force env pass ids b)
      fun updates b' => Passed b b' ids touch updates := by
  induction ids generalizing b with
  | nil => exact .pure (passed_nil b touch)
  | cons i ids ih =>
      obtain ⟨hi, hids⟩ := List.nodup_cons.1 hids
      obtain ⟨htouchi, htouch⟩ := List.forall_mem_cons.1 htouch
      rw [priceRaise_cons]
      refine (processTurn_ends cfg force env pass i b htouchi).bind
        fun updated b' hturn => ?_
      have hraise : b.priceRaise env pass touch ids
          = b'.priceRaise env pass touch ids := by
        unfold priceRaise
        simp only [hturn.rejects]
      -- the later orders are as the first turn found them
      have htouch' : ∀ j ∈ ids, touch j = b'.touched force env pass j := by
        intro j hj
        rw [htouch j hj]
        unfold touched
        rw [hturn.others j fun hmem => hi (List.mem_singleton.1 hmem ▸ hj)]
      rw [hraise, ← Option.or_none (o := b'.priceRaise env pass touch ids)]
      exact (ih hids b' htouch').bind fun updates b'' hrest =>
        .pure (hturn.cons hrest hi)

-- ============================================================= dispatch

/-- What handing out some updates adds to the log. -/
def handed (callbacks : Nat) (updates : List Update) : List (Nat × Update) :=
  updates.flatMap fun update =>
    (List.range callbacks).map fun callback => (callback, update)

theorem callAll_ends (hears : Nat → Option Exc) (update : Update)
    (callbacks : List Nat) (b : SimulationBroker) :
    Step.Ends (callbacks.findSome? hears) (callAll hears update callbacks b)
      fun _ b' => b' = { b with delivered := b.delivered
        ++ (callbacks.map fun callback => (callback, update)) } := by
  induction callbacks generalizing b with
  | nil => exact .pure (by simp)
  | cons callback callbacks ih =>
      unfold callAll
      rw [Step.bind_ok (Step.modify_apply ..), List.findSome?_cons]
      cases hears callback with
      | some e => exact rfl
      | none =>
          refine (ih _).mono fun _ b' hb' => ?_
          rw [hb']
          simp

/-- What handing out updates of a pass does, where nothing raises. -/
def hand (b : SimulationBroker) (updates : List Update) : SimulationBroker :=
  if b.wsConnected then
    { b with delivered := b.delivered ++ handed b.callbacks updates }
  else b

theorem dispatchOrderUpdate_ends (hears : Nat → Option Exc) (update : Update)
    (b : SimulationBroker) :
    Step.Ends (if b.wsConnected then (List.range b.callbacks).findSome? hears
        else none)
      (dispatchOrderUpdate hears update b)
      fun _ b' => b' = b.hand [update] := by
  unfold dispatchOrderUpdate hand
  rw [Step.bind_ok (Step.get_apply b)]
  by_cases hws : b.wsConnected = true
  · rw [if_pos hws, if_pos hws, if_pos hws]
    refine (callAll_ends hears update _ b).mono fun _ b' hb' => ?_
    rw [hb']
    simp [handed]
  · rw [if_neg hws, if_neg hws, if_neg hws]
    exact .pure rfl

theorem dispatchAll_ends (env : SimAnswers) (pass : Nat) (updates : List Update)
    (b : SimulationBroker) :
    Step.Ends (b.callbackRaise env pass (updates.map (·.brokerOrderId)))
      (dispatchAll env pass updates b) fun _ b' => b' = b.hand updates := by
  induction updates generalizing b with
  | nil =>
      unfold callbackRaise
      rw [show (if b.wsConnected = true then List.findSome? _ (List.map _ [])
        else none) = none by simp]
      refine .pure ?_
      unfold hand handed
      simp
  | cons update updates ih =>
      have hfirst := dispatchOrderUpdate_ends
        (env.hears pass update.brokerOrderId) update b
      have hsplit : b.callbackRaise env pass
            ((update :: updates).map (·.brokerOrderId))
          = (if b.wsConnected then (List.range b.callbacks).findSome?
                (env.hears pass update.brokerOrderId) else none).or
              (b.callbackRaise env pass (updates.map (·.brokerOrderId))) := by
        unfold callbackRaise
        by_cases hws : b.wsConnected = true
        · rw [if_pos hws, if_pos hws, if_pos hws, List.map_cons,
            List.findSome?_cons]
          split <;> rename_i heq <;> rw [heq] <;> rfl
        · rw [if_neg hws, if_neg hws, if_neg hws]
          rfl
      rw [hsplit]
      refine hfirst.bind fun _ b' hb' => ?_
      have hsame : SameBook b b' := by
        subst hb'
        unfold hand
        split <;> exact ⟨rfl, rfl, rfl, rfl, rfl, rfl, rfl⟩
      have hraise : b.callbackRaise env pass (updates.map (·.brokerOrderId))
          = b'.callbackRaise env pass (updates.map (·.brokerOrderId)) := by
        unfold callbackRaise
        rw [hsame.wsConnected, hsame.callbacks]
      rw [hraise]
      refine (ih b').mono fun _ b'' hb'' => ?_
      subst hb'' hb'
      unfold hand handed
      by_cases hws : b.wsConnected = true <;> simp [hws]

-- =============================================================== passes

/-- What a pass did that raised nothing. -/
structure Resolved (b b' : SimulationBroker) (touch : Nat → Bool)
    (updates : List Update) : Prop where
  length : b'.orders.length = b.orders.length
  passes : ∀ i, b'.passesOf i
    = if touch i then b.passesOf i - 1 else b.passesOf i
  rejects : ∀ i, b'.rejects i = b.rejects i
  announced : updates.map (·.brokerOrderId)
    = (List.range b.orders.length).filter touch
  changes : b'.changes = b.changes ++ updates.filter (·.changed)
  delivered : b.wsConnected →
    b'.delivered = b.delivered ++ handed b.callbacks updates
  callbacks : b'.callbacks = b.callbacks
  wsConnected : b'.wsConnected = b.wsConnected
  matching : b'.matching = b.matching

/-- A pass. -/
theorem resolveDueOrders_ends (cfg : SimulationConfig) (force : Bool)
    (env : SimAnswers) (pass : Nat) (b : SimulationBroker) {touch : Nat → Bool}
    (htouch : ∀ i, touch i = b.touched force env pass i) :
    Step.Ends (b.passRaise env pass touch)
      (resolveDueOrders cfg force env pass b)
      fun updates b' => Resolved b b' touch updates := by
  unfold resolveDueOrders passRaise
  rw [Step.bind_ok (Step.get_apply b)]
  refine (processAll_ends cfg force env pass List.nodup_range b fun i _ =>
    htouch i).bind fun updates b₁ hpassed => ?_
  have hraise : b.callbackRaise env pass
        ((List.range b.orders.length).filter touch)
      = b₁.callbackRaise env pass (updates.map (·.brokerOrderId)) := by
    unfold callbackRaise
    rw [hpassed.wsConnected, hpassed.callbacks, hpassed.announced]
  rw [hraise, ← Option.or_none (o := callbackRaise ..)]
  refine (dispatchAll_ends env pass updates b₁).bind fun _ b₂ hb₂ => .pure ?_
  have hsame : SameBook b₁ b₂ := by
    subst hb₂
    unfold hand
    split <;> exact ⟨rfl, rfl, rfl, rfl, rfl, rfl, rfl⟩
  refine ⟨?_, fun i => ?_, fun i => ?_, hpassed.announced, ?_, fun hws => ?_,
    hsame.callbacks.trans hpassed.callbacks,
    hsame.wsConnected.trans hpassed.wsConnected,
    hsame.matching.trans hpassed.matching⟩
  · rw [hsame.orders, hpassed.length]
  · have hpasses : b₂.passesOf i = b₁.passesOf i := by
      unfold passesOf
      rw [hsame.orders]
    rw [hpasses]
    by_cases hi : i ∈ List.range b.orders.length
    · exact hpassed.passes i hi
    · have hnone : b.orders[i]? = none := by
        rw [List.getElem?_eq_none_iff]
        simpa using hi
      have hnone' : b₁.orders[i]? = none := (hpassed.others i hi).trans hnone
      unfold passesOf
      rw [hnone, hnone']
      split <;> rfl
  · unfold rejects
    rw [hsame.orders]
    exact hpassed.rejects i
  · rw [hsame.changes, hpassed.changes]
  · rw [hb₂]
    unfold hand
    rw [hpassed.wsConnected, if_pos hws, hpassed.callbacks]
    exact congrArg (· ++ _) hpassed.delivered

-- ================================================================= pump

/-- What the passes of a pump add to the logs, where nothing raised. -/
structure Pumped (b b' : SimulationBroker) (updates : List Update) : Prop where
  changes : b'.changes = b.changes ++ updates.filter (·.changed)
  delivered : b.wsConnected →
    b'.delivered = b.delivered ++ handed b.callbacks updates
  callbacks : b'.callbacks = b.callbacks
  wsConnected : b'.wsConnected = b.wsConnected
  matching : b'.matching = b.matching

theorem Resolved.pumped {b b' : SimulationBroker} {touch : Nat → Bool}
    {updates : List Update} (h : Resolved b b' touch updates) :
    Pumped b b' updates :=
  ⟨h.changes, h.delivered, h.callbacks, h.wsConnected, h.matching⟩

theorem Pumped.trans {b b' b'' : SimulationBroker} {first updates : List Update}
    (h : Pumped b b' first) (h' : Pumped b' b'' updates) :
    Pumped b b'' (first ++ updates) where
  changes := by
    rw [h'.changes, h.changes, List.filter_append, List.append_assoc]
  delivered hws := by
    rw [h'.delivered (h.wsConnected.trans hws), h.delivered hws, h.callbacks]
    unfold handed
    rw [List.flatMap_append, List.append_assoc]
  callbacks := h'.callbacks.trans h.callbacks
  wsConnected := h'.wsConnected.trans h.wsConnected
  matching := h'.matching.trans h.matching

/-- A forced pass touches the orders that have passes left. -/
theorem touched_force (b : SimulationBroker) (env : SimAnswers) (pass i : Nat) :
    decide (0 < b.passesOf i) = b.touched true env pass i := by
  unfold passesOf touched
  cases b.orders[i]? with
  | none => rfl
  | some o =>
      have hpos := passesLeft_pos o
      simp only [Option.map_some, Option.getD_some, Option.any_some,
        SimOrder.due, Bool.true_or, Bool.and_true]
      cases hterminal : o.status.isTerminal with
      | true => simpa [hterminal] using hpos
      | false => simpa [hterminal] using hpos

/-- A pass that touches nothing raises nothing. -/
theorem passRaise_untouched {b : SimulationBroker} {env : SimAnswers} {pass : Nat}
    {touch : Nat → Bool} (h : ∀ i < b.orders.length, touch i = false) :
    b.passRaise env pass touch = none := by
  have hids : (List.range b.orders.length).filter touch = [] := by
    rw [List.filter_eq_nil_iff]
    intro i hi
    simp [h i (List.mem_range.1 hi)]
  have hprice : b.priceRaise env pass touch (List.range b.orders.length)
      = none := by
    unfold priceRaise
    rw [List.findSome?_eq_none_iff]
    intro i hi
    simp [h i (List.mem_range.1 hi)]
  unfold passRaise
  dsimp only
  rw [hprice, hids]
  unfold callbackRaise
  simp

/-- What raises in a later pass can be read off the book before this
one. -/
theorem Resolved.passRaise {b b' : SimulationBroker} {updates : List Update}
    (h : Resolved b b' (fun i => 0 < b.passesOf i) updates) (env : SimAnswers)
    (pass q : Nat) :
    b'.passRaise env pass (fun i => q < b'.passesOf i)
      = b.passRaise env pass fun i => q + 1 < b.passesOf i := by
  have htouch : (fun i => decide (q < b'.passesOf i))
      = fun i => decide (q + 1 < b.passesOf i) := by
    funext i
    rw [h.passes i]
    by_cases hi : 0 < b.passesOf i <;> simp [hi] <;> omega
  unfold SimulationBroker.passRaise priceRaise callbackRaise
  rw [htouch]
  simp only [h.length, h.rejects, h.wsConnected, h.callbacks]

/-- The passes of a synchronous pump, over a book that takes at most `n`:
they leave no order with a pass left. -/
theorem drain_ends (cfg : SimulationConfig) (env : SimAnswers) {n : Nat}
    {b : SimulationBroker} (hn : ∀ i, b.passesOf i ≤ n) (pass : Nat) :
    Step.Ends
      ((List.range n).findSome? fun q =>
        b.passRaise env (pass + q) fun i => q < b.passesOf i)
      (drain cfg env (n + 1) pass b)
      fun _ b' => (∃ updates, Pumped b b' updates)
        ∧ ∀ i, b'.passesOf i = 0 := by
  induction n generalizing b pass with
  | zero =>
      have hzero : ∀ i, b.passesOf i = 0 := fun i => Nat.le_zero.1 (hn i)
      have hpass := resolveDueOrders_ends cfg true env pass b
        (touched_force b env pass)
      rw [passRaise_untouched (fun i _ => by simp [hzero i])] at hpass
      rw [show (List.range 0).findSome? _ = (none : Option Exc) from rfl,
        ← Option.or_none (o := none)]
      refine hpass.bind fun updates b' h => ?_
      have hdone : ∀ i, b'.passesOf i = 0 := by
        intro i
        rw [h.passes i]
        simp [hzero i]
      split
      · exact .pure ⟨⟨updates, h.pumped⟩, hdone⟩
      · exact .pure ⟨⟨updates, h.pumped⟩, hdone⟩
  | succ n ih =>
      have hpass := resolveDueOrders_ends cfg true env pass b
        (touched_force b env pass)
      have hsplit : (List.range (n + 1)).findSome? (fun q =>
            b.passRaise env (pass + q) fun i => q < b.passesOf i)
          = (b.passRaise env pass fun i => 0 < b.passesOf i).or
              ((List.range n).findSome? fun q =>
                b.passRaise env (pass + 1 + q) fun i =>
                  q + 1 < b.passesOf i) := by
        rw [List.range_succ_eq_map, List.findSome?_cons, List.findSome?_map]
        simp only [Nat.add_zero, Function.comp_def, Nat.succ_eq_add_one,
          Nat.add_assoc, Nat.add_comm 1]
        split <;> rename_i heq <;> rw [heq] <;> rfl
      rw [hsplit]
      refine hpass.bind fun updates b' h => ?_
      have hlater : ∀ i, b'.passesOf i ≤ n := by
        intro i
        have := hn i
        rw [h.passes i]
        split
        · omega
        · rename_i hi
          simp at hi
          omega
      by_cases hnone : updates = []
      · have huntouched : ∀ i, b.passesOf i = 0 := by
          intro i
          by_cases hi : i < b.orders.length
          · have hfilter := h.announced
            rw [hnone, List.map_nil, eq_comm, List.filter_eq_nil_iff] at hfilter
            simpa using hfilter i (List.mem_range.2 hi)
          · unfold passesOf
            rw [List.getElem?_eq_none (not_lt.1 hi)]
            rfl
        have hquiet : (List.range n).findSome? (fun q =>
            b.passRaise env (pass + 1 + q) fun i => q + 1 < b.passesOf i)
              = none := by
          rw [List.findSome?_eq_none_iff]
          intro q _
          exact passRaise_untouched fun i _ => by simp [huntouched i]
        rw [hquiet, if_pos hnone]
        refine .pure ⟨⟨updates, h.pumped⟩, fun i => ?_⟩
        rw [h.passes i]
        simp [huntouched i]
      · rw [if_neg hnone]
        have hrest := ih hlater (pass + 1)
        simp only [h.passRaise] at hrest
        refine hrest.mono fun _ b'' hb'' => ?_
        obtain ⟨⟨more, hmore⟩, hdone⟩ := hb''
        exact ⟨⟨updates ++ more, h.pumped.trans hmore⟩, hdone⟩

theorem passesOf_le (b : SimulationBroker) (i : Nat) :
    b.passesOf i ≤ b.passesLeft := by
  unfold passesOf passesLeft
  cases ho : b.orders[i]? with
  | none => exact Nat.zero_le _
  | some o =>
      have hmem : o.passesLeft ∈ b.orders.map SimOrder.passesLeft :=
        List.mem_map_of_mem (List.mem_of_getElem? ho)
      generalize b.orders.map SimOrder.passesLeft = plans at hmem
      induction plans with
      | nil => cases hmem
      | cons plan plans ih =>
          rcases List.mem_cons.1 hmem with heq | hmem
          · rw [← heq]
            exact le_max_left _ _
          · exact (ih hmem).trans (le_max_right _ _)

/-- What a pump did that raised nothing: a synchronous one left no order
unfinished, the other one took each due order a step further. -/
def Drained (cfg : SimulationConfig) (env : SimAnswers)
    (b b' : SimulationBroker) : Prop :=
  if cfg.synchronous then ∀ i, b'.passesOf i = 0
  else ∀ i, b.touched false env 0 i → b'.passesOf i + 1 = b.passesOf i

/-- An order that is touched had a pass left. -/
theorem touched_passes {b : SimulationBroker} {force : Bool} {env : SimAnswers}
    {pass i : Nat} (h : b.touched force env pass i = true) :
    0 < b.passesOf i := by
  have hforced : b.touched true env pass i = true := by
    unfold touched at h ⊢
    cases ho : b.orders[i]? with
    | none => rw [ho] at h; cases h
    | some o =>
        rw [ho] at h
        simp only [Option.any_some, SimOrder.due, Bool.and_eq_true] at h
        simp [SimOrder.due, h.1]
  rw [← touched_force] at hforced
  exact of_decide_eq_true hforced

/-- A pump. -/
theorem pump_ends (cfg : SimulationConfig) (env : SimAnswers)
    (b : SimulationBroker) :
    Step.Ends (firstRaise cfg env b) (pump cfg env b)
      fun _ b' => (∃ updates, Pumped b b' updates) ∧ Drained cfg env b b' := by
  unfold pump firstRaise Drained
  rw [Step.bind_ok (Step.get_apply b)]
  by_cases hsync : cfg.synchronous = true
  · simp only [if_pos hsync]
    have hdrain := drain_ends cfg env (passesOf_le b) 0
    simp only [Nat.zero_add] at hdrain
    exact hdrain
  · simp only [if_neg hsync]
    rw [← Option.or_none (o := passRaise ..)]
    refine (resolveDueOrders_ends cfg false env 0 b fun i => rfl).bind
      fun updates b' h => .pure ⟨⟨updates, h.pumped⟩, fun i hi => ?_⟩
    rw [h.passes i, if_pos hi]
    have := touched_passes hi
    omega

-- ========================================================= placing orders

/-- If `place_order` raises anything but the timeout, the book, the fills
and the positions are as before. -/
def Atomic (cfg : SimulationConfig) (env : SimAnswers)
    (request : PlaceOrderRequest) (timeout : Option ℚ)
    (b : SimulationBroker) : Prop :=
  ∀ e, (placeOrder cfg env request timeout b).1 = .error e →
    e.isTimeout = false →
    (placeOrder cfg env request timeout b).2.orders = b.orders
      ∧ (placeOrder cfg env request timeout b).2.fills = b.fills
      ∧ (placeOrder cfg env request timeout b).2.positions = b.positions

/-- The call does not come to matching, or the first exception of the
matching, if there is one, is the timeout. -/
def MatchesQuietly (cfg : SimulationConfig) (env : SimAnswers)
    (request : PlaceOrderRequest) (timeout : Option ℚ)
    (b : SimulationBroker) : Prop :=
  (∃ e, b.checkPlacing cfg env request timeout = .error e)
  ∨ env.ackTimeout < cfg.ackTimeoutProbability
  ∨ ∀ e, firstRaise cfg env (b.record cfg env request) = some e →
      e.isTimeout = true

/-- The book has as many orders as before. -/
def SameLength (b b' : SimulationBroker) : Prop :=
  b'.orders.length = b.orders.length

instance : Std.Refl SameLength := ⟨fun _ => rfl⟩

instance : IsTrans SimulationBroker SameLength :=
  ⟨fun _ _ _ h h' => Eq.trans h' h⟩

theorem write_length (i : Nat) (o new : SimOrder) (b : SimulationBroker) :
    (write i o new b).2.orders.length = b.orders.length := List.length_set

/-- Matching takes no order out of the book, also where it raises. -/
theorem pump_length (cfg : SimulationConfig) (env : SimAnswers) :
    Step.Leads SameLength (pump cfg env) := by
  refine pump_leads (fun force now getLtp i o b ho => ?_)
    fun _ _ h => congrArg List.length h.orders
  unfold processDueOrder
  split
  · rfl
  split
  · rfl
  split
  · exact write_length ..
  cases getLtp with
  | error e => rfl
  | ok fillPrice =>
      rw [Step.bind_ok (Step.lift_apply ..)]
      split
      · exact write_length i o _ (applyFill i o o.stepQty fillPrice b)
      · exact write_length ..

/-- `place_order` is atomic on errors exactly if its matching is quiet. -/
theorem placeOrder_atomic_iff (cfg : SimulationConfig) (env : SimAnswers)
    (request : PlaceOrderRequest) (timeout : Option ℚ)
    (b : SimulationBroker) :
    Atomic cfg env request timeout b
      ↔ MatchesQuietly cfg env request timeout b := by
  unfold Atomic MatchesQuietly
  cases hcheck : b.checkPlacing cfg env request timeout with
  | error e =>
      have hrun : placeOrder cfg env request timeout b = (.error e, b) := by
        unfold placeOrder
        rw [Step.bind_ok (Step.get_apply b), hcheck]
        rfl
      rw [hrun]
      exact ⟨fun _ => .inl ⟨e, rfl⟩, fun _ _ _ _ => ⟨rfl, rfl, rfl⟩⟩
  | ok _ =>
  by_cases hack : env.ackTimeout < cfg.ackTimeoutProbability
  · have hrun : placeOrder cfg env request timeout b
        = (.error ackTimeoutError, b.record cfg env request) := by
      unfold placeOrder
      rw [Step.bind_ok (Step.get_apply b), hcheck,
        Step.bind_ok (Step.lift_apply ..), Step.bind_ok (Step.modify_apply ..),
        if_pos hack]
      rfl
    rw [hrun]
    refine ⟨fun _ => .inr (.inl hack), fun _ e he htimeout => ?_⟩
    cases he
    cases htimeout
  have hrun : placeOrder cfg env request timeout b
      = (do pump cfg env; pure b.orders.length : Sim Nat)
          (b.record cfg env request) := by
    unfold placeOrder
    rw [Step.bind_ok (Step.get_apply b), hcheck,
      Step.bind_ok (Step.lift_apply ..), Step.bind_ok (Step.modify_apply ..),
      if_neg hack]
  have hpump := pump_ends cfg env (b.record cfg env request)
  have hlength := pump_length cfg env (b.record cfg env request)
  cases hfirst : firstRaise cfg env (b.record cfg env request) with
  | none =>
      rw [hfirst] at hpump
      obtain ⟨_, b', hok, _⟩ := hpump
      rw [Step.bind_ok hok] at hrun
      rw [hrun]
      exact ⟨fun _ => .inr (.inr nofun), fun _ _ he => nomatch he⟩
  | some e =>
      rw [hfirst] at hpump
      have herror : pump cfg env (b.record cfg env request)
          = (.error e, (pump cfg env (b.record cfg env request)).2) :=
        Prod.ext hpump rfl
      rw [Step.bind_error herror] at hrun
      rw [hrun]
      constructor
      · intro hatomic
        refine .inr (.inr fun e' he' => ?_)
        cases he'
        by_contra htimeout
        obtain ⟨horders, _⟩ := hatomic e rfl (Bool.eq_false_iff.2 htimeout)
        -- the order is in the book by then
        have hlonger : (b.record cfg env request).orders.length
            = b.orders.length + 1 := List.length_append
        have hsame : (pump cfg env (b.record cfg env request)).2.orders.length
          = b.orders.length := congrArg List.length horders
        have : (pump cfg env (b.record cfg env request)).2.orders.length
          = (b.record cfg env request).orders.length := hlength
        omega
      · intro hquiet e' he' htimeout
        cases he'
        rcases hquiet with ⟨_, hno⟩ | hno | hquiet
        · cases hno
        · exact absurd hno hack
        · rw [hquiet e rfl] at htimeout
          cases htimeout

-- ========================================================= a lost price

private theorem catalogLot_pos : 0 < 75 := Nat.succ_pos 74

/-- An option every call finds in the catalog. -/
private def catalog (exchange : Exchange) (tradingsymbol : String) :
    Option BrokerInstrument :=
  some { exchange, tradingsymbol, lotSize := 75, optionType := .ce
         lotSize_pos := catalogLot_pos }

/-- The close of a short leg. -/
private def closeOf (tradingsymbol tag : String)
    (h : 1 ≤ tag.length ∧ tag.length ≤ 20) : PlaceOrderRequest where
  exchange := .nfo
  tradingsymbol := tradingsymbol
  transactionType := .buy
  quantity := 75
  product := .intraday
  orderType := .market
  tag := tag
  quantity_pos := catalogLot_pos
  tag_length := h

/-- The closes of a straddle's two legs. -/
def closeCall : PlaceOrderRequest :=
  closeOf "NIFTY2672124000CE" "close-ce" (by decide)

def closePut : PlaceOrderRequest :=
  closeOf "NIFTY2672124000PE" "close-pe" (by decide)

/-- Nothing goes wrong in this call. -/
def calm : SimAnswers := { getBySymbol := catalog }

/-- A second later, when the first close is due and its price cannot be
read. -/
def priceDown : SimAnswers where
  getBySymbol := catalog
  placedAt := 1
  now _ _ := 1
  getLtp _ _ := .error (.broker ⟨.connection, "connection aborted"⟩)

/-- The default settings of paper trading. -/
def paper : SimulationConfig := {}

/-- A paper-trading broker at work on the first close. -/
def closing : SimulationBroker :=
  (init paper).run paper
    [(.authenticate, calm), (.placeOrder closeCall none, calm)]

/-- Placing the second close raises a connection error, although the order
is in the book; when it is sent again, it is in the book twice. -/
theorem sent_twice :
    ¬ Atomic {} priceDown closePut none closing
      ∧ ((closing.run {} [(.placeOrder closePut none, priceDown),
          (.placeOrder closePut none, calm)]).orders.filter
            (·.tag = closePut.tag)).length = 2 := by
  refine ⟨fun hatomic => ?_, by decide +kernel⟩
  have hraised : (placeOrder {} priceDown closePut none closing).1
      = .error (.broker ⟨.connection, "connection aborted"⟩) := by
    decide +kernel
  have hsame := congrArg List.length (hatomic _ hraised rfl).1
  revert hsame
  decide +kernel

end SimulationBroker

end AlgoPlatform
