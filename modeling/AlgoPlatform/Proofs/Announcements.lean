/-
Every change of a simulated order reaches every callback once, as long as
nothing raises.

The lock is released before the updates are handed out, and they are only
a local list: an exception in between, of a price or of another callback,
loses them, and in the matching thread it ends the thread. Where nothing
raises, each step hands every callback what it changed, in order
(`step_pumped`), and so does a run (`announced_of_quiet`).

That a callback returns or raises, and does not call back, is in the
model: no callback of the repository places or cancels an order.
-/
import AlgoPlatform.Proofs.SimulatedErrors

open Basis

namespace AlgoPlatform

namespace SimulationBroker

-- =============================================== statement vocabulary

/-- The changes of status or filled quantity a callback was handed. -/
def heard (b : SimulationBroker) (callback : Nat) : List Update :=
  ((b.delivered.filter (·.1 = callback)).map (·.2)).filter (·.changed)

/-- An order or a matching step. -/
def Op.Trades : Op → Prop
  | .authenticate | .connectWebsocket | .disconnectWebsocket
  | .registerOrderUpdateCallback | .close => False
  | _ => True

/-- Every registered callback was handed every change since then, once, in
the order they happened. -/
def Announced (b b' : SimulationBroker) : Prop :=
  ∃ changes, b'.changes = b.changes ++ changes
    ∧ ∀ callback < b.callbacks,
        b'.heard callback = b.heard callback ++ changes

/-- A step that matches takes every due order a step further. -/
def Matched (cfg : SimulationConfig) (b : SimulationBroker) :
    Op × SimAnswers → Prop
  | (.tick, env) => b.matching → ∀ i, b.touched false env 0 i →
      (b.tick cfg env).passesOf i + 1 = b.passesOf i
  | (.placeOrder request timeout, env) =>
      b.checkPlacing cfg env request timeout = .ok () →
      ¬ env.ackTimeout < cfg.ackTimeoutProbability →
      Drained cfg env (b.record cfg env request)
        (placeOrder cfg env request timeout b).2
  | (.getOrder id timeout, env) =>
      simulateCall cfg env timeout "" "call" = .ok () →
      Drained cfg env b (getOrder cfg env id timeout b).2
  | (.getOrders timeout, env) =>
      simulateCall cfg env timeout "" "call" = .ok () →
      Drained cfg env b (getOrders cfg env timeout b).2
  | (.findOrderByTag tag timeout, env) =>
      simulateCall cfg env timeout "" "call" = .ok () →
      Drained cfg env b (findOrderByTag cfg env tag timeout b).2
  | (.getPositions timeout, env) =>
      simulateCall cfg env timeout "" "call" = .ok () →
      Drained cfg env b (getPositions cfg env timeout b).2
  | _ => True

/-- In every state of a run all changes so far were announced, the
matching thread is as alive as it was, and the next step matches every due
order. -/
def AllAnnounced (cfg : SimulationConfig) (b : SimulationBroker)
    (steps : List (Op × SimAnswers)) : Prop :=
  ∀ pre post, steps = pre ++ post →
    Announced b (b.run cfg pre)
      ∧ (b.run cfg pre).matching = b.matching
      ∧ ∀ call ∈ post.head?, Matched cfg (b.run cfg pre) call

/-- No price that the step's matching asks for raises, and no callback it
hands an update to. -/
def Quiet (cfg : SimulationConfig) (b : SimulationBroker) :
    Op × SimAnswers → Prop
  | (.tick, env) =>
      b.matching → b.passRaise env 0 (b.touched false env 0) = none
  | (.placeOrder request timeout, env) =>
      b.checkPlacing cfg env request timeout = .ok () →
      ¬ env.ackTimeout < cfg.ackTimeoutProbability →
      firstRaise cfg env (b.record cfg env request) = none
  | (.modifyOrder request timeout, env) =>
      ∀ o, b.checkModifying cfg env request timeout = .ok o →
      b.callbackRaise env 0 [request.brokerOrderId] = none
  | (.cancelOrder id timeout, env) =>
      ∀ o, b.checkCancelling cfg env id timeout = .ok o →
      b.callbackRaise env 0 [id] = none
  | (.getOrder _ timeout, env) | (.getOrders timeout, env)
  | (.findOrderByTag _ timeout, env) | (.getPositions timeout, env) =>
      simulateCall cfg env timeout "" "call" = .ok () →
      firstRaise cfg env b = none
  | _ => True

/-- A run of quiet steps. -/
def QuietRun (cfg : SimulationConfig) :
    SimulationBroker → List (Op × SimAnswers) → Prop
  | _, [] => True
  | b, call :: steps => Quiet cfg b call ∧ QuietRun cfg (step cfg b call) steps

-- ================================================================ steps

theorem Pumped.refl (b : SimulationBroker) : Pumped b b [] :=
  ⟨(List.append_nil _).symm, fun _ => (List.append_nil _).symm, rfl, rfl, rfl⟩

/-- What was handed out to one callback. -/
theorem handed_heard {callbacks callback : Nat} (h : callback < callbacks)
    (updates : List Update) :
    ((handed callbacks updates).filter (·.1 = callback)).map (·.2)
      = updates := by
  induction updates with
  | nil => rfl
  | cons update updates ih =>
      have hone : (((List.range callbacks).map fun c => (c, update)).filter
          (·.1 = callback)).map (·.2) = [update] := by
        have honce : (List.range callbacks).filter (· = callback)
            = [callback] := by
          rw [List.filter_eq, List.count_eq_one_of_mem List.nodup_range
            (List.mem_range.2 h)]
          rfl
        rw [List.filter_map, List.map_map]
        show ((List.range callbacks).filter (· = callback)).map _ = _
        rw [honce]
        rfl
      unfold handed at ih ⊢
      rw [List.flatMap_cons, List.filter_append, List.map_append, ih, hone]
      rfl

/-- So a pump announces what it changed. -/
theorem Pumped.announced {b b' : SimulationBroker} {updates : List Update}
    (h : Pumped b b' updates) (hws : b.wsConnected) : Announced b b' := by
  refine ⟨_, h.changes, fun callback hcallback => ?_⟩
  unfold heard
  rw [h.delivered hws, List.filter_append, List.map_append,
    handed_heard hcallback, List.filter_append]

theorem Announced.trans {b b' b'' : SimulationBroker} (h : Announced b b')
    (h' : Announced b' b'') (hcallbacks : b'.callbacks = b.callbacks) :
    Announced b b'' := by
  obtain ⟨changes, hchanges, hheard⟩ := h
  obtain ⟨more, hmore, hheard'⟩ := h'
  refine ⟨changes ++ more, ?_, fun callback hcallback => ?_⟩
  · rw [hmore, hchanges, List.append_assoc]
  · rw [hheard' callback (hcallbacks ▸ hcallback), hheard callback hcallback,
      List.append_assoc]

/-- A cancel or a modification hands out the one order it writes back. -/
theorem write_pumped {i : Nat} {o new : SimOrder} {b : SimulationBroker}
    {hears : Nat → Option Exc} {first : Option Exc}
    (hfirst : first = if b.wsConnected then
      (List.range b.callbacks).findSome? hears else none)
    (hquiet : first = none) :
    ∃ updates, Pumped b
      ((write i o new >>= fun updated => dispatchOrderUpdate hears updated)
        b).2 updates := by
  obtain ⟨update, b₁, hwrite, hchanges, hdelivered, hcallbacks, hws,
    hmatching⟩ : ∃ update b₁, write i o new b = (.ok update, b₁)
      ∧ b₁.changes = b.changes ++ [update].filter (·.changed)
      ∧ b₁.delivered = b.delivered ∧ b₁.callbacks = b.callbacks
      ∧ b₁.wsConnected = b.wsConnected ∧ b₁.matching = b.matching := by
    refine ⟨_, _, rfl, ?_, rfl, rfl, rfl, rfl⟩
    by_cases hchanged : new.status ≠ o.status
        ∨ new.filledQuantity ≠ o.filledQuantity <;> simp [hchanged]
  rw [Step.bind_ok hwrite]
  have hdispatch := dispatchOrderUpdate_ends hears update b₁
  rw [hws, hcallbacks, ← hfirst, hquiet] at hdispatch
  obtain ⟨_, b₂, hrun, hb₂⟩ := hdispatch
  rw [hrun, hb₂]
  refine ⟨[update], ?_⟩
  unfold hand
  by_cases hconnected : b.wsConnected = true
  · rw [if_pos (hws.trans hconnected)]
    refine ⟨hchanges, fun _ => ?_, hcallbacks, hws, hmatching⟩
    rw [← hdelivered, ← hcallbacks]
  · rw [if_neg (fun h => hconnected (hws.symm.trans h))]
    exact ⟨hchanges, fun h => absurd h hconnected, hcallbacks, hws, hmatching⟩

theorem placeOrder_pumped {cfg : SimulationConfig} {env : SimAnswers}
    {request : PlaceOrderRequest} {timeout : Option ℚ} {b : SimulationBroker}
    (hquiet : Quiet cfg b (.placeOrder request timeout, env)) :
    (∃ updates, Pumped b (placeOrder cfg env request timeout b).2 updates)
      ∧ Matched cfg b (.placeOrder request timeout, env) := by
  show _ ∧ (b.checkPlacing cfg env request timeout = .ok () →
    ¬ env.ackTimeout < cfg.ackTimeoutProbability →
    Drained cfg env (b.record cfg env request)
      (placeOrder cfg env request timeout b).2)
  unfold placeOrder
  rw [Step.bind_ok (Step.get_apply b)]
  cases hcheck : b.checkPlacing cfg env request timeout with
  | error e => exact ⟨⟨[], .refl b⟩, fun h => nomatch h⟩
  | ok _ =>
      rw [Step.bind_ok (Step.lift_apply ..),
        Step.bind_ok (Step.modify_apply ..)]
      -- recording an order announces nothing
      have hrecord : Pumped b (b.record cfg env request) [] :=
        ⟨(List.append_nil _).symm, fun _ => (List.append_nil _).symm, rfl,
          rfl, rfl⟩
      by_cases hack : env.ackTimeout < cfg.ackTimeoutProbability
      · rw [if_pos hack]
        exact ⟨⟨[], hrecord⟩, fun _ h => absurd hack h⟩
      · rw [if_neg hack]
        have hpump := pump_ends cfg env (b.record cfg env request)
        rw [hquiet hcheck hack] at hpump
        obtain ⟨_, b', hrun, ⟨updates, hupdates⟩, hdrained⟩ := hpump
        rw [Step.bind_ok hrun]
        exact ⟨⟨_, hrecord.trans hupdates⟩, fun _ _ => hdrained⟩

theorem read_pumped {α : Type} {cfg : SimulationConfig} {env : SimAnswers}
    {timeout : Option ℚ} {b : SimulationBroker}
    (look : SimulationBroker → Except Exc α)
    (hquiet : simulateCall cfg env timeout "" "call" = .ok () →
      firstRaise cfg env b = none) :
    (∃ updates, Pumped b (read cfg env timeout look b).2 updates)
      ∧ (simulateCall cfg env timeout "" "call" = .ok () →
          Drained cfg env b (read cfg env timeout look b).2) := by
  unfold SimulationBroker.read
  cases hcall : simulateCall cfg env timeout "" "call" with
  | error e => exact ⟨⟨[], .refl b⟩, nofun⟩
  | ok _ =>
      rw [Step.bind_ok (Step.lift_apply ..)]
      have hpump := pump_ends cfg env b
      rw [hquiet hcall] at hpump
      obtain ⟨_, b', hrun, hupdates, hdrained⟩ := hpump
      rw [Step.bind_ok hrun]
      exact ⟨hupdates, fun _ => hdrained⟩

theorem tick_pumped {cfg : SimulationConfig} {env : SimAnswers}
    {b : SimulationBroker} (hquiet : Quiet cfg b (.tick, env)) :
    (∃ updates, Pumped b (b.tick cfg env) updates)
      ∧ Matched cfg b (.tick, env) := by
  by_cases hmatching : b.matching = true
  · have hpass := resolveDueOrders_ends cfg false env 0 b
      fun i => (rfl : b.touched false env 0 i = _)
    rw [hquiet hmatching] at hpass
    obtain ⟨updates, b', hrun, h⟩ := hpass
    have htick : b.tick cfg env = b' := by
      unfold tick
      rw [if_pos hmatching, hrun]
    refine ⟨⟨updates, htick ▸ h.pumped⟩, fun _ i hi => ?_⟩
    have := touched_passes hi
    rw [htick, h.passes i, if_pos hi]
    omega
  · have htick : b.tick cfg env = b := if_neg hmatching
    rw [htick]
    exact ⟨⟨[], .refl b⟩, fun h => absurd h hmatching⟩

/-- A quiet step hands every callback what it changed. -/
theorem step_pumped {cfg : SimulationConfig} {b : SimulationBroker}
    {call : Op × SimAnswers} (htrades : call.1.Trades)
    (hquiet : Quiet cfg b call) :
    (∃ updates, Pumped b (step cfg b call) updates) ∧ Matched cfg b call := by
  obtain ⟨op, env⟩ := call
  cases op with
  | authenticate => exact htrades.elim
  | connectWebsocket => exact htrades.elim
  | disconnectWebsocket => exact htrades.elim
  | registerOrderUpdateCallback => exact htrades.elim
  | close => exact htrades.elim
  | placeOrder request timeout => exact placeOrder_pumped hquiet
  | modifyOrder request timeout =>
      refine ⟨?_, trivial⟩
      show ∃ updates, Pumped b (modifyOrder cfg env request timeout b).2 updates
      unfold modifyOrder
      rw [Step.bind_ok (Step.get_apply b)]
      cases hcheck : b.checkModifying cfg env request timeout with
      | error e => exact ⟨[], .refl b⟩
      | ok o =>
          rw [Step.bind_ok (Step.lift_apply ..)]
          exact write_pumped (by simp [callbackRaise]) (hquiet o hcheck)
  | cancelOrder id timeout =>
      refine ⟨?_, trivial⟩
      show ∃ updates, Pumped b (cancelOrder cfg env id timeout b).2 updates
      unfold cancelOrder
      rw [Step.bind_ok (Step.get_apply b)]
      cases hcheck : b.checkCancelling cfg env id timeout with
      | error e => exact ⟨[], .refl b⟩
      | ok o =>
          rw [Step.bind_ok (Step.lift_apply ..)]
          exact write_pumped (by simp [callbackRaise]) (hquiet o hcheck)
  | getOrder id timeout => exact read_pumped _ hquiet
  | getOrders timeout => exact read_pumped _ hquiet
  | findOrderByTag tag timeout => exact read_pumped _ hquiet
  | getPositions timeout => exact read_pumped _ hquiet
  | tick => exact tick_pumped hquiet

-- ================================================================= runs

theorem quietRun_split {cfg : SimulationConfig} {b : SimulationBroker}
    {pre post : List (Op × SimAnswers)} (h : QuietRun cfg b (pre ++ post)) :
    QuietRun cfg b pre ∧ QuietRun cfg (b.run cfg pre) post := by
  induction pre generalizing b with
  | nil => exact ⟨trivial, h⟩
  | cons call pre ih =>
      obtain ⟨hcall, hrest⟩ := h
      obtain ⟨hpre, hpost⟩ := ih hrest
      exact ⟨⟨hcall, hpre⟩, hpost⟩

/-- So does a run of them. -/
theorem run_pumped {cfg : SimulationConfig} {b : SimulationBroker}
    {steps : List (Op × SimAnswers)} (htrades : ∀ call ∈ steps, call.1.Trades)
    (hquiet : QuietRun cfg b steps) :
    ∃ updates, Pumped b (b.run cfg steps) updates := by
  induction steps generalizing b with
  | nil => exact ⟨[], .refl b⟩
  | cons call steps ih =>
      obtain ⟨hcall, hsteps⟩ := hquiet
      obtain ⟨htrade, htrades⟩ := List.forall_mem_cons.1 htrades
      obtain ⟨⟨first, hfirst⟩, _⟩ := step_pumped htrade hcall
      obtain ⟨more, hmore⟩ := ih htrades hsteps
      exact ⟨first ++ more, hfirst.trans hmore⟩

/-- While the websocket is connected, a run in which no price and no
callback raises announces every change to every callback once and in
order, and matches every due order. -/
theorem announced_of_quiet (cfg : SimulationConfig) {b : SimulationBroker}
    {steps : List (Op × SimAnswers)} (hws : b.wsConnected = true)
    (htrades : ∀ call ∈ steps, call.1.Trades)
    (hquiet : QuietRun cfg b steps) : AllAnnounced cfg b steps := by
  intro pre post hsplit
  subst hsplit
  obtain ⟨hpre, hpost⟩ := quietRun_split hquiet
  obtain ⟨updates, hpumped⟩ := run_pumped
    (fun call hcall => htrades call (List.mem_append_left _ hcall)) hpre
  refine ⟨hpumped.announced hws, hpumped.matching, fun call hcall => ?_⟩
  cases post with
  | nil => cases hcall
  | cons first post =>
      cases hcall
      exact (step_pumped (htrades call (List.mem_append_right _
        (List.mem_cons_self ..))) hpost.1).2

-- ======================================================= a lost update

/-- A connected paper-trading broker with a callback, at work on two
closes. -/
def watched : SimulationBroker :=
  (init paper).run paper [(.authenticate, calm), (.connectWebsocket, calm),
    (.registerOrderUpdateCallback, calm),
    (.placeOrder closeCall none, calm), (.placeOrder closePut none, calm)]

/-- Both are due, at a price. -/
def priced : SimAnswers where
  now _ _ := 1
  getLtp _ _ := .ok 100

/-- Both are due, and the second has no price. -/
def unpriced : SimAnswers where
  now _ _ := 1
  getLtp _ i := if i = 1 then .error (.value "no live Kite price") else .ok 100

/-- With prices for both, both fills are announced. -/
theorem both_announced :
    ((watched.run {} [(.tick, priced)]).heard 0).length = 2
      ∧ AllAnnounced {} watched [(.tick, priced)] :=
  ⟨by decide +kernel, announced_of_quiet {} (by decide +kernel)
    (fun call hcall => by
      obtain rfl := List.mem_singleton.1 hcall
      trivial)
    ⟨fun _ => by decide +kernel, trivial⟩⟩

/-- Without a price for the second, the first one's fill is never
announced, and the matching thread is gone. -/
theorem fill_unannounced :
    ¬ AllAnnounced {} watched [(.tick, unpriced)]
      ∧ (watched.run {} [(.tick, unpriced)]).matching = false := by
  refine ⟨fun hall => ?_, by decide +kernel⟩
  obtain ⟨⟨changes, hchanges, hheard⟩, _⟩ := hall [(.tick, unpriced)] [] rfl
  have hone : (watched.run {} [(.tick, unpriced)]).changes.length = 1 := by
    decide +kernel
  have hnone : (watched.run {} [(.tick, unpriced)]).heard 0 = [] := by
    decide +kernel
  have hbefore : watched.changes = [] ∧ watched.heard 0 = [] := by
    decide +kernel
  have hdelivered := hheard 0 (by decide +kernel)
  rw [hbefore.1, List.nil_append] at hchanges
  rw [hnone, hbefore.2, List.nil_append] at hdelivered
  rw [hchanges, ← hdelivered] at hone
  cases hone

end SimulationBroker

end AlgoPlatform
