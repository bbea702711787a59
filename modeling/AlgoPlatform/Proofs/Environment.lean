/-
What the environment's turn, and an act that places nothing, can do.

The push stream writes order rows and nothing else, so any relation
between rows that is blind to orders survives it (`BlindToOrders`). A
broker nobody calls `place_order` on only moves its own orders on
(`Broker.Follows`). `Waits R` is both at once, and every program that
places no order keeps it from its first act to its last, crash or no
crash; a program that does place keeps `OnRows R`.
-/
import AlgoPlatform.Model.World

open Basis Basis.Session

namespace AlgoPlatform

-- ============================================================== one order

/-- What may become of an order after one of its snapshots. -/
structure BrokerOrder.Becomes (bo new : BrokerOrder) : Prop where
  brokerOrderId : new.brokerOrderId = bo.brokerOrderId
  tag : new.tag = bo.tag
  transactionType : new.transactionType = bo.transactionType
  tradingsymbol : new.tradingsymbol = bo.tradingsymbol
  quantity : new.quantity = bo.quantity
  filled : bo.filledQuantity ≤ new.filledQuantity
  terminal : bo.status.isTerminal = true → new = bo

theorem BrokerOrder.Becomes.refl (bo : BrokerOrder) : bo.Becomes bo :=
  ⟨rfl, rfl, rfl, rfl, rfl, le_refl _, fun _ => rfl⟩

theorem BrokerOrder.Becomes.trans {a b c : BrokerOrder} (hab : a.Becomes b)
    (hbc : b.Becomes c) : a.Becomes c where
  brokerOrderId := hbc.brokerOrderId.trans hab.brokerOrderId
  tag := hbc.tag.trans hab.tag
  transactionType := hbc.transactionType.trans hab.transactionType
  tradingsymbol := hbc.tradingsymbol.trans hab.tradingsymbol
  quantity := hbc.quantity.trans hab.quantity
  filled := hab.filled.trans hbc.filled
  terminal := by
    intro h
    obtain rfl := hab.terminal h
    exact hbc.terminal h

theorem BrokerOrder.Advances.becomes {bo new : BrokerOrder}
    (h : bo.Advances new) : bo.Becomes new := by
  obtain ⟨hid, htag, hside, hsymbol, hquantity, hopen, hfilled⟩ := h
  refine ⟨hid, htag, hside, hsymbol, hquantity, hfilled, fun hterm => ?_⟩
  rw [hopen] at hterm
  cases hterm

-- ============================================================= the broker

/-- The call ended in `BrokerConnectionError`. -/
def PlaceCall.LostToConnection (c : PlaceCall) : Prop :=
  ∃ e, c.raised = some e ∧ e.kind = .connection

namespace Broker

variable {b : Broker} {bo : BrokerOrder} {id : String}

theorem current_mem (h : b.current id = some bo) : bo ∈ b.log :=
  List.mem_of_find?_eq_some h

theorem current_id (h : b.current id = some bo) : bo.brokerOrderId = id := by
  have hfound := List.find?_some h
  simpa using hfound

/-- Every order in the log has a current state. -/
theorem exists_current (h : bo ∈ b.log) :
    ∃ cur, b.current bo.brokerOrderId = some cur := by
  rw [← Option.isSome_iff_exists, current, List.find?_isSome]
  exact ⟨bo, h, by simp⟩

/-- An order's terminal snapshot is its last. -/
def Settles (b : Broker) (id : String) : Prop :=
  ∀ bo ∈ b.log, bo.brokerOrderId = id → bo.status.isTerminal = true →
    b.current id = some bo

/-- How a broker nobody places an order with moves on. -/
structure Follows (b b' : Broker) : Prop where
  calls : b'.calls = b.calls
  earlier : b'.earlier = b.earlier
  reads : b.reads <+: b'.reads
  log : b.log <:+ b'.log
  current : ∀ id bo, b.current id = some bo →
    ∃ bo', b'.current id = some bo' ∧ bo.Becomes bo'
  born : ∀ bo ∈ b'.log, bo ∈ b.log
    ∨ ∃ cur, b.current bo.brokerOrderId = some cur ∧ cur.Becomes bo
  settles : ∀ id, b.Settles id → b'.Settles id

theorem Follows.refl (b : Broker) : b.Follows b where
  calls := rfl
  earlier := rfl
  reads := List.prefix_refl _
  log := List.suffix_refl _
  current := fun _ bo h => ⟨bo, h, BrokerOrder.Becomes.refl bo⟩
  born := fun _ h => .inl h
  settles := fun _ => id

theorem Follows.trans {b b' b'' : Broker} (h : b.Follows b')
    (h' : b'.Follows b'') : b.Follows b'' where
  calls := h'.calls.trans h.calls
  earlier := h'.earlier.trans h.earlier
  reads := h.reads.trans h'.reads
  log := h.log.trans h'.log
  current := by
    intro id bo hbo
    obtain ⟨mid, hmid, hbm⟩ := h.current id bo hbo
    obtain ⟨new, hnew, hmn⟩ := h'.current id mid hmid
    exact ⟨new, hnew, hbm.trans hmn⟩
  born := by
    intro bo hbo
    rcases h'.born bo hbo with hold | ⟨mid, hmid, hmb⟩
    · exact h.born bo hold
    · right
      rcases h.born mid (current_mem hmid) with hold | ⟨cur, hcur, hcm⟩
      · obtain ⟨cur, hcur⟩ := exists_current hold
        rw [current_id hmid] at hcur
        obtain ⟨mid', hmid', hcm⟩ := h.current _ _ hcur
        obtain rfl := Option.some_inj.1 (hmid.symm.trans hmid')
        exact ⟨cur, hcur, hcm.trans hmb⟩
      · rw [current_id hmid] at hcur
        exact ⟨cur, hcur, hcm.trans hmb⟩
  settles := fun id hid => h'.settles id (h.settles id hid)

/-- The order the broker moved on shows its newest snapshot, and the
others are as they were. -/
theorem current_cons (b : Broker) (new : BrokerOrder) (id : String) :
    ({ b with log := new :: b.log } : Broker).current id
      = if new.brokerOrderId = id then some new else b.current id := by
  unfold Broker.current
  rw [List.find?_cons]
  by_cases h : new.brokerOrderId = id <;> simp [h]

theorem follows_works (b : Broker) (new : BrokerOrder) :
    b.Follows (b.works new) := by
  unfold works
  cases hcur : b.current new.brokerOrderId with
  | none => exact Follows.refl b
  | some cur =>
      dsimp only
      by_cases hadv : cur.Advances new
      · rw [if_pos hadv]
        refine ⟨rfl, rfl, List.prefix_refl _, List.suffix_cons _ _, ?_, ?_, ?_⟩
        · intro id bo hbo
          rw [current_cons]
          by_cases hid : new.brokerOrderId = id
          · subst hid
            rw [if_pos rfl]
            obtain rfl := Option.some_inj.1 (hcur.symm.trans hbo)
            exact ⟨new, rfl, hadv.becomes⟩
          · rw [if_neg hid]
            exact ⟨bo, hbo, BrokerOrder.Becomes.refl bo⟩
        · intro bo hbo
          rcases List.mem_cons.1 hbo with rfl | hold
          · exact .inr ⟨cur, hcur, hadv.becomes⟩
          · exact .inl hold
        · intro id hsettles bo hbo hid hterm
          rw [current_cons]
          rcases List.mem_cons.1 hbo with rfl | hold
          · rw [if_pos hid]
          · have hlast := hsettles bo hold hid hterm
            rw [if_neg fun hnew => ?_]
            · exact hlast
            · -- the broker does not move a settled order on
              rw [hnew, hlast] at hcur
              obtain rfl := Option.some_inj.1 hcur
              rw [hadv.2.2.2.2.2.1] at hterm
              cases hterm
      · rw [if_neg hadv]
        exact Follows.refl b

/-- What a read answers with is the order's newest snapshot. -/
theorem current_of_lookup {b : Broker} {id : String}
    {read : Option BrokerError} {bo : BrokerOrder}
    (h : b.lookup id read = .ok bo) : b.current id = some bo := by
  unfold lookup at h
  cases read with
  | some e => cases h
  | none =>
      dsimp only at h
      cases hcur : b.current id with
      | none =>
          rw [hcur] at h
          cases h
      | some cur =>
          rw [hcur] at h
          cases h
          rfl

/-- What `get_order` answers with is in the log. -/
theorem getOrder_mem {b : Broker} {id : String} {read : Option BrokerError}
    {bo : BrokerOrder} (h : (b.getOrder id read).1 = .ok bo) : bo ∈ b.log := by
  unfold getOrder at h
  cases hlookup : b.lookup id read with
  | error e =>
      rw [hlookup] at h
      cases h
  | ok found =>
      rw [hlookup] at h
      cases h
      exact current_mem (current_of_lookup hlookup)

/-- Answering `get_order` leaves a read behind and nothing else. -/
theorem follows_getOrder (b : Broker) (id : String)
    (read : Option BrokerError) : b.Follows (b.getOrder id read).2 := by
  unfold getOrder
  cases b.lookup id read with
  | error e => exact { Follows.refl b with reads := List.prefix_append _ _ }
  | ok bo => exact { Follows.refl b with reads := List.prefix_append _ _ }

/-- What one `place_order` call can come to. -/
inductive Placed (b : Broker) (request : PlaceOrderRequest) :
    Except BrokerError String → Broker → Prop
  | acked {id : String} (h : b.IsFresh id) :
      Placed b request (.ok id) (b.accept request id none)
  | lost {id : String} {e : BrokerError} (h : b.IsFresh id)
      (he : e.kind.mayBeLive = true) :
      Placed b request (.error e) (b.accept request id (some e))
  | refused (e : BrokerError) :
      Placed b request (.error e)
        { b with calls := b.calls ++ [⟨request, none, some e⟩] }

theorem placeOrder_placed (b : Broker) (request : PlaceOrderRequest)
    (reply : PlaceReply) :
    ∃ r, b.Placed request r (b.placeOrder request reply).2
      ∧ (b.placeOrder request reply).1 = r.mapError .broker := by
  unfold placeOrder
  cases reply with
  | ack id =>
      by_cases h : b.IsFresh id
      · rw [lawful, if_pos h]
        exact ⟨.ok id, .acked h, rfl⟩
      · rw [lawful, if_neg h]
        exact ⟨.error _, .refused _, rfl⟩
  | lost id e =>
      by_cases h : b.IsFresh id ∧ e.kind.mayBeLive = true
      · rw [lawful, if_pos h]
        exact ⟨.error e, .lost h.1 h.2, rfl⟩
      · rw [lawful, if_neg h]
        exact ⟨.error _, .refused _, rfl⟩
  | refuse e => exact ⟨.error e, .refused e, rfl⟩

/-- An order is accepted by a call that raises only if the reply says
so. -/
theorem placeOrder_lost {b : Broker} {request : PlaceOrderRequest}
    {reply : PlaceReply} {id : String} {e : BrokerError}
    (h : (b.placeOrder request reply).2 = b.accept request id (some e)) :
    reply = .lost id e := by
  have hcalls := congrArg Broker.calls h
  unfold placeOrder at hcalls
  cases reply with
  | ack id' =>
      by_cases hfresh : b.IsFresh id'
      · simp [lawful, hfresh, accept] at hcalls
      · simp [lawful, hfresh, accept] at hcalls
  | lost id' e' =>
      by_cases hlive : b.IsFresh id' ∧ e'.kind.mayBeLive = true
      · simp only [lawful, if_pos hlive, accept, List.append_cancel_left_eq,
          List.cons.injEq, PlaceCall.mk.injEq, Option.some.injEq] at hcalls
        rw [hcalls.1.2.1, hcalls.1.2.2]
      · simp [lawful, if_neg hlive, accept] at hcalls
  | refuse e' => simp [lawful, accept] at hcalls

theorem current_accept (b : Broker) (request : PlaceOrderRequest)
    (id : String) (raised : Option BrokerError) (id' : String) :
    (b.accept request id raised).current id'
      = if id = id' then some (request.accepted id) else b.current id' :=
  b.current_cons (request.accepted id) id'

/-- An accepted order is one more under its tag. -/
theorem acceptedUnder_accept (b : Broker) (request : PlaceOrderRequest)
    (id : String) (raised : Option BrokerError) (tag : String) :
    (b.accept request id raised).acceptedUnder tag
      = b.acceptedUnder tag ++
        if request.tag = tag then [⟨request, some id, raised⟩] else [] := by
  unfold Broker.acceptedUnder Broker.accept
  rw [List.filter_append]
  by_cases h : request.tag = tag <;> simp [h]

theorem acceptedUnder_refuse (b : Broker) (request : PlaceOrderRequest)
    (e : BrokerError) (tag : String) :
    ({ b with calls := b.calls ++ [⟨request, none, some e⟩] } :
        Broker).acceptedUnder tag = b.acceptedUnder tag := by
  unfold Broker.acceptedUnder
  rw [List.filter_append]
  simp

theorem Follows.acceptedUnder {b b' : Broker} (h : b.Follows b')
    (tag : String) : b'.acceptedUnder tag = b.acceptedUnder tag := by
  unfold Broker.acceptedUnder
  rw [h.calls]

/-- A fresh id is no order's. -/
theorem IsFresh.current (h : b.IsFresh id) : b.current id = none := by
  unfold Broker.current
  rw [List.find?_eq_none]
  intro bo hbo
  simpa using h.2.2 bo hbo

end Broker

-- =============================================================== the rows

/-- Relations between rows that do not see order rows, all that the push
path writes. -/
class BlindToPushes (R : Rows → Rows → Prop) : Prop extends
    Session.Frame R where
  orders : ∀ r os, R r { r with orders := os }

/-- Relations between rows that see neither order rows nor a break being
recorded. -/
class BlindToOrders (R : Rows → Rows → Prop) : Prop extends
    BlindToPushes R where
  breaks : ∀ r b, R r { r with breaks := r.breaks ++ [b] }

section Rows

variable {R : Rows → Rows → Prop} [BlindToPushes R]

theorem keeps_setOrder (i : Nat) (f : Order → Order) :
    Keeps R (flush (·.setOrder i f) : Session Unit) :=
  keeps_flush fun r => BlindToPushes.orders r _

theorem keeps_applyBrokerOrderUpdate (i : Nat) (o : Order)
    (bo : BrokerOrder) : Keeps R (applyBrokerOrderUpdate i o bo) := by
  have hlearn : Keeps R (learnBrokerOrderId i o bo) :=
    keeps_ite (keeps_setOrder i _) (keeps_pure _)
  have hwrite : ∀ (f : Order → Order) (out : OrderUpdateOutcome),
      Keeps R (do flush (·.setOrder i f); pure out : Session _) :=
    fun f out => keeps_bind (keeps_setOrder i f) fun _ => keeps_pure out
  have hfill : ∀ status filled price (out : OrderUpdateOutcome),
      Keeps R (do OrderRepository.recordFill i status filled price
                  pure out : Session _) :=
    fun _ _ _ out => keeps_bind (keeps_flush fun r => BlindToPushes.orders r _)
      fun _ => keeps_pure out
  refine keeps_ite (keeps_pure _) (keeps_bind hlearn fun _ => ?_)
  cases bo.status with
  | complete => exact hfill _ _ _ _
  | rejected => exact hwrite _ _
  | error => exact hwrite _ _
  | cancelled => exact hwrite _ _
  | pending => exact keeps_ite (hfill _ _ _ _) (keeps_pure _)
  | «open» => exact keeps_ite (hfill _ _ _ _) (keeps_pure _)

theorem keeps_getByBrokerOrderId (id : String) :
    Keeps R (OrderRepository.getByBrokerOrderId id) :=
  keeps_bind (keeps_fetch _) fun _ => keeps_scalarOneOrNone _

theorem keeps_getByBrokerTag (tag : String) :
    Keeps R (OrderRepository.getByBrokerTag tag) :=
  keeps_bind (keeps_fetch _) fun _ => keeps_scalarOneOrNone _

theorem keeps_locate (bo : BrokerOrder) :
    Keeps R (OrderUpdateProcessor.locate bo) := by
  refine keeps_ite (keeps_bind (keeps_pure none) fun byId => ?_)
    (keeps_bind (keeps_getByBrokerOrderId _) fun byId => ?_) <;>
  · cases byId with
    | some row => exact keeps_pure _
    | none =>
        cases bo.tag with
        | none => exact keeps_pure _
        | some tag => exact keeps_ite (keeps_pure _) (keeps_getByBrokerTag tag)

theorem keeps_update (bo : BrokerOrder) :
    Keeps R (OrderUpdateProcessor.update bo) := by
  refine keeps_bind (keeps_locate bo) fun row => ?_
  cases row with
  | none => exact keeps_pure _
  | some row => exact keeps_applyBrokerOrderUpdate _ _ _

theorem process_keeps (bo : BrokerOrder) (db : Db) :
    R db.rows (OrderUpdateProcessor.process bo db).2.rows := by
  have hkeeps := keeps_update (R := R) bo db
  unfold OrderUpdateProcessor.process
  unfold Meets at hkeeps
  cases hrun : OrderUpdateProcessor.update bo db with
  | error e => exact Frame.refl _
  | ok x => rw [hrun] at hkeeps; exact hkeeps

theorem keeps_reconcileTerminal (id : String) (bo : BrokerOrder) :
    Keeps R (reconcileTerminal id bo) := by
  refine keeps_bind (keeps_getByBrokerOrderId id) fun row => ?_
  cases row with
  | none => exact keeps_pure _
  | some row => exact keeps_discard (keeps_applyBrokerOrderUpdate _ _ _)

end Rows

-- =========================================================== the machine

/-- A relation between the rows, whatever the broker does. -/
def OnRows (R : Rows → Rows → Prop) (w w' : World) : Prop :=
  R w.db.rows w'.db.rows

instance {R : Rows → Rows → Prop} [Session.Frame R] :
    Prog.Frame (OnRows R) where
  refl := fun w => Session.Frame.refl w.db.rows
  trans := fun h h' => Session.Frame.trans (R := R) h h'

/-- The rows keep a relation, and nothing is placed. -/
structure Waits (R : Rows → Rows → Prop) (w w' : World) : Prop where
  rows : R w.db.rows w'.db.rows
  broker : w.broker.Follows w'.broker
  deferred : w.deferred <+: w'.deferred

instance {R : Rows → Rows → Prop} [Session.Frame R] :
    Prog.Frame (Waits R) where
  refl := fun _ => ⟨Session.Frame.refl _, Broker.Follows.refl _,
    List.prefix_refl _⟩
  trans := fun h h' => ⟨Session.Frame.trans h.rows h'.rows,
    h.broker.trans h'.broker, h.deferred.trans h'.deferred⟩

/-- A commit that keeps the relation, when nothing else happens. -/
theorem Waits.commit {R : Rows → Rows → Prop} {w : World} {db : Db}
    (h : R w.db.rows db.rows) : Waits R w { w with db } :=
  ⟨h, Broker.Follows.refl _, List.prefix_refl _⟩

/-- A push applies a snapshot of the broker's log, or delivers nothing. -/
theorem World.happens_pushes (w : World) (n : Nat) :
    w.happens (.pushes n) = w ∨ ∃ bo ∈ w.broker.log, w.happens (.pushes n)
      = { w with db := (OrderUpdateProcessor.process bo w.db).2 } := by
  unfold World.happens
  dsimp only
  cases hbo : w.broker.log[n]? with
  | none => exact .inl rfl
  | some bo => exact .inr ⟨bo, List.mem_of_getElem? hbo, rfl⟩

section Machine

variable {R : Rows → Rows → Prop} [BlindToPushes R] {α : Type}

theorem waits_happens (w : World) (e : Event) : Waits R w (w.happens e) := by
  cases e with
  | works bo =>
      exact ⟨Session.Frame.refl _, w.broker.follows_works bo,
        List.prefix_refl _⟩
  | pushes n =>
      obtain h | ⟨bo, -, h⟩ := w.happens_pushes n <;> rw [h]
      · exact Prog.Frame.refl (R := Waits R) w
      · exact Waits.commit (process_keeps bo w.db)

/-- The environment's turn. -/
theorem waits_interfere (w : World) (m : Move) :
    Waits R w (w.interfere m) := by
  unfold World.interfere
  induction m.events generalizing w with
  | nil => exact Prog.Frame.refl (R := Waits R) w
  | cons e es ih =>
      exact Prog.Frame.trans (R := Waits R) (waits_happens w e)
        (ih (w.happens e))

namespace Program

theorem along_unitOfWork {body : List Nat → Session α}
    (h : ∀ scan, Keeps R (body scan)) :
    Prog.Along (Waits R) (unitOfWork body) := by
  refine Prog.along_atomic fun m w => ?_
  have hturn : Waits R w (w.interfere m) := waits_interfere w m
  dsimp only
  cases m.fault with
  | some fault => exact hturn
  | none =>
      have hbody := h m.scan (w.interfere m).db
      unfold Meets at hbody
      cases hrun : body m.scan (w.interfere m).db with
      | error e => exact hturn
      | ok r =>
          rw [hrun] at hbody
          exact Prog.Frame.trans (R := Waits R) hturn (Waits.commit hbody)

omit [BlindToPushes R] in
/-- One unit of work: its commit, its exception, or a failed commit. -/
theorem safe_unitOfWork {body : List Nat → Session α} {C : Move → Prop}
    {I : World → Prop} {Q : Except Exc α → World → Prop} {w : World}
    (hI : I w)
    (hfault : ∀ m f, C m → m.fault = some f →
      Q (.error f.exc) (w.interfere m))
    (hbody : ∀ m, C m → m.fault = none →
      Meets (body m.scan) (w.interfere m).db
        (fun a db => Q (.ok a) { w.interfere m with db })
        (fun e => Q (.error e) (w.interfere m))) :
    (unitOfWork body).Safe C I w Q := by
  refine (Prog.safe_atomic _ _).2 ⟨hI, fun m hm => ?_⟩
  dsimp only
  cases hf : m.fault with
  | some f => exact hfault m f hm hf
  | none =>
      have hmeets := hbody m hm hf
      unfold Meets at hmeets
      dsimp only
      cases hrun : body m.scan (w.interfere m).db with
      | error e => rw [hrun] at hmeets; exact hmeets
      | ok r => rw [hrun] at hmeets; exact hmeets

omit [BlindToPushes R] in
theorem ensures_unitOfWork {body : List Nat → Session α}
    {P : α → World → Prop}
    (h : ∀ scan (w : World), Meets (body scan) w.db
      (fun a db => P a { w with db }) fun _ => True) :
    Prog.Ensures P (unitOfWork body) := by
  intro _ m w
  have hmeets := h m.scan (w.interfere m)
  unfold Meets at hmeets
  dsimp only
  cases m.fault with
  | some fault => exact nofun
  | none =>
      dsimp only
      cases hrun : body m.scan (w.interfere m).db with
      | error e => exact nofun
      | ok r =>
          rw [hrun] at hmeets
          intro a ha
          cases ha
          exact hmeets

omit [BlindToPushes R] in
/-- What a unit of work returns is what its session does, where the act
is under `A`. -/
theorem returns_unitOfWork {A : Prog.Condition Move World}
    {body : List Nat → Session α} {P : α → Prop}
    (h : ∀ (f : Move → World → Except Exc α × World) m w, A f m w →
      Meets (body m.scan) (w.interfere m).db (fun a _ => P a) fun _ => True) :
    (unitOfWork body).Returns A P := by
  refine Prog.returns_atomic fun m w hA a ha => ?_
  have hbody := h _ m w hA
  unfold Meets at hbody
  dsimp only at ha
  cases hfault : m.fault with
  | some fault =>
      rw [hfault] at ha
      cases ha
  | none =>
      rw [hfault] at ha
      cases hrun : body m.scan (w.interfere m).db with
      | error e =>
          rw [hrun] at ha
          cases ha
      | ok r =>
          rw [hrun] at ha hbody
          cases ha
          exact hbody

theorem along_reads (f : Move → Broker → Except Exc α) :
    Prog.Along (Waits R) (reads f) :=
  Prog.along_atomic fun m w => waits_interfere w m

theorem along_getOrder (id : String) : Prog.Along (Waits R) (getOrder id) :=
  Prog.along_atomic fun m w =>
    Prog.Frame.trans (R := Waits R) (waits_interfere w m)
      ⟨Session.Frame.refl _, Broker.follows_getOrder _ id m.read,
        List.prefix_refl _⟩

/-- `place_order` writes no row. -/
theorem along_placeOrder (request : PlaceOrderRequest) :
    Prog.Along (OnRows R) (placeOrder request) :=
  Prog.along_atomic fun m w => (waits_interfere w m).rows

/-- One `place_order` call, by what it came to. -/
theorem safe_placeOrder {request : PlaceOrderRequest} {C : Move → Prop}
    {I : World → Prop} {Q : Except Exc String → World → Prop} {w : World}
    (hI : I w)
    (hQ : ∀ m r b, C m → (w.interfere m).broker.Placed request r b →
      Q (r.mapError .broker) { w.interfere m with broker := b }) :
    (placeOrder request).Safe C I w Q := by
  refine (Prog.safe_atomic _ _).2 ⟨hI, fun m hm => ?_⟩
  obtain ⟨r, hplaced, hr⟩ :=
    (w.interfere m).broker.placeOrder_placed request m.place
  have hpost := hQ m r _ hm hplaced
  rw [← hr] at hpost
  exact hpost

/-- One guarded `place_order` call, by what it came to and by the reply
that made it so. -/
theorem safe_tryPlaceOrder_reply {request : PlaceOrderRequest}
    {C : Move → Prop} {I : World → Prop}
    {Q : Except Exc (Except BrokerError String) → World → Prop} {w : World}
    (hI : I w)
    (hQ : ∀ m r b, C m → (w.interfere m).broker.Placed request r b →
      ((w.interfere m).broker.placeOrder request m.place).2 = b →
      Q (.ok r) { w.interfere m with broker := b }) :
    (tryBroker (placeOrder request)).Safe C I w Q := by
  unfold tryBroker
  rw [Prog.safe_tryCatch, Prog.safe_bind]
  refine (Prog.safe_atomic _ _).2 ⟨hI, fun m hm => ?_⟩
  obtain ⟨r, hplaced, hr⟩ :=
    (w.interfere m).broker.placeOrder_placed request m.place
  have hpost := hQ m r _ hm hplaced rfl
  dsimp only
  rw [hr]
  cases r with
  | ok id => exact hpost
  | error e => exact hpost

/-- One guarded `place_order` call, by what it came to. -/
theorem safe_tryPlaceOrder {request : PlaceOrderRequest} {C : Move → Prop}
    {I : World → Prop}
    {Q : Except Exc (Except BrokerError String) → World → Prop} {w : World}
    (hI : I w)
    (hQ : ∀ m r b, C m → (w.interfere m).broker.Placed request r b →
      Q (.ok r) { w.interfere m with broker := b }) :
    (tryBroker (placeOrder request)).Safe C I w Q :=
  safe_tryPlaceOrder_reply hI fun m r b hm hplaced _ => hQ m r b hm hplaced

/-- One guarded `get_order` call: it answers with the order's newest
snapshot or not at all, and leaves the read behind. -/
theorem safe_tryGetOrder {id : String} {C : Move → Prop} {I : World → Prop}
    {Q : Except Exc (Except BrokerError BrokerOrder) → World → Prop}
    {w : World} (hI : I w)
    (hraised : ∀ m e, C m → Q (.ok (.error e)) { w.interfere m with
      broker := { (w.interfere m).broker with
        reads := (w.interfere m).broker.reads ++ [⟨id, none⟩] } })
    (hread : ∀ m bo, C m → (w.interfere m).broker.current id = some bo →
      Q (.ok (.ok bo)) { w.interfere m with
        broker := { (w.interfere m).broker with
          reads := (w.interfere m).broker.reads ++ [⟨id, some bo⟩] } }) :
    (tryBroker (getOrder id)).Safe C I w Q := by
  unfold tryBroker
  rw [Prog.safe_tryCatch, Prog.safe_bind]
  refine (Prog.safe_atomic _ _).2 ⟨hI, fun m hm => ?_⟩
  dsimp only
  unfold Broker.getOrder
  cases hlook : (w.interfere m).broker.lookup id m.read with
  | error e => exact hraised m e hm
  | ok bo => exact hread m bo hm (Broker.current_of_lookup hlook)

/-- One guarded lookup by tag. -/
theorem safe_tryFindOrderByTag {tag : String} {C : Move → Prop}
    {I : World → Prop}
    {Q : Except Exc (Except BrokerError (Option BrokerOrder)) → World → Prop}
    {w : World} (hI : I w)
    (hQ : ∀ m r, C m →
      (w.interfere m).broker.findOrderByTag tag m.pick m.read
        = r.mapError .broker → Q (.ok r) (w.interfere m)) :
    (tryBroker (findOrderByTag tag)).Safe C I w Q := by
  unfold tryBroker
  rw [Prog.safe_tryCatch, Prog.safe_bind]
  refine (Prog.safe_atomic _ _).2 ⟨hI, fun m hm => ?_⟩
  dsimp only
  cases hread : m.read with
  | some e =>
      have hpost := hQ m (.error e) hm (by rw [hread]; rfl)
      exact hpost
  | none =>
      have hpost := hQ m (.ok _) hm (by rw [hread]; rfl)
      exact hpost

theorem takes_tryBroker {A J : Prog.Condition Move World} {p : Program α}
    (hp : p.Takes A J) : (tryBroker p).Takes A J := by
  refine Prog.takes_tryCatch
    (Prog.takes_bind hp fun a => Prog.takes_pure _) fun e => ?_
  cases e with
  | broker e => exact Prog.takes_pure _
  | _ => exact Prog.takes_throw _

omit [BlindToPushes R] in
theorem returns_tryBroker {A : Prog.Condition Move World} {P : α → Prop}
    {p : Program α} (hp : p.Returns A P) :
    (tryBroker p).Returns A fun r => ∀ a, r = .ok a → P a := by
  refine Prog.returns_tryCatch (Prog.returns_bind hp fun a ha =>
    Prog.returns_pure fun b hb => ?_) fun e => ?_
  · cases hb
    exact ha
  · cases e with
    | broker e => exact Prog.returns_pure nofun
    | _ => exact Prog.returns_throw _

/-- What holds of every answer of `get_order` holds of the order a poll
ends with. -/
theorem returns_pollUntilTerminal {A : Prog.Condition Move World} {id : String}
    {P : BrokerOrder → Prop} (h : (getOrder id).Returns A P) (attempts : Nat) :
    (pollUntilTerminal id attempts).Returns A
      fun r => ∀ bo, r = some bo → P bo := by
  induction attempts with
  | zero => exact Prog.returns_pure fun bo h => (nomatch h)
  | succ attempts ih =>
      refine Prog.returns_bind (returns_tryBroker h) fun r hr => ?_
      cases r with
      | error e => exact ih
      | ok bo =>
          refine Prog.returns_ite (Prog.returns_pure fun bo' h => ?_) ih
          cases h
          exact hr bo rfl

theorem along_tryBroker {S : World → World → Prop} {p : Program α}
    (hp : Prog.Along S p) : Prog.Along S (tryBroker p) :=
  takes_tryBroker hp

/-- What the session of `reconcile_order_terminal` comes to: a race it
lost is swallowed. -/
theorem reconciled_of {id : String} {bo : BrokerOrder} {w : World}
    {P : Except Exc Unit × World → Prop}
    (h : Meets (reconcileTerminal id bo) w.db
      (fun _ db => P (.ok (), { w with db }))
      fun e => P (.ok (), w) ∧ P (.error e, w)) :
    P (match reconcileTerminal id bo w.db with
      | .ok (_, db) => (.ok (), { w with db })
      | .error .concurrentModification => (.ok (), w)
      | .error e => (.error e, w)) := by
  unfold Meets at h
  cases hrun : reconcileTerminal id bo w.db with
  | ok r =>
      rw [hrun] at h
      exact h
  | error e =>
      rw [hrun] at h
      cases e with
      | concurrentModification => exact h.1
      | _ => exact h.2

theorem along_reconcileOrderTerminal (id : String) (bo : BrokerOrder) :
    Prog.Along (Waits R) (reconcileOrderTerminal id bo) := by
  refine Prog.along_atomic fun m w => ?_
  have hturn : Waits R w (w.interfere m) := waits_interfere w m
  -- whatever the race came to, the rows are the turn's or the session's
  have hwrite := reconciled_of (P := fun x => Waits R w x.2)
    ((keeps_reconcileTerminal (R := R) id bo (w.interfere m).db).imp
      (fun _ _ h => Prog.Frame.trans (R := Waits R) hturn (Waits.commit h))
      fun _ _ => ⟨hturn, hturn⟩)
  dsimp only
  cases m.fault with
  | none =>
      dsimp only
      rw [if_neg (by simp)]
      exact hwrite
  | some fault =>
      cases fault with
      | operational => exact hturn
      | conflict =>
          dsimp only
          split_ifs
          · exact ⟨hturn.rows, hturn.broker,
              hturn.deferred.trans (List.prefix_append _ _)⟩
          · exact hturn
          · exact hwrite

theorem along_pollUntilTerminal (id : String) (attempts : Nat) :
    Prog.Along (Waits R) (pollUntilTerminal id attempts) := by
  induction attempts with
  | zero => exact Prog.along_pure _
  | succ attempts ih =>
      refine Prog.along_bind (along_tryBroker (along_getOrder id)) fun r => ?_
      cases r with
      | error e => exact ih
      | ok bo => exact Prog.along_ite (Prog.along_pure _) ih

end Program

end Machine

/-- Rows, whatever becomes of them. -/
def AnyRows (_ _ : Rows) : Prop := True

instance : BlindToOrders AnyRows where
  refl := fun _ => trivial
  trans := fun _ _ => trivial
  orders := fun _ _ => trivial
  breaks := fun _ _ => trivial

theorem keeps_anyRows {α : Type} (body : Session α) : Keeps AnyRows body := by
  intro db
  unfold Meets
  split <;> trivial

/-- A unit of work places nothing, whatever it writes. -/
theorem Program.along_unitOfWork_anyRows {α : Type}
    (body : List Nat → Session α) :
    Prog.Along (Waits AnyRows) (unitOfWork body) :=
  along_unitOfWork fun _ => keeps_anyRows _

/-- A program that places nothing keeps the relation between the rows. -/
theorem along_onRows {R : Rows → Rows → Prop} {α : Type} {p : Program α}
    (h : Prog.Along (Waits R) p) : Prog.Along (OnRows R) p :=
  h.mono fun _ _ => Waits.rows

-- ============================================================== placing

/-- Relations between worlds that waiting keeps, and placing an order
too. -/
class Outlasts (R : Rows → Rows → Prop) (S : World → World → Prop) : Prop
    extends Prog.Frame S where
  waits : ∀ {w w'}, Waits R w w' → S w w'
  places : ∀ request, Prog.Along S (Program.placeOrder request)

theorem along_outlasts {R : Rows → Rows → Prop} {S : World → World → Prop}
    [Outlasts R S] {α : Type} {p : Program α}
    (h : Prog.Along (Waits R) p) : Prog.Along S p :=
  h.mono fun _ _ => Outlasts.waits

/-- What is asked of an act under `A` holds of every act that places
nothing and keeps the relation between the rows. -/
class Bears (R : Rows → Rows → Prop) (A J : Prog.Condition Move World) :
    Prop where
  waits : ∀ {β : Type} {f : Move → World → β × World} {m w},
    A f m w → Waits R w (f m w).2 → J f m w

/-- And of placing an order. -/
class BearsPlacing (R : Rows → Rows → Prop) (A J : Prog.Condition Move World) :
    Prop extends Bears R A J where
  places : ∀ request, (Program.placeOrder request).Takes A J

theorem takes_waits {R : Rows → Rows → Prop} {A J : Prog.Condition Move World}
    [Bears R A J] {α : Type} {p : Program α} (h : Prog.Along (Waits R) p) :
    p.Takes A J :=
  Prog.Takes.mono h (fun _ _ _ _ => trivial) fun _ _ _ => Bears.waits

instance {R : Rows → Rows → Prop} {A : Prog.Condition Move World} :
    Bears R A (Prog.Moves (Waits R)) where
  waits := fun _ h => h

instance {R : Rows → Rows → Prop} {S : World → World → Prop} [Outlasts R S] :
    BearsPlacing R Prog.Anyhow (Prog.Moves S) where
  waits := fun _ => Outlasts.waits
  places := Outlasts.places R

instance {R : Rows → Rows → Prop} [BlindToPushes R] :
    Outlasts R (OnRows R) where
  waits := Waits.rows
  places := Program.along_placeOrder

/-- The rows keep a relation, and the broker forgets no snapshot. -/
structure Grows (R : Rows → Rows → Prop) (w w' : World) : Prop where
  rows : R w.db.rows w'.db.rows
  log : w.broker.log <:+ w'.broker.log

instance {R : Rows → Rows → Prop} [Session.Frame R] :
    Prog.Frame (Grows R) where
  refl := fun _ => ⟨Session.Frame.refl _, List.suffix_refl _⟩
  trans := fun h h' => ⟨Session.Frame.trans h.rows h'.rows, h.log.trans h'.log⟩

theorem Broker.Placed.log {b b' : Broker} {request : PlaceOrderRequest}
    {r : Except BrokerError String} (h : b.Placed request r b') :
    b.log <:+ b'.log := by
  cases h with
  | acked hid => exact List.suffix_cons _ _
  | lost hid hlive => exact List.suffix_cons _ _
  | refused e => exact List.suffix_refl _

instance {R : Rows → Rows → Prop} [BlindToPushes R] :
    Outlasts R (Grows R) where
  waits := fun h => ⟨h.rows, h.broker.log⟩
  places := fun request => Prog.along_atomic fun m w => by
    have hturn : Waits R w (w.interfere m) := waits_interfere w m
    obtain ⟨_, hplaced, -⟩ :=
      (w.interfere m).broker.placeOrder_placed request m.place
    exact ⟨hturn.rows, hturn.broker.log.trans hplaced.log⟩

end AlgoPlatform
