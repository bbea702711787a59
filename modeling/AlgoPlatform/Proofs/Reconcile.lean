/-
What a reconciliation pass may write, stage by stage.

`reconcile` reads the orderbook and the position book and then runs two
stages: `resolveStage` settles the intents and flags the orphans,
`positionStage` decides the unfinished positions. Each session of either
stage keeps every relation between the rows that allows the writes it
can make (`AllowsFills`, `AllowsVerdict`), so what a pass does not do is
proved here once.
-/
import AlgoPlatform.Model.Reconciliation
import AlgoPlatform.Proofs.Frames
import AlgoPlatform.Proofs.Schema

open Basis Basis.Session

namespace AlgoPlatform

-- ========================================================= the relations

/-- The relation allows a break to be recorded. -/
def AddsBreaks (R : Rows → Rows → Prop) : Prop :=
  ∀ r b, R r { r with breaks := r.breaks ++ [b] }

/-- The relation allows what settling an intent writes. -/
structure AllowsFills (R : Rows → Rows → Prop) : Prop where
  breaks : AddsBreaks R
  status : ∀ i status, WritesStatus R i status
  fill : ∀ r i purpose price,
    R r (r.setTrade i (ReconciliationEngine.fillTrade purpose price))

/-- The relation allows what deciding position `id` writes. -/
structure AllowsVerdict (R : Rows → Rows → Prop) (id : Nat) : Prop where
  breaks : AddsBreaks R
  position : ∀ r f, R r (r.setPosition id f)
  transition : ∀ r x, R r { r with transitions := r.transitions ++ [x] }
  inst : ∀ r i f, R r (r.setInstance i f)

namespace ReconciliationEngine

-- ============================================================ the stages

variable (reconciler : Option PositionReconciler)

/-- What `reconcile` does before it looks at positions. -/
def resolveStage (orders : List BrokerOrder) :
    Program (List ReconciliationItem) := do
  let intentIds ← Program.unitOfWork OrderIntentRepository.listInDoubt
  let intentItems ←
    each (reconcileOneIntent (groupOrdersByTag orders)) intentIds
  let orphanItems ←
    Program.unitOfWork fun _ => orphanSession (groupOrdersByTag orders)
  pure (intentItems ++ orphanItems)

/-- What `reconcile` does with the unfinished positions. -/
def positionStage (live : Option (List String)) :
    Program (List ReconciliationItem) := do
  let positionIds ← Program.unitOfWork unfinishedPositions
  each (reconcileOnePosition reconciler live) positionIds

/-- One guarded broker read, and what follows on its answer. -/
private theorem run_tryReads {α β : Type} {f : Move → Broker → Except Exc α}
    {k : Except BrokerError α → Program β} {w : World} {m : Move}
    {ms : List Move} {r : Except BrokerError α}
    (hr : f m (w.interfere m).broker = r.mapError .broker) :
    (Program.tryBroker (Program.reads f) >>= k).run (m :: ms) w
      = (k r).run ms (w.interfere m) := by
  have hact : (Program.tryBroker (Program.reads f)).run (m :: ms) w
      = (.returned r, w.interfere m, ms) := by
    show (Prog.tryCatch (Prog.bind
      (.done (f m (w.interfere m).broker)) _) _ : Program _).run ms _ = _
    rw [hr]
    cases r <;> rfl
  rw [Prog.run_bind, hact]

/-- A pass that got the broker's orderbook is the two stages, in order,
from the state the two reads left. -/
theorem reconcile_run {w : World} {m₀ m₁ : Move} {ms : List Move}
    {book : Except BrokerError (List BrokerPosition)}
    (horders : m₀.read = none)
    (hbook : book = match m₁.read with
      | some e => .error e
      | none => .ok m₁.positions) :
    (reconcile reconciler).run (m₀ :: m₁ :: ms) w
      = (do let resolved ← resolveStage (w.interfere m₀).broker.orderbook
            let examined ← positionStage reconciler (liveSymbols book)
            pure (resolved ++ examined) : Program _).run ms
          ((w.interfere m₀).interfere m₁) := by
  unfold reconcile
  have hfirst : (w.interfere m₀).broker.getOrders m₀.read
      = (Except.ok (w.interfere m₀).broker.orderbook).mapError Exc.broker := by
    rw [horders]
    rfl
  have hsecond : (match m₁.read with
        | some e => .error (.broker e)
        | none => .ok m₁.positions : Except Exc (List BrokerPosition))
      = book.mapError Exc.broker := by
    rw [hbook]
    cases m₁.read <;> rfl
  unfold Program.getOrders Program.getPositions
  rw [run_tryReads hfirst]
  dsimp only
  rw [run_tryReads hsecond]
  unfold resolveStage positionStage
  simp only [Prog.bind_assoc, Prog.pure_bind, List.append_assoc]

-- ================================================== settling the intents

section Resolving

variable {R : Rows → Rows → Prop} [BlindToPushes R]

omit [BlindToPushes R] in
theorem keeps_recordBreak (h : AddsBreaks R)
    {breakType : ReconciliationBreakType}
    {positionId orderId intentId : Option Nat} :
    Keeps R (ReconciliationBreakRepository.create breakType positionId orderId
      intentId) :=
  keeps_flush fun r => h r _

private theorem keeps_orderRow (intentId : Nat) (intent : OrderIntent)
    (bo : BrokerOrder) : Keeps R (orderRow intentId intent bo) := by
  refine keeps_bind (keeps_getByBrokerOrderId _) fun byId => ?_
  cases byId with
  | some row => exact keeps_pure _
  | none =>
      refine keeps_bind (keeps_getByBrokerTag _) fun byTag => ?_
      cases byTag with
      | some row => exact keeps_pure _
      | none =>
          refine keeps_bind (keeps_bind (keeps_fetch _) fun _ => keeps_bind
            (keeps_flush fun r => BlindToPushes.orders r _) fun _ =>
              keeps_pure _) fun orderId => ?_
          refine keeps_bind (keeps_bind (keeps_fetch _) fun row => ?_)
            fun _ => keeps_pure _
          cases row with
          | none => exact keeps_throw _
          | some row => exact keeps_pure _

private theorem keeps_updateTradeIfAny (h : AllowsFills R) (id : Nat)
    (purpose : OrderPurpose) (price : ℚ) :
    Keeps R (PositionRepository.updateTradeIfAny id fun money =>
      fillTrade purpose (money price)) := by
  refine keeps_bind (keeps_fetch _) fun row => ?_
  cases row with
  | none => exact keeps_pure _
  | some t => exact keeps_flush fun r => h.fill r _ _ _

private theorem keeps_applyFill (h : AllowsFills R) (intentId : Nat)
    (intent : OrderIntent) (orderId : Nat) (order : Order)
    (bo : BrokerOrder) :
    Keeps R (applyFill intentId intent orderId order bo) :=
  keeps_bind (keeps_flush fun r => BlindToPushes.orders r _) fun _ =>
    keeps_bind (keeps_updateTradeIfAny h _ _ _) fun _ =>
      keeps_bind (keeps_markStatus (h.status _ _)) fun _ =>
        keeps_markStatus (h.status _ _)

theorem keeps_resolveIntentAgainstOrder (h : AllowsFills R) (intentId : Nat)
    (intent : OrderIntent) (bo : BrokerOrder) :
    Keeps R (resolveIntentAgainstOrder intentId intent bo) := by
  refine keeps_bind (keeps_orderRow intentId intent bo) fun x => ?_
  obtain ⟨⟨orderId, order⟩, created⟩ := x
  refine keeps_bind (keeps_ite (keeps_setOrder _ _) (keeps_pure _)) fun _ => ?_
  -- a terminal order without a fill fails the intent
  have hterminal : Keeps R (if 0 < bo.filledQuantity then do
        applyFill intentId intent orderId order bo
        ReconciliationBreakRepository.create .quantityMismatch none
          (some orderId) (some intentId)
        pure { subject := .intent intentId, outcome := .partialFillRecorded,
               detail := bo.status.value ++ " after partial fill of "
                 ++ toString bo.filledQuantity,
               breakRecorded := true }
      else do
        OrderRepository.recordRejection orderId
          (resolveIntentAgainstOrder.rejectionText bo)
        OrderIntentRepository.markFailed intentId
        pure { subject := .intent intentId, outcome := .rejectionRecorded,
               detail := "broker order terminal " ++ bo.status.value
                 ++ ", no fill; intent FAILED" } :
      Session ReconciliationItem) :=
    keeps_ite
      (keeps_bind (keeps_applyFill h _ _ _ _ _) fun _ =>
        keeps_bind (keeps_recordBreak h.breaks) fun _ => keeps_pure _)
      (keeps_bind (keeps_setOrder _ _) fun _ =>
        keeps_bind (keeps_markStatus (h.status _ _)) fun _ => keeps_pure _)
  cases hstatus : bo.status with
  | complete =>
      refine keeps_bind (keeps_applyFill h _ _ _ _ _) fun _ => keeps_ite
        (keeps_bind (keeps_recordBreak h.breaks) fun _ => keeps_pure _)
        (keeps_pure _)
  | rejected => rw [hstatus] at hterminal; exact hterminal
  | cancelled => rw [hstatus] at hterminal; exact hterminal
  | error => rw [hstatus] at hterminal; exact hterminal
  | pending => exact keeps_ite (keeps_pure _) (keeps_pure _)
  | «open» => exact keeps_ite (keeps_pure _) (keeps_pure _)

/-- Settling an intent writes fills, or errors the intent's position. -/
theorem keeps_intentSession (h : AllowsFills R)
    (herror : ∀ intent reason, Keeps R (errorPositionOfIntent intent reason))
    (intentId : Nat) (ordersByTag : List (String × List BrokerOrder)) :
    Keeps R (intentSession intentId ordersByTag) := by
  refine keeps_bind (keeps_fetch _) fun row => ?_
  cases row with
  | none => exact keeps_pure _
  | some intent =>
      refine keeps_ite ?_ (keeps_pure _)
      rcases ordersUnder ordersByTag intent.brokerTag with _ | ⟨bo, _ | _⟩
      · exact keeps_bind (keeps_markStatus (h.status _ _)) fun _ => keeps_pure _
      · exact keeps_resolveIntentAgainstOrder h _ _ _
      · exact keeps_bind (keeps_recordBreak h.breaks) fun _ =>
          keeps_bind (herror _ _) fun _ => keeps_pure _

theorem keeps_orphanSession (h : AddsBreaks R)
    (ordersByTag : List (String × List BrokerOrder)) :
    Keeps R (orphanSession ordersByTag) := by
  induction ordersByTag with
  | nil => exact keeps_pure _
  | cons x rest ih =>
      obtain ⟨tag, orders⟩ := x
      refine keeps_bind (keeps_bind (keeps_fetch _) fun _ =>
        keeps_scalarOneOrNone _) fun intent => ?_
      cases intent with
      | some intent => exact ih
      | none =>
          exact keeps_bind (keeps_recordBreak h) fun _ =>
            keeps_bind ih fun _ => keeps_pure _

end Resolving

-- ================================================= deciding the positions

section Deciding

variable {R : Rows → Rows → Prop} [BlindToPushes R] {id : Nat}

omit [BlindToPushes R] in
theorem keeps_updatePosition (h : AllowsVerdict R id)
    (f : Position → Position) : Keeps R (PositionRepository.update id f) :=
  keeps_flush fun r => h.position r f

theorem keeps_transitionState (h : AllowsVerdict R id)
    (toState : PositionState) (actor : StateTransitionActor)
    (reason : Option String) :
    Keeps R (PositionRepository.transitionState id toState actor reason) := by
  refine keeps_bind (keeps_fetch _) fun row => ?_
  cases row with
  | none => exact keeps_throw _
  | some position =>
      exact keeps_bind (keeps_pure _) fun _ => keeps_flush fun r =>
        Session.Frame.trans (R := R) (h.position r _) (h.transition _ _)

theorem keeps_freeze (h : AllowsVerdict R id) (instanceId : Nat) :
    Keeps R (Bookkeeping.freezeInstance instanceId) := by
  refine keeps_bind (keeps_fetch _) fun row => ?_
  cases row with
  | none => exact keeps_pure _
  | some inst =>
      exact keeps_ite (keeps_flush fun r => h.inst r _ _) (keeps_pure _)

theorem keeps_errorByRecovery (h : AllowsVerdict R id)
    (strategyInstanceId : Nat) (reason : String) :
    Keeps R (errorByRecovery id strategyInstanceId reason) :=
  keeps_bind (keeps_updatePosition h _) fun _ =>
    keeps_bind (keeps_transitionState h _ _ _) fun _ => keeps_freeze h _

theorem keeps_errorPosition (h : AllowsVerdict R id) (position : Position)
    (breakType : ReconciliationBreakType) (name reason : String) :
    Keeps R (errorPosition id position breakType name reason) :=
  keeps_bind (keeps_errorByRecovery h _ _) fun _ =>
    keeps_bind (keeps_recordBreak h.breaks) fun _ => keeps_pure _

private theorem keeps_finalize {reconciler : Option PositionReconciler}
    (h : AllowsVerdict R id)
    {seam : PositionReconciler → Nat → Session Unit}
    (hseam : ∀ s ∈ reconciler, Keeps R (seam s id))
    (outcome : ReconciliationOutcome) (detail missing : String) :
    Keeps R (finalize reconciler id seam outcome detail missing) := by
  cases reconciler with
  | none =>
      exact keeps_bind (keeps_recordBreak h.breaks) fun _ =>
        keeps_bind (keeps_updatePosition h _) fun _ => keeps_pure _
  | some s => exact keeps_bind (hseam s rfl) fun _ => keeps_pure _

/-- Deciding a position writes what its verdict and the seam write. -/
theorem keeps_positionSession {reconciler : Option PositionReconciler}
    (h : AllowsVerdict R id)
    (hseam : ∀ s ∈ reconciler,
      Keeps R (s.finalizeEntry id) ∧ Keeps R (s.finalizeExit id))
    (live : Option (List String)) (scan : List Nat) :
    Keeps R (positionSession reconciler id live scan) := by
  have hopen : ∀ position trades,
      Keeps R (reconcileOpen id position trades live) := by
    intro position trades
    cases live with
    | none => exact keeps_pure _
    | some live =>
        exact keeps_ite (keeps_errorPosition h _ _ _ _) (keeps_pure _)
  refine keeps_bind (keeps_fetch _) fun row => ?_
  cases row with
  | none => exact keeps_pure _
  | some position =>
      refine keeps_ite (keeps_pure _) (keeps_bind (keeps_fetch _)
        fun trades => ?_)
      cases position.state with
      | entryPending =>
          refine keeps_ite ?_ (keeps_ite ?_ (keeps_errorPosition h _ _ _ _))
          · exact keeps_finalize h (fun s hs => (hseam s hs).1) _ _ _
          · exact keeps_bind (keeps_transitionState h _ _ _) fun _ =>
              keeps_pure _
      | exitPending =>
          refine keeps_ite ?_ (keeps_ite (keeps_errorPosition h _ _ _ _)
            (keeps_pure _))
          exact keeps_finalize h (fun s hs => (hseam s hs).2) _ _ _
      | «open» => exact hopen position trades
      | idle => exact hopen position trades
      | closed => exact hopen position trades
      | error => exact hopen position trades

end Deciding

-- ========================================================= a whole pass

theorem along_each {S : World → World → Prop}
    {f : Nat → Program ReconciliationItem} {ids : List Nat}
    (hf : ∀ id ∈ ids, Prog.Along S (f id)) : Prog.Along S (each f ids) := by
  induction ids with
  | nil => exact Prog.along_pure _
  | cons id ids ih =>
      refine Prog.along_bind (hf id (List.mem_cons_self ..)) fun _ => ?_
      refine Prog.along_bind (ih fun id hid => ?_) fun _ => Prog.along_pure _
      exact hf id (List.mem_cons_of_mem _ hid)

section Pass

variable {R : Rows → Rows → Prop} [BlindToPushes R]

/-- The first stage keeps what its sessions keep. -/
theorem along_resolveStage
    (hintent : ∀ intentId ordersByTag,
      Keeps R (intentSession intentId ordersByTag))
    (hbreaks : AddsBreaks R) (orders : List BrokerOrder) :
    Prog.Along (Waits R) (resolveStage orders) := by
  refine Prog.along_bind (Program.along_unitOfWork fun _ => keeps_fetch _)
    fun ids => ?_
  refine Prog.along_bind (along_each fun id _ =>
    Program.along_unitOfWork fun _ => hintent id _) fun _ => ?_
  refine Prog.along_bind (Program.along_unitOfWork fun _ =>
    keeps_orphanSession hbreaks _) fun _ => ?_
  exact Prog.along_pure _

/-- A pass keeps what its sessions keep. -/
theorem along_reconcile {reconciler : Option PositionReconciler}
    (hintent : ∀ intentId ordersByTag,
      Keeps R (intentSession intentId ordersByTag))
    (hbreaks : AddsBreaks R)
    (hposition : ∀ id live scan,
      Keeps R (positionSession reconciler id live scan)) :
    Prog.Along (Waits R) (reconcile reconciler) := by
  refine Prog.along_bind
    (Program.along_tryBroker (Program.along_reads _)) fun orders => ?_
  cases orders with
  | error e => exact Prog.along_pure _
  | ok orders =>
      refine Prog.along_bind
        (Program.along_tryBroker (Program.along_reads _)) fun positions => ?_
      refine Prog.along_bind (Program.along_unitOfWork fun _ => keeps_fetch _)
        fun ids => ?_
      refine Prog.along_bind (along_each fun id _ =>
        Program.along_unitOfWork fun _ => hintent id _) fun _ => ?_
      refine Prog.along_bind (Program.along_unitOfWork fun _ =>
        keeps_orphanSession hbreaks _) fun _ => ?_
      refine Prog.along_bind (Program.along_unitOfWork fun _ =>
        keeps_bind (keeps_fetch _) fun _ => keeps_fetch _) fun ids => ?_
      refine Prog.along_bind (along_each fun id _ =>
        Program.along_unitOfWork fun scan => hposition id _ scan) fun _ => ?_
      exact Prog.along_pure _

end Pass

-- ============================================================== queries

/-- The trades of a position, as a pass reads them. -/
theorem mem_listTrades {r : Rows} {scan : List Nat} {id i : Nat} {t : Trade} :
    (i, t) ∈ (arrange scan
        ((select (·.positionId = id) r.trades).map Prod.fst)).filterMap
        (fun id => r.trades[id]?.map fun t => (id, t))
      ↔ r.trades[i]? = some t ∧ t.positionId = id := by
  rw [List.mem_filterMap]
  constructor
  · intro ⟨j, hj, hjt⟩
    obtain ⟨t', ht', heq⟩ := Option.map_eq_some_iff.1 hjt
    cases heq
    obtain ⟨x, hx, rfl⟩ := List.mem_map.1 (mem_arrange.1 hj)
    obtain ⟨hx, hof⟩ := mem_select.1 hx
    rw [ht'] at hx
    cases hx
    exact ⟨ht', by simpa using hof⟩
  · intro ⟨ht, hof⟩
    refine ⟨i, mem_arrange.2 (List.mem_map.2 ⟨(i, t), ?_, rfl⟩), ?_⟩
    · exact mem_select.2 ⟨ht, by simpa using hof⟩
    · rw [ht]
      rfl

/-- The OPEN legs `_reconcile_open` finds missing. -/
theorem missing_ne_nil {r : Rows} {scan : List Nat} {id : Nat}
    {symbols : List String} :
    (((withStatus .open ((arrange scan ((select (·.positionId = id)
        r.trades).map Prod.fst)).filterMap
        fun id => r.trades[id]?.map fun t => (id, t))).map
          (·.2.tradingSymbol)).filter (· ∉ symbols)).dedup ≠ []
      ↔ ∃ t ∈ r.trades, t.positionId = id ∧ t.status = .open
        ∧ t.tradingSymbol ∉ symbols := by
  unfold withStatus
  constructor
  · intro h
    obtain ⟨symbol, hmem⟩ := List.exists_mem_of_ne_nil _ h
    obtain ⟨hleg, hmissing⟩ := List.mem_filter.1 (List.mem_dedup.1 hmem)
    obtain ⟨⟨i, t⟩, hit, rfl⟩ := List.mem_map.1 hleg
    obtain ⟨hit, hopen⟩ := List.mem_filter.1 hit
    obtain ⟨ht, hof⟩ := mem_listTrades.1 hit
    exact ⟨t, List.mem_of_getElem? ht, hof, of_decide_eq_true hopen,
      of_decide_eq_true hmissing⟩
  · intro ⟨t, ht, hof, hopen, hmissing⟩
    obtain ⟨i, hi⟩ := List.getElem?_of_mem ht
    refine List.ne_nil_of_mem (a := t.tradingSymbol) (List.mem_dedup.2
      (List.mem_filter.2 ⟨?_, decide_eq_true hmissing⟩))
    exact List.mem_map.2 ⟨(i, t), List.mem_filter.2
      ⟨mem_listTrades.2 ⟨hi, hof⟩, decide_eq_true hopen⟩, rfl⟩

/-- The positions a pass decides: those not CLOSED and not ERROR. -/
theorem mem_unfinished {r : Rows} {scan : List Nat} {id : Nat} :
    id ∈ ((arrange scan ((select (fun p => p.state = .entryPending
        ∨ p.state = .open ∨ p.state = .exitPending ∨ p.state = .error)
        r.positions).map Prod.fst)).filter fun id =>
          (r.positions[id]?).any (·.state ≠ .error))
      ↔ ∃ p, r.positions[id]? = some p ∧ (p.state = .entryPending
        ∨ p.state = .open ∨ p.state = .exitPending) := by
  rw [List.mem_filter, mem_arrange]
  constructor
  · intro ⟨hmem, hany⟩
    obtain ⟨⟨j, p⟩, hp, rfl⟩ := List.mem_map.1 hmem
    obtain ⟨hp, hstate⟩ := mem_select.1 hp
    rw [hp] at hany
    simp only [Option.any_some, ne_eq, decide_not, Bool.not_eq_eq_eq_not,
      Bool.not_true, decide_eq_false_iff_not] at hany
    refine ⟨p, hp, ?_⟩
    simpa [hany] using hstate
  · intro ⟨p, hp, hstate⟩
    refine ⟨List.mem_map.2 ⟨(id, p), mem_select.2 ⟨hp, ?_⟩, rfl⟩, ?_⟩
    · rcases hstate with h | h | h <;> simp [h]
    · rw [hp]
      rcases hstate with h | h | h <;> simp [h]

-- =============================================================== items

/-- The item is about this subject. -/
private def AboutIntent (intentId : Nat) (item : ReconciliationItem) : Prop :=
  item.subject = .intent intentId

private theorem yields_resolveIntentAgainstOrder (intentId : Nat)
    (intent : OrderIntent) (bo : BrokerOrder) :
    Yields (AboutIntent intentId)
      (resolveIntentAgainstOrder intentId intent bo) := by
  refine yields_bind fun x => ?_
  obtain ⟨⟨orderId, order⟩, created⟩ := x
  refine yields_bind fun _ => ?_
  have hpure : ∀ (outcome : ReconciliationOutcome) (detail : String)
      (breakRecorded : Bool), Yields (AboutIntent intentId)
        (pure { subject := .intent intentId, outcome, detail,
                breakRecorded } : Session ReconciliationItem) :=
    fun _ _ _ => yields_pure rfl
  cases hstatus : bo.status with
  | complete =>
      exact yields_bind fun _ =>
        yields_ite (yields_bind fun _ => hpure _ _ _) (hpure _ _ _)
  | pending => exact yields_ite (hpure _ _ _) (hpure _ _ _)
  | «open» => exact yields_ite (hpure _ _ _) (hpure _ _ _)
  | _ =>
      exact yields_ite
        (yields_bind fun _ => yields_bind fun _ => hpure _ _ _)
        (yields_bind fun _ => yields_bind fun _ => hpure _ _ _)

/-- What settling an intent reports is about that intent. -/
theorem yields_intentSession (intentId : Nat)
    (ordersByTag : List (String × List BrokerOrder)) :
    Yields (fun item => item.subject = .intent intentId)
      (intentSession intentId ordersByTag) := by
  refine yields_bind fun row => ?_
  cases row with
  | none => exact yields_pure rfl
  | some intent =>
      refine yields_ite ?_ (yields_pure rfl)
      rcases ordersUnder ordersByTag intent.brokerTag with _ | ⟨bo, _ | _⟩
      · exact yields_bind fun _ => yields_pure rfl
      · exact yields_resolveIntentAgainstOrder intentId intent bo
      · exact yields_bind fun _ => yields_bind fun _ => yields_pure rfl

/-- What the orphan pass reports is about tags. -/
theorem yields_orphanSession
    (ordersByTag : List (String × List BrokerOrder)) :
    Yields (fun items => ∀ item ∈ items, ∃ tag, item.subject = .brokerTag tag)
      (orphanSession ordersByTag) := by
  induction ordersByTag with
  | nil => exact yields_pure fun _ h => nomatch h
  | cons x rest ih =>
      obtain ⟨tag, orders⟩ := x
      refine yields_bind fun intent => ?_
      cases intent with
      | some intent => exact ih
      | none =>
          refine yields_bind fun _ => ?_
          intro db
          rw [meets_bind]
          refine (ih db).imp (fun items _ hitems => ?_) fun _ => id
          intro item hitem
          rcases List.mem_cons.1 hitem with rfl | hitem
          · exact ⟨tag, rfl⟩
          · exact hitems item hitem

/-- What deciding a position reports is about that position. -/
theorem yields_positionSession (reconciler : Option PositionReconciler)
    (id : Nat) (live : Option (List String)) (scan : List Nat) :
    Yields (fun item => item.subject = .position id)
      (positionSession reconciler id live scan) := by
  have herror : ∀ position breakType name reason,
      Yields (fun item => item.subject = .position id)
        (errorPosition id position breakType name reason) :=
    fun _ _ _ _ => yields_bind fun _ => yields_bind fun _ => yields_pure rfl
  have hfinalize : ∀ seam outcome detail missing,
      Yields (fun item => item.subject = .position id)
        (finalize reconciler id seam outcome detail missing) := by
    intro seam outcome detail missing
    cases reconciler with
    | none =>
        exact yields_bind fun _ => yields_bind fun _ => yields_pure rfl
    | some s => exact yields_bind fun _ => yields_pure rfl
  have hopen : ∀ position trades,
      Yields (fun item => item.subject = .position id)
        (reconcileOpen id position trades live) := by
    intro position trades
    cases live with
    | none => exact yields_pure rfl
    | some live => exact yields_ite (herror _ _ _ _) (yields_pure rfl)
  refine yields_bind fun row => ?_
  cases row with
  | none => exact yields_pure rfl
  | some position =>
      refine yields_ite (yields_pure rfl) (yields_bind fun trades => ?_)
      cases position.state with
      | entryPending =>
          exact yields_ite (hfinalize _ _ _ _)
            (yields_ite (yields_bind fun _ => yields_pure rfl)
              (herror _ _ _ _))
      | exitPending =>
          exact yields_ite (hfinalize _ _ _ _)
            (yields_ite (herror _ _ _ _) (yields_pure rfl))
      | «open» => exact hopen position trades
      | idle => exact hopen position trades
      | closed => exact hopen position trades
      | error => exact hopen position trades

/-- A unit of work returns what its session yields. -/
theorem ensures_yields {α : Type} {P : α → Prop} {body : List Nat → Session α}
    (h : ∀ scan, Yields P (body scan)) :
    Prog.Ensures (fun a _ => P a) (Program.unitOfWork body) :=
  Program.ensures_unitOfWork fun scan w => h scan w.db

/-- A pass over subjects reports about those subjects, one item each. -/
theorem ensures_each {f : Nat → Program ReconciliationItem}
    (about : Nat → Subject)
    (hf : ∀ id, Prog.Ensures (fun item _ => item.subject = about id) (f id))
    (ids : List Nat) :
    Prog.Ensures (fun items _ => items.map (·.subject) = ids.map about)
      (each f ids) := by
  induction ids with
  | nil => exact Prog.ensures_pure fun _ => rfl
  | cons id ids ih =>
      refine Prog.ensures_bind (hf id) fun item s hitem => ?_
      refine Prog.ensures_bind ih (fun items s hitems => ?_) s
      intro out hout
      cases hout
      rw [List.map_cons, List.map_cons, hitem, hitems]

/-- The first stage reports about no position. -/
theorem ensures_resolveStage (orders : List BrokerOrder) :
    Prog.Ensures (fun items _ => ∀ item ∈ items, ∀ id,
      item.subject ≠ .position id) (resolveStage orders) := by
  refine Prog.ensures_last fun ids => ?_
  refine Prog.ensures_bind (ensures_each .intent
    (fun id => ensures_yields fun _ => yields_intentSession id _) ids)
    fun items s hitems => ?_
  refine Prog.ensures_bind (ensures_yields fun _ => yields_orphanSession _)
    (fun orphans s horphans => ?_) s
  intro out hout item hitem id
  cases hout
  rcases List.mem_append.1 hitem with hitem | hitem
  · have hsubject := List.mem_map_of_mem (f := (·.subject)) hitem
    rw [hitems] at hsubject
    obtain ⟨i, -, hi⟩ := List.mem_map.1 hsubject
    rw [← hi]
    exact nofun
  · obtain ⟨tag, htag⟩ := horphans item hitem
    rw [htag]
    exact nofun

end ReconciliationEngine

namespace SampleDay

/-- A seam that moves a finished position on. -/
def seam : PositionReconciler where
  finalizeEntry id :=
    PositionRepository.transitionState id .open .recovery none
  finalizeExit id :=
    PositionRepository.transitionState id .closed .recovery none

/-- What a pass over the sample day's OPEN position says of it. -/
def consistent : ReconciliationItem where
  subject := .position 0
  outcome := .consistentNoAction
  detail := "OPEN and consistent with broker positions"

end SampleDay

end AlgoPlatform
