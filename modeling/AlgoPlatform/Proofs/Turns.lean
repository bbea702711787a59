/-
The turns of a reconciliation pass, as relations between rows.

A pass is a sequence of turns: every in-doubt intent has one
(`IntentTurn`), then the tags (`OrphanTurn`), then every unfinished
position (`PositionTurn`). Each turn is one unit of work, and its
relation says exactly what it may have committed; the lemmas of this
module are the sessions', one for each.
-/
import AlgoPlatform.Proofs.Resolution

open Basis Basis.Session

namespace AlgoPlatform

-- ================================================================ legs

/-- What names a trade's leg, and the status a pass looks at. -/
structure Leg where
  positionId : Nat
  optionType : OptionType
  tradingSymbol : String
  status : TradeLegStatus
  deriving DecidableEq, Repr

def Trade.leg (t : Trade) : Leg :=
  ⟨t.positionId, t.optionType, t.tradingSymbol, t.status⟩

def Rows.legs (r : Rows) : List Leg := r.trades.map Trade.leg

/-- The intent is for a leg of the position. -/
def Rows.Owns (r : Rows) (intent : OrderIntent) (id : Nat) : Prop :=
  ∃ leg, r.legs[intent.tradeId]? = some leg ∧ leg.positionId = id

/-- Some leg of the position has this status. -/
def HasLeg (legs : List Leg) (id : Nat) (status : TradeLegStatus) : Prop :=
  ∃ leg ∈ legs, leg.positionId = id ∧ leg.status = status

instance (legs : List Leg) (id : Nat) (status : TradeLegStatus) :
    Decidable (HasLeg legs id status) :=
  inferInstanceAs (Decidable (∃ leg ∈ legs, _))

/-- The broker's live symbols are known, and some OPEN leg of the
position is not among them. -/
def SomeLegMissing (live : Option (List String)) (legs : List Leg) (id : Nat) :
    Prop :=
  ∃ symbols ∈ live, ∃ leg ∈ legs, leg.positionId = id
    ∧ leg.status = .open ∧ leg.tradingSymbol ∉ symbols

instance (live : Option (List String)) (legs : List Leg) (id : Nat) :
    Decidable (SomeLegMissing live legs id) :=
  inferInstanceAs (Decidable (∃ symbols ∈ live, ∃ leg ∈ legs, _))

/-- What a pass makes of a position: the state it leaves it in and
whether it records a break, or nothing. -/
def verdict (injected : Bool) (live : Option (List String)) (legs : List Leg)
    (id : Nat) : PositionState → Option (PositionState × Bool)
  | .entryPending =>
      if HasLeg legs id .open ∧ ¬ HasLeg legs id .pending then
        if injected then some (.open, false) else some (.entryPending, true)
      else if ¬ HasLeg legs id .open then some (.closed, false)
      else some (.error, true)
  | .exitPending =>
      if HasLeg legs id .closed ∧ ¬ HasLeg legs id .open then
        if injected then some (.closed, false) else some (.exitPending, true)
      else if HasLeg legs id .closed then some (.error, true)
      else none
  | .open | .idle =>
      if SomeLegMissing live legs id then some (.error, true) else none
  | .closed | .error => none

/-- One position has moved, with or without a break; legs, intents,
orders and the other positions are as they were. -/
structure Moved (id : Nat) (toState : PositionState) (recorded : Bool)
    (r r' : Rows) : Prop where
  state : (r'.positions[id]?).map (·.state) = some toState
  others : ∀ j, j ≠ id → r'.positions[j]? = r.positions[j]?
  identity : r'.positions.map (fun p => (p.strategyInstanceId, p.tradeDate))
    = r.positions.map fun p => (p.strategyInstanceId, p.tradeDate)
  legs : r'.legs = r.legs
  intents : r'.intents = r.intents
  orders : r'.orders = r.orders
  breaks : ∃ breakType, r'.breaks = r.breaks ++ if recorded then
    [{ positionId := some id, orderId := none, intentId := none, breakType }]
    else []

/-- Two rows of one instance and day. -/
structure Position.SameDay (p q : Position) : Prop where
  strategyInstanceId : q.strategyInstanceId = p.strategyInstanceId
  tradeDate : q.tradeDate = p.tradeDate

/-- Every position keeps its instance and day. -/
theorem Moved.sameDay {id : Nat} {toState : PositionState} {recorded : Bool}
    {r r' : Rows} (h : Moved id toState recorded r r') {j : Nat}
    {p q : Position} (hp : r.positions[j]? = some p)
    (hq : r'.positions[j]? = some q) : p.SameDay q := by
  have hsame := congrArg (fun keys => keys[j]?) h.identity
  rw [List.getElem?_map, List.getElem?_map, hp, hq] at hsame
  obtain ⟨hinstance, hdate⟩ := Prod.mk.inj (Option.some.inj hsame)
  exact ⟨hinstance, hdate⟩

/-- The seam does what its docstring says and no more: it computes the
position's figures and drives it to OPEN, or to CLOSED. -/
structure PositionReconciler.Finishes (s : PositionReconciler) : Prop where
  entry : ∀ id (db : Db) p, db.rows.positions[id]? = some p →
    p.state = .entryPending → Meets (s.finalizeEntry id) db
      (fun _ db' => Moved id .open false db.rows db'.rows) fun _ => True
  exit : ∀ id (db : Db) p, db.rows.positions[id]? = some p →
    p.state = .exitPending → Meets (s.finalizeExit id) db
      (fun _ db' => Moved id .closed false db.rows db'.rows) fun _ => True

namespace ReconciliationEngine

variable {id : Nat} {db : Db} {p : Position}

/-- `transition_state` alone. -/
theorem transitionState_moved (hp : db.rows.positions[id]? = some p)
    (toState : PositionState) (actor : StateTransitionActor)
    (reason : Option String) :
    Meets (PositionRepository.transitionState id toState actor reason) db
      (fun _ db' => Moved id toState false db.rows db'.rows)
      fun _ => True := by
  unfold PositionRepository.transitionState PositionRepository.getById
  rw [meets_bind, meets_fetch, hp, meets_bind, meets_orRaise]
  refine ⟨fun q hq => ?_, fun h => trivial⟩
  cases hq
  rw [meets_flush]
  refine ⟨fun _ => ⟨?_, fun j hj => ?_, ?_, rfl, rfl, rfl, .other, ?_⟩,
    fun _ => trivial⟩
  · dsimp only
    rw [Rows.setPosition_positions, List.getElem?_modify_eq, hp]
    rfl
  · dsimp only
    rw [Rows.setPosition_positions, List.getElem?_modify_ne _ _ hj.symm]
  · exact map_modify_of_eq fun _ _ => rfl
  · exact (List.append_nil _).symm

/-- A position to ERROR by recovery. -/
theorem errorByRecovery_moved (hp : db.rows.positions[id]? = some p)
    (strategyInstanceId : Nat) (reason : String) :
    Meets (errorByRecovery id strategyInstanceId reason) db
      (fun _ db' => Moved id .error false db.rows db'.rows) fun _ => True := by
  unfold errorByRecovery PositionRepository.update
  rw [meets_bind, meets_flush]
  refine ⟨fun hadmits => ?_, fun _ => trivial⟩
  -- the error columns; the row keeps everything else
  have hrow : (db.rows.setPosition id fun p : Position =>
      { p with errorMessage := some reason,
               needsReconciliation := true }).positions[id]?
      = some { p with errorMessage := some reason,
                      needsReconciliation := true } := by
    rw [Rows.setPosition_positions, List.getElem?_modify_eq, hp]
    rfl
  rw [meets_bind]
  have hmoves : Meets (PositionRepository.transitionState id .error .recovery
      (some reason)) ⟨_, hadmits⟩ _ _ := transitionState_moved hrow _ _ _
  refine hmoves.imp (fun _ db₁ hmove => ?_) fun _ h => h
  have hmoved : Moved id .error false db.rows db₁.rows := by
    refine ⟨hmove.state, fun j hj => ?_, ?_, hmove.legs, hmove.intents,
      hmove.orders, hmove.breaks⟩
    · rw [hmove.others j hj, Rows.setPosition_positions,
        List.getElem?_modify_ne _ _ hj.symm]
    · rw [hmove.identity]
      exact map_modify_of_eq fun _ _ => rfl
  -- freezing the instance touches nothing of this
  unfold Bookkeeping.freezeInstance StrategyInstanceRepository.getById
    StrategyInstanceRepository.setStatus
  rw [meets_bind, meets_fetch]
  cases db₁.rows.instances[strategyInstanceId]? with
  | none => exact hmoved
  | some inst =>
      dsimp only
      rw [meets_ite, meets_flush]
      exact ⟨fun _ => ⟨fun _ => ⟨hmoved.state, hmoved.others, hmoved.identity,
        hmoved.legs, hmoved.intents, hmoved.orders, hmoved.breaks⟩,
        fun _ => trivial⟩, fun _ => hmoved⟩

/-- A position to ERROR, with its break. -/
private theorem errorPosition_moved (hp : db.rows.positions[id]? = some p)
    (breakType : ReconciliationBreakType) (name reason : String) :
    Meets (errorPosition id p breakType name reason) db
      (fun _ db' => Moved id .error true db.rows db'.rows) fun _ => True := by
  unfold errorPosition ReconciliationBreakRepository.create
  rw [meets_bind]
  refine (errorByRecovery_moved hp _ _).imp (fun _ db₁ hmoved => ?_)
    fun _ h => h
  rw [meets_bind, meets_flush]
  refine ⟨fun _ => ?_, fun _ => trivial⟩
  rw [meets_pure]
  obtain ⟨_, hnone⟩ := hmoved.breaks
  refine ⟨hmoved.state, hmoved.others, hmoved.identity, hmoved.legs,
    hmoved.intents, hmoved.orders, breakType, ?_⟩
  dsimp only
  rw [hnone]
  simp

-- ============================================================== intents

/-- Everything but positions, audit rows and instances is as it was. -/
structure SameBooks (r r' : Rows) : Prop where
  legs : r'.legs = r.legs
  intents : r'.intents = r.intents
  orders : r'.orders = r.orders
  breaks : r'.breaks = r.breaks

/-- What `_error_position_of_intent` leaves: the position of the intent's
leg in ERROR, unless it is finished or there is none. -/
inductive OwnerErrs (intent : OrderIntent) (r : Rows) : Rows → Prop
  | moved {id : Nat} {p : Position} {r' : Rows} (owned : r.Owns intent id)
      (found : r.positions[id]? = some p)
      (unfinished : p.state ≠ .closed ∧ p.state ≠ .error)
      (moved : Moved id .error false r r') : OwnerErrs intent r r'
  | rests (finished : ∀ id p, r.Owns intent id → r.positions[id]? = some p →
      p.state = .closed ∨ p.state = .error) : OwnerErrs intent r r

theorem OwnerErrs.books {intent : OrderIntent} {r r' : Rows}
    (h : OwnerErrs intent r r') : SameBooks r r' := by
  cases h with
  | moved owned found unfinished moved =>
      obtain ⟨_, hnone⟩ := moved.breaks
      exact ⟨moved.legs, moved.intents, moved.orders,
        hnone.trans (List.append_nil _)⟩
  | rests finished => exact ⟨rfl, rfl, rfl, rfl⟩

private theorem errorPositionOfIntent_meets (intent : OrderIntent)
    (reason : String) :
    Meets (errorPositionOfIntent intent reason) db
      (fun _ db' => OwnerErrs intent db.rows db'.rows) fun _ => True := by
  have howns : ∀ id, db.rows.Owns intent id ↔ ∃ t,
      db.rows.trades[intent.tradeId]? = some t ∧ t.positionId = id := by
    intro id
    unfold Rows.Owns Rows.legs
    rw [List.getElem?_map]
    cases db.rows.trades[intent.tradeId]? with
    | none => simp
    | some t => simp [Trade.leg]
  unfold errorPositionOfIntent PositionRepository.getTradeById
    PositionRepository.getById
  rw [meets_bind, meets_fetch]
  cases ht : db.rows.trades[intent.tradeId]? with
  | none =>
      refine .rests fun id p howned => ?_
      obtain ⟨t, ht', -⟩ := (howns id).1 howned
      rw [ht] at ht'
      cases ht'
  | some t =>
      have hof : ∀ {id}, db.rows.Owns intent id → t.positionId = id := by
        intro id howned
        obtain ⟨t', ht', hid⟩ := (howns id).1 howned
        rw [ht] at ht'
        cases ht'
        exact hid
      dsimp only
      rw [meets_bind, meets_fetch]
      cases hp : db.rows.positions[t.positionId]? with
      | none =>
          refine .rests fun id p howned hfound => ?_
          rw [← hof howned, hp] at hfound
          cases hfound
      | some p =>
          dsimp only
          rw [meets_ite]
          refine ⟨fun hdone => .rests fun id q howned hfound => ?_,
            fun hlive => ?_⟩
          · rw [← hof howned, hp] at hfound
            cases hfound
            exact hdone
          · exact (errorByRecovery_moved hp _ _).imp
              (fun _ _ h => .moved ((howns _).2 ⟨t, ht, rfl⟩) hp
                (not_or.1 hlive) h) fun _ h => h

/-- What an intent's turn may leave. -/
inductive IntentTurn (ordersByTag : List (String × List BrokerOrder))
    (intentId : Nat) (r : Rows) : Rows → Prop
  /-- No such intent, or one that is not in doubt. -/
  | settled (quiet : ∀ intent, r.intents[intentId]? = some intent →
      intent.status.isInDoubt = false) : IntentTurn ordersByTag intentId r r
  /-- No broker order carries its tag: FAILED. -/
  | unknown {intent : OrderIntent} (found : r.intents[intentId]? = some intent)
      (doubt : intent.status.isInDoubt = true)
      (orders : ordersUnder ordersByTag intent.brokerTag = []) :
      IntentTurn ordersByTag intentId r
        { r with intents := r.intents.modify intentId fun i =>
            { i with status := .failed } }
  /-- One does. -/
  | single {intent : OrderIntent} {bo : BrokerOrder} {r' : Rows}
      (found : r.intents[intentId]? = some intent)
      (doubt : intent.status.isInDoubt = true)
      (orders : ordersUnder ordersByTag intent.brokerTag = [bo])
      (resolved : Resolution intentId intent bo r r') :
      IntentTurn ordersByTag intentId r r'
  /-- Several do: a break, and the position in ERROR. -/
  | doubled {intent : OrderIntent} {b : ReconciliationBreak} {r' : Rows}
      (found : r.intents[intentId]? = some intent)
      (doubt : intent.status.isInDoubt = true)
      (orders : 2 ≤ (ordersUnder ordersByTag intent.brokerTag).length)
      (named : b.intentId = some intentId)
      (errs : OwnerErrs intent { r with breaks := r.breaks ++ [b] } r') :
      IntentTurn ordersByTag intentId r r'

theorem intentSession_turn (db : Db) (intentId : Nat)
    (ordersByTag : List (String × List BrokerOrder)) :
    Meets (intentSession intentId ordersByTag) db
      (fun _ db' => IntentTurn ordersByTag intentId db.rows db'.rows)
      fun _ => True := by
  unfold intentSession OrderIntentRepository.getById
  rw [meets_bind, meets_fetch]
  cases hintent : db.rows.intents[intentId]? with
  | none =>
      refine .settled fun intent h => ?_
      rw [hintent] at h
      cases h
  | some intent =>
      dsimp only
      rw [meets_ite]
      refine ⟨fun hdoubt => ?_, fun hresolved => ?_⟩
      · rcases horders : ordersUnder ordersByTag intent.brokerTag
          with _ | ⟨bo, _ | ⟨bo', rest⟩⟩
        · unfold OrderIntentRepository.markFailed
            OrderIntentRepository.markStatus
          dsimp only
          rw [meets_bind, meets_flush]
          exact ⟨fun _ => .unknown hintent hdoubt horders, fun _ => trivial⟩
        · exact resolveIntentAgainstOrder_resolution.imp
            (fun _ _ h => .single hintent hdoubt horders h) fun _ h => h
        · unfold ReconciliationBreakRepository.create
          dsimp only
          rw [meets_bind, meets_flush]
          refine ⟨fun _ => ?_, fun _ => trivial⟩
          rw [meets_bind]
          refine (errorPositionOfIntent_meets _ _).imp
            (fun _ _ herrs => ?_) fun _ h => h
          rw [meets_pure]
          refine .doubled hintent hdoubt ?_ rfl herrs
          rw [horders, List.length_cons, List.length_cons]
          omega
      · refine .settled fun intent' h => ?_
        rw [hintent] at h
        cases h
        simpa using hresolved

-- ============================================================== orphans

/-- The tag is some intent's. -/
def KnownTag (r : Rows) (tag : String) : Prop :=
  ∃ intent ∈ r.intents, intent.brokerTag = tag

/-- What the turn of the tags leaves: a break for each that is no
intent's. -/
def OrphanTurn (ordersByTag : List (String × List BrokerOrder))
    (r r' : Rows) : Prop :=
  ∃ bs, r' = { r with breaks := r.breaks ++ bs }
    ∧ (bs = [] ↔ ∀ x ∈ ordersByTag, KnownTag r x.1)

theorem orphanSession_turn (db : Db)
    (ordersByTag : List (String × List BrokerOrder)) :
    Meets (orphanSession ordersByTag) db
      (fun _ db' => OrphanTurn ordersByTag db.rows db'.rows)
      fun _ => True := by
  induction ordersByTag generalizing db with
  | nil =>
      refine ⟨[], ?_, ⟨fun _ _ h => (List.not_mem_nil h).elim, fun _ => rfl⟩⟩
      rw [List.append_nil]
  | cons x rest ih =>
      obtain ⟨tag, orders⟩ := x
      unfold orphanSession OrderIntentRepository.getByBrokerTag
      rw [meets_bind, meets_bind, meets_fetch, meets_scalarOneOrNone]
      refine ⟨fun hnone => ?_, fun row hone => ?_, fun _ => trivial⟩
      · -- an orphan
        have hunknown : ¬ KnownTag db.rows tag := by
          intro ⟨intent, hintent, htag⟩
          have hno := select_eq_nil.1 hnone intent hintent
          simp [htag] at hno
        unfold ReconciliationBreakRepository.create
        dsimp only
        rw [meets_bind, meets_flush]
        refine ⟨fun _ => ?_, fun _ => trivial⟩
        rw [meets_bind]
        refine (ih _).imp (fun _ db' hrest => ?_) fun _ h => h
        obtain ⟨bs, hrows, -⟩ := hrest
        rw [meets_pure]
        refine ⟨_ :: bs, by rw [hrows, List.append_assoc]; rfl, ?_⟩
        constructor
        · intro h
          cases h
        · intro hall
          exact absurd (hall (tag, orders) (List.mem_cons_self ..)) hunknown
      · have hknown : KnownTag db.rows tag := by
          obtain ⟨i, intent⟩ := row
          have hrow := mem_select.1 (hone ▸ List.mem_singleton.2 rfl)
          exact ⟨intent, List.mem_of_getElem? hrow.1, by simpa using hrow.2⟩
        refine (ih db).imp (fun _ db' hrest => ?_) fun _ h => h
        obtain ⟨bs, hrows, hiff⟩ := hrest
        refine ⟨bs, hrows, hiff.trans ⟨fun hall y hy => ?_, fun hall y hy =>
          hall y (List.mem_cons_of_mem _ hy)⟩⟩
        rcases List.mem_cons.1 hy with rfl | hy
        · exact hknown
        · exact hall y hy

-- =========================================================== positions

/-- What a position's turn may leave. -/
inductive PositionTurn (injected : Bool) (live : Option (List String))
    (id : Nat) (r : Rows) : Rows → Prop
  | rests (nothing : ∀ p, r.positions[id]? = some p →
      verdict injected live r.legs id p.state = none) :
      PositionTurn injected live id r r
  | moves {p : Position} {toState : PositionState} {recorded : Bool}
      {r' : Rows} (found : r.positions[id]? = some p)
      (decided : verdict injected live r.legs id p.state
        = some (toState, recorded))
      (moved : Moved id toState recorded r r') :
      PositionTurn injected live id r r'

/-- The trades the session reads, by status. -/
private theorem withStatus_ne_nil {r : Rows} {scan : List Nat}
    {status : TradeLegStatus} :
    withStatus status ((arrange scan ((select (·.positionId = id)
        r.trades).map Prod.fst)).filterMap
        fun id => r.trades[id]?.map fun t => (id, t)) ≠ []
      ↔ HasLeg r.legs id status := by
  unfold withStatus HasLeg Rows.legs
  constructor
  · intro h
    obtain ⟨⟨i, t⟩, hmem⟩ := List.exists_mem_of_ne_nil _ h
    obtain ⟨hit, hstatus⟩ := List.mem_filter.1 hmem
    obtain ⟨ht, hof⟩ := mem_listTrades.1 hit
    exact ⟨t.leg, List.mem_map_of_mem (List.mem_of_getElem? ht), hof,
      by simpa [Trade.leg] using hstatus⟩
  · intro ⟨leg, hleg, hof, hstatus⟩
    obtain ⟨t, ht, rfl⟩ := List.mem_map.1 hleg
    obtain ⟨i, hi⟩ := List.getElem?_of_mem ht
    exact List.ne_nil_of_mem (a := (i, t)) (List.mem_filter.2
      ⟨mem_listTrades.2 ⟨hi, hof⟩, by simpa [Trade.leg] using hstatus⟩)

/-- The legs `_reconcile_open` finds missing, as the verdict sees them. -/
private theorem missingLegs_ne_nil {r : Rows} {scan : List Nat}
    {symbols : List String} :
    (((withStatus .open ((arrange scan ((select (·.positionId = id)
        r.trades).map Prod.fst)).filterMap
        fun id => r.trades[id]?.map fun t => (id, t))).map
          (·.2.tradingSymbol)).filter (· ∉ symbols)).dedup ≠ []
      ↔ SomeLegMissing (some symbols) r.legs id := by
  rw [missing_ne_nil]
  unfold SomeLegMissing Rows.legs
  constructor
  · intro ⟨t, ht, hof, hopen, hmissing⟩
    exact ⟨symbols, rfl, t.leg, List.mem_map_of_mem ht, hof, hopen, hmissing⟩
  · intro ⟨symbols', hsymbols, leg, hleg, hof, hopen, hmissing⟩
    cases hsymbols
    obtain ⟨t, ht, rfl⟩ := List.mem_map.1 hleg
    exact ⟨t, ht, hof, hopen, hmissing⟩

/-- Finalization, with a seam that finishes the position or without. -/
private theorem finalize_moved {reconciler : Option PositionReconciler}
    (hp : db.rows.positions[id]? = some p)
    {seam : PositionReconciler → Nat → Session Unit} {toState : PositionState}
    (hseam : ∀ s ∈ reconciler, Meets (seam s id) db
      (fun _ db' => Moved id toState false db.rows db'.rows) fun _ => True)
    (outcome : ReconciliationOutcome) (detail missing : String) :
    Meets (finalize reconciler id seam outcome detail missing) db
      (fun _ db' => Moved id (if reconciler.isSome then toState else p.state)
        (!reconciler.isSome) db.rows db'.rows) fun _ => True := by
  cases reconciler with
  | some s =>
      unfold finalize
      dsimp only
      rw [meets_bind]
      exact (hseam s rfl).imp (fun _ _ h => h) fun _ h => h
  | none =>
      unfold finalize ReconciliationBreakRepository.create
        PositionRepository.update
      dsimp only
      rw [meets_bind, meets_flush]
      refine ⟨fun _ => ?_, fun _ => trivial⟩
      rw [meets_bind, meets_flush]
      refine ⟨fun _ => ?_, fun _ => trivial⟩
      rw [meets_pure]
      refine ⟨?_, fun j hj => ?_, ?_, rfl, rfl, rfl, .other, rfl⟩
      · dsimp only
        rw [Rows.setPosition_positions, List.getElem?_modify_eq, hp]
        rfl
      · dsimp only
        rw [Rows.setPosition_positions, List.getElem?_modify_ne _ _ hj.symm]
      · exact map_modify_of_eq fun _ _ => rfl

section Deciding

variable {reconciler : Option PositionReconciler} {trades : List (Nat × Trade)}
  {live : Option (List String)}

private theorem entryPending_turn (hp : db.rows.positions[id]? = some p)
    (hs : p.state = .entryPending) (hseam : ∀ s ∈ reconciler, s.Finishes)
    (htrades : ∀ status, withStatus status trades ≠ []
      ↔ HasLeg db.rows.legs id status) :
    Meets (reconcileEntryPending reconciler id p trades) db
      (fun _ db' => PositionTurn reconciler.isSome live id db.rows db'.rows)
      fun _ => True := by
  have hverdict : ∀ v, verdict reconciler.isSome live db.rows.legs id
      .entryPending = v → verdict reconciler.isSome live db.rows.legs id
        p.state = v := fun v h => by rw [hs]; exact h
  unfold reconcileEntryPending
  rw [meets_ite, meets_ite, htrades, ← not_ne_iff, htrades, ← not_ne_iff,
    htrades]
  refine ⟨fun hfilled => ?_, fun hunfilled => ⟨fun hnone => ?_, fun hsome => ?_⟩⟩
  · refine (finalize_moved hp (fun s hmem => (hseam s hmem).entry id db p hp hs)
      _ _ _).imp (fun _ _ h => ?_) fun _ h => h
    refine .moves hp (hverdict _ ?_) h
    unfold verdict
    rw [if_pos hfilled, hs]
    cases reconciler <;> rfl
  · rw [meets_bind]
    refine (transitionState_moved hp _ _ _).imp (fun _ _ h => ?_) fun _ h => h
    refine .moves hp (hverdict _ ?_) h
    unfold verdict
    rw [if_neg hunfilled, if_pos hnone]
  · refine (errorPosition_moved hp _ _ _).imp (fun _ _ h => ?_) fun _ h => h
    refine .moves hp (hverdict _ ?_) h
    unfold verdict
    rw [if_neg hunfilled, if_neg hsome]

private theorem exitPending_turn (hp : db.rows.positions[id]? = some p)
    (hs : p.state = .exitPending) (hseam : ∀ s ∈ reconciler, s.Finishes)
    (htrades : ∀ status, withStatus status trades ≠ []
      ↔ HasLeg db.rows.legs id status) :
    Meets (reconcileExitPending reconciler id p trades) db
      (fun _ db' => PositionTurn reconciler.isSome live id db.rows db'.rows)
      fun _ => True := by
  have hverdict : ∀ v, verdict reconciler.isSome live db.rows.legs id
      .exitPending = v → verdict reconciler.isSome live db.rows.legs id
        p.state = v := fun v h => by rw [hs]; exact h
  unfold reconcileExitPending
  rw [meets_ite, meets_ite, htrades, ← not_ne_iff, htrades]
  refine ⟨fun hclosed => ?_, fun hleft => ⟨fun hpartial => ?_, fun hnone => ?_⟩⟩
  · refine (finalize_moved hp (fun s hmem => (hseam s hmem).exit id db p hp hs)
      _ _ _).imp (fun _ _ h => ?_) fun _ h => h
    refine .moves hp (hverdict _ ?_) h
    unfold verdict
    rw [if_pos hclosed, hs]
    cases reconciler <;> rfl
  · refine (errorPosition_moved hp _ _ _).imp (fun _ _ h => ?_) fun _ h => h
    refine .moves hp (hverdict _ ?_) h
    unfold verdict
    rw [if_neg hleft, if_pos hpartial]
  · rw [meets_pure]
    refine .rests fun q hq => ?_
    rw [hp] at hq
    cases hq
    refine hverdict _ ?_
    unfold verdict
    rw [if_neg hleft, if_neg hnone]

private theorem open_turn (hp : db.rows.positions[id]? = some p)
    (hs : p.state = .open ∨ p.state = .idle)
    (hmissing : ∀ symbols, (((withStatus .open trades).map
        (·.2.tradingSymbol)).filter (· ∉ symbols)).dedup ≠ []
      ↔ SomeLegMissing (some symbols) db.rows.legs id) (injected : Bool) :
    Meets (reconcileOpen id p trades live) db
      (fun _ db' => PositionTurn injected live id db.rows db'.rows)
      fun _ => True := by
  have hverdict : verdict injected live db.rows.legs id p.state
      = if SomeLegMissing live db.rows.legs id then some (.error, true)
        else none := by
    rcases hs with h | h <;> rw [h] <;> rfl
  have hrests : ¬ SomeLegMissing live db.rows.legs id →
      PositionTurn injected live id db.rows db.rows := by
    intro hnone
    refine .rests fun q hq => ?_
    rw [hp] at hq
    cases hq
    rw [hverdict, if_neg hnone]
  unfold reconcileOpen
  cases live with
  | none =>
      refine hrests ?_
      intro ⟨_, hmem, _⟩
      cases hmem
  | some symbols =>
      dsimp only
      rw [meets_ite, hmissing]
      refine ⟨fun hflat => ?_, fun hnone => hrests hnone⟩
      refine (errorPosition_moved hp _ _ _).imp (fun _ _ h => ?_) fun _ h => h
      refine .moves hp ?_ h
      rw [hverdict, if_pos hflat]

end Deciding

theorem positionSession_turn {reconciler : Option PositionReconciler}
    (hseam : ∀ s ∈ reconciler, s.Finishes) (db : Db) (id : Nat)
    (live : Option (List String)) (scan : List Nat) :
    Meets (positionSession reconciler id live scan) db
      (fun _ db' => PositionTurn reconciler.isSome live id db.rows db'.rows)
      fun _ => True := by
  unfold positionSession PositionRepository.getById
    PositionRepository.listTradesForPosition
  rw [meets_bind, meets_fetch]
  cases hp : db.rows.positions[id]? with
  | none =>
      refine .rests fun p h => ?_
      rw [hp] at h
      cases h
  | some p =>
      dsimp only
      rw [meets_ite]
      refine ⟨fun hdone => ?_, fun hlive => ?_⟩
      · refine .rests fun q hq => ?_
        rw [hp] at hq
        cases hq
        rcases hdone with h | h <;> rw [h] <;> rfl
      rw [meets_bind, meets_fetch]
      cases hs : p.state with
      | closed => exact absurd (.inl hs) hlive
      | error => exact absurd (.inr hs) hlive
      | entryPending =>
          exact entryPending_turn hp hs hseam fun _ => withStatus_ne_nil
      | exitPending =>
          exact exitPending_turn hp hs hseam fun _ => withStatus_ne_nil
      | «open» =>
          exact open_turn hp (.inl hs) (fun _ => missingLegs_ne_nil) _
      | idle => exact open_turn hp (.inr hs) (fun _ => missingLegs_ne_nil) _

end ReconciliationEngine

end AlgoPlatform
