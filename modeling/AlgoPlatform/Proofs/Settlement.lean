/-
What the turns of a pass settle.

The fills of a pass are decided before it begins: by the in-doubt
intents' rows and the broker's answers alone (`fillOf`). The legs it
leaves are those fills, one after the other (`settledLegs`), and the
state it leaves a position in is the verdict on those legs
(`settledState`), whatever the push stream writes to the order rows
between the turns (`Amid`).
-/
import AlgoPlatform.Proofs.Pass

open Basis Basis.Session

namespace AlgoPlatform

open ReconciliationEngine

-- =============================================================== fills

/-- What a fill makes of a leg's status. -/
def fillStatus : OrderPurpose → TradeLegStatus → TradeLegStatus
  | .entry, .pending => .open
  | .exit, .open => .closed
  | _, status => status

def Leg.fill (purpose : OrderPurpose) (leg : Leg) : Leg :=
  { leg with status := fillStatus purpose leg.status }

/-- The fill a pass applies for an intent: the trade and the purpose. -/
def fillOf (ordersByTag : List (String × List BrokerOrder)) (r : Rows)
    (intentId : Nat) : Option (Nat × OrderPurpose) :=
  match r.intents[intentId]? with
  | some intent =>
      if intent.status.isInDoubt then
        match ordersUnder ordersByTag intent.brokerTag with
        | [bo] =>
            if bo.Filled then some (intent.tradeId, intent.purpose) else none
        | _ => none
      else none
  | none => none

/-- A fill on the legs. -/
def settleLeg (fill : Option (Nat × OrderPurpose)) (legs : List Leg) :
    List Leg :=
  match fill with
  | some (tradeId, purpose) => legs.modify tradeId (Leg.fill purpose)
  | none => legs

/-- The legs once every in-doubt intent is settled, one after the
other. -/
def settledLegs (ordersByTag : List (String × List BrokerOrder))
    (intentIds : List Nat) (r : Rows) : List Leg :=
  intentIds.foldl (fun legs id => settleLeg (fillOf ordersByTag r id) legs)
    r.legs

-- ======================================================= an intent's turn

variable {ordersByTag : List (String × List BrokerOrder)} {intentId : Nat}
  {r r' : Rows}

theorem filled_terminal {bo : BrokerOrder} (h : bo.Filled) :
    bo.status.isTerminal = true := by
  rcases h with h | ⟨h, -⟩
  · rw [h]
    rfl
  · exact h

theorem fillTrade_leg (purpose : OrderPurpose) (price : ℚ) (t : Trade) :
    (fillTrade purpose price t).leg = t.leg.fill purpose := by
  obtain ⟨_, _, _, _, _, _, _, _, _, status⟩ := t
  cases purpose <;> cases status <;> rfl

theorem legs_modify {f : Trade → Trade} {g : Leg → Leg}
    (h : ∀ t, (f t).leg = g t.leg) (i : Nat) :
    (r.trades.modify i f).map Trade.leg = r.legs.modify i g := by
  unfold Rows.legs
  refine List.ext_getElem? fun j => ?_
  rw [List.getElem?_map, List.getElem?_modify, List.getElem?_modify,
    List.getElem?_map]
  cases r.trades[j]? with
  | none => rfl
  | some t => by_cases hij : i = j <;> simp [hij, h]

/-- The fill of an intent depends on its row alone. -/
theorem fillOf_congr {s : Rows}
    (h : s.intents[intentId]? = r.intents[intentId]?) :
    fillOf ordersByTag s intentId = fillOf ordersByTag r intentId := by
  unfold fillOf
  rw [h]

theorem fillOf_single {intent : OrderIntent} {bo : BrokerOrder}
    (found : r.intents[intentId]? = some intent)
    (doubt : intent.status.isInDoubt = true)
    (orders : ordersUnder ordersByTag intent.brokerTag = [bo]) :
    fillOf ordersByTag r intentId
      = if bo.Filled then some (intent.tradeId, intent.purpose) else none := by
  unfold fillOf
  rw [found]
  dsimp only
  rw [if_pos doubt, orders]

theorem fillOf_none {intent : OrderIntent}
    (found : r.intents[intentId]? = some intent)
    (orders : (ordersUnder ordersByTag intent.brokerTag).length ≠ 1) :
    fillOf ordersByTag r intentId = none := by
  unfold fillOf
  rw [found]
  dsimp only
  split_ifs
  · rcases hos : ordersUnder ordersByTag intent.brokerTag with _ | ⟨bo, _ | _⟩
    · rfl
    · rw [hos] at orders
      exact absurd rfl orders
    · rfl
  · rfl

namespace ReconciliationEngine.IntentTurn

theorem breaks (h : IntentTurn ordersByTag intentId r r') :
    r.breaks <+: r'.breaks := by
  cases h with
  | settled quiet => exact List.prefix_refl _
  | unknown found doubt orders => exact List.prefix_refl _
  | single found doubt orders resolved =>
      cases resolved with
      | filled filled lands room nonneg os bs disputed => exact bs
      | dead terminal unfilled os => exact List.prefix_refl _
      | inFlight live os acked same => exact List.prefix_refl _
  | doubled found doubt orders named errs =>
      rw [errs.books.breaks]
      exact List.prefix_append _ _

/-- An intent's turn leaves the others. -/
theorem others (h : IntentTurn ordersByTag intentId r r') {j : Nat}
    (hj : j ≠ intentId) : r'.intents[j]? = r.intents[j]? := by
  cases h with
  | settled quiet => rfl
  | unknown found doubt orders => exact List.getElem?_modify_ne _ _ hj.symm
  | single found doubt orders resolved =>
      cases resolved with
      | filled filled lands room nonneg os bs disputed =>
          exact List.getElem?_modify_ne _ _ hj.symm
      | dead terminal unfilled os =>
          exact List.getElem?_modify_ne _ _ hj.symm
      | inFlight live os acked same => rfl
  | doubled found doubt orders named errs => rw [errs.books.intents]

theorem tags (h : IntentTurn ordersByTag intentId r r') :
    r'.intents.map (·.brokerTag) = r.intents.map (·.brokerTag) := by
  cases h with
  | settled quiet => rfl
  | unknown found doubt orders => exact map_modify_of_eq fun _ _ => rfl
  | single found doubt orders resolved =>
      cases resolved with
      | filled filled lands room nonneg os bs disputed =>
          exact map_modify_of_eq fun _ _ => rfl
      | dead terminal unfilled os => exact map_modify_of_eq fun _ _ => rfl
      | inFlight live os acked same => rfl
  | doubled found doubt orders named errs => rw [errs.books.intents]

/-- The legs get the intent's fill. -/
theorem legs (h : IntentTurn ordersByTag intentId r r') :
    r'.legs = settleLeg (fillOf ordersByTag r intentId) r.legs := by
  cases h with
  | settled quiet =>
      have hnone : fillOf ordersByTag r intentId = none := by
        unfold fillOf
        cases hi : r.intents[intentId]? with
        | none => rfl
        | some intent =>
            dsimp only
            rw [if_neg (by rw [quiet intent hi]; exact Bool.false_ne_true)]
      rw [hnone]
      rfl
  | unknown found doubt orders =>
      rw [fillOf_none found (by rw [orders]; exact Nat.zero_ne_one)]
      rfl
  | single found doubt orders resolved =>
      rw [fillOf_single found doubt orders]
      cases resolved with
      | filled filled lands room nonneg os bs disputed =>
          rw [if_pos filled]
          exact legs_modify (fillTrade_leg _ _) _
      | dead terminal unfilled os =>
          rw [if_neg unfilled]
          rfl
      | inFlight live os acked same =>
          rw [if_neg fun hfilled => by
            rw [filled_terminal hfilled] at live
            cases live]
          rfl
  | doubled found doubt orders named errs =>
      rw [fillOf_none found (by omega)]
      exact errs.books.legs

/-- Whoever is in doubt afterwards was so before, in the same row. -/
theorem doubtful (h : IntentTurn ordersByTag intentId r r') {j : Nat}
    {intent : OrderIntent} (hj : r'.intents[j]? = some intent)
    (hdoubt : intent.status.isInDoubt = true) :
    r.intents[j]? = some intent := by
  by_cases hne : j = intentId
  · subst hne
    have hset : ∀ status : IntentStatus, status.isInDoubt = false →
        (r.intents.modify j fun i => { i with status })[j]? = some intent →
        False := by
      intro status hstatus hmod
      rw [List.getElem?_modify_eq] at hmod
      obtain ⟨i, -, rfl⟩ := Option.map_eq_some_iff.1 hmod
      rw [hstatus] at hdoubt
      cases hdoubt
    cases h with
    | settled quiet => exact hj
    | unknown found doubt orders => exact (hset .failed rfl hj).elim
    | single found doubt orders resolved =>
        cases resolved with
        | filled filled lands room nonneg os bs disputed =>
            exact (hset .confirmed rfl hj).elim
        | dead terminal unfilled os => exact (hset .failed rfl hj).elim
        | inFlight live os acked same => exact hj
    | doubled found doubt orders named errs =>
        rw [errs.books.intents] at hj
        exact hj
  · rw [h.others hne] at hj
    exact hj

/-- An intent with several orders keeps its row, whoever's turn it is. -/
theorem doubled_stays (h : IntentTurn ordersByTag intentId r r') {j : Nat}
    {intent : OrderIntent} (hj : r.intents[j]? = some intent)
    (hmany : 2 ≤ (ordersUnder ordersByTag intent.brokerTag).length) :
    r'.intents[j]? = some intent := by
  by_cases hne : j = intentId
  · subst hne
    cases h with
    | settled quiet => exact hj
    | unknown found doubt orders =>
        rw [hj] at found
        cases found
        rw [orders] at hmany
        cases hmany
    | single found doubt orders resolved =>
        rw [hj] at found
        cases found
        rw [orders] at hmany
        exact absurd hmany (Nat.not_succ_le_self 1)
    | doubled found doubt orders named errs =>
        rw [errs.books.intents]
        exact hj
  · rw [h.others hne]
    exact hj

/-- And its own turn records a break. -/
theorem doubled_recorded (h : IntentTurn ordersByTag intentId r r')
    {intent : OrderIntent} (hfound : r.intents[intentId]? = some intent)
    (hdoubt : intent.status.isInDoubt = true)
    (hmany : 2 ≤ (ordersUnder ordersByTag intent.brokerTag).length) :
    r.breaks.length < r'.breaks.length := by
  cases h with
  | settled quiet =>
      rw [quiet intent hfound] at hdoubt
      cases hdoubt
  | unknown found doubt orders =>
      rw [hfound] at found
      cases found
      rw [orders] at hmany
      cases hmany
  | single found doubt orders resolved =>
      rw [hfound] at found
      cases found
      rw [orders] at hmany
      exact absurd hmany (Nat.not_succ_le_self 1)
  | doubled found doubt orders named errs =>
      rw [errs.books.breaks, List.length_append]
      exact Nat.lt_succ_self _

end ReconciliationEngine.IntentTurn

-- ===================================================== a position's turn

section Verdicts

variable {injected : Bool} {live : Option (List String)} {id : Nat}

/-- A position's turn leaves the others, the legs, the intents and the
orders, and takes no break back. -/
theorem positionTurn_spares (h : PositionTurn injected live id r r') :
    (∀ j, j ≠ id → r'.positions[j]? = r.positions[j]?) ∧ r'.legs = r.legs
      ∧ r'.intents = r.intents ∧ r'.orders = r.orders
      ∧ r.breaks <+: r'.breaks := by
  cases h with
  | rests nothing => exact ⟨fun _ _ => rfl, rfl, rfl, rfl, List.prefix_refl _⟩
  | moves found decided moved =>
      obtain ⟨breakType, hbreaks⟩ := moved.breaks
      refine ⟨moved.others, moved.legs, moved.intents, moved.orders, ?_⟩
      rw [hbreaks]
      exact List.prefix_append _ _

/-- The state a pass leaves a position in. -/
def settledState (injected : Bool) (live : Option (List String))
    (legs : List Leg) (id : Nat) (state : PositionState) : PositionState :=
  match verdict injected live legs id state with
  | some (toState, _) => toState
  | none => state

theorem positionTurn_own (h : PositionTurn injected live id r r')
    {p : Position} (hp : r.positions[id]? = some p) :
    ∃ q, r'.positions[id]? = some q ∧ p.SameDay q
      ∧ q.state = settledState injected live r.legs id p.state := by
  cases h with
  | rests nothing =>
      refine ⟨p, hp, ⟨rfl, rfl⟩, ?_⟩
      unfold settledState
      rw [nothing p hp]
  | moves found decided moved =>
      rw [hp] at found
      cases found
      obtain ⟨q, hq, hstate⟩ := Option.map_eq_some_iff.1 moved.state
      refine ⟨q, hq, moved.sameDay hp hq, ?_⟩
      unfold settledState
      rw [decided]
      exact hstate

end Verdicts

-- ============================================================= the stages

/-- The push stream's turn: order rows alone. -/
def Pushed (r r' : Rows) : Prop := ∃ os, r' = { r with orders := os }

instance : BlindToPushes Pushed where
  refl := fun r => ⟨r.orders, rfl⟩
  trans := by
    intro r r' r'' h h'
    obtain ⟨_, rfl⟩ := h
    obtain ⟨_, rfl⟩ := h'
    exact ⟨_, rfl⟩
  orders := fun _ os => ⟨os, rfl⟩

/-- A turn after one of the push stream's. -/
def Amid (T : Rows → Rows → Prop) (r r' : Rows) : Prop :=
  ∃ r₀, Pushed r r₀ ∧ T r₀ r'

/-- The push stream may have had nothing to say. -/
theorem Turns.amid {T : Nat → Rows → Rows → Prop} {ids : List Nat}
    (h : Turns T ids r r') : Turns (fun id => Amid (T id)) ids r r' :=
  h.map id fun _ s _ hT => ⟨s, Frame.refl s, hT⟩

section FirstStage

variable {intentIds : List Nat}

/-- Between the turns the tags, and whatever else names an intent, stay. -/
theorem intentTurns_tags
    (h : Turns (fun id => Amid (IntentTurn ordersByTag id)) intentIds r r') :
    r'.intents.map (·.brokerTag) = r.intents.map (·.brokerTag) := by
  induction h with
  | nil => rfl
  | cons turn turns ih =>
      obtain ⟨_, ⟨_, rfl⟩, turn⟩ := turn
      exact ih.trans turn.tags

theorem intentTurns_breaks
    (h : Turns (fun id => Amid (IntentTurn ordersByTag id)) intentIds r r') :
    r.breaks <+: r'.breaks := by
  induction h with
  | nil => exact List.prefix_refl _
  | cons turn turns ih =>
      obtain ⟨_, ⟨_, rfl⟩, turn⟩ := turn
      exact turn.breaks.trans ih

/-- The legs get every intent's fill, in order. -/
theorem intentTurns_legs
    (h : Turns (fun id => Amid (IntentTurn ordersByTag id)) intentIds r r')
    (hnd : intentIds.Nodup) :
    r'.legs = settledLegs ordersByTag intentIds r := by
  induction h with
  | nil => rfl
  | @cons id ids r r₁ r₂ turn turns ih =>
      obtain ⟨hid, hnd⟩ := List.nodup_cons.1 hnd
      obtain ⟨_, ⟨_, rfl⟩, turn⟩ := turn
      have hlegs : r₁.legs = settleLeg (fillOf ordersByTag r id) r.legs :=
        turn.legs
      rw [ih hnd]
      unfold settledLegs
      rw [List.foldl_cons, hlegs]
      refine List.foldl_ext _ _ _ fun legs j hj => ?_
      rw [fillOf_congr (turn.others fun hji => hid (hji ▸ hj))]
      rfl

/-- An intent with several orders stays as it is. -/
theorem intentTurns_doubled
    (h : Turns (fun id => Amid (IntentTurn ordersByTag id)) intentIds r r')
    {j : Nat} {intent : OrderIntent} (hj : r.intents[j]? = some intent)
    (hmany : 2 ≤ (ordersUnder ordersByTag intent.brokerTag).length) :
    r'.intents[j]? = some intent := by
  induction h with
  | nil => exact hj
  | cons turn turns ih =>
      obtain ⟨_, ⟨_, rfl⟩, turn⟩ := turn
      exact ih (turn.doubled_stays hj hmany)

/-- And has a break recorded when its turn comes. -/
theorem intentTurns_recorded
    (h : Turns (fun id => Amid (IntentTurn ordersByTag id)) intentIds r r')
    {j : Nat} (hmem : j ∈ intentIds) {intent : OrderIntent}
    (hj : r.intents[j]? = some intent)
    (hdoubt : intent.status.isInDoubt = true)
    (hmany : 2 ≤ (ordersUnder ordersByTag intent.brokerTag).length) :
    r.breaks.length < r'.breaks.length := by
  induction h with
  | nil => cases hmem
  | @cons id ids r r₁ r₂ turn turns ih =>
      obtain ⟨_, ⟨_, rfl⟩, turn⟩ := turn
      have hle : r.breaks.length ≤ r₁.breaks.length := turn.breaks.length_le
      have hle' := (intentTurns_breaks turns).length_le
      rcases List.mem_cons.1 hmem with rfl | hmem
      · have hlt : r.breaks.length < r₁.breaks.length :=
          turn.doubled_recorded hj hdoubt hmany
        omega
      · have hlt := ih hmem (turn.doubled_stays hj hmany)
        omega

end FirstStage

section SecondStage

variable {injected : Bool} {live : Option (List String)} {ids : List Nat}

theorem positionTurns_spare
    (h : Turns (fun id => Amid (PositionTurn injected live id)) ids r r') :
    (∀ j, j ∉ ids → r'.positions[j]? = r.positions[j]?) ∧ r'.legs = r.legs
      ∧ r'.intents = r.intents ∧ r.breaks <+: r'.breaks := by
  induction h with
  | nil => exact ⟨fun _ _ => rfl, rfl, rfl, List.prefix_refl _⟩
  | cons turn turns ih =>
      obtain ⟨_, ⟨_, rfl⟩, turn⟩ := turn
      obtain ⟨hothers, hlegs, hintents, -, hbreaks⟩ := positionTurn_spares turn
      obtain ⟨hothers', hlegs', hintents', hbreaks'⟩ := ih
      refine ⟨fun j hj => ?_, hlegs'.trans hlegs, hintents'.trans hintents,
        hbreaks.trans hbreaks'⟩
      have hne : j ≠ _ := List.ne_of_not_mem_cons hj
      have hnotin := List.not_mem_of_not_mem_cons hj
      exact (hothers' j hnotin).trans (hothers j hne)

/-- Each position of the list has one turn, on the legs the stage began
with. -/
theorem positionTurns_own
    (h : Turns (fun id => Amid (PositionTurn injected live id)) ids r r')
    (hnd : ids.Nodup) {j : Nat} (hj : j ∈ ids) {p : Position}
    (hp : r.positions[j]? = some p) :
    ∃ q, r'.positions[j]? = some q ∧ p.SameDay q
      ∧ q.state = settledState injected live r.legs j p.state := by
  induction h with
  | nil => cases hj
  | @cons id ids r r₁ r₂ turn turns ih =>
      obtain ⟨_, ⟨_, rfl⟩, turn⟩ := turn
      obtain ⟨hid, hnd⟩ := List.nodup_cons.1 hnd
      obtain ⟨hothers, hlegs, -⟩ := positionTurn_spares turn
      rcases List.mem_cons.1 hj with rfl | hj
      · obtain ⟨q, hq, hday, hstate⟩ := positionTurn_own turn hp
        exact ⟨q, ((positionTurns_spare turns).1 j hid).trans hq, hday, hstate⟩
      · have hne : j ≠ id := fun hji => hid (hji ▸ hj)
        have hsame : r₁.legs = r.legs := hlegs
        rw [← hsame]
        exact ih hnd hj ((hothers j hne).trans hp)

/-- A verdict with a break is recorded when its turn comes. -/
theorem positionTurns_recorded
    (h : Turns (fun id => Amid (PositionTurn injected live id)) ids r r')
    {j : Nat} (hj : j ∈ ids) {p : Position} (hp : r.positions[j]? = some p)
    {toState : PositionState}
    (hverdict : verdict injected live r.legs j p.state = some (toState, true)) :
    ∃ pre b, r.breaks <+: pre ∧ pre ++ [b] <+: r'.breaks
      ∧ b.positionId = some j := by
  induction h with
  | nil => cases hj
  | @cons id ids r r₁ r₂ turn turns ih =>
      obtain ⟨_, ⟨_, rfl⟩, turn⟩ := turn
      obtain ⟨hothers, hlegs, -, -, hbreaks⟩ := positionTurn_spares turn
      obtain ⟨-, -, -, hbreaks'⟩ := positionTurns_spare turns
      by_cases hji : j = id
      · subst hji
        cases turn with
        | rests nothing =>
            cases (nothing p hp).symm.trans hverdict
        | moves found decided moved =>
            cases Option.some.inj (found.symm.trans hp)
            cases Option.some.inj (decided.symm.trans hverdict)
            obtain ⟨breakType, hrecorded⟩ := moved.breaks
            rw [if_pos rfl] at hrecorded
            rw [hrecorded] at hbreaks'
            exact ⟨_, _, List.prefix_refl _, hbreaks', rfl⟩
      · have hmem : j ∈ ids := (List.mem_cons.1 hj).resolve_left hji
        have hverdict' : verdict injected live r₁.legs j p.state
            = some (toState, true) := by
          rw [hlegs]
          exact hverdict
        obtain ⟨pre, b, hpre, hafter, hof⟩ :=
          ih hmem ((hothers j hji).trans hp) hverdict'
        exact ⟨pre, b, hbreaks.trans hpre, hafter, hof⟩

end SecondStage

end AlgoPlatform
