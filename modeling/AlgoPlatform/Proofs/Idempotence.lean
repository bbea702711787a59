/-
Running the reconciliation twice.

# The law

The engine's docstring calls a second pass a no-op: what the first found
it has repaired. That is so for everything a pass settles, but a pass
only flags some of what it finds, and flags it again on the next run: a
tag no intent has, an intent with several orders, a finished position
with no seam to finish it. And a position the seam has just moved to
OPEN meets the broker-flat check only on the next pass. `SettlesAtOnce`
says, of the rows before the first pass and of the broker's answers,
that none of this is there; it holds exactly when the second pass
changes nothing.

# The argument

Passes are lists of turns (`Pass`). The first pass leaves every intent
settled, or in flight with its order row known (`InFlight`), and the
legs with the statuses `settledLegs` computes; the turns of the second
are decided by that alone.
-/
import AlgoPlatform.Model.Runs
import AlgoPlatform.Proofs.Settlement

open Basis Basis.Session

namespace AlgoPlatform

open ReconciliationEngine

-- ============================================================== the law

/-- No position, trade, order or intent row has changed, and no break was
recorded. -/
structure SameRecords (r r' : Rows) : Prop where
  positions : r'.positions = r.positions
  trades : r'.trades = r.trades
  orders : r'.orders = r.orders
  intents : r'.intents = r.intents
  breaks : r'.breaks = r.breaks

/-- No in-doubt intent has two orders under its tag. -/
def Single (ordersByTag : List (String × List BrokerOrder)) (r : Rows) : Prop :=
  ∀ intent ∈ r.intents, intent.status.isInDoubt = true →
    (ordersUnder ordersByTag intent.brokerTag).length ≤ 1

/-- There is nothing a pass would flag once and flag again. -/
structure SettlesAtOnce (injected : Bool) (orders : List BrokerOrder)
    (live : Option (List String)) (intentIds : List Nat) (r : Rows) : Prop where
  /-- Every tag of the orderbook is some intent's. -/
  known : ∀ x ∈ groupOrdersByTag orders, KnownTag r x.1
  single : Single (groupOrdersByTag orders) r
  /-- An entry whose legs are all filled has a seam to finish it, and no
  leg the broker is flat in. -/
  entries : ∀ (id : Nat) (p : Position), r.positions[id]? = some p →
    p.state = .entryPending →
    HasLeg (settledLegs (groupOrdersByTag orders) intentIds r) id .open →
    ¬ HasLeg (settledLegs (groupOrdersByTag orders) intentIds r) id .pending →
    injected = true ∧ ¬ SomeLegMissing live
      (settledLegs (groupOrdersByTag orders) intentIds r) id
  /-- An exit whose legs are all closed has a seam to finish it. -/
  exits : ∀ (id : Nat) (p : Position), r.positions[id]? = some p →
    p.state = .exitPending →
    HasLeg (settledLegs (groupOrdersByTag orders) intentIds r) id .closed →
    ¬ HasLeg (settledLegs (groupOrdersByTag orders) intentIds r) id .open →
    injected = true

-- ======================================================= an intent's turn

variable {ordersByTag : List (String × List BrokerOrder)} {intentId : Nat}
  {r r' : Rows}

/-- The broker's one order under the intent's tag is still working, and
its order row is known. -/
def InFlight (ordersByTag : List (String × List BrokerOrder))
    (intent : OrderIntent) (r : Rows) : Prop :=
  ∃ bo, ordersUnder ordersByTag intent.brokerTag = [bo]
    ∧ bo.status.isTerminal = false
    ∧ Acked r.orders bo.brokerOrderId intent.brokerTag

namespace ReconciliationEngine.IntentTurn

/-- Without double orders no position is touched. -/
theorem positions (h : IntentTurn ordersByTag intentId r r')
    (hsingle : Single ordersByTag r) : r'.positions = r.positions := by
  cases h with
  | settled quiet => rfl
  | unknown found doubt orders => rfl
  | single found doubt orders resolved => cases resolved <;> rfl
  | doubled found doubt orders named errs =>
      have hone := hsingle _ (List.mem_of_getElem? found) doubt
      omega

theorem keeps_single (h : IntentTurn ordersByTag intentId r r')
    (hsingle : Single ordersByTag r) : Single ordersByTag r' := by
  intro intent hmem hdoubt
  obtain ⟨j, hj⟩ := List.getElem?_of_mem hmem
  exact hsingle intent (List.mem_of_getElem? (h.doubtful hj hdoubt)) hdoubt

/-- An intent still in doubt after its own turn is in flight. -/
theorem inFlight (h : IntentTurn ordersByTag intentId r r')
    (hsingle : Single ordersByTag r) {intent : OrderIntent}
    (hfound : r'.intents[intentId]? = some intent)
    (hdoubt : intent.status.isInDoubt = true) :
    InFlight ordersByTag intent r' := by
  have hbefore := h.doubtful hfound hdoubt
  have hset : ∀ status : IntentStatus, status.isInDoubt = false →
      (r.intents.modify intentId fun i => { i with status })[intentId]?
        = some intent → False := by
    intro status hstatus hmod
    rw [List.getElem?_modify_eq] at hmod
    obtain ⟨i, -, rfl⟩ := Option.map_eq_some_iff.1 hmod
    rw [hstatus] at hdoubt
    cases hdoubt
  cases h with
  | settled quiet =>
      rw [quiet intent hbefore] at hdoubt
      cases hdoubt
  | unknown found doubt orders => exact (hset .failed rfl hfound).elim
  | single found doubt orders resolved =>
      rw [hbefore] at found
      cases found
      cases resolved with
      | filled filled lands room nonneg os bs disputed =>
          exact (hset .confirmed rfl hfound).elim
      | dead terminal unfilled os => exact (hset .failed rfl hfound).elim
      | inFlight live os acked same => exact ⟨_, orders, live, acked⟩
  | doubled found doubt orders named errs =>
      have hone := hsingle _ (List.mem_of_getElem? found) doubt
      omega

/-- The turn of another tag leaves an intent in flight. -/
theorem inFlight_stays (h : IntentTurn ordersByTag intentId r r')
    {intent : OrderIntent}
    (hother : ∀ own, r.intents[intentId]? = some own →
      intent.brokerTag ≠ own.brokerTag)
    (hflight : InFlight ordersByTag intent r) :
    InFlight ordersByTag intent r' := by
  obtain ⟨bo, hunder, hlive, hacked⟩ := hflight
  refine ⟨bo, hunder, hlive, ?_⟩
  cases h with
  | settled quiet => exact hacked
  | unknown found doubt orders => exact hacked
  | single found doubt orders resolved =>
      cases resolved with
      | filled filled lands room nonneg os bs disputed =>
          exact os.acked (hother _ found) hacked
      | dead terminal unfilled os => exact os.acked (hother _ found) hacked
      | inFlight live os acked same => exact os.acked (hother _ found) hacked
  | doubled found doubt orders named errs =>
      rw [errs.books.orders]
      exact hacked

/-- Once every intent in doubt is in flight, a turn writes nothing. -/
theorem rests (h : IntentTurn ordersByTag intentId r r')
    (hflight : ∀ (j : Nat) (intent : OrderIntent),
      r.intents[j]? = some intent → intent.status.isInDoubt = true →
      InFlight ordersByTag intent r) : r' = r := by
  cases h with
  | settled quiet => rfl
  | unknown found doubt orders =>
      obtain ⟨bo, hunder, -, -⟩ := hflight _ _ found doubt
      rw [orders] at hunder
      cases hunder
  | single found doubt orders resolved =>
      obtain ⟨bo, hunder, hlive, hacked⟩ := hflight _ _ found doubt
      rw [orders] at hunder
      cases hunder
      cases resolved with
      | filled filled lands room nonneg os bs disputed =>
          rw [filled_terminal filled] at hlive
          cases hlive
      | dead terminal unfilled os =>
          rw [terminal] at hlive
          cases hlive
      | inFlight live os acked same => rw [same hacked]
  | doubled found doubt orders named errs =>
      obtain ⟨bo, hunder, -, -⟩ := hflight _ _ found doubt
      rw [hunder] at orders
      exact absurd orders (Nat.not_succ_le_self 1)

end ReconciliationEngine.IntentTurn

-- ============================================================= the stages

section Stages

variable {intentIds : List Nat}

theorem intentTurns_positions
    (h : Turns (IntentTurn ordersByTag) intentIds r r')
    (hsingle : Single ordersByTag r) : r'.positions = r.positions := by
  induction h with
  | nil => rfl
  | cons turn turns ih =>
      exact (ih (turn.keeps_single hsingle)).trans (turn.positions hsingle)

/-- Once every intent in doubt has had its turn, those left in doubt are
in flight. -/
theorem intentTurns_inFlight
    (h : Turns (IntentTurn ordersByTag) intentIds r r')
    (hsingle : Single ordersByTag r)
    (htags : (r.intents.map (·.brokerTag)).Nodup)
    (hall : ∀ (j : Nat) (intent : OrderIntent), r.intents[j]? = some intent →
      intent.status.isInDoubt = true →
      j ∈ intentIds ∨ InFlight ordersByTag intent r) :
    ∀ (j : Nat) (intent : OrderIntent), r'.intents[j]? = some intent →
      intent.status.isInDoubt = true → InFlight ordersByTag intent r' := by
  induction h with
  | nil =>
      intro j intent hj hdoubt
      exact (hall j intent hj hdoubt).resolve_left fun h => nomatch h
  | @cons id ids r r₁ r₂ turn turns ih =>
      refine ih (turn.keeps_single hsingle) (turn.tags ▸ htags) ?_
      intro j intent hj hdoubt
      by_cases hji : j = id
      · subst hji
        exact .inr (turn.inFlight hsingle hj hdoubt)
      · have hbefore := turn.doubtful hj hdoubt
        rcases hall j intent hbefore hdoubt with hmem | hflight
        · rcases List.mem_cons.1 hmem with hmem | hmem
          · exact absurd hmem hji
          · exact .inl hmem
        · refine .inr (turn.inFlight_stays (fun own hown htag => ?_) hflight)
          -- tags are unique, so another row's tag is another tag
          exact hji (key_inj htags hbefore hown htag)

/-- From rows whose intents in doubt are all in flight nothing is
written. -/
theorem intentTurns_rest
    (h : Turns (IntentTurn ordersByTag) intentIds r r')
    (hflight : ∀ (j : Nat) (intent : OrderIntent),
      r.intents[j]? = some intent → intent.status.isInDoubt = true →
      InFlight ordersByTag intent r) : r' = r := by
  induction h with
  | nil => rfl
  | cons turn turns ih =>
      have hrest := turn.rests hflight
      rw [hrest] at ih
      exact ih hflight

theorem knownTag_congr {tag : String}
    (h : r'.intents.map (·.brokerTag) = r.intents.map (·.brokerTag)) :
    KnownTag r' tag ↔ KnownTag r tag := by
  have hmap : ∀ s : Rows,
      KnownTag s tag ↔ tag ∈ s.intents.map (·.brokerTag) :=
    fun s => List.mem_map.symm
  rw [hmap, hmap, h]

theorem orphanTurn_rest (h : OrphanTurn ordersByTag r r')
    (hknown : ∀ x ∈ ordersByTag, KnownTag r x.1) : r' = r := by
  obtain ⟨bs, hrows, hiff⟩ := h
  rw [hrows, hiff.2 hknown, List.append_nil]

variable {injected : Bool} {live : Option (List String)} {ids : List Nat}

/-- The positions' turns leave the order rows. -/
theorem positionTurns_orders (h : Turns (PositionTurn injected live) ids r r') :
    r'.orders = r.orders := by
  induction h with
  | nil => rfl
  | cons turn turns ih =>
      obtain ⟨-, -, -, horders, -⟩ := positionTurn_spares turn
      exact ih.trans horders

/-- Verdicts that are all nothing write nothing. -/
theorem positionTurns_rest (h : Turns (PositionTurn injected live) ids r r')
    (hrest : ∀ j ∈ ids, ∀ p, r.positions[j]? = some p →
      verdict injected live r.legs j p.state = none) : r' = r := by
  induction h with
  | nil => rfl
  | @cons id ids r r₁ r₂ turn turns ih =>
      have hsame : r₁ = r := by
        cases turn with
        | rests nothing => rfl
        | moves found decided moved =>
            rw [hrest id (List.mem_cons_self ..) _ found] at decided
            cases decided
      rw [hsame] at ih
      exact ih fun j hj => hrest j (List.mem_cons_of_mem _ hj)

end Stages

-- ============================================================= two passes

section TwoPasses

variable {injected : Bool} {live : Option (List String)} {legs : List Leg}
  {id : Nat} {orders : List BrokerOrder} {intentIds intentIds' : List Nat}
  {r₀ r₁ r₂ : Rows}

/-- A position the pass has settled rests in the next pass, unless it is
one of those flagged again. -/
theorem verdict_settledState (state : PositionState)
    (hentry : state = .entryPending → HasLeg legs id .open →
      ¬ HasLeg legs id .pending → injected = true
        ∧ ¬ SomeLegMissing live legs id)
    (hexit : state = .exitPending → HasLeg legs id .closed →
      ¬ HasLeg legs id .open → injected = true) :
    verdict injected live legs id
      (settledState injected live legs id state) = none := by
  cases state with
  | entryPending =>
      by_cases hfilled : HasLeg legs id .open ∧ ¬ HasLeg legs id .pending
      · obtain ⟨hinjected, hflat⟩ := hentry rfl hfilled.1 hfilled.2
        simp [settledState, verdict, hfilled, hinjected, hflat]
      · by_cases hnone : HasLeg legs id .open
        · have hpending : HasLeg legs id .pending := by
            by_contra h
            exact hfilled ⟨hnone, h⟩
          simp [settledState, verdict, hnone, hpending]
        · simp [settledState, verdict, hnone]
  | exitPending =>
      by_cases hclosed : HasLeg legs id .closed ∧ ¬ HasLeg legs id .open
      · have hinjected := hexit rfl hclosed.1 hclosed.2
        simp [settledState, verdict, hclosed, hinjected]
      · by_cases hsome : HasLeg legs id .closed
        · have hopen : HasLeg legs id .open := by
            by_contra h
            exact hclosed ⟨hsome, h⟩
          simp [settledState, verdict, hsome, hopen]
        · simp [settledState, verdict, hsome]
  | «open» =>
      by_cases hflat : SomeLegMissing live legs id <;>
        simp [settledState, verdict, hflat]
  | idle =>
      by_cases hflat : SomeLegMissing live legs id <;>
        simp [settledState, verdict, hflat]
  | closed => rfl
  | error => rfl

/-- What the first pass leaves, when no tag is unknown and no intent
doubled. -/
structure Settled (injected : Bool) (orders : List BrokerOrder)
    (live : Option (List String)) (intentIds : List Nat) (r r' : Rows) :
    Prop where
  legs : r'.legs = settledLegs (groupOrdersByTag orders) intentIds r
  tags : r'.intents.map (·.brokerTag) = r.intents.map (·.brokerTag)
  inFlight : ∀ (j : Nat) (intent : OrderIntent), r'.intents[j]? = some intent →
    intent.status.isInDoubt = true →
    InFlight (groupOrdersByTag orders) intent r'
  /-- Every unfinished position had its turn. -/
  positions : ∀ (j : Nat) (p : Position), r.positions[j]? = some p →
    Unfinished p →
    ∃ q, r'.positions[j]? = some q
      ∧ q.state = settledState injected live r'.legs j p.state
  /-- Every other position is as it was. -/
  finished : ∀ (j : Nat) (q : Position), r'.positions[j]? = some q →
    Unfinished q →
    ∃ p, r.positions[j]? = some p
      ∧ Unfinished p

theorem ReconciliationEngine.Pass.settled (h : Pass injected orders live intentIds r r')
    (hnd : intentIds.Nodup)
    (hall : ∀ (j : Nat) (intent : OrderIntent), r.intents[j]? = some intent →
      intent.status.isInDoubt = true → j ∈ intentIds)
    (htags : (r.intents.map (·.brokerTag)).Nodup)
    (hsingle : Single (groupOrdersByTag orders) r) :
    Settled injected orders live intentIds r r' := by
  obtain ⟨a, b, positionIds, hintents, ⟨bs, hb, -⟩, hposNd, hmem, hpositions⟩ := h
  have hpos : b.positions = r.positions := by
    rw [hb]
    show a.positions = r.positions
    exact intentTurns_positions hintents hsingle
  have hlegs : b.legs = settledLegs (groupOrdersByTag orders) intentIds r := by
    rw [hb]
    show a.legs = _
    exact intentTurns_legs hintents.amid hnd
  obtain ⟨hothers, hsameLegs, hsameIntents, -⟩ :=
    positionTurns_spare hpositions.amid
  have hsameOrders := positionTurns_orders hpositions
  have hinA : ∀ (j : Nat) (intent : OrderIntent), a.intents[j]? = some intent →
      intent.status.isInDoubt = true →
      InFlight (groupOrdersByTag orders) intent a :=
    intentTurns_inFlight hintents hsingle htags
      fun j intent hj hdoubt => .inl (hall j intent hj hdoubt)
  have hbIntents : b.intents = a.intents := by rw [hb]
  have hbOrders : b.orders = a.orders := by rw [hb]
  refine ⟨hsameLegs.trans hlegs, ?_, fun j intent hj hdoubt => ?_,
    fun j p hp hlive => ?_, fun j q hq hlive => ?_⟩
  · rw [hsameIntents, hbIntents]
    exact intentTurns_tags hintents.amid
  · rw [hsameIntents, hbIntents] at hj
    obtain ⟨bo, hunder, hworking, hacked⟩ := hinA j intent hj hdoubt
    refine ⟨bo, hunder, hworking, ?_⟩
    rw [hsameOrders, hbOrders]
    exact hacked
  · have hp' : b.positions[j]? = some p := hpos ▸ hp
    rw [hsameLegs]
    obtain ⟨q, hq, -, hstate⟩ := positionTurns_own hpositions.amid hposNd
      ((hmem j).2 ⟨p, hp', hlive⟩) hp'
    exact ⟨q, hq, hstate⟩
  · by_cases hj : j ∈ positionIds
    · obtain ⟨p, hp, hp'⟩ := (hmem j).1 hj
      exact ⟨p, hpos ▸ hp, hp'⟩
    · rw [hothers j hj, hpos] at hq
      exact ⟨q, hq, hlive⟩

/-- A pass over what a pass has settled writes nothing. -/
theorem ReconciliationEngine.Pass.rests (h₁ : Settled injected orders live intentIds r r₁)
    (hcondition : SettlesAtOnce injected orders live intentIds r)
    (h₂ : Pass injected orders live intentIds' r₁ r₂) : r₂ = r₁ := by
  obtain ⟨a, b, positionIds, hintents, horphans, -, hmem, hpositions⟩ := h₂
  have ha : a = r₁ := intentTurns_rest hintents h₁.inFlight
  subst ha
  have hb : b = a := orphanTurn_rest horphans fun x hx =>
    (knownTag_congr h₁.tags).2 (hcondition.known x hx)
  subst hb
  refine positionTurns_rest hpositions fun j hj q hq => ?_
  obtain ⟨q', hq', hlive⟩ := (hmem j).1 hj
  rw [hq] at hq'
  cases hq'
  obtain ⟨p, hp, hlive'⟩ := h₁.finished j q hq hlive
  obtain ⟨q', hq', hstate⟩ := h₁.positions j p hp hlive'
  rw [hq] at hq'
  cases hq'
  rw [hstate]
  rw [h₁.legs]
  exact verdict_settledState p.state
    (fun hs hopen hpending => hcondition.entries j p hp hs hopen hpending)
    fun hs hclosed hopen => hcondition.exits j p hp hs hclosed hopen

/-- A pass that records nothing knows every tag and finds no intent
doubled. -/
theorem ReconciliationEngine.Pass.silent (h₁ : Pass injected orders live intentIds r r₁)
    (h₂ : Pass injected orders live intentIds' r₁ r₂)
    (hall : ∀ (j : Nat) (intent : OrderIntent), r₁.intents[j]? = some intent →
      intent.status.isInDoubt = true → j ∈ intentIds')
    (hsame : r₂.breaks = r₁.breaks) :
    (∀ x ∈ groupOrdersByTag orders, KnownTag r x.1)
      ∧ Single (groupOrdersByTag orders) r := by
  obtain ⟨a, b, ids, hintents, ⟨bs, hb, -⟩, -, -, hpositions⟩ := h₁
  obtain ⟨-, -, hposIntents, -⟩ := positionTurns_spare hpositions.amid
  have hbIntents : b.intents = a.intents := by rw [hb]
  obtain ⟨c, d, ids', hintents', ⟨bs', hd, hiff⟩, -, -, hpositions'⟩ := h₂
  obtain ⟨-, -, -, hgrow⟩ := positionTurns_spare hpositions'.amid
  have hlength : c.breaks.length = r₁.breaks.length ∧ bs' = [] := by
    have hle := (intentTurns_breaks hintents'.amid).length_le
    have hle' := hgrow.length_le
    rw [hsame, hd] at hle'
    dsimp only at hle'
    rw [List.length_append] at hle'
    exact ⟨by omega, List.eq_nil_of_length_eq_zero (by omega)⟩
  constructor
  · intro x hx
    have hknown := hiff.1 hlength.2 x hx
    refine (knownTag_congr ?_).1 hknown
    rw [intentTurns_tags hintents'.amid, hposIntents, hbIntents,
      intentTurns_tags hintents.amid]
  · intro intent hmem hdoubt
    by_contra hmany
    obtain ⟨j, hj⟩ := List.getElem?_of_mem hmem
    have hstays : r₁.intents[j]? = some intent := by
      rw [hposIntents, hbIntents]
      exact intentTurns_doubled hintents.amid hj (by omega)
    have hlt := intentTurns_recorded hintents'.amid (hall j intent hstays hdoubt)
      hstays hdoubt (by omega)
    omega

/-- A second pass that records no break had no position to flag again. -/
theorem ReconciliationEngine.Pass.unflagged (h₁ : Settled injected orders live intentIds r r₁)
    (hknown : ∀ x ∈ groupOrdersByTag orders, KnownTag r x.1)
    (h₂ : Pass injected orders live intentIds' r₁ r₂)
    (hsame : r₂.breaks = r₁.breaks) {j : Nat} {p : Position}
    (hp : r.positions[j]? = some p)
    (hlive : Unfinished p) (state toState : PositionState)
    (hstate : settledState injected live r₁.legs j p.state = state)
    (hlive' : state = .entryPending ∨ state = .open ∨ state = .exitPending) :
    verdict injected live r₁.legs j state ≠ some (toState, true) := by
  intro hverdict
  obtain ⟨a, b, ids, hintents, horphans, -, hmem, hpositions⟩ := h₂
  have ha : a = r₁ := intentTurns_rest hintents h₁.inFlight
  subst ha
  have hb : b = a := orphanTurn_rest horphans fun x hx =>
    (knownTag_congr h₁.tags).2 (hknown x hx)
  subst hb
  obtain ⟨q, hq, hqs⟩ := h₁.positions j p hp hlive
  rw [hstate] at hqs
  have hunfinished : Unfinished q := by
    unfold Unfinished
    rw [hqs]
    exact hlive'
  obtain ⟨pre, b, hpre, hafter, -⟩ := positionTurns_recorded hpositions.amid
    ((hmem j).2 ⟨q, hq, hunfinished⟩) hq (hqs ▸ hverdict)
  have hle := hpre.length_le
  have hle' := hafter.length_le
  rw [hsame, List.length_append, List.length_singleton] at hle'
  omega

/-- Two passes with the same answers of the broker: the second changes
nothing exactly when there is nothing to flag twice. -/
theorem passes_idempotent_iff
    (h₁ : Pass injected orders live intentIds r r₁)
    (h₂ : Pass injected orders live intentIds' r₁ r₂) (hnd : intentIds.Nodup)
    (hall : ∀ (j : Nat) (intent : OrderIntent), r.intents[j]? = some intent →
      intent.status.isInDoubt = true → j ∈ intentIds)
    (hall' : ∀ (j : Nat) (intent : OrderIntent), r₁.intents[j]? = some intent →
      intent.status.isInDoubt = true → j ∈ intentIds')
    (htags : (r.intents.map (·.brokerTag)).Nodup) :
    SameRecords r₁ r₂ ↔ SettlesAtOnce injected orders live intentIds r := by
  constructor
  · intro hsame
    obtain ⟨hknown, hsingle⟩ := h₁.silent h₂ hall' hsame.breaks
    have hsettled := h₁.settled hnd hall htags hsingle
    refine ⟨hknown, hsingle, fun j p hp hs hopen hpending => ?_,
      fun j p hp hs hclosed hopen => ?_⟩
    · rw [← hsettled.legs] at hopen hpending ⊢
      have hunflagged := Pass.unflagged hsettled hknown h₂ hsame.breaks hp
        (.inl hs)
      have hinjected : injected = true := by
        by_contra hnot
        refine hunflagged .entryPending .entryPending ?_ (.inl rfl) ?_
        · rw [hs]
          simp [settledState, verdict, hopen, hpending, hnot]
        · simp [verdict, hopen, hpending, hnot]
      refine ⟨hinjected, fun hflat => ?_⟩
      refine hunflagged .open .error ?_ (.inr (.inl rfl)) ?_
      · rw [hs]
        simp [settledState, verdict, hopen, hpending, hinjected]
      · simp [verdict, hflat]
    · rw [← hsettled.legs] at hclosed hopen
      by_contra hnot
      refine Pass.unflagged hsettled hknown h₂ hsame.breaks hp
        (.inr (.inr hs)) .exitPending .exitPending ?_ (.inr (.inr rfl)) ?_
      · rw [hs]
        simp [settledState, verdict, hclosed, hopen, hnot]
      · simp [verdict, hclosed, hopen, hnot]
  · intro hcondition
    have hsettled := h₁.settled hnd hall htags hcondition.single
    rw [Pass.rests hsettled hcondition h₂]
    exact ⟨rfl, rfl, rfl, rfl, rfl⟩

end TwoPasses

-- ================================================================ two runs

section TwoRuns

variable {reconciler : Option PositionReconciler} {w w₁ w₂ : World}
  {m₀ m₁ m₂ m₀' m₁' m₂' : Move} {ms ms' rest rest' : List Move}
  {items items' : List ReconciliationItem}

/-- Two runs of the reconciliation with the same answers of the broker
and nothing happening beside them: the second changes no row and records
no break exactly when the first met nothing it can only flag. -/
theorem reconcile_idempotent_iff (hseam : ∀ s ∈ reconciler, s.Finishes)
    (hquiet : ∀ m ∈ m₀ :: m₁ :: m₂ :: ms, m.Quiet)
    (hquiet' : ∀ m ∈ m₀' :: m₁' :: m₂' :: ms', m.Quiet)
    (horders : m₀.read = none) (horders' : m₀'.read = none)
    (hbook : m₁'.book = m₁.book)
    (hrun : (reconcile reconciler).run (m₀ :: m₁ :: m₂ :: ms) w
      = (.returned items, w₁, rest))
    (hrun' : (reconcile reconciler).run (m₀' :: m₁' :: m₂' :: ms') w₁
      = (.returned items', w₂, rest')) :
    SameRecords w₁.db.rows w₂.db.rows
      ↔ SettlesAtOnce reconciler.isSome w.broker.orderbook
          (liveSymbols m₁.book) (inDoubt m₂.scan w.db.rows) w.db.rows := by
  obtain ⟨hpass, hbroker⟩ := reconcile_pass hseam hquiet horders hrun
  obtain ⟨hpass', -⟩ := reconcile_pass hseam hquiet' horders' hrun'
  rw [hbroker, hbook] at hpass'
  exact passes_idempotent_iff hpass hpass' (inDoubt_nodup _ _)
    (fun j intent hj hdoubt => mem_inDoubt.2 ⟨intent, hj, hdoubt⟩)
    (fun j intent hj hdoubt => mem_inDoubt.2 ⟨intent, hj, hdoubt⟩)
    w.db.admitted.unique.brokerTag

end TwoRuns

-- ===================================================== a tag from elsewhere

/-- The claim of the engine's docstring: a second run with the same
answers of the broker is a no-op. -/
def SecondRunRests (reconciler : Option PositionReconciler) : Prop :=
  ∀ (w w₁ w₂ : World) (m₀ m₁ m₂ m₀' m₁' m₂' : Move)
    (ms ms' rest rest' : List Move) (items items' : List ReconciliationItem),
    (∀ m ∈ m₀ :: m₁ :: m₂ :: ms, m.Quiet) →
    (∀ m ∈ m₀' :: m₁' :: m₂' :: ms', m.Quiet) →
    m₀.read = none → m₀'.read = none → m₁'.book = m₁.book →
    (reconcile reconciler).run (m₀ :: m₁ :: m₂ :: ms) w
      = (.returned items, w₁, rest) →
    (reconcile reconciler).run (m₀' :: m₁' :: m₂' :: ms') w₁
      = (.returned items', w₂, rest') →
    SameRecords w₁.db.rows w₂.db.rows

instance (r r' : Rows) : Decidable (SameRecords r r') :=
  decidable_of_iff (r'.positions = r.positions ∧ r'.trades = r.trades
      ∧ r'.orders = r.orders ∧ r'.intents = r.intents ∧ r'.breaks = r.breaks)
    ⟨fun h => ⟨h.1, h.2.1, h.2.2.1, h.2.2.2.1, h.2.2.2.2⟩,
      fun h => ⟨h.positions, h.trades, h.orders, h.intents, h.breaks⟩⟩

namespace SampleDay

theorem seam_finishes : seam.Finishes where
  entry := fun _ _ _ hp _ => transitionState_moved hp _ _ _
  exit := fun _ _ _ hp _ => transitionState_moved hp _ _ _

/-- A pass with nothing beside it, the broker's position book being
`book`. -/
def passOver (book : List BrokerPosition) (w : World) :
    Prog.Ending Exc (List ReconciliationItem) × World × List Move :=
  (reconcile (some seam)).run
    (still :: { positions := book } :: List.replicate 6 still) w

theorem passOver_quiet {book : List BrokerPosition} {n : Nat} :
    ∀ m ∈ still :: { positions := book } :: List.replicate n still,
      m.Quiet := by
  intro m hm
  rcases List.mem_cons.1 hm with rfl | hm
  · exact ⟨rfl, rfl⟩
  rcases List.mem_cons.1 hm with rfl | hm
  · exact ⟨rfl, rfl⟩
  · rw [List.eq_of_mem_replicate hm]
    exact ⟨rfl, rfl⟩

/-- The morning with an order placed by hand, under a tag of its own. -/
def byHand : World :=
  { morning with
    broker := { log := [snapshot "M1" "by-hand" .sell .ce .complete lot
      (some 100)] } }

/-- What each pass says of it. -/
def orphanFound : ReconciliationItem where
  subject := .brokerTag "by-hand"
  outcome := .orphanOrderDetected
  detail := "1 broker order(s) under unrecognized tag by-hand"
  breakRecorded := true

/-- Every pass records the same order under the foreign tag again. -/
theorem byHand_recorded_again : ¬ SecondRunRests (some seam) := by
  intro hclaim
  have hsame := hclaim byHand (passOver [] byHand).2.1
    (passOver [] (passOver [] byHand).2.1).2.1 still {} still still {} still
    (List.replicate 5 still) (List.replicate 5 still) _ _ [orphanFound]
    [orphanFound] (@passOver_quiet [] 6) (@passOver_quiet [] 6) rfl rfl rfl
    (Prod.ext (by decide +kernel) rfl) (Prod.ext (by decide +kernel) rfl)
  exact absurd hsame (by decide +kernel)

/-- Both legs of an entry acknowledged and then filled, with the process
down. -/
def bothFilled : World where
  db := bothAcked.db
  broker := (bothAcked.broker.works
      (snapshot "A1" "E0-240704-CE" .sell .ce .complete lot (some 100))).works
    (snapshot "A2" "E0-240704-PE" .sell .pe .complete lot (some 80))

/-- The broker's book then: both legs short. -/
def bothShort : List BrokerPosition :=
  [⟨(contract .ce).tradingsymbol, -75⟩, ⟨(contract .pe).tradingsymbol, -75⟩]

/-- What the pass says of an intent it resolves with a fill. -/
def fillRecordedItem (intentId : Nat) (detail : String) :
    ReconciliationItem where
  subject := .intent intentId
  outcome := .fillRecorded
  detail

/-- What it says of the position it finishes. -/
def entryFinalizedItem : ReconciliationItem where
  subject := .position 0
  outcome := .entryFinalized
  detail := "all legs filled; entry finalized to OPEN"

theorem bothFilled_first : passOver bothShort bothFilled
    = (.returned [fillRecordedItem 0 "fill recorded (75 @ 100)",
        fillRecordedItem 1 "fill recorded (75 @ 80)", entryFinalizedItem],
      (passOver bothShort bothFilled).2) :=
  Prod.ext (by decide +kernel) rfl

theorem bothFilled_second :
    passOver bothShort (passOver bothShort bothFilled).2.1
      = (.returned [consistent],
        (passOver bothShort (passOver bothShort bothFilled).2.1).2) :=
  Prod.ext (by decide +kernel) rfl

/-- The law at an entry the first pass finishes and the second leaves
alone. -/
theorem reconcile_idempotent_bothFilled :
    SameRecords (passOver bothShort bothFilled).2.1.db.rows
        (passOver bothShort (passOver bothShort bothFilled).2.1).2.1.db.rows
      ↔ SettlesAtOnce true bothFilled.broker.orderbook
          (liveSymbols (.ok bothShort)) (inDoubt [] bothFilled.db.rows)
          bothFilled.db.rows :=
  reconcile_idempotent_iff (fun s hs => by cases hs; exact seam_finishes)
    (@passOver_quiet bothShort 6) (@passOver_quiet bothShort 6) rfl rfl rfl
    bothFilled_first bothFilled_second

end SampleDay

end AlgoPlatform
