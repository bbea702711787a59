/-
What rows are created with, and keep.

# The relations

No commit of the platform deletes a position, a trade or an intent, or
changes the columns it was created with (`RowsKept`). Most of them insert
none either (`RowsStand`): only the durable record of an entry, the exit
record and the unwind do.

# The invariant

`Booked` says of the rows what those three rely on to find their own
intents again: a position has one trade of a type, and an intent's key,
side and quantity are those of its trade.
-/
import AlgoPlatform.Proofs.Intents
import AlgoPlatform.Proofs.Jobs
import AlgoPlatform.Proofs.Tags
import AlgoPlatform.Proofs.Turns

open Basis Basis.Session

namespace AlgoPlatform

-- =============================================================== origins

/-- What a position is created with. -/
def Position.origin (p : Position) : Nat × Date :=
  (p.strategyInstanceId, p.tradeDate)

/-- What a trade is created with. -/
def Trade.origin (t : Trade) : Nat × OptionType × String × Exchange × Nat :=
  (t.positionId, t.optionType, t.tradingSymbol, t.exchange, t.quantity)

/-- The side an order of a purpose is placed on. -/
def TagPurpose.side : TagPurpose → TransactionType
  | .entry => .sell
  | .exit | .unwind => .buy

/-- Every row is still there, with what it was created with. -/
structure RowsKept (r r' : Rows) : Prop where
  positions : ∀ (i : Nat) (p : Position), r.positions[i]? = some p →
    ∃ q : Position, r'.positions[i]? = some q ∧ q.origin = p.origin
  trades : ∀ (i : Nat) (t : Trade), r.trades[i]? = some t →
    ∃ u : Trade, r'.trades[i]? = some u ∧ u.origin = t.origin
  intents : IntentsKept r r'

/-- And there are no others. -/
structure RowsStand (r r' : Rows) : Prop extends RowsKept r r' where
  tradeCount : r'.trades.length = r.trades.length
  intentCount : r'.intents.length = r.intents.length

/-- The intent is of the trade: it trades the whole leg, under a key and
on a side of its purpose. -/
structure OrderIntent.Of (r : Rows) (x : OrderIntent) (t : Trade)
    (purpose : TagPurpose) : Prop where
  key : ∃ (ctx : StrategyContext) (p : Position),
    r.positions[t.positionId]? = some p ∧ p.origin = (ctx.instanceId, ctx.today)
      ∧ x.idempotencyKey = purpose.key ctx t.optionType
  side : x.transactionType = purpose.side
  quantity : x.quantity = t.quantity

/-- A position has one trade of a type, and every intent is of its
trade. -/
structure Booked (r : Rows) : Prop where
  legs : (r.trades.map fun t => (t.positionId, t.optionType)).Nodup
  keyed : ∀ x ∈ r.intents, ∃ t purpose, r.trades[x.tradeId]? = some t
    ∧ x.Of r t purpose

variable {r r' : Rows}

-- ============================================================= relations

/-- A list whose entries changed in place. -/
private theorem getElem?_origin {α β : Type} {l l' : List α} {origin : α → β}
    (h : l'.map origin = l.map origin) (i : Nat) (a : α) (ha : l[i]? = some a) :
    ∃ b, l'[i]? = some b ∧ origin b = origin a := by
  have hmap : (l'[i]?).map origin = some (origin a) := by
    rw [← List.getElem?_map, h, List.getElem?_map, ha]
    rfl
  exact Option.map_eq_some_iff.1 hmap

/-- A list that grew at its end. -/
private theorem getElem?_prefix {α : Type} {l l' : List α} (h : l <+: l')
    {i : Nat} {a : α} (ha : l[i]? = some a) : l'[i]? = some a := by
  obtain ⟨rest, rfl⟩ := h
  rw [List.getElem?_append_left (List.getElem?_eq_some_iff.1 ha).1]
  exact ha

/-- Writes that leave the intents alone, and of positions and trades what
they were created with. -/
theorem rowsStand_of_origins
    (hpositions : r'.positions.map Position.origin
      = r.positions.map Position.origin)
    (htrades : r'.trades.map Trade.origin = r.trades.map Trade.origin)
    (hintents : r'.intents = r.intents) : RowsStand r r' where
  positions := getElem?_origin hpositions
  trades := getElem?_origin htrades
  intents := intentsKept_of_eq hintents
  tradeCount := by simpa using congrArg List.length htrades
  intentCount := congrArg List.length hintents

/-- A write to the status of an intent. -/
theorem rowsStand_setIntent {f : OrderIntent → OrderIntent}
    (hf : ∀ x : OrderIntent, x.Endures (f x)) (r : Rows) (i : Nat) :
    RowsStand r (r.setIntent i f) where
  positions := fun _ p hp => ⟨p, hp, rfl⟩
  trades := fun _ t ht => ⟨t, ht, rfl⟩
  intents := intentsKept_setIntent hf r i
  tradeCount := rfl
  intentCount := List.length_modify ..

/-- Rows added at the end of their tables. -/
theorem rowsKept_of_prefix (hpositions : r.positions <+: r'.positions)
    (htrades : r.trades <+: r'.trades) (hintents : r.intents <+: r'.intents) :
    RowsKept r r' where
  positions := fun _ p hp => ⟨p, getElem?_prefix hpositions hp, rfl⟩
  trades := fun _ t ht => ⟨t, getElem?_prefix htrades ht, rfl⟩
  intents := fun _ x hx =>
    ⟨x, getElem?_prefix hintents hx, OrderIntent.Endures.refl x⟩

theorem RowsKept.trans {s : Rows} (h : RowsKept r s) (h' : RowsKept s r') :
    RowsKept r r' where
  positions := by
    intro i p hp
    obtain ⟨q, hq, hpq⟩ := h.positions i p hp
    obtain ⟨q', hq', hqq'⟩ := h'.positions i q hq
    exact ⟨q', hq', hqq'.trans hpq⟩
  trades := by
    intro i t ht
    obtain ⟨u, hu, htu⟩ := h.trades i t ht
    obtain ⟨u', hu', huu'⟩ := h'.trades i u hu
    exact ⟨u', hu', huu'.trans htu⟩
  intents := Session.Frame.trans h.intents h'.intents

theorem RowsStand.refl (r : Rows) : RowsStand r r :=
  rowsStand_of_origins rfl rfl rfl

instance : BlindToOrders RowsKept where
  refl := fun r => (RowsStand.refl r).toRowsKept
  trans := RowsKept.trans
  orders := fun _ _ => RowsStand.toRowsKept (rowsStand_of_origins rfl rfl rfl)
  breaks := fun _ _ => RowsStand.toRowsKept (rowsStand_of_origins rfl rfl rfl)

instance : BlindToOrders RowsStand where
  refl := RowsStand.refl
  trans := fun h h' => ⟨h.toRowsKept.trans h'.toRowsKept,
    h'.tradeCount.trans h.tradeCount, h'.intentCount.trans h.intentCount⟩
  orders := fun _ _ => rowsStand_of_origins rfl rfl rfl
  breaks := fun _ _ => rowsStand_of_origins rfl rfl rfl

/-- An intent stays of its trade. -/
theorem OrderIntent.Of.kept {x y : OrderIntent} {t u : Trade}
    {purpose : TagPurpose} (h : x.Of r t purpose) (hkept : RowsKept r r')
    (hx : x.Endures y) (ht : u.origin = t.origin) : y.Of r' u purpose := by
  obtain ⟨⟨ctx, p, hp, hday, hkey⟩, hside, hquantity⟩ := h
  obtain ⟨q, hq, hpq⟩ := hkept.positions _ p hp
  simp only [Trade.origin, Prod.mk.injEq] at ht
  obtain ⟨hof, htype, -, -, hsize⟩ := ht
  refine ⟨⟨ctx, q, hof ▸ hq, hpq.trans hday, ?_⟩, ?_, ?_⟩
  · rw [hx.idempotencyKey, hkey, htype]
  · exact hx.transactionType.trans hside
  · rw [hx.quantity, hquantity, hsize]

/-- Rows that stand stay booked. -/
theorem RowsStand.booked (h : RowsStand r r') (hr : Booked r) : Booked r' := by
  have hsame : r'.trades.map (fun t => (t.positionId, t.optionType))
      = r.trades.map fun t => (t.positionId, t.optionType) := by
    refine List.ext_getElem? fun i => ?_
    rw [List.getElem?_map, List.getElem?_map]
    cases ht : r.trades[i]? with
    | none =>
        have hlength := List.getElem?_eq_none_iff.1 ht
        rw [← h.tradeCount] at hlength
        rw [List.getElem?_eq_none hlength]
    | some t =>
        obtain ⟨u, hu, horigin⟩ := h.trades i t ht
        simp only [Trade.origin, Prod.mk.injEq] at horigin
        rw [hu, Option.map_some, Option.map_some, horigin.1, horigin.2.1]
  refine ⟨hsame ▸ hr.legs, fun y hy => ?_⟩
  obtain ⟨i, hi⟩ := List.getElem?_of_mem hy
  have hlt : i < r.intents.length :=
    h.intentCount ▸ (List.getElem?_eq_some_iff.1 hi).1
  obtain ⟨y', hy', hendures⟩ :=
    h.intents i _ (List.getElem?_eq_getElem hlt)
  rw [hi] at hy'
  cases hy'
  obtain ⟨t, purpose, ht, hof⟩ := hr.keyed _ (List.getElem_mem hlt)
  obtain ⟨u, hu, horigin⟩ := h.trades _ t ht
  exact ⟨u, purpose, hendures.tradeId ▸ hu, hof.kept h.toRowsKept hendures horigin⟩

/-- An empty database is booked. -/
theorem booked_of_empty (htrades : r.trades = []) (hintents : r.intents = []) :
    Booked r := by
  refine ⟨by rw [htrades]; exact List.nodup_nil, fun x hx => ?_⟩
  rw [hintents] at hx
  cases hx

-- ================================================== writes that stand

theorem rowsStand_setPosition {f : Position → Position}
    (hf : ∀ p : Position, (f p).origin = p.origin) (r : Rows) (i : Nat) :
    RowsStand r (r.setPosition i f) :=
  rowsStand_of_origins (map_modify_of_eq fun p _ => hf p) rfl rfl

theorem rowsStand_setTrade {f : Trade → Trade}
    (hf : ∀ t : Trade, (f t).origin = t.origin) (r : Rows) (i : Nat) :
    RowsStand r (r.setTrade i f) :=
  rowsStand_of_origins rfl (map_modify_of_eq fun t _ => hf t) rfl

theorem writesIntent_rowsStand (i : Nat) : WritesIntent RowsStand i where
  status := by
    intro s r
    refine rowsStand_setIntent (fun x => ?_) r i
    exact ⟨rfl, rfl, rfl, rfl, rfl, rfl, id⟩
  started := by
    intro r
    refine rowsStand_setIntent (fun x => ?_) r i
    exact ⟨rfl, rfl, rfl, rfl, rfl, rfl, fun _ => rfl⟩

theorem closesLeg_rowsStand (leg : ExitLegIds) : ClosesLeg RowsStand leg := by
  intro price _
  refine keeps_bind (keeps_fetch _) fun trade => ?_
  cases trade with
  | none => exact keeps_throw _
  | some trade =>
      refine keeps_bind (keeps_flush fun r => ?_) fun _ =>
        keeps_resolveIntent ((writesIntent_rowsStand _).status _)
      refine rowsStand_setTrade (fun t => ?_) r leg.tradeId
      rfl

private theorem keeps_rowsStand_transitionState (id : Nat)
    (toState : PositionState) (actor : StateTransitionActor)
    (reason : Option String) :
    Keeps RowsStand
      (PositionRepository.transitionState id toState actor reason) := by
  refine keeps_bind (keeps_fetch _) fun row => keeps_bind (keeps_orRaise _ _)
    fun position => keeps_flush fun r => ?_
  exact rowsStand_of_origins (map_modify_of_eq fun _ _ => rfl) rfl rfl

theorem allowsPosition_rowsStand (id : Nat) : AllowsPosition RowsStand id where
  inst := fun _ _ _ => rowsStand_of_origins rfl rfl rfl
  position := by
    intro r f hf
    refine rowsStand_setPosition (fun p => ?_) r id
    exact Prod.ext (hf p).strategyInstanceId (hf p).tradeDate
  transition := by
    intro toState actor reason
    refine keeps_bind (keeps_fetch _) fun row => keeps_bind (keeps_orRaise _ _)
      fun position => keeps_ite (keeps_pure _) (keeps_ite ?_ (keeps_throw _))
    exact keeps_rowsStand_transitionState _ _ _ _

-- ==================================================== the reconciliation

/-- Legs and intents are as they were. -/
def SameLegs (r r' : Rows) : Prop :=
  r'.trades = r.trades ∧ r'.intents = r.intents

instance : BlindToPushes SameLegs where
  refl := fun _ => ⟨rfl, rfl⟩
  trans := fun h h' => ⟨h'.1.trans h.1, h'.2.trans h.2⟩
  orders := fun _ _ => ⟨rfl, rfl⟩

/-- The seam computes the figures of a position from its legs, and writes
none. -/
def PositionReconciler.SparesLegs (s : PositionReconciler) : Prop :=
  ∀ id, Keeps SameLegs (s.finalizeEntry id) ∧ Keeps SameLegs (s.finalizeExit id)

namespace ReconciliationEngine

theorem allowsFills_rowsStand : AllowsFills RowsStand where
  breaks := fun _ _ => rowsStand_of_origins rfl rfl rfl
  status := fun i => (writesIntent_rowsStand i).status
  fill := by
    intro r i purpose price
    refine rowsStand_setTrade (fun t => ?_) r i
    cases purpose <;> rfl

private theorem allowsVerdict_sameLegs (id : Nat) :
    AllowsVerdict SameLegs id where
  breaks := fun _ _ => ⟨rfl, rfl⟩
  position := fun _ _ => ⟨rfl, rfl⟩
  transition := fun _ _ => ⟨rfl, rfl⟩
  inst := fun _ _ _ => ⟨rfl, rfl⟩

/-- Deciding a position inserts nothing and renames nothing. -/
theorem keeps_rowsStand_positionSession {reconciler : Option PositionReconciler}
    (hseam : ∀ s ∈ reconciler, s.Finishes ∧ s.SparesLegs) (id : Nat)
    (live : Option (List String)) (scan : List Nat) :
    Keeps RowsStand (positionSession reconciler id live scan) := by
  intro db
  refine ((positionSession_turn (fun s hs => (hseam s hs).1) db id live scan).and
    (keeps_positionSession (allowsVerdict_sameLegs id)
      (fun s hs => (hseam s hs).2 id) live scan db)).imp
    (fun _ db' h => ?_) fun _ _ => trivial
  obtain ⟨hturn, htrades, hintents⟩ := h
  refine rowsStand_of_origins ?_ (by rw [htrades]) hintents
  generalize db'.rows = r' at hturn
  cases hturn with
  | rests _ => rfl
  | moves _ _ hmoved => exact hmoved.identity

private theorem keeps_rowsStand_errorOfIntent (intent : OrderIntent)
    (reason : String) :
    Keeps RowsStand (errorPositionOfIntent intent reason) := by
  refine keeps_bind (keeps_fetch _) fun trade => ?_
  cases trade with
  | none => exact keeps_pure _
  | some trade =>
      refine keeps_bind (keeps_fetch _) fun row => ?_
      cases row with
      | none => exact keeps_pure _
      | some position =>
          refine keeps_ite (keeps_pure _) (keeps_bind (keeps_flush fun r => ?_)
            fun _ => keeps_bind (keeps_rowsStand_transitionState _ _ _ _)
              fun _ => keeps_freezing (allowsPosition_rowsStand 0).inst _)
          refine rowsStand_setPosition (fun p => ?_) r trade.positionId
          rfl

theorem keeps_rowsStand_intentSession (intentId : Nat)
    (ordersByTag : List (String × List BrokerOrder)) :
    Keeps RowsStand (intentSession intentId ordersByTag) := by
  refine keeps_bind (keeps_fetch _) fun row => ?_
  cases row with
  | none => exact keeps_pure _
  | some intent =>
      refine keeps_ite ?_ (keeps_pure _)
      rcases ordersUnder ordersByTag intent.brokerTag with _ | ⟨bo, _ | _⟩
      · exact keeps_bind (keeps_markStatus
          (allowsFills_rowsStand.status _ _)) fun _ => keeps_pure _
      · exact keeps_resolveIntentAgainstOrder allowsFills_rowsStand _ _ _
      · exact keeps_bind (keeps_recordBreak allowsFills_rowsStand.breaks) fun _ =>
          keeps_bind (keeps_rowsStand_errorOfIntent _ _) fun _ => keeps_pure _

/-- A pass inserts no position, trade or intent. -/
theorem along_rowsStand_reconcile {reconciler : Option PositionReconciler}
    (hseam : ∀ s ∈ reconciler, s.Finishes ∧ s.SparesLegs) :
    Prog.Along (Waits RowsStand) (reconcile reconciler) :=
  along_reconcile keeps_rowsStand_intentSession allowsFills_rowsStand.breaks
    (keeps_rowsStand_positionSession hseam)

end ReconciliationEngine

end AlgoPlatform
