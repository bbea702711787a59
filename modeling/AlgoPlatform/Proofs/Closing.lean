/-
A leg on its way out, under an obliging broker.

# The invariant

Between any two acts of an exit, a leg of its position is in one of three
stages (`LegStage`): no order under its exit tag has gone out, or one
has and its intent was started, or the leg is CLOSED at the price of the
one that has. `Closing` says so of every leg, and that the rows are in
order. The exit may be cut off in any of the stages, and resumes from it:
an intent that was started is looked up by its tag, which finds the order
exactly in the second stage.
-/
import AlgoPlatform.Proofs.LedgerRuns
import AlgoPlatform.Proofs.Obliging
import AlgoPlatform.Proofs.Recovery
import AlgoPlatform.Proofs.RowOrigins
import AlgoPlatform.Proofs.Unwind

open Basis Basis.Session

namespace AlgoPlatform

-- ================================================================ the leg

/-- A BUY of the whole leg. -/
def PlaceCall.Closes (c : PlaceCall) (t : Trade) : Prop :=
  c.request.transactionType = .buy ∧ c.request.quantity = t.quantity
    ∧ c.request.tradingsymbol = t.tradingSymbol
    ∧ c.request.exchange = t.exchange

/-- No order has gone out under the tag. -/
structure Broker.Unsent (b : Broker) (tag : String) : Prop where
  accepted : b.acceptedUnder tag = []
  unseen : ∀ bo ∈ b.log, bo.tag ≠ some tag

/-- One order has gone out under the tag, for the leg, and an intent of
the tag was started. -/
structure World.Sent (w : World) (id tag : String) (t : Trade) : Prop where
  call : ∃ c, w.broker.acceptedUnder tag = [c] ∧ c.Closes t
  order : ∃ bo, w.broker.current id = some bo ∧ bo.tag = some tag
    ∧ bo.quantity = t.quantity
  only : ∀ bo ∈ w.broker.log, bo.tag = some tag → bo.brokerOrderId = id
  today : id ∉ w.broker.earlier
  started : StartedUnder tag w.db.rows

/-- The leg is CLOSED at a price, as the money columns keep it, and one
order under the tag bought it back. -/
structure Broker.Bought (b : Broker) (money : ℚ → ℚ) (tag : String)
    (t : Trade) : Prop where
  status : t.status = .closed
  priced : ∃ entry paid, t.entryPrice = some entry ∧ 0 < paid
    ∧ t.exitPrice = some (money paid)
    ∧ t.realizedPnl = some (money (computeLegRealizedPnl entry paid t.quantity))
  call : ∃ c, b.acceptedUnder tag = [c] ∧ c.Closes t

/-- How far a leg is. -/
inductive LegStage (tag : String) (t : Trade) (w : World) : Prop
  | unsent (hopen : t.status ≠ .closed) (hentry : t.entryPrice ≠ none)
      (h : w.broker.Unsent tag)
  | sent (id : String) (hopen : t.status ≠ .closed)
      (hentry : t.entryPrice ≠ none) (h : w.Sent id tag t)
  | closed (h : w.broker.Bought w.db.rows.money tag t)

/-- The realized P&L of a position's legs. -/
def Rows.legsPnl (r : Rows) (k : Nat) : ℚ :=
  ((select (·.positionId = k) r.trades).map
    fun x => x.2.realizedPnl.getD 0).sum

/-- It is a sum of kept figures. -/
theorem Db.money_legsPnl (db : Db) (k : Nat) :
    db.rows.money (db.rows.legsPnl k) = db.rows.legsPnl k := by
  have hlegs : ∀ t ∈ (select (·.positionId = k) db.rows.trades).map Prod.snd,
      t ∈ db.rows.trades := by
    intro t ht
    obtain ⟨x, hx, rfl⟩ := List.mem_map.1 ht
    exact List.mem_of_getElem? (mem_select.1 hx).1
  have hsum := db.admitted.scaled.money_pnl hlegs
  rw [List.map_map] at hsum
  exact hsum

/-- Every leg of the position is CLOSED. -/
def Rows.LegsClosed (r : Rows) (k : Nat) : Prop :=
  ∀ (j : Nat) (t : Trade), r.trades[j]? = some t → t.positionId = k →
    t.status = .closed

/-- The position has one leg of a type. -/
def Rows.OneOfAType (r : Rows) (k : Nat) : Prop :=
  ∀ (i j : Nat) (t t' : Trade), r.trades[i]? = some t →
    r.trades[j]? = some t' → t.positionId = k → t'.positionId = k →
    t.optionType = t'.optionType → i = j

/-- A position the exit has yet to close, or has closed. -/
inductive Position.Exiting (p : Position) (k : Nat) (r : Rows) : Prop
  | unclosed (h : p.state = .open ∨ p.state = .exitPending)
  | closed (h : p.state = .closed) (hpnl : p.realizedPnl = some (r.legsPnl k))
      (hlegs : r.LegsClosed k)

/-- The key of a leg's exit intent. -/
def exitKey (ctx : StrategyContext) (type : OptionType) : String :=
  idempotencyKey ctx type .exit []

/-- An intent has an exit's key exactly if it has its tag: the two are
built together. -/
def ExitKeyed (ctx : StrategyContext) (r : Rows) : Prop :=
  ∀ x ∈ r.intents, ∀ type,
    x.idempotencyKey = exitKey ctx type ↔ x.brokerTag = exitTag ctx type

/-- The day's position and its legs, between any two acts of an exit. -/
structure Closing (ctx : StrategyContext) (k : Nat) (w : World) : Prop where
  filed : Filed ctx w
  keyed : ExitKeyed ctx w.db.rows
  types : w.db.rows.OneOfAType k
  legs : ∀ (j : Nat) (t : Trade), w.db.rows.trades[j]? = some t →
    t.positionId = k →
    LegStage (exitTag ctx t.optionType) t w
  position : ∃ p, w.db.rows.positions[k]? = some p ∧ OfDay ctx p
    ∧ p.Exiting k w.db.rows

variable {ctx : StrategyContext} {k : Nat} {w w' : World} {db : Db}
  {id tag : String} {t : Trade} {bo : BrokerOrder} {leg : ExitLegIds}

-- ============================================================== nothing sent

theorem Broker.Unsent.follows {b b' : Broker} (h : b.Unsent tag)
    (hb : b.Follows b') : b'.Unsent tag where
  accepted := by
    rw [hb.acceptedUnder]
    exact h.accepted
  unseen := by
    intro bo hbo htag
    rcases hb.born bo hbo with hbo | ⟨old, hold, hbecomes⟩
    · exact h.unseen bo hbo htag
    · exact h.unseen old (Broker.current_mem hold) (hbecomes.tag ▸ htag)

theorem Broker.Bought.follows {b b' : Broker} {money : ℚ → ℚ}
    (h : b.Bought money tag t) (hb : b.Follows b') : b'.Bought money tag t :=
  { h with call := by rw [hb.acceptedUnder]; exact h.call }

/-- An intent stays started. -/
theorem StartedUnder.endures {r r' : Rows} (h : StartedUnder tag r)
    (hkept : IntentsKept r r') : StartedUnder tag r' := by
  obtain ⟨i, x, hx, htag, hstarted⟩ := h
  obtain ⟨y, hy, hxy⟩ := hkept i x hx
  exact ⟨i, y, hy, hxy.brokerTag.trans htag, hxy.started hstarted⟩

theorem World.Sent.waits (h : w.Sent id tag t)
    (hw : Waits IntentsKept w w') : w'.Sent id tag t where
  call := by
    rw [hw.broker.acceptedUnder]
    exact h.call
  order := by
    obtain ⟨bo, hbo, htag, hquantity⟩ := h.order
    obtain ⟨new, hnew, hbecomes⟩ := hw.broker.current id bo hbo
    exact ⟨new, hnew, hbecomes.tag.trans htag,
      hbecomes.quantity.trans hquantity⟩
  only := by
    intro bo hbo htag
    rcases hw.broker.born bo hbo with hbo | ⟨old, hold, hbecomes⟩
    · exact h.only bo hbo htag
    · rw [hbecomes.brokerOrderId]
      exact h.only old (Broker.current_mem hold) (hbecomes.tag ▸ htag)
  today := by
    rw [hw.broker.earlier]
    exact h.today
  started := h.started.endures hw.rows

/-- Nothing of the orderbook has the tag. -/
theorem Broker.Unsent.findOrderByTag {b : Broker} (h : b.Unsent tag)
    (pick : Nat) : b.findOrderByTag tag pick none = .ok none := by
  have hnone : b.orderbook.filter (·.tag = some tag) = [] := by
    refine List.filter_eq_nil_iff.2 fun bo hbo htag => ?_
    obtain ⟨id, -, hcur⟩ := List.mem_filterMap.1 hbo
    exact h.unseen bo (Broker.current_mem hcur) (of_decide_eq_true htag)
  unfold Broker.findOrderByTag
  dsimp only
  rw [hnone]
  rfl

/-- One order of the orderbook has it. -/
theorem World.Sent.findOrderByTag (h : w.Sent id tag t) {pick : Nat}
    {found : Option BrokerOrder}
    (hfound : w.broker.findOrderByTag tag pick none = .ok found) :
    ∃ bo, w.broker.current id = some bo ∧ found = some bo := by
  obtain ⟨bo, hbo, htag, -⟩ := h.order
  have hbook : bo ∈ w.broker.orderbook.filter (·.tag = some tag) := by
    refine List.mem_filter.2 ⟨List.mem_filterMap.2 ⟨id, ?_, hbo⟩,
      decide_eq_true htag⟩
    refine List.mem_filter.2 ⟨List.mem_dedup.2 ?_, decide_eq_true h.today⟩
    rw [← Broker.current_id hbo]
    exact List.mem_map_of_mem (Broker.current_mem hbo)
  unfold Broker.findOrderByTag at hfound
  dsimp only at hfound
  obtain ⟨x, hx⟩ : ∃ x, (w.broker.orderbook.filter (·.tag = some tag))[pick
      % (w.broker.orderbook.filter (·.tag = some tag)).length]? = some x :=
    ⟨_, List.getElem?_eq_getElem
      (Nat.mod_lt _ (List.length_pos_of_mem hbook))⟩
  rw [hx] at hfound
  cases hfound
  -- whichever it is, it is the one order that has the tag
  obtain ⟨hmem, hxtag⟩ := List.mem_filter.1 (List.mem_of_getElem? hx)
  obtain ⟨id', -, hcur⟩ := List.mem_filterMap.1 hmem
  have hid := h.only x (Broker.current_mem hcur) (of_decide_eq_true hxtag)
  rw [Broker.current_id hcur] at hid
  subst hid
  exact ⟨x, hcur, rfl⟩

/-- Where nothing is placed, a leg whose row is left alone stays where
it is. -/
theorem LegStage.waits (h : LegStage tag t w) (hw : Waits IntentsKept w w')
    (hcolumns : w'.db.rows.columns = w.db.rows.columns) :
    LegStage tag t w' := by
  cases h with
  | unsent hopen hentry h => exact .unsent hopen hentry (h.follows hw.broker)
  | sent id hopen hentry h => exact .sent id hopen hentry (h.waits hw)
  | closed h =>
      refine .closed ?_
      unfold Rows.money
      rw [hcolumns]
      exact h.follows hw.broker

/-- A leg under whose tag nothing went out is still open. -/
theorem LegStage.of_unsent (h : LegStage tag t w)
    (hunsent : w.broker.Unsent tag) :
    t.status ≠ .closed ∧ t.entryPrice ≠ none := by
  have hnone : ∀ {c}, w.broker.acceptedUnder tag ≠ [c] := by
    intro c hcall
    rw [hunsent.accepted] at hcall
    cases hcall
  cases h with
  | unsent hopen hentry _ => exact ⟨hopen, hentry⟩
  | sent id hopen hentry _ => exact ⟨hopen, hentry⟩
  | closed h =>
      obtain ⟨c, hcall, -⟩ := h.call
      exact absurd hcall hnone

/-- What leaves trades and positions alone leaves the position where it
is. -/
theorem Position.Exiting.congr {p : Position} {r r' : Rows}
    (h : p.Exiting k r) (htrades : r'.trades = r.trades) :
    p.Exiting k r' := by
  cases h with
  | unclosed h => exact .unclosed h
  | closed h hpnl hlegs =>
      refine .closed h ?_ ?_
      · unfold Rows.legsPnl at hpnl ⊢
        rw [htrades]
        exact hpnl
      · unfold Rows.LegsClosed at hlegs ⊢
        rw [htrades]
        exact hlegs

/-- An act that places nothing and writes neither trades nor
positions. -/
theorem Closing.waits (h : Closing ctx k w) (hw : Waits IntentsKept w w')
    (hstanding : Standing w.db.rows w'.db.rows) (hfiled : Filed ctx w') :
    Closing ctx k w' where
  filed := hfiled
  keyed := by
    intro x hx type
    have hmem : (x.idempotencyKey, x.brokerTag)
        ∈ w'.db.rows.intents.map fun x => (x.idempotencyKey, x.brokerTag) :=
      List.mem_map_of_mem hx
    rw [hstanding.named] at hmem
    obtain ⟨y, hy, hsame⟩ := List.mem_map.1 hmem
    obtain ⟨hkey, htag⟩ := Prod.mk.inj hsame
    rw [← hkey, ← htag]
    exact h.keyed y hy type
  types := by
    unfold Rows.OneOfAType
    rw [hstanding.trades]
    exact h.types
  legs := by
    rw [hstanding.trades]
    exact fun j t ht hof => (h.legs j t ht hof).waits hw hstanding.columns
  position := by
    obtain ⟨p, hp, hday, hexiting⟩ := h.position
    refine ⟨p, ?_, hday, hexiting.congr hstanding.trades⟩
    rw [hstanding.positions]
    exact hp

/-- The push stream, a read, or the reconciling commit, seen from the
rows. -/
theorem Passes.standing (hp : Passes ctx w w') :
    Standing w.db.rows w'.db.rows := by
  obtain ⟨os, hrows⟩ := hp.waits.rows
  rw [hrows]
  exact ⟨rfl, rfl, rfl, rfl, rfl⟩

theorem Passes.kept (hp : Passes ctx w w') : Waits IntentsKept w w' := by
  obtain ⟨os, hrows⟩ := hp.waits.rows
  refine ⟨intentsKept_of_eq ?_, hp.waits.broker, hp.waits.deferred⟩
  rw [hrows]

theorem Closing.passes (h : Closing ctx k w) (hp : Passes ctx w w') :
    Closing ctx k w' :=
  h.waits hp.kept hp.standing hp.filed

-- ============================================================== under way

/-- Trades and intents only move on: a leg keeps what it is, and a CLOSED
one stays as it is. The columns are the schema's. -/
structure Proceeds (r r' : Rows) : Prop where
  trades : ∀ (j : Nat) (t : Trade), r.trades[j]? = some t →
    ∃ t', r'.trades[j]? = some t' ∧ t'.origin = t.origin
      ∧ (t.status = .closed → t' = t)
  length : r'.trades.length = r.trades.length
  intents : IntentsKept r r'
  columns : r'.columns = r.columns

instance : Session.Frame Proceeds where
  refl := fun r => ⟨fun _ t ht => ⟨t, ht, rfl, fun _ => rfl⟩, rfl,
    Session.Frame.refl r, rfl⟩
  trans := by
    intro r r' r'' h h'
    refine ⟨fun j t ht => ?_, h'.length.trans h.length,
      Session.Frame.trans h.intents h'.intents,
      h'.columns.trans h.columns⟩
    obtain ⟨t', ht', horigin, hclosed⟩ := h.trades j t ht
    obtain ⟨u, hu, horigin', hclosed'⟩ := h'.trades j t' ht'
    refine ⟨u, hu, horigin'.trans horigin, fun hstatus => ?_⟩
    obtain rfl := hclosed hstatus
    exact hclosed' hstatus

/-- The exit is under way: the position is EXIT_PENDING. -/
structure Underway (ctx : StrategyContext) (k : Nat) (w : World) : Prop
    extends Closing ctx k w where
  pending : ∃ p, w.db.rows.positions[k]? = some p ∧ OfDay ctx p
    ∧ p.state = .exitPending

/-- It stays under way, and proceeds. -/
structure Carries (ctx : StrategyContext) (k : Nat) (w w' : World) :
    Prop where
  underway : Underway ctx k w → Underway ctx k w'
  rows : Proceeds w.db.rows w'.db.rows

instance : Prog.Frame (Carries ctx k) where
  refl := fun _ => ⟨fun h => h, Session.Frame.refl _⟩
  trans := fun h h' => ⟨h'.underway ∘ h.underway,
    Session.Frame.trans h.rows h'.rows⟩

/-- A leg of the exit's record is its trade's, and its intent has its
tag. -/
structure ExitLegIds.Of (leg : ExitLegIds) (ctx : StrategyContext) (k : Nat)
    (r : Rows) : Prop where
  trade : ∃ t, r.trades[leg.tradeId]? = some t
    ∧ t.origin = (k, leg.optionType, leg.tradingsymbol, leg.exchange,
      leg.quantity)
  intent : ∃ x, r.intents[leg.intentId]? = some x
    ∧ x.brokerTag = exitTag ctx leg.optionType

/-- The columns of a leg's trade. -/
theorem ExitLegIds.Of.columns {r : Rows} (h : leg.Of ctx k r)
    (ht : r.trades[leg.tradeId]? = some t) :
    t.positionId = k ∧ t.optionType = leg.optionType
      ∧ t.tradingSymbol = leg.tradingsymbol ∧ t.exchange = leg.exchange
      ∧ t.quantity = leg.quantity := by
  obtain ⟨u, hu, horigin⟩ := h.trade
  rw [ht] at hu
  cases hu
  unfold Trade.origin at horigin
  simpa only [Prod.mk.injEq] using horigin

/-- A leg has something to close. -/
theorem ExitLegIds.Of.quantity_pos (h : leg.Of ctx k db.rows) :
    0 < leg.quantity := by
  obtain ⟨t, ht, -⟩ := h.trade
  obtain ⟨-, -, -, -, hquantity⟩ := h.columns ht
  rw [← hquantity]
  exact (db.admitted.checked.trades t (List.mem_of_getElem? ht)).1

/-- How far a leg of the record is. -/
theorem ExitLegIds.Of.stage (h : leg.Of ctx k w.db.rows)
    (hclosing : Closing ctx k w) (ht : w.db.rows.trades[leg.tradeId]? = some t) :
    LegStage (exitTag ctx leg.optionType) t w := by
  obtain ⟨hof, htype, -⟩ := h.columns ht
  rw [← htype]
  exact hclosing.legs _ t ht hof

theorem ExitLegIds.Of.proceeds {r r' : Rows} (h : leg.Of ctx k r)
    (hr : Proceeds r r') : leg.Of ctx k r' where
  trade := by
    obtain ⟨t, ht, horigin⟩ := h.trade
    obtain ⟨t', ht', hsame, -⟩ := hr.trades _ t ht
    exact ⟨t', ht', hsame.trans horigin⟩
  intent := by
    obtain ⟨x, hx, htag⟩ := h.intent
    obtain ⟨y, hy, hxy⟩ := hr.intents _ x hx
    exact ⟨y, hy, hxy.brokerTag.trans htag⟩

/-- An act that places nothing and writes neither trades nor positions
carries on. -/
theorem Carries.waits (hw : Waits IntentsKept w w')
    (hstanding : Standing w.db.rows w'.db.rows)
    (hfiled : Filed ctx w → Filed ctx w') : Carries ctx k w w' where
  underway := by
    intro h
    refine ⟨h.toClosing.waits hw hstanding (hfiled h.filed), ?_⟩
    rw [hstanding.positions]
    exact h.pending
  rows := by
    refine ⟨fun j t ht => ⟨t, ?_, rfl, fun _ => rfl⟩, ?_, hw.rows,
      hstanding.columns⟩
    · rw [hstanding.trades]
      exact ht
    · rw [hstanding.trades]

theorem Passes.carries (hp : Passes ctx w w') : Carries ctx k w w' :=
  .waits hp.kept hp.standing fun _ => hp.filed

-- ============================================================ placements

/-- What a placement leaves alone of a tag that is not its own. -/
structure Broker.Spares (tag : String) (b b' : Broker) : Prop where
  acceptedUnder : b'.acceptedUnder tag = b.acceptedUnder tag
  earlier : b'.earlier = b.earlier
  log : ∀ bo ∈ b'.log, bo.tag = some tag → bo ∈ b.log
  current : ∀ id bo, b.current id = some bo → b'.current id = some bo

/-- A leg another leg is placed beside stays where it is. -/
theorem LegStage.spares {b : Broker} (h : LegStage tag t w)
    (hb : w.broker.Spares tag b) : LegStage tag t { w with broker := b } := by
  cases h with
  | unsent hopen hentry h =>
      refine .unsent hopen hentry ⟨hb.acceptedUnder.trans h.accepted, ?_⟩
      exact fun bo hbo htag => h.unseen bo (hb.log bo hbo htag) htag
  | sent id hopen hentry h =>
      obtain ⟨bo, hbo, hordered⟩ := h.order
      refine .sent id hopen hentry ⟨?_, ⟨bo, hb.current id bo hbo, hordered⟩,
        fun bo hbo htag => h.only bo (hb.log bo hbo htag) htag, ?_, h.started⟩
      · rw [hb.acceptedUnder]
        exact h.call
      · rw [hb.earlier]
        exact h.today
  | closed h =>
      refine .closed { h with call := ?_ }
      rw [hb.acceptedUnder]
      exact h.call

variable {request : PlaceOrderRequest}

theorem Broker.spares_refuse (b : Broker) (request : PlaceOrderRequest)
    (e : BrokerError) (tag : String) :
    b.Spares tag { b with calls := b.calls ++ [⟨request, none, some e⟩] } where
  acceptedUnder := b.acceptedUnder_refuse request e tag
  earlier := rfl
  log := fun _ hbo _ => hbo
  current := fun _ _ hbo => hbo

theorem Broker.spares_accept {b : Broker} (hfresh : b.IsFresh id)
    (htag : request.tag ≠ tag) :
    b.Spares tag (b.accept request id none) where
  acceptedUnder := by
    rw [b.acceptedUnder_accept, if_neg htag, List.append_nil]
  earlier := rfl
  log := by
    intro bo hbo hbotag
    rcases List.mem_cons.1 hbo with rfl | hold
    · exact absurd (Option.some_inj.1 hbotag) htag
    · exact hold
  current := by
    intro id' bo hbo
    rw [b.current_accept, if_neg fun h => ?_]
    · exact hbo
    · rw [← h, hfresh.current] at hbo
      cases hbo

/-- The rows of an accepted order: there are none yet. -/
theorem Filed.accept (h : Filed ctx w) (hfresh : w.broker.IsFresh id)
    (hunused : ∀ o ∈ w.db.rows.orders, o.brokerOrderId ≠ some id)
    (request : PlaceOrderRequest) :
    Filed ctx { w with broker := w.broker.accept request id none } where
  rows := by
    intro o ho
    refine ⟨(h.rows o ho).bound, fun id' cur hid hcur => ?_⟩
    rw [w.broker.current_accept, if_neg fun hsame => ?_] at hcur
    · exact (h.rows o ho).quantity id' cur hid hcur
    · exact hunused o ho (hsame ▸ hid)
  tags := by
    intro bo hbo cur hcur htag
    rw [w.broker.current_accept] at hcur
    rcases List.mem_cons.1 hbo with rfl | hold
    · rw [if_pos (show id = (request.accepted id).brokerOrderId from rfl)]
        at hcur
      cases hcur
      rfl
    · rw [if_neg fun hsame => hfresh.2.2 bo hold hsame.symm] at hcur
      exact h.tags bo hold cur hcur htag

/-- The one order under a tag. -/
theorem Broker.Unsent.accept (h : w.broker.Unsent tag)
    (hfresh : w.broker.IsFresh id) (htag : request.tag = tag)
    (hcloses : PlaceCall.Closes ⟨request, some id, none⟩ t)
    (hstarted : StartedUnder tag w.db.rows) :
    World.Sent { w with broker := w.broker.accept request id none } id tag
      t where
  call := by
    refine ⟨⟨request, some id, none⟩, ?_, hcloses⟩
    rw [w.broker.acceptedUnder_accept, if_pos htag, h.accepted, List.nil_append]
  order := by
    refine ⟨request.accepted id, ?_, congrArg some htag, hcloses.2.1⟩
    rw [w.broker.current_accept, if_pos rfl]
  only := by
    intro bo hbo hbotag
    rcases List.mem_cons.1 hbo with rfl | hold
    · rfl
    · exact absurd hbotag (h.unseen bo hold)
  today := hfresh.2.1
  started := hstarted

/-- A placement that was turned away. -/
theorem Carries.refused (request : PlaceOrderRequest) (e : BrokerError) :
    Carries ctx k w { w with broker := { w.broker with
      calls := w.broker.calls ++ [⟨request, none, some e⟩] } } where
  underway := by
    intro h
    refine ⟨{ h.toClosing with
      filed := ⟨fun o ho => ⟨(h.filed.rows o ho).bound,
        (h.filed.rows o ho).quantity⟩, h.filed.tags⟩
      legs := fun j t ht hof => ?_ }, h.pending⟩
    exact (h.legs j t ht hof).spares (w.broker.spares_refuse request e _)
  rows := Session.Frame.refl _

/-- The placement of a leg that was accepted. -/
theorem Carries.accepted (hleg : leg.Of ctx k w.db.rows)
    (hunsent : w.broker.Unsent (exitTag ctx leg.optionType))
    (hstarted : StartedUnder (exitTag ctx leg.optionType) w.db.rows)
    (hfresh : w.broker.IsFresh id)
    (hunused : ∀ o ∈ w.db.rows.orders, o.brokerOrderId ≠ some id)
    (htag : request.tag = exitTag ctx leg.optionType)
    (hcloses : ∀ t, w.db.rows.trades[leg.tradeId]? = some t →
      PlaceCall.Closes ⟨request, some id, none⟩ t) :
    Carries ctx k w
      { w with broker := w.broker.accept request id none } where
  underway := by
    intro h
    refine ⟨{ h.toClosing with
      filed := h.filed.accept hfresh hunused request
      legs := fun j t ht hof => ?_ }, h.pending⟩
    obtain ⟨own, hown, -⟩ := hleg.trade
    obtain ⟨hownof, howntype, -⟩ := hleg.columns hown
    by_cases htype : t.optionType = leg.optionType
    · -- the leg itself
      have hj : j = leg.tradeId := h.types j leg.tradeId t own ht hown hof
        hownof (htype.trans howntype.symm)
      subst hj
      obtain ⟨hopen, hentry⟩ := (hleg.stage h.toClosing ht).of_unsent hunsent
      rw [htype]
      exact .sent id hopen hentry
        (hunsent.accept hfresh htag (hcloses t ht) hstarted)
    · refine (h.legs j t ht hof).spares (Broker.spares_accept hfresh ?_)
      rw [htag]
      exact fun hsame => htype (exitTag_inj hsame).symm
  rows := Session.Frame.refl _

-- ============================================================== bought back

/-- The rows of a leg that is bought back. -/
def Rows.closeLeg (r : Rows) (leg : ExitLegIds) (price : ℚ)
    (pnl : Option ℚ) : Rows :=
  (r.setTrade leg.tradeId (·.close price pnl)).setIntent leg.intentId
    fun x => { x with status := .confirmed }

/-- The trades of the new rows, from those of the old ones. -/
private theorem closeLeg_trades {r : Rows} {price : ℚ} {pnl : Option ℚ}
    {j : Nat} {u : Trade}
    (hu : (r.closeLeg leg price pnl).trades[j]? = some u) :
    ∃ t, r.trades[j]? = some t
      ∧ u = if leg.tradeId = j then t.close price pnl else t := by
  unfold Rows.closeLeg at hu
  rw [Rows.setIntent_trades, Rows.setTrade_trades, List.getElem?_modify] at hu
  obtain ⟨t, ht, rfl⟩ := Option.map_eq_some_iff.1 hu
  exact ⟨t, ht, rfl⟩

private theorem proceeds_closeLeg {r : Rows} {price : ℚ} {pnl : Option ℚ}
    (ht : r.trades[leg.tradeId]? = some t) (hopen : t.status ≠ .closed) :
    Proceeds r (r.closeLeg leg price pnl) where
  trades := by
    intro j u hu
    unfold Rows.closeLeg
    rw [Rows.setIntent_trades, Rows.setTrade_trades, List.getElem?_modify, hu]
    refine ⟨_, rfl, ?_, fun hclosed => ?_⟩
    · split_ifs
      · rfl
      · rfl
    · dsimp only
      rw [if_neg fun hj => ?_]
      · subst hj
        rw [ht] at hu
        cases hu
        exact hopen hclosed
  length := List.length_modify ..
  intents := (writesIntent_intentsKept leg.intentId).status .confirmed
    (r.setTrade leg.tradeId _)
  columns := rfl

/-- The commit that closes a leg whose order has gone out. -/
theorem Carries.bought {entry paid : ℚ}
    (ht : w.db.rows.trades[leg.tradeId]? = some t)
    (hopen : t.status ≠ .closed) (hentry : t.entryPrice = some entry)
    (hpaid : 0 < paid)
    (hcall : ∃ c, w.broker.acceptedUnder (exitTag ctx t.optionType) = [c]
      ∧ c.Closes t)
    (hdb : db.rows = w.db.rows.closeLeg leg (w.db.rows.money paid)
      (some (w.db.rows.money (computeLegRealizedPnl entry paid t.quantity)))) :
    Carries ctx k w { w with db } := by
  have hproceeds : Proceeds w.db.rows db.rows := by
    rw [hdb]
    exact proceeds_closeLeg ht hopen
  refine ⟨fun h => ?_, hproceeds⟩
  have hmoney : db.rows.money = w.db.rows.money :=
    congrArg MoneyColumns.keep hproceeds.columns
  have hwaits : Waits IntentsKept w { w with db } :=
    Waits.commit hproceeds.intents
  obtain ⟨p, hp, hday, hpending⟩ := h.pending
  have hp' : db.rows.positions[k]? = some p := by
    rw [hdb]
    exact hp
  refine ⟨⟨⟨?_, h.filed.tags⟩, ?_, ?_, fun j u hu hof => ?_,
    p, hp', hday, .unclosed (.inr hpending)⟩, p, hp', hday, hpending⟩
  · show ∀ o ∈ db.rows.orders, o.Fits ctx w.broker
    rw [hdb]
    exact h.filed.rows
  · unfold ExitKeyed
    dsimp only
    rw [hdb]
    exact forall_modify h.keyed fun x hx =>
      h.keyed x (List.mem_of_getElem? hx)
  · intro i j u u' hu hu' hof hof' htypes
    dsimp only at hu hu'
    rw [hdb] at hu hu'
    obtain ⟨old, hold, rfl⟩ := closeLeg_trades hu
    obtain ⟨old', hold', rfl⟩ := closeLeg_trades hu'
    refine h.types i j old old' hold hold' ?_ ?_ ?_
    · split_ifs at hof <;> exact hof
    · split_ifs at hof' <;> exact hof'
    · split_ifs at htypes <;> exact htypes
  · dsimp only at hu
    rw [hdb] at hu
    obtain ⟨old, hold, rfl⟩ := closeLeg_trades hu
    by_cases hj : leg.tradeId = j
    · subst hj
      rw [ht] at hold
      cases hold
      rw [if_pos rfl]
      refine .closed ⟨rfl, ⟨entry, paid, hentry, hpaid, ?_, ?_⟩, hcall⟩
      · dsimp only
        rw [hmoney]
        rfl
      · dsimp only
        rw [hmoney]
        rfl
    · rw [if_neg hj] at hof ⊢
      exact (h.legs j old hold hof).waits hwaits hproceeds.columns

end AlgoPlatform
