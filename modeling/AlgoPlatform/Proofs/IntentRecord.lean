/-
The sessions that write intents down.

# The rows

An order is made of a leg's terms (`LegTerms`): the durable record of an
entry, the exit record and the unwind each get or create an intent for
them (`Intended`), and the commit before the broker call marks it started
(`Started`). Nothing that deletes or renames no row takes either away.

# The sessions

Each of the three sessions keeps the rows booked (`Enters`) and returns
legs whose intents are the legs' own: an intent found under a leg's key
is of the leg's trade, since the key names the instance, the day and the
type.
-/
import AlgoPlatform.Proofs.Commits
import AlgoPlatform.Proofs.Recovery
import AlgoPlatform.Proofs.RowOrigins

open Basis Basis.Session

namespace AlgoPlatform

-- ================================================================ a leg

/-- What an order for a leg is made of. -/
structure LegTerms where
  tradeId : Nat
  optionType : OptionType
  quantity : Nat
  tradingsymbol : String
  exchange : Exchange

def LegIds.terms (leg : LegIds) (quantity : Nat) : LegTerms :=
  ⟨leg.tradeId, leg.optionType, quantity, leg.tradingsymbol,
    leg.contract.exchange⟩

def ExitLegIds.terms (leg : ExitLegIds) : LegTerms :=
  ⟨leg.tradeId, leg.optionType, leg.quantity, leg.tradingsymbol, leg.exchange⟩

namespace LegTerms

/-- The leg's trade is there, of the context's instance and day. -/
structure Recorded (terms : LegTerms) (ctx : StrategyContext) (r : Rows) :
    Prop where
  trade : ∃ t p, r.trades[terms.tradeId]? = some t
    ∧ t.optionType = terms.optionType ∧ t.quantity = terms.quantity
    ∧ t.tradingSymbol = terms.tradingsymbol ∧ t.exchange = terms.exchange
    ∧ r.positions[t.positionId]? = some p
    ∧ p.origin = (ctx.instanceId, ctx.today)

/-- An intent to trade the whole leg is there. -/
def Intended (terms : LegTerms) (side : TransactionType) (intentId : Nat)
    (r : Rows) : Prop :=
  ∃ x : OrderIntent, r.intents[intentId]? = some x ∧ x.tradeId = terms.tradeId
    ∧ x.transactionType = side ∧ x.quantity = terms.quantity

variable {terms : LegTerms} {ctx : StrategyContext} {r r' : Rows}
  {side : TransactionType} {intentId : Nat}

theorem Recorded.kept (h : terms.Recorded ctx r) (hkept : RowsKept r r') :
    terms.Recorded ctx r' := by
  obtain ⟨t, p, ht, htype, hquantity, hsymbol, hexchange, hp, hday⟩ := h.trade
  obtain ⟨u, hu, horigin⟩ := hkept.trades _ t ht
  obtain ⟨q, hq, hpq⟩ := hkept.positions _ p hp
  simp only [Trade.origin, Prod.mk.injEq] at horigin
  obtain ⟨hof, htype', hsymbol', hexchange', hquantity'⟩ := horigin
  exact ⟨u, q, hu, htype'.trans htype, hquantity'.trans hquantity,
    hsymbol'.trans hsymbol, hexchange'.trans hexchange, hof ▸ hq,
    hpq.trans hday⟩

theorem Intended.kept (h : terms.Intended side intentId r)
    (hkept : RowsKept r r') : terms.Intended side intentId r' := by
  obtain ⟨x, hx, htrade, hside, hquantity⟩ := h
  obtain ⟨y, hy, hendures⟩ := hkept.intents _ x hx
  exact ⟨y, hy, hendures.tradeId.trans htrade,
    hendures.transactionType.trans hside, hendures.quantity.trans hquantity⟩

end LegTerms

-- ============================================================ the intent

variable {ctx : StrategyContext}

/-- The trade of a key is the leg's own. -/
private theorem Booked.own_trade {db : Db} (h : Booked db.rows)
    {terms : LegTerms} (hterms : terms.Recorded ctx db.rows)
    {purpose : TagPurpose} {x : OrderIntent} (hx : x ∈ db.rows.intents)
    (hkey : x.idempotencyKey = purpose.key ctx terms.optionType) :
    x.tradeId = terms.tradeId ∧ x.transactionType = purpose.side
      ∧ x.quantity = terms.quantity := by
  obtain ⟨t, p, ht, htype, hquantity, -, -, hp, hday⟩ := hterms.trade
  obtain ⟨u, purpose', hu, ⟨ctx', q, hq, hday', hkey'⟩, hside, hsize⟩ :=
    h.keyed x hx
  obtain ⟨hid, htoday, htype', rfl⟩ :=
    TagPurpose.key_inj (hkey'.symm.trans hkey)
  -- one position of an instance and day, one trade of a position and type
  have hposition : u.positionId = t.positionId := by
    refine key_inj db.admitted.unique.instanceTradeDate hq hp ?_
    show q.origin = p.origin
    rw [hday', hday, hid, htoday]
  have htrade : x.tradeId = terms.tradeId := by
    refine key_inj h.legs hu ht ?_
    rw [hposition, htype', htype]
  refine ⟨htrade, hside, ?_⟩
  rw [htrade, ht] at hu
  cases hu
  exact hsize.trans hquantity

/-- Get-or-create of a leg's intent gives one that is the leg's. -/
private theorem getOrCreateIntent_enters {db : Db} (h : Booked db.rows)
    {terms : LegTerms} (hterms : terms.Recorded ctx db.rows)
    (orderPurpose : OrderPurpose) (purpose : TagPurpose) (tag : String) :
    Meets (OrderIntentRepository.getOrCreate terms.tradeId orderPurpose
        purpose.side terms.quantity (purpose.key ctx terms.optionType) tag) db
      (fun row db' => Booked db'.rows ∧ RowsKept db.rows db'.rows
        ∧ db'.rows.trades = db.rows.trades
        ∧ db'.rows.positions = db.rows.positions
        ∧ db'.rows.intents[row.1.1]? = some row.1.2
        ∧ terms.Intended purpose.side row.1.1 db'.rows) fun _ => True := by
  refine getOrCreate_meets ?_ fun _ => ?_
  · refine (getByIdempotencyKey_goes db _).imp (fun row db' hrow => ?_)
      fun _ hno => hno.elim
    obtain ⟨rfl, ⟨rfl, -⟩ | ⟨i, x, rfl, hi, hkey⟩⟩ := hrow
    · exact ⟨rfl, fun _ hnone => nomatch hnone⟩
    · refine ⟨rfl, fun y hy => ?_⟩
      cases hy
      obtain ⟨htrade, hside, hquantity⟩ :=
        h.own_trade hterms (List.mem_of_getElem? hi) hkey
      exact ⟨h, Session.Frame.refl _, rfl, rfl, hi, x, hi, htrade, hside,
        hquantity⟩
  · unfold OrderIntentRepository.insert
    rw [meets_bind, meets_fetch, meets_bind, meets_flush]
    refine ⟨fun _ => ?_, fun _ => trivial⟩
    rw [meets_pure]
    have hkept : RowsKept db.rows { db.rows with
        intents := db.rows.intents ++ [{
          tradeId := terms.tradeId, purpose := orderPurpose,
          transactionType := purpose.side, quantity := terms.quantity,
          idempotencyKey := purpose.key ctx terms.optionType,
          brokerTag := tag }] } :=
      rowsKept_of_prefix (List.prefix_refl _) (List.prefix_refl _)
        (List.prefix_append _ _)
    refine ⟨⟨h.legs, fun x hx => ?_⟩, hkept, rfl, rfl,
      List.getElem?_concat_length, _, List.getElem?_concat_length, rfl, rfl, rfl⟩
    rcases List.mem_append.1 hx with hx | hx
    · obtain ⟨t, purpose', ht, hof⟩ := h.keyed x hx
      exact ⟨t, purpose', ht,
        hof.kept hkept (OrderIntent.Endures.refl x) rfl⟩
    · rw [List.mem_singleton.1 hx]
      obtain ⟨t, p, ht, htype, hquantity, -, -, hp, hday⟩ := hterms.trade
      exact ⟨t, purpose, ht, ⟨ctx, p, hp, hday, by rw [htype]⟩, rfl,
        hquantity.symm⟩

-- =========================================================== the sessions

/-- What a session that inserts leaves of the rows. -/
structure Enters (r r' : Rows) : Prop where
  booked : Booked r'
  kept : RowsKept r r'

private theorem Enters.trans {r s t : Rows} (h : Enters r s)
    (h' : Enters s t) : Enters r t :=
  ⟨h'.booked, h.kept.trans h'.kept⟩

/-- A trade of a type its position has not got. -/
private theorem enters_addTrade {r : Rows} (h : Booked r) (t : Trade)
    (hnew : ∀ u ∈ r.trades,
      ¬ (u.positionId = t.positionId ∧ u.optionType = t.optionType)) :
    Enters r { r with trades := r.trades ++ [t] } := by
  have hkept : RowsKept r { r with trades := r.trades ++ [t] } :=
    rowsKept_of_prefix (List.prefix_refl _) (List.prefix_append _ _)
      (List.prefix_refl _)
  refine ⟨⟨?_, fun x hx => ?_⟩, hkept⟩
  · rw [List.map_append, List.map_singleton, List.nodup_append]
    refine ⟨h.legs, List.nodup_singleton _, fun a ha b hb hab => ?_⟩
    obtain ⟨u, hu, rfl⟩ := List.mem_map.1 ha
    rw [List.mem_singleton.1 hb] at hab
    exact hnew u hu ⟨congrArg Prod.fst hab, congrArg Prod.snd hab⟩
  · obtain ⟨u, purpose, hu, hof⟩ := h.keyed x hx
    obtain ⟨u', hu', horigin⟩ := hkept.trades _ u hu
    exact ⟨u', purpose, hu',
      hof.kept hkept (OrderIntent.Endures.refl x) horigin⟩

/-- The leg's intent is there, started, under this tag. -/
def LegTerms.Started (terms : LegTerms) (side : TransactionType)
    (tag : String) (r : Rows) : Prop :=
  ∃ (i : Nat) (x : OrderIntent), r.intents[i]? = some x ∧ x.brokerTag = tag
    ∧ x.brokerCallStarted = true ∧ x.tradeId = terms.tradeId
    ∧ x.transactionType = side ∧ x.quantity = terms.quantity

/-- Marking a leg's intent started makes the leg placeable under the
intent's own tag. -/
theorem markStarted_enters {db : Db} (h : Booked db.rows)
    {terms : LegTerms} {side : TransactionType} {intentId : Nat}
    {x : OrderIntent} (hx : db.rows.intents[intentId]? = some x)
    (hterms : x.tradeId = terms.tradeId ∧ x.transactionType = side
      ∧ x.quantity = terms.quantity) :
    Meets (OrderIntentRepository.markBrokerCallStarted intentId) db
      (fun _ db' => Enters db.rows db'.rows
        ∧ terms.Started side x.brokerTag db'.rows) fun _ => True := by
  obtain ⟨htrade, hside, hquantity⟩ := hterms
  unfold OrderIntentRepository.markBrokerCallStarted
  rw [meets_flush]
  refine ⟨fun _ => ?_, fun _ => trivial⟩
  have hstands := (writesIntent_rowsStand intentId).started db.rows
  refine ⟨⟨hstands.booked h, hstands.toRowsKept⟩, intentId,
    { x with brokerCallStarted := true, status := .submittedUnconfirmed }, ?_,
    rfl, rfl, htrade, hside, hquantity⟩
  dsimp only
  rw [Rows.setIntent_intents, List.getElem?_modify_eq, hx]
  rfl

namespace EntryLogic

/-- One leg of the durable record, of a position that has none of its
type. -/
private theorem createLeg_enters {db : Db} (h : Booked db.rows) {p : Position}
    {positionId : Nat} (hp : db.rows.positions[positionId]? = some p)
    (hday : p.origin = (ctx.instanceId, ctx.today)) (quantity : Nat)
    (strike : ℚ) (contract : BrokerInstrument)
    (hnew : ∀ t ∈ db.rows.trades,
      ¬ (t.positionId = positionId ∧ t.optionType = contract.optionType)) :
    Meets (createLeg ctx positionId quantity strike contract) db
      (fun leg db' => Enters db.rows db'.rows
        ∧ db'.rows.positions = db.rows.positions
        ∧ (∃ t, db'.rows.trades = db.rows.trades ++ [t]
          ∧ t.optionType = contract.optionType)
        ∧ (leg.terms quantity).Recorded ctx db'.rows
        ∧ (leg.terms quantity).Intended .sell leg.intentId db'.rows)
      fun _ => True := by
  unfold createLeg PositionRepository.addTrade
  rw [meets_bind, meets_bind, meets_fetch, meets_bind, meets_flush]
  refine ⟨fun hadm => ?_, fun _ => trivial⟩
  rw [meets_pure, meets_bind, meets_lift]
  refine ⟨fun tag _ => ?_, fun _ _ => trivial⟩
  have hentered : Enters db.rows (⟨_, hadm⟩ : Db).rows :=
    enters_addTrade h _ hnew
  have hrecorded : (LegTerms.mk db.rows.trades.length contract.optionType
      quantity contract.tradingsymbol contract.exchange).Recorded ctx
      (⟨_, hadm⟩ : Db).rows :=
    ⟨_, p, List.getElem?_concat_length, rfl, rfl, rfl, rfl, hp, hday⟩
  rw [meets_bind]
  refine (getOrCreateIntent_enters hentered.booked hrecorded .entry .entry
    tag).imp (fun row db' hrow => ?_) fun _ h => h
  obtain ⟨hbooked, hkept, htrades, hpositions, -, hintended⟩ := hrow
  exact ⟨hentered.trans ⟨hbooked, hkept⟩, hpositions, ⟨_, htrades, rfl⟩,
    hrecorded.kept hkept, hintended⟩

/-- What the durable record says of the legs it is about to place. -/
structure Primed (ctx : StrategyContext) (d : DurableRecord)
    (r : Rows) : Prop where
  ce : (d.ce.terms d.quantity).Recorded ctx r
  ceIntent : (d.ce.terms d.quantity).Intended .sell d.ce.intentId r
  pe : (d.pe.terms d.quantity).Recorded ctx r
  peIntent : (d.pe.terms d.quantity).Intended .sell d.pe.intentId r

theorem Primed.kept {d : DurableRecord} {r r' : Rows}
    (h : Primed ctx d r) (hkept : RowsKept r r') : Primed ctx d r' :=
  ⟨h.ce.kept hkept, h.ceIntent.kept hkept, h.pe.kept hkept,
    h.peIntent.kept hkept⟩

/-- The session of `_create_durable_record`. -/
theorem createDurableRecord_enters (db : Db) (h : Booked db.rows)
    (selection : StraddleStrikeSelection) :
    Meets (do
      let ((positionId, _), created) ←
        PositionRepository.getOrCreate (newPosition ctx selection)
      if created then
        let quantity := ctx.config.lots * selection.call.lotSize
        let ce ← createLeg ctx positionId quantity selection.atmStrike
          selection.call
        let pe ← createLeg ctx positionId quantity selection.atmStrike
          selection.put
        pure (some { positionId, quantity, ce, pe })
      else
        pure none : Session (Option DurableRecord)) db
      (fun r db' => Enters db.rows db'.rows
        ∧ ∀ d, r = some d → Primed ctx d db'.rows)
      fun _ => True := by
  rw [meets_bind]
  refine getOrCreate_meets ?_ fun _ => ?_
  · unfold PositionRepository.getByInstanceAndDate
    rw [meets_bind, meets_fetch, meets_scalarOneOrNone]
    refine ⟨fun _ => ⟨rfl, fun x hx => nomatch hx⟩,
      fun row _ => ⟨rfl, fun x _ => ?_⟩, fun _ => trivial⟩
    dsimp only
    rw [if_neg Bool.false_ne_true, meets_pure]
    exact ⟨⟨h, Session.Frame.refl _⟩, fun d hd => nomatch hd⟩
  · unfold PositionRepository.insert
    rw [meets_bind, meets_fetch, meets_bind, meets_flush]
    refine ⟨fun hadm => ?_, fun _ => trivial⟩
    rw [meets_pure]
    dsimp only
    rw [if_pos rfl, meets_bind]
    have hinserted : Enters db.rows { db.rows with
        positions := db.rows.positions
          ++ [(newPosition ctx selection).kept db.rows.money] } := by
      have hkept : RowsKept db.rows { db.rows with
          positions := db.rows.positions
            ++ [(newPosition ctx selection).kept db.rows.money] } :=
        rowsKept_of_prefix (List.prefix_append _ _) (List.prefix_refl _)
          (List.prefix_refl _)
      refine ⟨⟨h.legs, fun x hx => ?_⟩, hkept⟩
      obtain ⟨t, purpose, ht, hof⟩ := h.keyed x hx
      exact ⟨t, purpose, ht, hof.kept hkept (OrderIntent.Endures.refl x) rfl⟩
    -- no trade is of a position that was not there
    have hnone : ∀ t ∈ db.rows.trades,
        t.positionId ≠ db.rows.positions.length :=
      fun t ht => (db.admitted.linked.trades t ht).ne
    refine (@createLeg_enters _ ⟨_, hadm⟩ hinserted.booked _ _
      List.getElem?_concat_length rfl _ _ _
      fun t ht hof => hnone t ht hof.1).imp (fun ce db₁ hce => ?_)
      fun _ h => h
    obtain ⟨hentered, hpositions, ⟨t, htrades, htype⟩, hrecorded, hintended⟩ := hce
    rw [meets_bind]
    refine (createLeg_enters hentered.booked
      (p := (newPosition ctx selection).kept db.rows.money) ?_ rfl _ _ _
      fun u hu hof => ?_).imp (fun pe db₂ hpe => ?_) fun _ h => h
    · rw [hpositions]
      exact List.getElem?_concat_length
    · rw [htrades] at hu
      rcases List.mem_append.1 hu with hu | hu
      · exact hnone u hu hof.1
      · rw [List.mem_singleton.1 hu, htype, selection.call_ce,
          selection.put_pe] at hof
        exact absurd hof.2 (by decide)
    · obtain ⟨hentered', -, -, hrecorded', hintended'⟩ := hpe
      rw [meets_pure]
      refine ⟨(hinserted.trans hentered).trans hentered', fun d hd => ?_⟩
      cases hd
      exact ⟨hrecorded.kept hentered'.kept, hintended.kept hentered'.kept,
        hrecorded', hintended'⟩

/-- The unwind's first commit gives an intent of the leg it buys back,
started. -/
theorem startUnwind_enters {db : Db} (h : Booked db.rows)
    {leg : LegIds} {quantity : Nat}
    (hleg : (leg.terms quantity).Recorded ctx db.rows) :
    Meets (startUnwind ctx leg quantity) db
      (fun row db' => Enters db.rows db'.rows
        ∧ (leg.terms quantity).Started .buy row.2.brokerTag db'.rows)
      fun _ => True := by
  unfold startUnwind
  rw [meets_bind, meets_lift]
  refine ⟨fun tag _ => ?_, fun _ _ => trivial⟩
  rw [meets_bind]
  refine (getOrCreateIntent_enters h hleg .exit .unwind tag).imp
    (fun row db' hrow => ?_) fun _ h => h
  obtain ⟨⟨intentId, intent⟩, created⟩ := row
  obtain ⟨hbooked, hkept, -, -, hi, x, hx, hterms⟩ := hrow
  rw [hi] at hx
  cases hx
  rw [meets_bind]
  refine (markStarted_enters hbooked hi hterms).imp (fun _ db'' hstarted => ?_)
    fun _ h => h
  rw [meets_pure]
  exact ⟨⟨hstarted.1.booked, hkept.trans hstarted.1.kept⟩, hstarted.2⟩

end EntryLogic

namespace ExitLogic

/-- A leg of the exit record, with its trade and its intent. -/
def Prepared (ctx : StrategyContext) (r : Rows) (leg : ExitLegIds) :
    Prop :=
  leg.terms.Recorded ctx r ∧ leg.terms.Intended .buy leg.intentId r

theorem Prepared.kept {r r' : Rows} {leg : ExitLegIds}
    (h : Prepared ctx r leg) (hkept : RowsKept r r') : Prepared ctx r' leg :=
  ⟨h.1.kept hkept, h.2.kept hkept⟩

/-- The legs of the exit record, one trade after the other. -/
private theorem prepareLegs_enters (trades : List (Nat × Trade)) :
    ∀ (legs : List ExitLegIds) (db : Db), Booked db.rows →
      (∀ x ∈ trades, (LegTerms.mk x.1 x.2.optionType x.2.quantity
        x.2.tradingSymbol x.2.exchange).Recorded ctx db.rows) →
      (∀ leg ∈ legs, Prepared ctx db.rows leg) →
      Meets (prepareLegs ctx trades legs) db
        (fun legs db' => Enters db.rows db'.rows
          ∧ ∀ leg ∈ legs, Prepared ctx db'.rows leg) fun _ => True := by
  induction trades with
  | nil => exact fun _ _ h _ hlegs => ⟨⟨h, Session.Frame.refl _⟩, hlegs⟩
  | cons x trades ih =>
      intro legs db h htrades hlegs
      obtain ⟨tradeId, trade⟩ := x
      obtain ⟨hrecorded, hrest⟩ := List.forall_mem_cons.1 htrades
      unfold prepareLegs prepareLeg
      rw [meets_bind, meets_bind, meets_lift]
      refine ⟨fun tag _ => ?_, fun _ _ => trivial⟩
      rw [meets_bind]
      refine (getOrCreateIntent_enters h hrecorded .exit .exit tag).imp
        (fun row db' hrow => ?_) fun _ h => h
      obtain ⟨hbooked, hkept, -, -, -, hintended⟩ := hrow
      refine (ih _ db' hbooked (fun x hx => (hrest x hx).kept hkept)
        fun leg hleg => ?_).imp (fun _ db'' hlast => ?_) fun _ h => h
      · rcases mem_putLeg hleg with rfl | hold
        · exact ⟨hrecorded.kept hkept, hintended⟩
        · exact (hlegs leg hold).kept hkept
      · exact ⟨⟨hlast.1.booked, hkept.trans hlast.1.kept⟩, hlast.2⟩

/-- The session of `_prepare_exit`. -/
theorem prepareSession_enters (db : Db) (h : Booked db.rows)
    (reason : ExitReason) (actor : StateTransitionActor) (scan : List Nat) :
    Meets (prepareSession ctx reason actor scan) db
      (fun r db' => Enters db.rows db'.rows
        ∧ ∀ prepared, r = .ok prepared →
          ∀ leg ∈ prepared.legs, Prepared ctx db'.rows leg)
      fun _ => True := by
  have hended : ∀ result : ExitResult, Enters db.rows db.rows
      ∧ ∀ prepared, (.error result : Except ExitResult PreparedExit)
          = .ok prepared → ∀ leg ∈ prepared.legs, Prepared ctx db.rows leg := by
    intro result
    refine ⟨⟨h, Session.Frame.refl _⟩, fun prepared hprepared => ?_⟩
    cases hprepared
  unfold prepareSession
  rw [meets_bind]
  refine (getByInstanceAndDate_meets ctx db).imp (fun row db₀ hrow => ?_)
    fun _ h => h
  obtain ⟨rfl, hfound, -⟩ := hrow
  cases row with
  | none => exact hended _
  | some row =>
      obtain ⟨positionId, position⟩ := row
      obtain ⟨hp, hday⟩ := hfound positionId position rfl
      dsimp only
      rw [meets_ite, meets_ite]
      refine ⟨fun _ => hended _, fun _ => ⟨fun _ => hended _, fun _ => ?_⟩⟩
      rw [meets_bind]
      refine ((keeps_ite ((allowsPosition_rowsStand positionId).transition _ _ _)
        (keeps_pure _)) db₀).imp (fun _ db₁ hstands => ?_) fun _ h => h
      unfold PositionRepository.listTradesForPosition
      rw [meets_bind, meets_fetch, meets_bind]
      refine (prepareLegs_enters _ [] db₁ (hstands.booked h) (fun x hx => ?_)
        fun _ hleg => nomatch hleg).imp (fun legs db₂ hlegs => ?_) fun _ h => h
      · obtain ⟨i, t⟩ := x
        obtain ⟨ht, hof⟩ := ReconciliationEngine.mem_listTrades.1 hx
        obtain ⟨q, hq, hpq⟩ := hstands.positions _ _ hp
        exact ⟨t, q, ht, rfl, rfl, rfl, rfl, hof ▸ hq,
          hpq.trans (Prod.ext hday.1 hday.2)⟩
      · rw [meets_pure]
        refine ⟨⟨hlegs.1.booked, hstands.toRowsKept.trans hlegs.1.kept⟩,
          fun prepared hprepared => ?_⟩
        cases hprepared
        exact hlegs.2

end ExitLogic

end AlgoPlatform
