/-
The money ledger.

# The figures

What one day's position, its two trades and the thresholds say about
money, by the state the position is in (`Figures`): nothing before it is
OPEN, the entry's figures from then on, and once it is CLOSED the exit's
totals as well. A trade that is CLOSED carries both prices and its own
P&L, whichever run closed it. Each figure is what the columns keep of one
that was computed exactly, so the figures are stated of both: the sums
and products of the exact ones, and what is stored of these.

# The invariant

`Books`: every position of the day has exactly two trades, a CE and a PE
of one quantity, and their figures hold. Every commit of the entry, the
exit and the recovery keeps it; order rows are no part of it, so the
push stream cannot touch it.
-/
import AlgoPlatform.Model.Runs
import AlgoPlatform.Proofs.Frames
import AlgoPlatform.Proofs.Schema

open Basis Basis.Session

namespace AlgoPlatform

-- ============================================================= figures

/-- A leg sold, and bought back for `paid`: what is kept of that, and the
P&L of what it was sold for and of what was paid. -/
def Trade.BoughtBack (money : ℚ → ℚ) (t : Trade) : Prop :=
  t.status = .closed ∧ ∃ sold paid, t.entryPrice = some sold
    ∧ t.exitPrice = some (money paid) ∧ 0 < paid
    ∧ t.realizedPnl = some (money (computeLegRealizedPnl sold paid t.quantity))

/-- Both legs were sold at a positive price, and the position has their
sum between its two thresholds. -/
def EntryFigures (money : ℚ → ℚ) (p : Position) (ce pe : Trade) : Prop :=
  ∃ soldCe soldPe target stoploss, ce.entryPrice = some (money soldCe)
    ∧ pe.entryPrice = some (money soldPe) ∧ 0 < soldCe ∧ 0 < soldPe
    ∧ p.combinedEntryPremium = some (money (soldCe + soldPe))
    ∧ p.targetPremium = some (money target)
    ∧ p.stoplossPremium = some (money stoploss)
    ∧ target < soldCe + soldPe ∧ soldCe + soldPe < stoploss

/-- The position has the sums of what its legs were bought back for and
of what they realized. -/
def ExitTotals (money : ℚ → ℚ) (p : Position) (ce pe : Trade) : Prop :=
  ∃ boughtCe boughtPe pnlCe pnlPe, ce.exitPrice = some boughtCe
    ∧ pe.exitPrice = some boughtPe ∧ ce.realizedPnl = some pnlCe
    ∧ pe.realizedPnl = some pnlPe
    ∧ p.combinedExitPremium = some (money (boughtCe + boughtPe))
    ∧ p.realizedPnl = some (money (pnlCe + pnlPe))

/-- What the rows of one straddle say about money. -/
def Figures (money : ℚ → ℚ) (p : Position) (ce pe : Trade) : Prop :=
  match p.state with
  | .open =>
      EntryFigures money p ce pe ∧ ce.status = .open ∧ pe.status = .open
  | .exitPending =>
      EntryFigures money p ce pe ∧ (ce.status = .closed → ce.BoughtBack money)
        ∧ (pe.status = .closed → pe.BoughtBack money)
  | .closed =>
      EntryFigures money p ce pe ∧ ce.BoughtBack money ∧ pe.BoughtBack money
        ∧ ExitTotals money p ce pe
  | .idle | .entryPending | .error => True

-- =============================================================== books

/-- The trades of position `id` are exactly a CE and a PE of one
quantity, under these keys. -/
structure Straddle (r : Rows) (id a b : Nat) (ce pe : Trade) : Prop where
  legs : select (·.positionId = id) r.trades = [(a, ce), (b, pe)]
  isCe : ce.optionType = .ce
  isPe : pe.optionType = .pe
  quantity : ce.quantity = pe.quantity

/-- The position is the instance's of the day. -/
def OfDay (ctx : StrategyContext) (p : Position) : Prop :=
  p.strategyInstanceId = ctx.instanceId ∧ p.tradeDate = ctx.today

instance (ctx : StrategyContext) (p : Position) : Decidable (OfDay ctx p) :=
  inferInstanceAs (Decidable (_ ∧ _))

/-- Position `id`, of the day and in this state, with its straddle. -/
def OnDesk (ctx : StrategyContext) (state : PositionState) (id a b : Nat)
    (r : Rows) : Prop :=
  ∃ p ce pe, r.positions[id]? = some p ∧ OfDay ctx p ∧ p.state = state
    ∧ Straddle r id a b ce pe ∧ Figures r.money p ce pe

/-- Every position of the day has its straddle, and their figures
hold. -/
def Books (ctx : StrategyContext) (r : Rows) : Prop :=
  ∀ (id : Nat) (p : Position), r.positions[id]? = some p → OfDay ctx p →
    ∃ a b, OnDesk ctx p.state id a b r

/-- Nothing a position or a trade says has changed. -/
structure LedgerKept (r r' : Rows) : Prop where
  positions : r'.positions = r.positions
  trades : r'.trades = r.trades
  columns : r'.columns = r.columns

variable {ctx : StrategyContext} {id a b : Nat} {state : PositionState}
variable {w : World} {leg : LegIds}

instance : BlindToOrders LedgerKept where
  refl := fun _ => ⟨rfl, rfl, rfl⟩
  trans := fun h h' => ⟨h'.positions.trans h.positions,
    h'.trades.trans h.trades, h'.columns.trans h.columns⟩
  orders := fun _ _ => ⟨rfl, rfl, rfl⟩
  breaks := fun _ _ => ⟨rfl, rfl, rfl⟩

theorem writesIntent_ledgerKept (i : Nat) : WritesIntent LedgerKept i :=
  ⟨fun _ _ => ⟨rfl, rfl, rfl⟩, fun _ => ⟨rfl, rfl, rfl⟩⟩

theorem addsIntents_ledgerKept : AddsIntents LedgerKept :=
  fun _ _ => ⟨rfl, rfl, rfl⟩

theorem LedgerKept.money {r r' : Rows} (h : LedgerKept r r') :
    r'.money = r.money :=
  congrArg MoneyColumns.keep h.columns

theorem OnDesk.kept {r r' : Rows} (h : OnDesk ctx state id a b r)
    (hkept : LedgerKept r r') : OnDesk ctx state id a b r' := by
  obtain ⟨p, ce, pe, hp, hday, hstate, hlegs, hfigures⟩ := h
  refine ⟨p, ce, pe, hkept.positions ▸ hp, hday, hstate, ?_,
    hkept.money ▸ hfigures⟩
  exact { hlegs with legs := hkept.trades ▸ hlegs.legs }

theorem Books.kept {r r' : Rows} (h : Books ctx r)
    (hkept : LedgerKept r r') : Books ctx r' := by
  intro id p hp hday
  rw [hkept.positions] at hp
  obtain ⟨a, b, hdesk⟩ := h id p hp hday
  exact ⟨a, b, hdesk.kept hkept⟩

/-- The day has one position, so its desk is the books. -/
theorem OnDesk.books {db : Db} (h : OnDesk ctx state id a b db.rows) :
    Books ctx db.rows := by
  obtain ⟨p, ce, pe, hp, hday, hstate, hlegs, hfigures⟩ := h
  intro id' p' hp' hday'
  have hsame : id' = id :=
    key_inj db.admitted.unique.instanceTradeDate hp' hp
      (Prod.ext (hday'.1.trans hday.1.symm) (hday'.2.trans hday.2.symm))
  subst hsame
  obtain rfl := Option.some_inj.1 (hp'.symm.trans hp)
  exact ⟨a, b, p', ce, pe, hp, hday, rfl, hlegs, hfigures⟩

-- =========================================================== transitions

/-- A transition the machine allows writes the state and the audit row;
one into the state the position is in writes nothing. -/
theorem transition_meets (db : Db) (id : Nat) (toState : PositionState)
    (actor : StateTransitionActor) (reason : String) :
    Meets (PositionStateMachine.transition id toState actor reason) db
      (fun _ db' => ∃ p : Position, db.rows.positions[id]? = some p
        ∧ (p.state = toState ∨ toState ∈ allowedTransitions p.state)
        ∧ db'.rows.positions = db.rows.positions.modify id
            (fun p => { p with state := toState })
        ∧ db'.rows.trades = db.rows.trades
        ∧ db'.rows.columns = db.rows.columns)
      fun _ => True := by
  unfold PositionStateMachine.transition PositionRepository.getById
  rw [meets_bind, meets_fetch, meets_bind]
  cases hp : db.rows.positions[id]? with
  | none => trivial
  | some p =>
      rw [orRaise, meets_pure, meets_ite]
      refine ⟨fun hsame => ⟨p, rfl, .inl hsame, ?_, rfl, rfl⟩, fun _ => ?_⟩
      · refine List.ext_getElem? fun j => ?_
        rw [List.getElem?_modify]
        by_cases hij : id = j
        · subst hij
          simp [hp, ← hsame]
        · simp [hij]
      · rw [meets_ite]
        refine ⟨fun hallowed => ?_, fun _ => trivial⟩
        unfold PositionRepository.transitionState PositionRepository.getById
        rw [meets_bind, meets_fetch, meets_bind, hp, orRaise, meets_pure,
          meets_flush]
        refine ⟨fun _ => ⟨p, rfl, .inr ?_, rfl, rfl, rfl⟩, fun _ => trivial⟩
        unfold isTransitionAllowedForActor isTransitionAllowed at hallowed
        simp only [Bool.and_eq_true, decide_eq_true_eq] at hallowed
        exact hallowed.1

-- ================================================================= trades

/-- A write of one trade that keeps what the straddle reads of it. -/
structure KeepsLeg (f : Trade → Trade) : Prop where
  positionId : ∀ t, (f t).positionId = t.positionId
  optionType : ∀ t, (f t).optionType = t.optionType
  quantity : ∀ t, (f t).quantity = t.quantity

namespace Straddle

variable {r : Rows} {ce pe : Trade}

theorem ne (h : Straddle r id a b ce pe) : a ≠ b := by
  have hnd := select_keys_nodup (fun t => decide (t.positionId = id)) r.trades
  rw [h.legs] at hnd
  simpa using hnd

theorem trade_ce (h : Straddle r id a b ce pe) : r.trades[a]? = some ce := by
  have hmem : (a, ce) ∈ select (fun t => decide (t.positionId = id))
      r.trades := by
    rw [h.legs]
    exact List.mem_cons_self ..
  exact (mem_select.1 hmem).1

theorem trade_pe (h : Straddle r id a b ce pe) : r.trades[b]? = some pe := by
  have hmem : (b, pe) ∈ select (fun t => decide (t.positionId = id))
      r.trades := by
    rw [h.legs]
    exact List.mem_cons_of_mem _ (List.mem_singleton.2 rfl)
  exact (mem_select.1 hmem).1

theorem ce_of (h : Straddle r id a b ce pe) : ce.positionId = id := by
  have hmem : (a, ce) ∈ select (fun t => decide (t.positionId = id))
      r.trades := by
    rw [h.legs]
    exact List.mem_cons_self ..
  exact of_decide_eq_true (mem_select.1 hmem).2

theorem pe_of (h : Straddle r id a b ce pe) : pe.positionId = id := by
  have hmem : (b, pe) ∈ select (fun t => decide (t.positionId = id))
      r.trades := by
    rw [h.legs]
    exact List.mem_cons_of_mem _ (List.mem_singleton.2 rfl)
  exact of_decide_eq_true (mem_select.1 hmem).2

/-- A trade is written in place. -/
theorem setTrade (h : Straddle r id a b ce pe) {f : Trade → Trade}
    (hf : KeepsLeg f) (i : Nat) :
    Straddle (r.setTrade i f) id a b (if a = i then f ce else ce)
      (if b = i then f pe else pe) where
  legs := by
    rw [Rows.setTrade_trades, select_modify fun t => by rw [hf.positionId],
      h.legs]
    rfl
  isCe := by
    split_ifs
    · rw [hf.optionType, h.isCe]
    · exact h.isCe
  isPe := by
    split_ifs
    · rw [hf.optionType, h.isPe]
    · exact h.isPe
  quantity := by
    have hq := h.quantity
    split_ifs <;> simp only [hf.quantity, hq]

end Straddle

-- ============================================================== positions

/-- Books before, books after. -/
def BooksKept (ctx : StrategyContext) (r r' : Rows) : Prop :=
  Books ctx r → Books ctx r'

instance : BlindToOrders (BooksKept ctx) where
  refl := fun _ h => h
  trans := fun h h' => h' ∘ h
  orders := fun _ _ h => h.kept ⟨rfl, rfl, rfl⟩
  breaks := fun _ _ h => h.kept ⟨rfl, rfl, rfl⟩

/-- A write of one position that leaves its figures true. -/
theorem booksKept_modify {r r' : Rows} {f : Position → Position}
    (hpositions : r'.positions = r.positions.modify id f)
    (htrades : r'.trades = r.trades) (hcolumns : r'.columns = r.columns)
    (hday : ∀ p, OfDay ctx (f p) → OfDay ctx p)
    (hfigures : ∀ money p ce pe, Figures money p ce pe →
      Figures money (f p) ce pe) :
    BooksKept ctx r r' := by
  intro h id' p' hp' hday'
  have hmoney : r'.money = r.money := congrArg MoneyColumns.keep hcolumns
  unfold OnDesk
  rw [hmoney]
  rw [hpositions, List.getElem?_modify] at hp'
  cases hp : r.positions[id']? with
  | none => simp [hp] at hp'
  | some p =>
      rw [hp] at hp'
      have hlegs : ∀ {a b ce pe}, Straddle r id' a b ce pe →
          Straddle r' id' a b ce pe :=
        fun h => { h with legs := htrades ▸ h.legs }
      by_cases hid : id = id'
      · simp only [hid, if_true, Option.map_eq_map, Option.map_some,
          Option.some.injEq] at hp'
        subst hp'
        obtain ⟨a, b, q, ce, pe, hq, -, -, hstraddle, hfig⟩ :=
          h id' p hp (hday p hday')
        obtain rfl := Option.some_inj.1 (hq.symm.trans hp)
        refine ⟨a, b, f q, ce, pe, ?_, hday', rfl, hlegs hstraddle,
          hfigures _ q ce pe hfig⟩
        rw [hpositions, List.getElem?_modify, hp]
        simp [hid]
      · simp only [hid, if_false, Option.map_eq_map, Option.map_some,
          Option.some.injEq] at hp'
        subst hp'
        obtain ⟨a, b, q, ce, pe, hq, hqday, hstate, hstraddle, hfig⟩ :=
          h id' p hp hday'
        refine ⟨a, b, q, ce, pe, ?_, hqday, hstate, hlegs hstraddle, hfig⟩
        rw [hpositions, List.getElem?_modify, hq]
        simp [hid]

/-- A write that moves no figure and no state. -/
private theorem keeps_updatePosition (id : Nat) {f : Position → Position}
    (hday : ∀ p, OfDay ctx (f p) → OfDay ctx p)
    (hfigures : ∀ money p ce pe, Figures money p ce pe →
      Figures money (f p) ce pe) :
    Keeps (BooksKept ctx) (PositionRepository.update id f) :=
  keeps_flush fun _ => booksKept_modify rfl rfl rfl hday hfigures

/-- Any position may go to ERROR: nothing is claimed of it there. -/
private theorem keeps_markError {id : Nat} {actor : StateTransitionActor}
    {reason : String} :
    Keeps (BooksKept ctx) (PositionStateMachine.markError id actor reason) := by
  intro db
  refine (transition_meets db id .error actor reason).imp ?_ fun _ h => h
  intro _ db' hdb'
  obtain ⟨p, -, -, hpositions, htrades, hcolumns⟩ := hdb'
  exact booksKept_modify hpositions htrades hcolumns (fun _ h => h)
    fun _ _ _ _ _ => trivial

private theorem keeps_freeze (instanceId : Nat) :
    Keeps (BooksKept ctx) (Bookkeeping.freezeInstance instanceId) := by
  refine keeps_bind (keeps_fetch _) fun row => ?_
  cases row with
  | none => exact keeps_pure _
  | some inst =>
      exact keeps_ite (keeps_flush fun _ h => h.kept ⟨rfl, rfl, rfl⟩)
        (keeps_pure _)

theorem books_failToError (instanceId positionId : Nat) (reason : String) :
    Prog.Along (Waits (BooksKept ctx))
      (Bookkeeping.failToError instanceId positionId reason) := by
  refine Program.along_unitOfWork fun _ =>
    keeps_bind (keeps_bind (keeps_fetch _) fun row => ?_) fun _ =>
      keeps_freeze _
  cases row with
  | none => exact keeps_pure _
  | some position =>
      exact keeps_ite (keeps_bind
        (keeps_updatePosition _ (fun _ h => h) fun _ _ _ _ h => h)
        fun _ => keeps_markError) (keeps_pure _)

theorem books_markPositionErrorAndFreeze (positionId : Nat)
    (reason : String) :
    Prog.Along (Waits (BooksKept ctx))
      (Strategy1.markPositionErrorAndFreeze ctx positionId reason) := by
  refine Program.along_unitOfWork fun _ =>
    keeps_bind (keeps_bind (keeps_fetch _) fun row => ?_) fun _ =>
      keeps_freeze _
  cases row with
  | none => exact keeps_pure _
  | some position =>
      exact keeps_ite (keeps_bind
        (keeps_updatePosition _ (fun _ h => h) fun _ _ _ _ h => h)
        fun _ => keeps_markError) (keeps_pure _)

-- ================================================================ sessions

/-- The books of a world. -/
def BooksAt (ctx : StrategyContext) (w : World) : Prop := Books ctx w.db.rows

/-- The desk of a world. -/
def DeskAt (ctx : StrategyContext) (state : PositionState) (id a b : Nat)
    (w : World) : Prop :=
  OnDesk ctx state id a b w.db.rows

variable {α : Type} {p : Program α}

/-- A program that writes no figure leaves the desk as it is. -/
theorem desk_along (hp : Prog.Along (OnRows LedgerKept) p)
    (hw : DeskAt ctx state id a b w) :
    p.Safe (fun _ => True) (BooksAt ctx) w
      fun _ => DeskAt ctx state id a b := by
  have hkept : ∀ w' : World, OnRows LedgerKept w w' →
      OnDesk ctx state id a b w'.db.rows := fun _ h => OnDesk.kept hw h
  exact (hp.safe w).imp (fun w' h => (hkept w' h).books)
    fun _ w' h => hkept w' h

theorem books_along (hp : Prog.Along (Waits (BooksKept ctx)) p)
    (hw : BooksAt ctx w) :
    p.Safe (fun _ => True) (BooksAt ctx) w fun _ => BooksAt ctx :=
  (hp.safe w).imp (fun _ h => h.rows hw) fun _ _ h => h.rows hw

-- ============================================================= the entry

namespace EntryLogic

/-- One leg of the durable record: a new trade, and an intent. -/
private theorem createLeg_meets (db : Db) (positionId quantity : Nat)
    (strike : ℚ) (contract : BrokerInstrument) :
    Meets (createLeg ctx positionId quantity strike contract) db
      (fun leg db' => leg.tradeId = db.rows.trades.length
        ∧ db'.rows.positions = db.rows.positions
        ∧ ∃ t : Trade, t.positionId = positionId
          ∧ t.optionType = contract.optionType ∧ t.quantity = quantity
          ∧ db'.rows.trades = db.rows.trades ++ [t])
      fun _ => True := by
  unfold createLeg PositionRepository.addTrade
  simp only [meets_bind, meets_fetch, meets_flush, meets_pure, meets_lift]
  refine ⟨fun hadm => ⟨fun tag _ => ?_, fun _ _ => trivial⟩, fun _ => trivial⟩
  refine (keeps_getOrCreateIntent addsIntents_ledgerKept _).imp
    (fun row db' hkept => ?_) fun _ h => h
  exact ⟨trivial, hkept.positions, _, rfl, rfl, rfl, hkept.trades⟩

/-- Rows are added, and only for a position that was not there. -/
structure AddsStraddle (r r' : Rows) : Prop where
  positions : r.positions <+: r'.positions
  trades : ∃ ts, r'.trades = r.trades ++ ts
    ∧ ∀ t ∈ ts, t.positionId = r.positions.length

theorem AddsStraddle.of_kept {r r' r'' : Rows} (h : LedgerKept r r')
    (h' : AddsStraddle r' r'') : AddsStraddle r r'' := by
  refine ⟨h.positions ▸ h'.positions, ?_⟩
  rw [← h.trades, ← h.positions]
  exact h'.trades

/-- Nothing is added where nothing of the ledger changes. -/
theorem addsStraddle_of_kept {r r' : Rows} (h : LedgerKept r r') :
    AddsStraddle r r' :=
  .of_kept h ⟨List.prefix_refl _, [], (List.append_nil _).symm,
    List.forall_mem_nil _⟩

/-- The durable record puts a straddle on the desk. -/
private theorem createDurableRecord_meets (db : Db)
    (selection : StraddleStrikeSelection) (hbooks : Books ctx db.rows) :
    Meets (do
      let ((positionId, _), created) ←
        PositionRepository.getOrCreate (newPosition ctx selection)
      if created then
        let quantity := ctx.config.lots * selection.call.lotSize
        let ce ← createLeg ctx positionId quantity selection.atmStrike
          selection.call
        let pe ← createLeg ctx positionId quantity selection.atmStrike
          selection.put
        pure (some { positionId, quantity, ce, pe })
      else
        pure none : Session (Option DurableRecord)) db
      (fun r db' => Books ctx db'.rows ∧ AddsStraddle db.rows db'.rows
        ∧ ∀ d, r = some d →
          OnDesk ctx .entryPending d.positionId d.ce.tradeId d.pe.tradeId
            db'.rows)
      fun _ => True := by
  rw [meets_bind]
  refine getOrCreate_meets ?_ fun _ => ?_
  · unfold PositionRepository.getByInstanceAndDate
    rw [meets_bind, meets_fetch, meets_scalarOneOrNone]
    refine ⟨fun _ => ⟨rfl, fun x hx => ?_⟩,
      fun row _ => ⟨rfl, fun x _ => ?_⟩, fun _ => trivial⟩
    · cases hx
    -- the day's position exists already
    dsimp only
    rw [if_neg Bool.false_ne_true, meets_pure]
    exact ⟨hbooks, addsStraddle_of_kept ⟨rfl, rfl, rfl⟩, fun d hd => nomatch hd⟩
  · unfold PositionRepository.insert
    rw [meets_bind, meets_fetch, meets_bind, meets_flush]
    refine ⟨fun hadm => ?_, fun _ => trivial⟩
    rw [meets_pure]
    dsimp only
    rw [if_pos rfl, meets_bind]
    refine (createLeg_meets _ _ _ _ _).imp ?_ fun _ h => h
    intro ce db₁ hce
    obtain ⟨hceId, hpositions₁, tce, hcePosition, hceType, hceQuantity,
      htrades₁⟩ := hce
    rw [meets_bind]
    refine (createLeg_meets _ _ _ _ _).imp ?_ fun _ h => h
    intro pe db₂ hpe
    obtain ⟨hpeId, hpositions₂, tpe, hpePosition, hpeType, hpeQuantity,
      htrades₂⟩ := hpe
    rw [meets_pure]
    have hnone : select (fun t => decide (t.positionId
        = db.rows.positions.length)) db.rows.trades = [] := by
      rw [select_eq_nil]
      intro t ht
      have hlt := db.admitted.linked.trades t ht
      simpa using Nat.ne_of_lt hlt
    have hdesk : OnDesk ctx .entryPending db.rows.positions.length ce.tradeId
        pe.tradeId db₂.rows := by
      refine ⟨(newPosition ctx selection).kept db.rows.money, tce, tpe, ?_,
        ⟨rfl, rfl⟩, rfl, ⟨?_, ?_, ?_, ?_⟩, trivial⟩
      · rw [hpositions₂, hpositions₁]
        exact List.getElem?_concat_length
      · rw [htrades₂, htrades₁, select_append, select_append, hnone]
        simp [hcePosition, hpePosition, hceId, hpeId, htrades₁]
      · rw [hceType, selection.call_ce]
      · rw [hpeType, selection.put_pe]
      · rw [hceQuantity, hpeQuantity]
    refine ⟨hdesk.books, ⟨?_, [tce, tpe], ?_, ?_⟩, fun d hd => ?_⟩
    · rw [hpositions₂, hpositions₁]
      exact List.prefix_append _ _
    · rw [htrades₂, htrades₁, List.append_assoc]
      rfl
    · intro t ht
      rcases List.mem_cons.1 ht with rfl | ht
      · exact hcePosition
      · rw [List.mem_singleton.1 ht]
        exact hpePosition
    · cases hd
      exact hdesk

private theorem keepsLeg_fill (price : ℚ) : KeepsLeg fun t =>
    { t with entryPrice := some price, status := .open } :=
  ⟨fun _ => rfl, fun _ => rfl, fun _ => rfl⟩

/-- Both fills onto the trades, the sum and the thresholds onto the
position, and OPEN: the entry's figures. -/
private theorem openPosition_meets {d : DurableRecord} {db : Db}
    (hdesk : OnDesk ctx .entryPending d.positionId d.ce.tradeId d.pe.tradeId
      db.rows)
    {thresholds : PremiumThresholds} {cePrice pePrice : ℚ}
    (hce : 0 < cePrice) (hpe : 0 < pePrice)
    (htarget : thresholds.targetPremium < cePrice + pePrice)
    (hstoploss : cePrice + pePrice < thresholds.stoplossPremium) :
    Meets (openPosition d thresholds cePrice pePrice) db
      (fun _ db' => Books ctx db'.rows) fun _ => True := by
  obtain ⟨p, ce, pe, hp, hday, hstate, hlegs, -⟩ := hdesk
  have hlegsCe := hlegs.setTrade (keepsLeg_fill (db.rows.money cePrice))
    d.ce.tradeId
  rw [if_pos rfl, if_neg hlegs.ne.symm] at hlegsCe
  have hlegsPe := hlegsCe.setTrade (keepsLeg_fill (db.rows.money pePrice))
    d.pe.tradeId
  rw [if_pos rfl, if_neg hlegs.ne] at hlegsPe
  have hpeRow := hlegsCe.trade_pe
  unfold openPosition openPosition.fillLeg openPosition.confirmIntent
  simp only [PositionRepository.getById, PositionRepository.getTradeById,
    PositionRepository.updateTrade, PositionRepository.updateMoney, meets_bind,
    meets_fetch, hp, hlegs.trade_ce, meets_flush]
  refine ⟨fun _ => ?_, fun _ => trivial⟩
  rw [hpeRow, meets_flush]
  refine ⟨fun _ => ⟨fun _ => ?_, fun _ => trivial⟩, fun _ => trivial⟩
  refine (transition_meets _ _ _ _ _).imp ?_ fun _ h => h
  intro _ db₁ hdb₁
  obtain ⟨-, -, -, hpositions, htrades, hcolumns⟩ := hdb₁
  refine (keeps_getIntent (R := LedgerKept) _ db₁).imp ?_ fun _ h => h
  intro _ db₂ hkept₂
  refine (keeps_markStatus ((writesIntent_ledgerKept _).status _) db₂).imp ?_
    fun _ h => h
  intro _ db₃ hkept₃
  refine (keeps_getIntent (R := LedgerKept) _ db₃).imp ?_ fun _ h => h
  intro _ db₄ hkept₄
  refine (keeps_markStatus ((writesIntent_ledgerKept _).status _) db₄).imp ?_
    fun _ h => h
  intro _ db₅ hkept₅
  have hkept : LedgerKept db₁.rows db₅.rows :=
    Session.Frame.trans hkept₂ (Session.Frame.trans hkept₃
      (Session.Frame.trans hkept₄ hkept₅))
  have hopen : OnDesk ctx .open d.positionId d.ce.tradeId d.pe.tradeId
      db₁.rows := by
    have hmoney : db₁.rows.money = db.rows.money :=
      congrArg MoneyColumns.keep hcolumns
    refine ⟨{ p with
        combinedEntryPremium := some (db.rows.money (cePrice + pePrice)),
        targetPremium := some (db.rows.money thresholds.targetPremium),
        stoplossPremium := some (db.rows.money thresholds.stoplossPremium),
        state := .open },
      _, _, ?_, hday, rfl, { hlegsPe with legs := htrades ▸ hlegsPe.legs }, ?_⟩
    · rw [hpositions, List.getElem?_modify_eq]
      simp only [Rows.setPosition_positions, Rows.setTrade_positions,
        List.getElem?_modify_eq, hp, Option.map_eq_map, Option.map_some]
      rfl
    · rw [hmoney]
      exact ⟨⟨cePrice, pePrice, _, _, rfl, rfl, hce, hpe, rfl, rfl, rfl, htarget,
        hstoploss⟩, rfl, rfl⟩
  exact (hopen.kept hkept).books

/-- A leg may be written while the entry is pending. -/
private theorem desk_setTrade {r : Rows} {f : Trade → Trade}
    (hdesk : OnDesk ctx .entryPending id a b r) (hf : KeepsLeg f) (i : Nat) :
    OnDesk ctx .entryPending id a b (r.setTrade i f) := by
  obtain ⟨p, ce, pe, hp, hday, hstate, hlegs, -⟩ := hdesk
  refine ⟨p, _, _, hp, hday, hstate, hlegs.setTrade hf i, ?_⟩
  unfold Figures
  rw [hstate]
  trivial

private theorem settleUnwind_meets {db : Db} (intentId : Nat)
    (bo : Option BrokerOrder) (filled : Bool)
    (hdesk : OnDesk ctx .entryPending id a b db.rows) :
    Meets (settleUnwind leg intentId bo filled) db
      (fun _ db' => OnDesk ctx .entryPending id a b db'.rows)
      fun _ => True := by
  have hintent : ∀ {db : Db}, OnDesk ctx .entryPending id a b db.rows →
      Meets (do
        let _ ← OrderIntentRepository.getByIdOrRaise intentId
        if filled then OrderIntentRepository.markConfirmed intentId
        else OrderIntentRepository.markFailed intentId) db
        (fun _ db' => OnDesk ctx .entryPending id a b db'.rows)
        fun _ => True := by
    intro db hdesk
    have hi := writesIntent_ledgerKept intentId
    exact (keeps_bind (keeps_getIntent intentId) (fun _ => keeps_ite
      (keeps_markStatus (hi.status _)) (keeps_markStatus (hi.status _))) db).imp
      (fun _ _ h => hdesk.kept h) fun _ h => h
  have hkeeps : KeepsLeg fun t : Trade =>
      if filled then
        { t with status := .unwound,
                 exitPrice := (bo.bind (·.averagePrice)).map db.rows.money }
      else { t with status := .error } := by
    refine ⟨?_, ?_, ?_⟩ <;> intro t <;> cases filled <;> rfl
  unfold settleUnwind PositionRepository.updateTradeIfAny
    PositionRepository.getTradeById
  rw [meets_bind, meets_bind, meets_fetch]
  cases db.rows.trades[leg.tradeId]? with
  | none =>
      rw [meets_pure]
      exact hintent hdesk
  | some t =>
      unfold PositionRepository.updateTrade
      rw [meets_flush]
      refine ⟨fun _ => hintent ?_, fun _ => trivial⟩
      exact desk_setTrade hdesk hkeeps _

private theorem autoUnwind_safe (quantity : Nat)
    (hw : DeskAt ctx .entryPending id a b w) :
    (autoUnwind ctx leg quantity).Safe (fun _ => True) (BooksAt ctx) w
      fun _ => DeskAt ctx .entryPending id a b := by
  unfold autoUnwind
  rw [Prog.safe_bind]
  refine (desk_along (Program.along_tryBroker (takes_buyBack ctx
    addsIntents_ledgerKept writesIntent_ledgerKept quantity)) hw).mono
    fun r w hw => ?_
  cases r with
  | error e => exact hw
  | ok bought =>
      rw [Prog.andThen_ok]
      cases bought with
      | error e => exact hw
      | ok bought =>
          obtain ⟨intentId, bo⟩ := bought
          simp only [Prog.safe_bind]
          have hturn : ∀ m, DeskAt ctx .entryPending id a b (w.interfere m) :=
            fun m => OnDesk.kept hw (waits_interfere w m).rows
          refine Program.safe_unitOfWork hw.books
            (fun m f _ _ => hturn m) fun m _ _ => ?_
          exact (settleUnwind_meets intentId bo _ (hturn m)).imp
            (fun _ _ h => h) fun _ _ => hturn m

/-- The desk closed in ERROR: a break, and `_fail_to_error`. -/
private theorem fail_safe {positionId : Nat} {intentId : Option Nat}
    {breakType : ReconciliationBreakType} {outcome : EntryOutcome}
    {reason : String} (hw : BooksAt ctx w) :
    (do recordBreak positionId intentId breakType
        failToError ctx positionId outcome reason :
      Program EntryResult).Safe (fun _ => True) (BooksAt ctx) w
      fun _ => BooksAt ctx :=
  books_along (Prog.along_bind along_recordBreak fun _ =>
    Prog.along_bind (books_failToError _ _ _) fun _ => Prog.along_pure _) hw

private theorem finalizeOpen_safe {d : DurableRecord}
    {ceResult peResult : LegResult} (hce : ceResult.Priced)
    (hpe : peResult.Priced) (hceFilled : ceResult.outcome = .filled)
    (hpeFilled : peResult.outcome = .filled)
    (hw : DeskAt ctx .entryPending d.positionId d.ce.tradeId d.pe.tradeId w) :
    (finalizeOpen ctx d ceResult peResult).Safe (fun _ => True) (BooksAt ctx)
      w fun _ => BooksAt ctx := by
  obtain ⟨cePrice, hcePos, hcePrice⟩ := hce hceFilled
  obtain ⟨pePrice, hpePos, hpePrice⟩ := hpe hpeFilled
  unfold finalizeOpen
  rw [hcePrice, hpePrice]
  dsimp only
  rw [Prog.safe_bind, Prog.safe_done]
  cases hthresholds : computeThresholds (cePrice + pePrice)
      ctx.config.targetPct ctx.config.slPct with
  | error e => exact OnDesk.books hw
  | ok thresholds =>
      obtain ⟨-, htarget, hstoploss⟩ := computeThresholds_eq_ok hthresholds
      rw [Prog.andThen_ok, Prog.safe_tryCatch, Prog.safe_bind]
      have hturn : ∀ m, DeskAt ctx .entryPending d.positionId d.ce.tradeId
          d.pe.tradeId (w.interfere m) :=
        fun m => OnDesk.kept hw (waits_interfere w m).rows
      -- a failed OPEN write leaves the books and records a break
      have hbreak : ∀ {w : World} {e : Exc}, BooksAt ctx w →
          (do recordBreak d.positionId none .orphanFill
              pure { outcome := .persistenceDivergence,
                     message := "both legs filled but OPEN persistence failed; "
                       ++ "reconciliation break recorded",
                     positionId := some d.positionId } :
            Program EntryResult).Safe (fun _ => True) (BooksAt ctx) w
            fun _ => BooksAt ctx :=
        fun hw => books_along (Prog.along_bind along_recordBreak fun _ =>
          Prog.along_pure _) hw
      refine Program.safe_unitOfWork (OnDesk.books hw)
        (fun m f _ _ => hbreak (e := f.exc) (hturn m).books) fun m _ _ => ?_
      exact (openPosition_meets (hturn m) hcePos hpePos htarget hstoploss).imp
        (fun _ _ h => h) fun e _ => hbreak (e := e) (hturn m).books

private theorem partialEntry_safe {d : DurableRecord} {peResult : LegResult}
    (hw : DeskAt ctx .entryPending d.positionId d.ce.tradeId d.pe.tradeId w) :
    (partialEntry ctx d peResult).Safe (fun _ => True) (BooksAt ctx) w
      fun _ => BooksAt ctx := by
  unfold partialEntry
  rw [Prog.safe_bind]
  refine (autoUnwind_safe d.quantity hw).mono fun r w hw => ?_
  cases r with
  | error e => exact OnDesk.books hw
  | ok unwound => exact fail_safe (OnDesk.books hw)

/-- One leg of the entry: the desk stays, and a fill has a price. -/
private theorem placeLeg_ledger (leg : LegIds) (quantity : Nat)
    (hw : DeskAt ctx .entryPending id a b w) :
    (placeLeg ctx leg quantity).Safe (fun _ => True) (BooksAt ctx) w
      fun r w' => DeskAt ctx .entryPending id a b w'
        ∧ ∀ result, r = .ok result → result.Priced :=
  ((desk_along (takes_placeLeg ctx (writesIntent_ledgerKept leg.intentId)
    quantity) hw).and ((placeLeg_priced ctx leg quantity).safe w)).imp
    (fun _ => And.left) fun _ _ h => h

theorem placeAndFinalize_safe (d : DurableRecord)
    (hw : DeskAt ctx .entryPending d.positionId d.ce.tradeId d.pe.tradeId w) :
    (placeAndFinalize ctx d).Safe (fun _ => True) (BooksAt ctx) w
      fun _ => BooksAt ctx := by
  unfold placeAndFinalize
  rw [Prog.safe_bind]
  refine (placeLeg_ledger d.ce d.quantity hw).mono fun r w hr => ?_
  obtain ⟨hw, hce⟩ := hr
  cases r with
  | error e => exact OnDesk.books hw
  | ok ceResult =>
      rw [Prog.andThen_ok]
      cases houtcome : ceResult.outcome with
      | failed =>
          exact books_along (Prog.along_bind (books_failToError _ _ _)
            fun _ => Prog.along_pure _) (OnDesk.books hw)
      | ambiguous => exact fail_safe (OnDesk.books hw)
      | filled =>
          simp only [Prog.safe_bind]
          refine (placeLeg_ledger d.pe d.quantity hw).mono fun r w hr => ?_
          obtain ⟨hw, hpe⟩ := hr
          cases r with
          | error e => exact OnDesk.books hw
          | ok peResult =>
              rw [Prog.andThen_ok]
              split_ifs with hpeFilled
              · exact finalizeOpen_safe (hce _ rfl) (hpe _ rfl) houtcome
                  hpeFilled hw
              · exact partialEntry_safe hw

/-- The books hold, and since `v` a straddle was added at most. -/
structure Begun (ctx : StrategyContext) (v w : World) : Prop where
  books : BooksAt ctx w
  adds : AddsStraddle v.db.rows w.db.rows

/-- The commit of the durable record. -/
private theorem recorded_safe {v : World} (selection : StraddleStrikeSelection)
    (hw : BooksAt ctx w) (hv : LedgerKept v.db.rows w.db.rows) :
    (createDurableRecord ctx selection).Safe (fun _ => True) (Begun ctx v) w
      fun r w' => Begun ctx v w' ∧ ∀ d, r = .ok (some d) →
        DeskAt ctx .entryPending d.positionId d.ce.tradeId d.pe.tradeId w' := by
  have hkept : ∀ m, LedgerKept w.db.rows (w.interfere m).db.rows :=
    fun m => (waits_interfere w m).rows
  have hv' : ∀ m, LedgerKept v.db.rows (w.interfere m).db.rows :=
    fun m => Session.Frame.trans hv (hkept m)
  have hturn : ∀ m, Begun ctx v (w.interfere m) :=
    fun m => ⟨Books.kept hw (hkept m), addsStraddle_of_kept (hv' m)⟩
  refine Program.safe_unitOfWork ⟨hw, addsStraddle_of_kept hv⟩
    (fun m f _ _ => ⟨hturn m, nofun⟩) fun m _ _ => ?_
  refine (createDurableRecord_meets _ selection (hturn m).books).imp ?_
    fun e _ => ⟨hturn m, nofun⟩
  intro r db hdb
  obtain ⟨hbooks, hadds, hdesk⟩ := hdb
  refine ⟨⟨hbooks, .of_kept (hv' m) hadds⟩, fun d hd => ?_⟩
  cases hd
  exact hdesk d rfl

/-- The pre-gates write nothing, and the durable record is a straddle on
the desk. -/
theorem begin_safe (inputs : EntryInputs) (hw : BooksAt ctx w) :
    (begin ctx inputs).Safe (fun _ => True) (Begun ctx w) w fun r w' =>
      Begun ctx w w' ∧ ∀ d, r = .ok (.ok d) →
        DeskAt ctx .entryPending d.positionId d.ce.tradeId d.pe.tradeId w' := by
  have hkept : ∀ w', Waits LedgerKept w w' → Begun ctx w w' :=
    fun w' h => ⟨Books.kept hw h.rows, addsStraddle_of_kept h.rows⟩
  refine safe_begin (R := LedgerKept) ctx hkept
    (fun _ w' h => ⟨hkept w' h, nofun⟩) (fun _ w' _ h => ⟨hkept w' h, nofun⟩)
    fun selection w' h => ?_
  refine (recorded_safe selection (hkept w' h).books h.rows).mono
    fun r w'' hr => ?_
  obtain ⟨hbegun, hdesk⟩ := hr
  refine ⟨fun _ _ => ⟨hbegun, nofun⟩, fun _ _ _ => ⟨hbegun, nofun⟩,
    fun d hd => ⟨hbegun, fun d' hd' => ?_⟩⟩
  cases hd'
  exact hdesk d hd

/-- One run of `enter`, wherever it is cut off. -/
theorem books_enter (inputs : EntryInputs) (hw : BooksAt ctx w) :
    (enter ctx inputs).Safe (fun _ => True) (BooksAt ctx) w
      fun _ => BooksAt ctx := by
  unfold enter
  rw [Prog.safe_bind]
  refine (begin_safe inputs hw).imp (fun _ h => h.books) fun r w hr => ?_
  obtain ⟨hbegun, hdesk⟩ := hr
  cases r with
  | error e => exact hbegun.books
  | ok begun =>
      rw [Prog.andThen_ok]
      cases begun with
      | error result => exact hbegun.books
      | ok d => exact placeAndFinalize_safe d (hdesk d rfl)

end EntryLogic

end AlgoPlatform
