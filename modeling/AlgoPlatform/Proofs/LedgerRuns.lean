/-
The ledger over whole runs: the exit's half of it, and the theorem.

An exit works on one desk: the position stays EXIT_PENDING until the
last commit, each leg it closes is bought back at a positive price, and
a leg closed once stays closed. So when every leg reports closed, the
last commit totals two bought-back legs, whichever runs closed them.
-/
import Mathlib.Tactic.Ring
import AlgoPlatform.Proofs.Jobs
import AlgoPlatform.Proofs.Ledger

open Basis Basis.Session

namespace AlgoPlatform

variable {ctx : StrategyContext} {id a b : Nat} {w : World}
variable {leg : ExitLegIds}

/-- The trade is CLOSED. -/
def ClosedAt (i : Nat) (r : Rows) : Prop :=
  ∃ t : Trade, r.trades[i]? = some t ∧ t.status = .closed

/-- On an exit's desk the straddle stays, and so does a closed leg. -/
def ExitKept (ctx : StrategyContext) (id a b : Nat) (r r' : Rows) : Prop :=
  OnDesk ctx .exitPending id a b r →
    OnDesk ctx .exitPending id a b r' ∧ ∀ i, ClosedAt i r → ClosedAt i r'

theorem exitKept_of_ledgerKept {r r' : Rows} (h : LedgerKept r r') :
    ExitKept ctx id a b r r' := by
  intro hdesk
  refine ⟨hdesk.kept h, fun i hi => ?_⟩
  unfold ClosedAt
  rw [h.trades]
  exact hi

instance : BlindToOrders (ExitKept ctx id a b) where
  refl := fun _ => exitKept_of_ledgerKept ⟨rfl, rfl, rfl⟩
  trans := by
    intro r s t h h' hdesk
    obtain ⟨hdesk', hclosed⟩ := h hdesk
    obtain ⟨hdesk'', hclosed'⟩ := h' hdesk'
    exact ⟨hdesk'', fun i hi => hclosed' i (hclosed i hi)⟩
  orders := fun _ _ => exitKept_of_ledgerKept ⟨rfl, rfl, rfl⟩
  breaks := fun _ _ => exitKept_of_ledgerKept ⟨rfl, rfl, rfl⟩

theorem writesIntent_exitKept (i : Nat) :
    WritesIntent (ExitKept ctx id a b) i :=
  ⟨fun _ _ => exitKept_of_ledgerKept ⟨rfl, rfl, rfl⟩,
    fun _ => exitKept_of_ledgerKept ⟨rfl, rfl, rfl⟩⟩

-- ======================================================== closing a leg

/-- The columns `_record_close_fill` writes. -/
def Trade.close (t : Trade) (exitPrice : ℚ) (realizedPnl : Option ℚ) :
    Trade :=
  { t with exitPrice := some exitPrice, realizedPnl, status := .closed }

private theorem keepsLeg_close (exitPrice : ℚ) (realizedPnl : Option ℚ) :
    KeepsLeg (·.close exitPrice realizedPnl) :=
  ⟨fun _ => rfl, fun _ => rfl, fun _ => rfl⟩

/-- What a commit of `_record_close_fill` wrote: the leg's trade closed,
with the P&L of the row it read. -/
theorem closeTrade_meets (db : Db) (exitPrice : ℚ) :
    Meets (ExitLogic.closeTrade leg exitPrice) db
      (fun _ db' => ∃ t pnl, db.rows.trades[leg.tradeId]? = some t
        ∧ (∀ sold, t.entryPrice = some sold → pnl = some (db.rows.money
          (computeLegRealizedPnl sold exitPrice t.quantity)))
        ∧ LedgerKept (db.rows.setTrade leg.tradeId
            (·.close (db.rows.money exitPrice) pnl)) db'.rows)
      fun _ => True := by
  unfold ExitLogic.closeTrade PositionRepository.getTradeById
    PositionRepository.updateTrade
  rw [meets_bind, meets_fetch]
  cases ht : db.rows.trades[leg.tradeId]? with
  | none => trivial
  | some t =>
      simp only [meets_bind, meets_flush]
      refine ⟨fun _ => ?_, fun _ => trivial⟩
      refine (keeps_getIntent (R := LedgerKept) _ _).imp ?_ fun _ h => h
      intro _ db₁ hkept₁
      refine (keeps_markStatus ((writesIntent_ledgerKept _).status _) db₁).imp
        ?_ fun _ h => h
      intro _ db₂ hkept₂
      refine ⟨t, _, rfl, ?_, Session.Frame.trans hkept₁ hkept₂⟩
      intro sold hsold
      rw [hsold]

/-- A leg of the desk closed at a positive price is bought back. -/
theorem closesLeg_exitKept (hleg : leg.tradeId = a ∨ leg.tradeId = b) :
    ClosesLeg (ExitKept ctx id a b) leg := by
  intro price hprice db
  refine (closeTrade_meets db price).imp ?_ fun _ h => h
  intro _ db' hdb'
  obtain ⟨t, pnl, ht, hpnl, hkept⟩ := hdb'
  refine Session.Frame.trans (R := ExitKept ctx id a b) ?_
    (exitKept_of_ledgerKept hkept)
  intro hdesk
  constructor
  · obtain ⟨p, ce, pe, hp, hday, hstate, hlegs, hfigures⟩ := hdesk
    refine ⟨p, _, _, hp, hday, hstate,
      hlegs.setTrade (keepsLeg_close (db.rows.money price) pnl) leg.tradeId, ?_⟩
    show Figures db.rows.money p _ _
    unfold Figures at hfigures ⊢
    rw [hstate] at hfigures ⊢
    obtain ⟨⟨soldCe, soldPe, target, stoploss, hce, hpe, hrest⟩, hceBack,
      hpeBack⟩ := hfigures
    have hback : ∀ {x : Trade} {sold}, t = x → x.entryPrice = some sold →
        (x.close (db.rows.money price) pnl).BoughtBack db.rows.money := by
      intro x sold hx hsold
      subst hx
      exact ⟨rfl, sold, price, hsold, rfl, hprice, hpnl sold hsold⟩
    rcases hleg with hleg | hleg <;> rw [hleg] at ht ⊢
    · have htce := Option.some_inj.1 (ht.symm.trans hlegs.trade_ce)
      rw [if_pos rfl, if_neg hlegs.ne.symm]
      exact ⟨⟨soldCe, soldPe, target, stoploss, hce, hpe, hrest⟩,
        fun _ => hback htce hce, hpeBack⟩
    · have htpe := Option.some_inj.1 (ht.symm.trans hlegs.trade_pe)
      rw [if_pos rfl, if_neg hlegs.ne]
      exact ⟨⟨soldCe, soldPe, target, stoploss, hce, hpe, hrest⟩, hceBack,
        fun _ => hback htpe hpe⟩
  · intro i hi
    obtain ⟨x, hx, hclosed⟩ := hi
    by_cases hsame : leg.tradeId = i
    · refine ⟨x.close (db.rows.money price) pnl, ?_, rfl⟩
      rw [Rows.setTrade_trades, hsame, List.getElem?_modify_eq, hx]
      rfl
    · refine ⟨x, ?_, hclosed⟩
      rw [Rows.setTrade_trades, List.getElem?_modify_ne _ _ hsame]
      exact hx

namespace ExitLogic

/-- A leg reported CLOSED is CLOSED. -/
def Reports (leg : ExitLegIds) (result : LegCloseResult) (w : World) : Prop :=
  result.outcome = .closed → ClosedAt leg.tradeId w.db.rows

private theorem ensures_open {outcome : LegCloseOutcome} {reason : String}
    (h : outcome ≠ .closed) :
    Prog.Ensures (Reports leg) (pure { outcome, reason } :
      Program LegCloseResult) :=
  Prog.ensures_pure fun _ h' => absurd h' h

private theorem closeOnComplete_reports (brokerOrderId : String)
    (bo : BrokerOrder) (reason : String) :
    Prog.Ensures (Reports leg)
      (closeOnComplete leg brokerOrderId bo reason) := by
  unfold closeOnComplete closeOnComplete.withoutPrice
  cases bo.averagePrice with
  | none => exact ensures_open nofun
  | some price =>
      dsimp only
      refine Prog.ensures_ite (ensures_open nofun) ?_
      refine Prog.ensures_bind (R := fun _ w =>
        ClosedAt leg.tradeId w.db.rows) ?_ fun _ w hclosed => ?_
      · refine Prog.ensures_last fun _ =>
          Program.ensures_unitOfWork fun _ w => ?_
        refine (closeTrade_meets w.db price).imp ?_ fun _ h => h
        intro _ db hdb
        obtain ⟨t, pnl, ht, -, hkept⟩ := hdb
        refine ⟨t.close (w.db.rows.money price) pnl, ?_, rfl⟩
        rw [hkept.trades, Rows.setTrade_trades, List.getElem?_modify_eq, ht]
        rfl
      · intro result hresult
        cases hresult
        exact fun _ => hclosed

private theorem confirmClose_reports (brokerOrderId : String) :
    Prog.Ensures (Reports leg) (confirmClose ctx leg brokerOrderId) := by
  refine Prog.ensures_last fun _ => Prog.ensures_last fun polled => ?_
  cases polled with
  | none => exact ensures_open nofun
  | some terminal =>
      exact Prog.ensures_ite (closeOnComplete_reports _ _ _)
        (Prog.ensures_last fun _ => ensures_open nofun)

private theorem sendClose_reports (request : PlaceOrderRequest)
    (attempts : Nat) : ∀ reason,
      Prog.Ensures (Reports leg) (sendClose ctx leg request attempts reason) := by
  induction attempts with
  | zero => exact fun _ => Prog.ensures_last fun _ => ensures_open nofun
  | succ attempts ih =>
      intro reason
      refine Prog.ensures_last fun r => ?_
      cases r with
      | ok id => exact confirmClose_reports id
      | error e =>
          obtain ⟨kind, message⟩ := e
          cases kind with
          | connection => exact ih _
          | rateLimitExceeded => exact ih _
          | orderRejected =>
              exact Prog.ensures_last fun _ => ensures_open nofun
          | invalidOrderRequest =>
              exact Prog.ensures_last fun _ => ensures_open nofun
          | timeout => exact ensures_open nofun
          | _ => exact Prog.ensures_throw _

private theorem adoptExistingOrder_reports (tag : String) :
    Prog.Ensures (fun r w => ∀ result, r = some result →
      Reports leg result w) (adoptExistingOrder ctx leg tag) := by
  have hopen : ∀ {outcome : LegCloseOutcome} {reason : String},
      outcome ≠ .closed → Prog.Ensures (fun r w => ∀ result,
        r = some result → Reports leg result w)
        (pure (some { outcome, reason }) : Program _) := by
    intro outcome reason hne
    refine Prog.ensures_pure fun _ result hresult => ?_
    cases hresult
    exact fun h => absurd h hne
  refine Prog.ensures_last fun found => ?_
  cases found with
  | error e => exact hopen nofun
  | ok found =>
      cases found with
      | none => exact Prog.ensures_pure fun _ result h => nomatch h
      | some existing =>
          refine Prog.ensures_last fun polled => ?_
          cases polled with
          | none => exact hopen nofun
          | some terminal =>
              refine Prog.ensures_ite ?_ (hopen nofun)
              refine Prog.ensures_bind (closeOnComplete_reports _ _ _)
                fun result w hresult => ?_
              intro adopted hadopted result' hresult'
              cases hadopted
              cases hresult'
              exact hresult

private theorem inspectLeg_reports (db : Db) :
    Meets (inspectLeg leg) db
      (fun r db' => ∀ result, r = .error result → result.outcome = .closed →
        ClosedAt leg.tradeId db'.rows)
      fun _ => True := by
  unfold inspectLeg PositionRepository.getTradeById
  rw [meets_bind, meets_fetch]
  cases ht : db.rows.trades[leg.tradeId]? with
  | none => trivial
  | some t =>
      simp only [meets_ite, meets_pure, meets_bind]
      refine ⟨fun hclosed => ?_, fun _ => ?_⟩
      · intro result _ _
        exact ⟨t, ht, hclosed⟩
      · refine (keeps_getIntent (R := LedgerKept) _ db).imp
          (fun _ _ _ result h => ?_) fun _ h => h
        cases h

/-- A leg reported CLOSED is CLOSED, whichever way it got there. -/
theorem closeLeg_reports (ctx : StrategyContext) (leg : ExitLegIds) :
    Prog.Ensures (Reports leg) (closeLeg ctx leg) := by
  have hplace : ∀ tag, Prog.Ensures (Reports leg)
      (placeCloseWithRetries ctx leg tag) :=
    fun tag => Prog.ensures_last fun _ => Prog.ensures_last fun request =>
      sendClose_reports request _ _
  refine Prog.ensures_bind (R := fun r w => ∀ result, r = .error result →
    Reports leg result w) (Program.ensures_unitOfWork
      fun _ w => inspectLeg_reports w.db) fun inspected w hinspected => ?_
  cases inspected with
  | error result =>
      intro result' hresult'
      cases hresult'
      exact hinspected _ rfl
  | ok attempted =>
      refine Prog.ensures_ite ?_ (hplace _) w
      refine Prog.ensures_bind (adoptExistingOrder_reports _)
        fun adopted w hadopted => ?_
      cases adopted with
      | none => exact hplace _ w
      | some result =>
          intro result' hresult'
          cases hresult'
          exact hadopted _ rfl

-- ============================================================== the exit

/-- An exit's desk. -/
abbrev ExitDesk (ctx : StrategyContext) (id a b : Nat) : World → Prop :=
  DeskAt ctx .exitPending id a b

private theorem closeLeg_ledger (hleg : leg.tradeId = a ∨ leg.tradeId = b)
    (hw : ExitDesk ctx id a b w) :
    (closeLeg ctx leg).Safe (fun _ => True) (BooksAt ctx) w fun r w' =>
      ExitDesk ctx id a b w'
        ∧ (∀ i, ClosedAt i w.db.rows → ClosedAt i w'.db.rows)
        ∧ ∀ result, r = .ok result → Reports leg result w' := by
  have hkept : Prog.Along (OnRows (ExitKept ctx id a b)) (closeLeg ctx leg) :=
    takes_closeLeg (R := ExitKept ctx id a b) ctx
      (writesIntent_exitKept leg.intentId)
      (ClosesLeg.under (R := ExitKept ctx id a b) (closesLeg_exitKept hleg))
  refine ((hkept.safe w).and ((closeLeg_reports ctx leg).safe w)).imp ?_ ?_
  · intro w' h
    exact OnDesk.books (h.1 hw).1
  · intro r w' h
    exact ⟨(h.1 hw).1, (h.1 hw).2, h.2⟩

/-- Every leg that reports CLOSED is CLOSED once all legs are done. -/
private theorem closeLegs_ledger (legs : List ExitLegIds) :
    ∀ w, (∀ leg ∈ legs, leg.tradeId = a ∨ leg.tradeId = b) →
      ExitDesk ctx id a b w →
      (closeLegs ctx legs).Safe (fun _ => True) (BooksAt ctx) w fun r w' =>
        ExitDesk ctx id a b w'
          ∧ (∀ i, ClosedAt i w.db.rows → ClosedAt i w'.db.rows)
          ∧ ∀ results, r = .ok results →
            (results.all fun r => r.2.outcome = .closed) = true →
            ∀ leg ∈ legs, ClosedAt leg.tradeId w'.db.rows := by
  induction legs with
  | nil =>
      intro w _ hw
      refine ⟨hw, fun _ h => h, fun results _ _ leg hleg => ?_⟩
      exact absurd hleg List.not_mem_nil
  | cons leg legs ih =>
      intro w hlegs hw
      unfold closeLegs
      rw [Prog.safe_bind]
      refine (closeLeg_ledger (hlegs leg (List.mem_cons_self ..)) hw).mono
        fun r w₁ hr => ?_
      obtain ⟨hw₁, hkept₁, hreports⟩ := hr
      cases r with
      | error e => exact ⟨hw₁, hkept₁, nofun⟩
      | ok result =>
          rw [Prog.andThen_ok, Prog.safe_bind]
          refine (ih w₁ (fun l hl => hlegs l (List.mem_cons_of_mem _ hl))
            hw₁).mono fun r w₂ hr => ?_
          obtain ⟨hw₂, hkept₂, hrest⟩ := hr
          have hkept : ∀ i, ClosedAt i w.db.rows → ClosedAt i w₂.db.rows :=
            fun i hi => hkept₂ i (hkept₁ i hi)
          cases r with
          | error e => exact ⟨hw₂, hkept, nofun⟩
          | ok results =>
              refine ⟨hw₂, hkept, ?_⟩
              intro all hall hclosed leg' hleg'
              cases hall
              rw [List.all_cons, Bool.and_eq_true, decide_eq_true_eq] at hclosed
              rcases List.mem_cons.1 hleg' with hleg' | hleg'
              · rw [hleg']
                exact hkept₂ _ (hreports result rfl hclosed.1)
              · exact hrest results rfl hclosed.2 leg' hleg'

/-- The two trades of a desk, in one order or the other. -/
private theorem trades_of_desk {r : Rows} {ce pe : Trade}
    (hlegs : Straddle r id a b ce pe) (scan : List Nat) :
    ((arrange scan ((select (·.positionId = id) r.trades).map
      Prod.fst)).filterMap fun i => r.trades[i]?.map fun t => (i, t))
        = [(a, ce), (b, pe)]
      ∨ ((arrange scan ((select (·.positionId = id) r.trades).map
        Prod.fst)).filterMap fun i => r.trades[i]?.map fun t => (i, t))
          = [(b, pe), (a, ce)] := by
  have hperm : (arrange scan ((select (·.positionId = id) r.trades).map
      Prod.fst)).Perm [a, b] := by
    refine (arrange_perm (select_keys_nodup _ _)).trans ?_
    rw [hlegs.legs]
    exact List.Perm.refl _
  obtain ⟨x, y, hxy⟩ := List.length_eq_two.1 hperm.length_eq
  rw [hxy] at hperm ⊢
  have hx : x = a ∨ x = b := by
    have hmem := hperm.mem_iff.1 (List.mem_cons_self (a := x) (l := [y]))
    simpa using hmem
  rcases hx with hx | hx
  · subst hx
    have hy : y = b := by simpa using hperm.cons_inv
    left
    simp [hy, hlegs.trade_ce, hlegs.trade_pe]
  · subst hx
    have hy : y = a := by
      have hswap := hperm.trans (List.Perm.swap x a [])
      simpa using hswap.cons_inv
    right
    simp [hy, hlegs.trade_ce, hlegs.trade_pe]

theorem prepareLeg_meets (db : Db) (tradeId : Nat) (t : Trade) :
    Meets (prepareLeg ctx tradeId t) db
      (fun leg db' => leg.tradeId = tradeId ∧ leg.optionType = t.optionType
        ∧ LedgerKept db.rows db'.rows)
      fun _ => True := by
  unfold prepareLeg
  rw [meets_bind, meets_lift]
  refine ⟨fun tag _ => ?_, fun _ _ => trivial⟩
  rw [meets_bind]
  exact (keeps_getOrCreateIntent addsIntents_ledgerKept db).imp
    (fun _ _ hkept => ⟨rfl, rfl, hkept⟩) fun _ h => h

/-- Two trades of two types make two legs. -/
private theorem prepareLegs_meets (db : Db) {i j : Nat} {t u : Trade}
    (hne : t.optionType ≠ u.optionType) :
    Meets (prepareLegs ctx [(i, t), (j, u)] []) db
      (fun legs db' => legs.map (·.tradeId) = [i, j]
        ∧ LedgerKept db.rows db'.rows)
      fun _ => True := by
  unfold prepareLegs
  rw [meets_bind]
  refine (prepareLeg_meets db i t).imp ?_ fun _ h => h
  intro leg db₁ hleg
  obtain ⟨hid, htype, hkept₁⟩ := hleg
  unfold prepareLegs
  rw [meets_bind]
  refine (prepareLeg_meets db₁ j u).imp ?_ fun _ h => h
  intro leg' db₂ hleg'
  obtain ⟨hid', htype', hkept₂⟩ := hleg'
  refine ⟨?_, Session.Frame.trans hkept₁ hkept₂⟩
  have hput : putLeg (putLeg [] leg) leg' = [leg, leg'] := by
    simp [putLeg, htype, htype', hne]
  rw [hput, List.map_cons, List.map_cons, List.map_nil, hid, hid']

/-- OPEN becomes EXIT_PENDING, and the entry's figures stay. -/
private theorem beginExit_meets {db : Db} {p : Position} {reason : ExitReason}
    {actor : StateTransitionActor}
    (hexitable : p.state = .open ∨ p.state = .exitPending)
    (hdesk : OnDesk ctx p.state id a b db.rows) :
    Meets (beginExit id p reason actor) db
      (fun _ db' => OnDesk ctx .exitPending id a b db'.rows)
      fun _ => True := by
  unfold beginExit
  rw [meets_ite]
  refine ⟨fun hopen => ?_, fun hnot => ?_⟩
  · refine (transition_meets db _ _ _ _).imp ?_ fun _ h => h
    intro _ db' hdb'
    obtain ⟨-, -, -, hpositions, htrades, hcolumns⟩ := hdb'
    obtain ⟨q, ce, pe, hq, hday, hstate, hlegs, hfigures⟩ := hdesk
    unfold Figures at hfigures
    rw [hstate, hopen] at hfigures
    obtain ⟨hentry, hce, hpe⟩ := hfigures
    rw [OnDesk, Rows.money, hcolumns]
    refine ⟨{ q with state := .exitPending }, ce, pe, ?_, hday, rfl,
      { hlegs with legs := htrades ▸ hlegs.legs }, hentry, ?_, ?_⟩
    · rw [hpositions, List.getElem?_modify_eq, hq]
      rfl
    · intro hclosed
      rw [hce] at hclosed
      cases hclosed
    · intro hclosed
      rw [hpe] at hclosed
      cases hclosed
  · have hpending : p.state = .exitPending := hexitable.resolve_left hnot
    rw [hpending] at hdesk
    exact hdesk

/-- The exit record: its desk, and one leg for each of its trades. -/
private theorem prepareSession_meets {db : Db} (hbooks : Books ctx db.rows)
    (reason : ExitReason) (actor : StateTransitionActor) (scan : List Nat) :
    Meets (prepareSession ctx reason actor scan) db
      (fun r db' => (∀ result, r = .error result → Books ctx db'.rows)
        ∧ ∀ prepared, r = .ok prepared → ∃ a b,
          OnDesk ctx .exitPending prepared.positionId a b db'.rows
            ∧ (prepared.legs.map (·.tradeId)).Perm [a, b])
      fun _ => True := by
  unfold prepareSession PositionRepository.getByInstanceAndDate
  simp only [meets_bind, meets_fetch, meets_scalarOneOrNone, meets_pure]
  refine ⟨fun _ => ⟨fun _ _ => hbooks, fun _ h => (by cases h)⟩,
    fun row hrow => ?_, fun _ => trivial⟩
  obtain ⟨positionId, p⟩ := row
  have hmem : (positionId, p) ∈ select (fun p =>
      decide (p.strategyInstanceId = ctx.instanceId ∧ p.tradeDate = ctx.today))
      db.rows.positions := by
    rw [hrow]
    exact List.mem_singleton.2 rfl
  obtain ⟨hp, hday⟩ := mem_select.1 hmem
  obtain ⟨a, b, hdesk⟩ := hbooks positionId p hp (of_decide_eq_true hday)
  simp only [meets_ite, meets_pure, meets_bind]
  refine ⟨fun _ => ⟨fun _ _ => hbooks, fun _ h => (by cases h)⟩, fun _ =>
    ⟨fun _ => ⟨fun _ _ => hbooks, fun _ h => (by cases h)⟩,
      fun hexitable => ?_⟩⟩
  have hstates := Decidable.or_iff_not_not_and_not.2 hexitable
  refine (beginExit_meets hstates hdesk).imp ?_ fun _ h => h
  intro _ db₁ hdesk₁
  unfold PositionRepository.listTradesForPosition
  rw [meets_fetch]
  obtain ⟨q, ce, pe, hq, hqday, hstate, hlegs, hfigures⟩ := hdesk₁
  have hfinal : OnDesk ctx .exitPending positionId a b db₁.rows :=
    ⟨q, ce, pe, hq, hqday, hstate, hlegs, hfigures⟩
  have htypes : ce.optionType ≠ pe.optionType := by
    rw [hlegs.isCe, hlegs.isPe]
    decide
  rcases trades_of_desk hlegs scan with htrades | htrades
  · rw [htrades]
    refine (prepareLegs_meets db₁ htypes).imp ?_ fun _ h => h
    intro legs db₂ hlegs₂
    refine ⟨fun _ h => (by cases h), fun prepared hprepared => ?_⟩
    cases hprepared
    exact ⟨a, b, hfinal.kept hlegs₂.2, by rw [hlegs₂.1]⟩
  · rw [htrades]
    refine (prepareLegs_meets db₁ htypes.symm).imp ?_ fun _ h => h
    intro legs db₂ hlegs₂
    refine ⟨fun _ h => (by cases h), fun prepared hprepared => ?_⟩
    cases hprepared
    exact ⟨a, b, hfinal.kept hlegs₂.2, by
      rw [hlegs₂.1]
      exact List.Perm.swap a b []⟩

/-- A bought-back leg is priced. -/
private theorem pricedLegs_cons {positionId i : Nat} {t : Trade}
    {bought pnl : ℚ} (hbought : t.exitPrice = some bought)
    (hpnl : t.realizedPnl = some pnl) (trades : List (Nat × Trade)) :
    pricedLegs ctx positionId ((i, t) :: trades) = (do
      let legs ← pricedLegs ctx positionId trades
      pure ((bought, pnl) :: legs)) := by
  rw [pricedLegs, hbought, hpnl]

/-- Whatever the order of the two legs, their sums are the same. -/
private theorem pricedLegs_desk {ce pe : Trade} {boughtCe boughtPe pnlCe pnlPe : ℚ}
    (hce : ce.exitPrice = some boughtCe) (hpe : pe.exitPrice = some boughtPe)
    (hceP : ce.realizedPnl = some pnlCe) (hpeP : pe.realizedPnl = some pnlPe)
    (positionId : Nat) {trades : List (Nat × Trade)}
    (h : trades = [(a, ce), (b, pe)] ∨ trades = [(b, pe), (a, ce)]) :
    ∃ legs, pricedLegs ctx positionId trades = .ok legs
      ∧ (legs.map Prod.fst).sum = boughtCe + boughtPe
      ∧ (legs.map Prod.snd).sum = pnlCe + pnlPe := by
  rcases h with h | h
  · refine ⟨[(boughtCe, pnlCe), (boughtPe, pnlPe)], ?_, by simp, by simp⟩
    rw [h, pricedLegs_cons hce hceP, pricedLegs_cons hpe hpeP]
    rfl
  · refine ⟨[(boughtPe, pnlPe), (boughtCe, pnlCe)], ?_,
      by simp [add_comm], by simp [add_comm]⟩
    rw [h, pricedLegs_cons hpe hpeP, pricedLegs_cons hce hceP]
    rfl

/-- Two closed legs on the desk, and the totals are theirs. -/
private theorem closePosition_meets {db : Db}
    (hdesk : OnDesk ctx .exitPending id a b db.rows)
    (ha : ClosedAt a db.rows) (hb : ClosedAt b db.rows)
    (reason : ExitReason) (actor : StateTransitionActor) (scan : List Nat) :
    Meets (closePosition ctx id reason actor scan) db
      (fun _ db' => Books ctx db'.rows) fun _ => True := by
  obtain ⟨p, ce, pe, hp, hday, hstate, hlegs, hfigures⟩ := hdesk
  unfold Figures at hfigures
  rw [hstate] at hfigures
  obtain ⟨hentry, hceBack, hpeBack⟩ := hfigures
  have hce : ce.BoughtBack db.rows.money := by
    obtain ⟨t, ht, hclosed⟩ := ha
    obtain rfl := Option.some_inj.1 (ht.symm.trans hlegs.trade_ce)
    exact hceBack hclosed
  have hpe : pe.BoughtBack db.rows.money := by
    obtain ⟨t, ht, hclosed⟩ := hb
    obtain rfl := Option.some_inj.1 (ht.symm.trans hlegs.trade_pe)
    exact hpeBack hclosed
  have hboth := And.intro hce hpe
  obtain ⟨⟨-, soldCe, paidCe, -, hboughtCe, -, hpnlCe⟩,
    -, soldPe, paidPe, -, hboughtPe, -, hpnlPe⟩ := hboth
  unfold closePosition PositionRepository.getById
    PositionRepository.listTradesForPosition PositionRepository.updateMoney
  rw [meets_bind, meets_fetch, hp]
  dsimp only
  rw [meets_bind, meets_fetch, meets_bind, meets_lift]
  have htrades := trades_of_desk hlegs scan
  obtain ⟨legs, hpriced, hexit, hrealized⟩ :=
    pricedLegs_desk hboughtCe hboughtPe hpnlCe hpnlPe id htrades
  rw [hpriced]
  refine ⟨fun legs' hlegs' => ?_, fun _ h => nomatch h⟩
  cases hlegs'
  rw [meets_bind, meets_flush]
  refine ⟨fun _ => ?_, fun _ => trivial⟩
  rw [meets_bind]
  refine (transition_meets _ _ _ _ _).imp ?_ fun _ h => h
  intro _ db' hdb'
  obtain ⟨-, -, -, hpositions, htrades, hcolumns⟩ := hdb'
  have hmoney : db'.rows.money = db.rows.money :=
    congrArg MoneyColumns.keep hcolumns
  suffices h : OnDesk ctx .closed id a b db'.rows from h.books
  refine
    ⟨{ p with
        combinedExitPremium := some (db.rows.money (legs.map Prod.fst).sum),
        realizedPnl := some (db.rows.money (legs.map Prod.snd).sum),
        exitReason := some reason, state := .closed },
      ce, pe, ?_, hday, rfl, { hlegs with legs := htrades ▸ hlegs.legs }, ?_⟩
  · rw [hpositions, List.getElem?_modify_eq, Rows.setPosition_positions,
      List.getElem?_modify_eq, hp]
    rfl
  · rw [hmoney]
    exact ⟨hentry, hce, hpe, _, _, _, _, hboughtCe, hboughtPe, hpnlCe, hpnlPe,
      congrArg (some ∘ db.rows.money) hexit,
      congrArg (some ∘ db.rows.money) hrealized⟩

/-- The last phase: totals if every leg is closed, else ERROR. -/
private theorem conclude_safe {prepared : PreparedExit} {reason : ExitReason}
    {results : List (OptionType × LegCloseResult)}
    (hw : ExitDesk ctx prepared.positionId a b w)
    (hall : (results.all fun r => r.2.outcome = .closed) = true →
      ClosedAt a w.db.rows ∧ ClosedAt b w.db.rows) :
    (conclude ctx prepared reason results).Safe (fun _ => True) (BooksAt ctx)
      w fun _ => BooksAt ctx := by
  unfold conclude
  split_ifs with hclosed
  · obtain ⟨ha, hb⟩ := hall hclosed
    unfold finalizeClosed
    rw [Prog.safe_tryCatch, Prog.safe_bind]
    have hkept : ∀ m, LedgerKept w.db.rows (w.interfere m).db.rows :=
      fun m => (waits_interfere w m).rows
    have hclosedAt : ∀ {i} m, ClosedAt i w.db.rows →
        ClosedAt i (w.interfere m).db.rows := by
      intro i m hi
      unfold ClosedAt
      rw [(hkept m).trades]
      exact hi
    -- a failed CLOSED write leaves the books and records a break
    have hbreak : ∀ m, (do
        recordBreak prepared.positionId .other
        pure { outcome := .persistenceDivergence,
               message := "both legs closed but CLOSED persistence failed; "
                 ++ "reconciliation break recorded",
               positionId := some prepared.positionId } :
          Program ExitResult).Safe (fun _ => True) (BooksAt ctx)
          (w.interfere m) fun _ => BooksAt ctx :=
      fun m => books_along (Prog.along_bind along_recordBreak fun _ =>
        Prog.along_pure _) (OnDesk.kept hw (hkept m)).books
    refine Program.safe_unitOfWork (OnDesk.books hw)
      (fun m f _ _ => hbreak m) fun m _ _ => ?_
    exact (closePosition_meets (OnDesk.kept hw (hkept m)) (hclosedAt m ha)
      (hclosedAt m hb) _ _ _).imp (fun _ _ h => h) fun _ _ => hbreak m
  · exact books_along (Prog.along_bind along_recordBreak fun _ =>
      Prog.along_bind (books_failToError _ _ _) fun _ => Prog.along_pure _)
      (OnDesk.books hw)

/-- One run of `exit`, wherever it is cut off. -/
theorem books_exit (acquired : Bool) (reason : ExitReason) (w : World)
    (hw : BooksAt ctx w) :
    (exit ctx acquired reason).Safe (fun _ => True) (BooksAt ctx) w
      fun _ => BooksAt ctx := by
  unfold exit
  cases acquired with
  | false => exact hw
  | true =>
      simp only [if_true, Prog.safe_bind]
      have hturn : ∀ m, BooksAt ctx (w.interfere m) := fun m =>
        Books.kept hw (waits_interfere w m).rows
      refine Program.safe_unitOfWork hw (fun m f _ _ => hturn m)
        fun m _ _ => ?_
      refine (prepareSession_meets (hturn m) _ _ _).imp ?_ fun _ _ => hturn m
      intro r db hr
      obtain ⟨hended, hprepared⟩ := hr
      rw [Prog.andThen_ok]
      cases r with
      | error result => exact hended result rfl
      | ok prepared =>
          obtain ⟨a, b, hdesk, hlegs⟩ := hprepared prepared rfl
          have hmem : ∀ {i}, i ∈ [a, b] ↔
              ∃ leg ∈ prepared.legs, leg.tradeId = i := by
            intro i
            rw [← hlegs.mem_iff, List.mem_map]
          simp only [Prog.safe_bind]
          refine (closeLegs_ledger prepared.legs { w.interfere m with db }
            (fun leg hleg => ?_) hdesk).mono fun r w' hr => ?_
          · have hin := hmem.2 ⟨leg, hleg, rfl⟩
            simpa using hin
          · obtain ⟨hw', -, hreports⟩ := hr
            cases r with
            | error e => exact OnDesk.books hw'
            | ok results =>
                refine conclude_safe hw' fun hall => ?_
                have hclosed := hreports results rfl hall
                obtain ⟨l, hl, hla⟩ := hmem.1 (List.mem_cons_self (a := a))
                obtain ⟨l', hl', hlb⟩ := hmem.1
                  (List.mem_cons_of_mem a (List.mem_singleton.2 rfl))
                exact ⟨hla ▸ hclosed l hl, hlb ▸ hclosed l' hl'⟩

end ExitLogic

-- =================================================================== runs

/-- Any run keeps the books. -/
theorem books_run (hw : BooksAt ctx w) (ss : List Start) :
    BooksAt ctx (w.run ctx ss) := by
  refine World.run_safe (C := fun _ => True) (J := fun _ => True) ?_ ss
    (fun _ _ => trivial) (fun _ _ _ _ => trivial) w hw
  intro job w _ hw
  cases job with
  | enter inputs =>
      show (discard (EntryLogic.enter ctx inputs)).Safe _ _ _ _
      rw [Prog.safe_discard]
      exact EntryLogic.books_enter inputs hw
  | exit acquired reason =>
      show (discard (ExitLogic.exit ctx acquired reason)).Safe _ _ _ _
      rw [Prog.safe_discard]
      exact ExitLogic.books_exit acquired reason w hw
  | recover acquired =>
      show (discard (Strategy1.recover ctx acquired)).Safe _ _ _ _
      rw [Prog.safe_discard]
      exact Strategy1.recover_safe (R := BooksKept ctx) ctx
        (fun hwait h => hwait.rows h)
        books_markPositionErrorAndFreeze ExitLogic.books_exit acquired w hw

/-- The money of an OPEN position: both legs OPEN and sold at positive
prices, and their sum between the two thresholds. -/
structure OpenLedger (p : Position) (ce pe : Trade) : Prop where
  status : ce.status = .open ∧ pe.status = .open
  figures : ∃ soldCe soldPe target stoploss,
    ce.entryPrice = some soldCe ∧ pe.entryPrice = some soldPe
      ∧ 0 < soldCe ∧ 0 < soldPe
      ∧ p.combinedEntryPremium = some (soldCe + soldPe)
      ∧ p.targetPremium = some target ∧ p.stoplossPremium = some stoploss
      ∧ target < soldCe + soldPe ∧ soldCe + soldPe < stoploss

/-- The money of a CLOSED position: both legs CLOSED and bought back at
positive prices, and the totals of both, each leg counted once. -/
structure ClosedLedger (p : Position) (ce pe : Trade) : Prop where
  status : ce.status = .closed ∧ pe.status = .closed
  figures : ∃ soldCe soldPe boughtCe boughtPe,
    ce.entryPrice = some soldCe ∧ pe.entryPrice = some soldPe
      ∧ ce.exitPrice = some boughtCe ∧ pe.exitPrice = some boughtPe
      ∧ 0 < boughtCe ∧ 0 < boughtPe
      ∧ p.combinedEntryPremium = some (soldCe + soldPe)
      ∧ p.combinedExitPremium = some (boughtCe + boughtPe)
      ∧ p.realizedPnl = some ((soldCe - boughtCe) * ce.quantity
        + (soldPe - boughtPe) * pe.quantity)
      ∧ p.realizedPnl = some ((soldCe + soldPe - (boughtCe + boughtPe))
        * ce.quantity)

/-- On columns that lose no digit the figures of a CLOSED position are its
ledger. -/
theorem Figures.closed {p : Position} {ce pe : Trade}
    (h : Figures MoneyColumns.exact.keep p ce pe) (hstate : p.state = .closed)
    (hquantity : ce.quantity = pe.quantity) : ClosedLedger p ce pe := by
  unfold Figures at h
  rw [hstate] at h
  simp only [EntryFigures, Trade.BoughtBack, ExitTotals,
    MoneyColumns.keep_exact] at h
  obtain ⟨⟨soldCe, soldPe, _, _, hce, hpe, -, -, hentry, -⟩,
    ⟨hceClosed, sold, bought, hsold, hbought, hpos, hpnl⟩,
    ⟨hpeClosed, sold', bought', hsold', hbought', hpos', hpnl'⟩,
    boughtCe, boughtPe, pnlCe, pnlPe, hceExit, hpeExit, hceP, hpeP, hexit,
    hrealized⟩ := h
  obtain rfl := Option.some_inj.1 (hce.symm.trans hsold)
  obtain rfl := Option.some_inj.1 (hpe.symm.trans hsold')
  obtain rfl := Option.some_inj.1 (hceExit.symm.trans hbought)
  obtain rfl := Option.some_inj.1 (hpeExit.symm.trans hbought')
  obtain rfl := Option.some_inj.1 (hceP.symm.trans hpnl)
  obtain rfl := Option.some_inj.1 (hpeP.symm.trans hpnl')
  refine ⟨⟨hceClosed, hpeClosed⟩, soldCe, soldPe, boughtCe, boughtPe, hce, hpe,
    hceExit, hpeExit, hpos, hpos', hentry, hexit, hrealized, ?_⟩
  rw [hrealized, hquantity]
  unfold computeLegRealizedPnl
  congr 1
  ring

/-- What the rows owe a position: a CE and a PE of one quantity, and in
OPEN and in CLOSED the right money. -/
def Ledger (r : Rows) (id : Nat) (p : Position) : Prop :=
  ∃ a b ce pe, select (·.positionId = id) r.trades = [(a, ce), (b, pe)]
    ∧ ce.optionType = .ce ∧ pe.optionType = .pe ∧ ce.quantity = pe.quantity
    ∧ (p.state = .open → OpenLedger p ce pe)
    ∧ (p.state = .closed → ClosedLedger p ce pe)

/-- The columns stay what they are. -/
def SameColumns (r r' : Rows) : Prop := r'.columns = r.columns

instance : BlindToOrders SameColumns where
  refl := fun _ => rfl
  trans := fun h h' => h'.trans h
  orders := fun _ _ => rfl
  breaks := fun _ _ => rfl

theorem allowsTrading_sameColumns : AllowsTrading SameColumns where
  intents := fun _ _ => rfl
  trades := fun _ _ _ => rfl
  intent := fun _ => ⟨fun _ _ => rfl, fun _ => rfl⟩
  trade := fun _ _ _ _ => rfl
  inst := fun _ _ _ => rfl
  position := fun _ _ _ _ => rfl
  transition := by
    intro id toState actor reason db
    refine (transition_meets db id toState actor reason).imp
      (fun _ _ h => ?_) fun _ h => h
    obtain ⟨-, -, -, -, -, hcolumns⟩ := h
    exact hcolumns

theorem columns_run (ctx : StrategyContext) (w : World) (ss : List Start) :
    (w.run ctx ss).db.rows.columns = w.db.rows.columns := by
  have hentry : AllowsEntry SameColumns ctx := by
    intro selection
    refine keeps_getOrCreate (keeps_getByInstanceAndDate _ _) ?_
    refine keeps_bind (keeps_fetch _) fun _ => ?_
    exact keeps_bind (keeps_flush (R := SameColumns) fun _ => rfl) fun _ =>
      keeps_pure _
  refine World.run_safe (C := fun _ => True) (J := fun _ => True)
    (I := fun w' => w'.db.rows.columns = w.db.rows.columns) ?_ ss
    (fun _ _ => trivial) (fun _ _ _ _ => trivial) w rfl
  intro job w' _ hw'
  have hjob : Prog.Along (OnRows SameColumns) (job.program ctx) :=
    allowsTrading_sameColumns.cycles.bears.job ctx hentry job
  exact (hjob.safe w').imp (fun _ h => h.trans hw') fun _ _ h => h.trans hw'

/-- Over every run of entries, exits and recoveries on the day, crashed
anywhere, with any broker and any pushes, every position of the day has
its ledger, in rationals that no column rounds. -/
theorem ledger_holds (ctx : StrategyContext) (w : World)
    (hexact : w.db.rows.columns = .exact)
    (hnone : ∀ p ∈ w.db.rows.positions, ¬ OfDay ctx p) (ss : List Start)
    (id : Nat) (p : Position)
    (hp : (w.run ctx ss).db.rows.positions[id]? = some p)
    (hday : OfDay ctx p) :
    Ledger (w.run ctx ss).db.rows id p := by
  have hinit : BooksAt ctx w := fun id p hp hday =>
    absurd hday (hnone p (List.mem_of_getElem? hp))
  obtain ⟨a, b, hdesk⟩ := books_run hinit ss id p hp hday
  obtain ⟨q, ce, pe, hq, -, -, hlegs, hfigures⟩ := hdesk
  obtain rfl := Option.some_inj.1 (hq.symm.trans hp)
  rw [Rows.money, columns_run, hexact] at hfigures
  refine ⟨a, b, ce, pe, hlegs.legs, hlegs.isCe, hlegs.isPe, hlegs.quantity,
    fun hopen => ?_, fun hclosed => hfigures.closed hclosed hlegs.quantity⟩
  unfold Figures at hfigures
  rw [hopen] at hfigures
  exact ⟨hfigures.2, hfigures.1⟩

/-- The sample morning over exact columns. -/
def SampleDay.exactMorning : World :=
  ⟨⟨{ SampleDay.morning.db.rows with columns := .exact }, by decide +kernel⟩,
    SampleDay.morning.broker, []⟩

/-- The sample day's position after its exit. -/
def SampleDay.closedRow : Position :=
  ((SampleDay.exactMorning.run SampleDay.ctx
    [SampleDay.entry, SampleDay.exit]).db.rows.positions[0]?).get
    (by decide +kernel)

theorem ledger_holds_sample :
    SampleDay.closedRow.state = .closed
      ∧ Ledger (SampleDay.exactMorning.run SampleDay.ctx
          [SampleDay.entry, SampleDay.exit]).db.rows 0 SampleDay.closedRow :=
  ⟨by decide +kernel,
    ledger_holds SampleDay.ctx SampleDay.exactMorning rfl (by decide +kernel)
      [SampleDay.entry, SampleDay.exit] 0 SampleDay.closedRow
      (Option.some_get _).symm (by decide +kernel)⟩

end AlgoPlatform
