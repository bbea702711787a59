/-
What the legs were bought back for.

An exit closes a leg at the average price of a COMPLETE order it was
shown, and computes the leg's P&L from that price before the columns
round it. Both figures are therefore what the columns keep of one price
of the broker's (`Trade.BoughtFor`), and the price itself is in the
broker's log (`paid_runAll`).

# The argument

Which snapshots the log will hold is settled only when the run is over.
So the log is taken from the end of the run: it only grows, and what an
act was shown is in it. Trades that were there before the run are left
out, and a position of the day has none of them.
-/
import AlgoPlatform.Basis.Under
import AlgoPlatform.Proofs.Instances

open Basis Basis.Session

namespace AlgoPlatform

/-- The leg's exit price and P&L are what is kept of a price some COMPLETE
order of the log was filled at. -/
structure Trade.BoughtFor (money : ℚ → ℚ) (log : List BrokerOrder) (t : Trade)
    (paid : ℚ) : Prop where
  shown : ∃ bo ∈ log, bo.status = .complete ∧ bo.averagePrice = some paid
  positive : 0 < paid
  exitPrice : t.exitPrice = some (money paid)
  realizedPnl : ∀ sold, t.entryPrice = some sold →
    t.realizedPnl = some (money (computeLegRealizedPnl sold paid t.quantity))

/-- The rows come from `r₀`, and what has been closed since was bought
back for a price of the log. -/
structure Paid (r₀ : Rows) (log : List BrokerOrder) (r : Rows) : Prop where
  columns : r.columns = r₀.columns
  legs : r₀.trades.map (·.positionId) <+: r.trades.map (·.positionId)
  days : r₀.positions.map (·.tradeDate) <+: r.positions.map (·.tradeDate)
  bought : ∀ (j : Nat) (t : Trade), r.trades[j]? = some t →
    t.status = .closed → r₀.trades.length ≤ j →
      ∃ paid, t.BoughtFor r.money log paid

/-- Whatever the rows come from, they still do. -/
def KeepsPaid (r₀ : Rows) (log : List BrokerOrder) (r r' : Rows) : Prop :=
  Paid r₀ log r → Paid r₀ log r'

variable {r₀ r r' : Rows} {log : List BrokerOrder}

-- ================================================================ writes

/-- A write that leaves the trades alone. -/
theorem keepsPaid_of_eq (hcolumns : r'.columns = r.columns)
    (htrades : r'.trades = r.trades)
    (hdays : r.positions.map (·.tradeDate) <+: r'.positions.map (·.tradeDate)) :
    KeepsPaid r₀ log r r' := by
  refine fun h => ⟨hcolumns.trans h.columns, ?_, h.days.trans hdays, ?_⟩
  · rw [htrades]
    exact h.legs
  · rw [htrades, Rows.money, hcolumns]
    exact h.bought

instance : BlindToOrders (KeepsPaid r₀ log) where
  refl := fun _ h => h
  trans := fun h h' => h' ∘ h
  orders := fun _ _ => keepsPaid_of_eq rfl rfl (List.prefix_refl _)
  breaks := fun _ _ => keepsPaid_of_eq rfl rfl (List.prefix_refl _)

/-- A trade is written in place. -/
theorem keepsPaid_setTrade {i : Nat} {f : Trade → Trade}
    (hf : ∀ t, (f t).positionId = t.positionId)
    (hclosed : ∀ t, r.trades[i]? = some t → (f t).status = .closed →
      ∃ paid, (f t).BoughtFor r.money log paid) :
    KeepsPaid r₀ log r (r.setTrade i f) := by
  refine fun h => ⟨h.columns, ?_, h.days, fun j t ht hstatus hj => ?_⟩
  · rw [Rows.setTrade_trades, map_modify_of_eq fun _ _ => hf _]
    exact h.legs
  · by_cases hij : i = j
    · subst hij
      rw [Rows.setTrade_trades, List.getElem?_modify_eq] at ht
      obtain ⟨old, hold, rfl⟩ := Option.map_eq_some_iff.1 ht
      exact hclosed old hold hstatus
    · rw [Rows.setTrade_trades, List.getElem?_modify_ne _ _ hij] at ht
      exact h.bought j t ht hstatus hj

theorem allowsRecord_paid : AllowsRecord (KeepsPaid r₀ log) where
  intents := fun _ _ => keepsPaid_of_eq rfl rfl (List.prefix_refl _)
  trades := by
    refine fun r t ht h => ⟨h.columns, ?_, h.days, fun j u hu hstatus hj => ?_⟩
    · rw [List.map_append]
      exact h.legs.trans (List.prefix_append _ _)
    · dsimp only at hu
      rw [List.getElem?_append] at hu
      split_ifs at hu
      · exact h.bought j u hu hstatus hj
      · rw [List.mem_singleton.1 (List.mem_of_getElem? hu), ht] at hstatus
        cases hstatus

theorem allowsPosition_paid (id : Nat) :
    AllowsPosition (KeepsPaid r₀ log) id where
  inst := fun _ _ _ => keepsPaid_of_eq rfl rfl (List.prefix_refl _)
  position := by
    refine fun r f hf => keepsPaid_of_eq rfl rfl ?_
    rw [Rows.setPosition_positions, map_modify_of_eq fun p _ =>
      (hf p).tradeDate]
  transition := by
    intro toState actor reason db
    refine (transition_meets db id toState actor reason).imp ?_ fun _ h => h
    intro _ db' hdb'
    obtain ⟨-, -, -, hpositions, htrades, hcolumns⟩ := hdb'
    have hdays : db'.rows.positions.map (·.tradeDate)
        = db.rows.positions.map (·.tradeDate) := by
      rw [hpositions]
      exact map_modify_of_eq fun _ _ => rfl
    exact keepsPaid_of_eq hcolumns htrades (hdays ▸ List.prefix_refl _)

theorem writesIntent_paid (i : Nat) : WritesIntent (KeepsPaid r₀ log) i :=
  ⟨fun _ _ => keepsPaid_of_eq rfl rfl (List.prefix_refl _),
    fun _ => keepsPaid_of_eq rfl rfl (List.prefix_refl _)⟩

theorem allowsEntry_paid (ctx : StrategyContext) :
    AllowsEntry (KeepsPaid r₀ log) ctx := by
  intro selection
  refine keeps_getOrCreate (keeps_getByInstanceAndDate _ _) ?_
  refine keeps_bind (keeps_fetch _) fun _ => ?_
  refine keeps_bind (keeps_flush fun r => ?_) fun _ => keeps_pure _
  refine keepsPaid_of_eq rfl rfl ?_
  rw [List.map_append]
  exact List.prefix_append _ _

/-- OPEN is not CLOSED. -/
theorem keepsPaid_openPosition (durable : DurableRecord)
    (thresholds : PremiumThresholds) (cePrice pePrice : ℚ) :
    Keeps (KeepsPaid r₀ log)
      (EntryLogic.openPosition durable thresholds cePrice pePrice) := by
  have hfill : ∀ (leg : LegIds) (price : ℚ),
      FillsLeg (KeepsPaid r₀ log) leg price :=
    fun _ _ _ => keepsPaid_setTrade (fun _ => rfl) fun _ _ h => (nomatch h)
  have hposition : AllowsPosition (KeepsPaid r₀ log) durable.positionId :=
    allowsPosition_paid _
  exact EntryLogic.keeps_openPosition (hfill _ _) (hfill _ _)
    (fun r _ _ _ => hposition.position r _ fun _ => ⟨rfl, rfl, rfl⟩)
    (hposition.transition _ _) fun i => (writesIntent_paid i).status _

/-- A leg is closed at a price of the log. -/
theorem keepsPaid_closeTrade {leg : ExitLegIds} {paid : ℚ}
    (hshown : ∃ bo ∈ log, bo.status = .complete ∧ bo.averagePrice = some paid)
    (hpaid : 0 < paid) :
    Keeps (KeepsPaid r₀ log) (ExitLogic.closeTrade leg paid) := by
  intro db
  refine (closeTrade_meets db paid).imp ?_ fun _ h => h
  intro _ db' hdb'
  obtain ⟨t, pnl, ht, hpnl, hkept⟩ := hdb'
  have hclosed : KeepsPaid r₀ log db.rows (db.rows.setTrade leg.tradeId
      (·.close (db.rows.money paid) pnl)) := by
    refine keepsPaid_setTrade (fun _ => rfl) fun u hu _ => ?_
    obtain rfl := Option.some_inj.1 (hu.symm.trans ht)
    exact ⟨paid, hshown, hpaid, rfl, hpnl⟩
  refine Session.Frame.trans hclosed
    (keepsPaid_of_eq hkept.columns hkept.trades ?_)
  rw [hkept.positions]

-- ================================================================== runs

/-- The broker has shown nothing beyond the log. -/
def Within (log : List BrokerOrder) (w : World) : Prop :=
  ∀ bo ∈ w.broker.log, bo ∈ log

/-- The law of the stored rows. -/
def PaidIn (r₀ : Rows) (log : List BrokerOrder) (w : World) : Prop :=
  Paid r₀ log w.db.rows

/-- An act that stays within the log and finds the law. -/
abbrev Watched (r₀ : Rows) (log : List BrokerOrder) :
    Prog.Condition Move World :=
  Prog.Given (Prog.Leaves (Within log)) (PaidIn r₀ log)

instance : BearsPlacing (KeepsPaid r₀ log) (Watched r₀ log)
    (Prog.Leaves (PaidIn r₀ log)) where
  waits := fun hgiven hwaits => hwaits.rows hgiven.2
  places := fun request => Prog.Takes.mono
    (Program.along_placeOrder (R := KeepsPaid r₀ log) request)
    (fun _ _ _ _ => trivial) fun _ _ _ hgiven hrows => hrows hgiven.2

/-- What a read shows is in the log. -/
private theorem returns_getOrder_within (id : String) :
    (Program.getOrder id).Returns (Watched r₀ log) (· ∈ log) := by
  refine Prog.returns_atomic fun m w hgiven bo hbo => hgiven.1 bo ?_
  exact (Broker.follows_getOrder _ id m.read).log.subset
    (Broker.getOrder_mem hbo)

/-- What a program can rely on within the log. -/
def watchedSight (r₀ : Rows) (log : List BrokerOrder) :
    Sight (Watched r₀ log) where
  polled := (· ∈ log)
  settled := fun _ => True
  ofPoll := fun id =>
    Program.returns_pollUntilTerminal (returns_getOrder_within id)
  ofSettle := fun _ _ _ _ => (Prog.returns_true _).imp fun _ _ _ _ => trivial

/-- The commit that closes a leg does so at a price of the log. -/
theorem bearsCycles_paid :
    BearsCycles (KeepsPaid r₀ log) (watchedSight r₀ log)
      (Prog.Leaves (PaidIn r₀ log)) :=
  { allowsRecord_paid with
    straddle := fun id =>
      { (allowsPosition_paid id).ending with
        intents := allowsRecord_paid.intents
        intent := writesIntent_paid
        unpriced := fun _ _ _ _ hf => keepsPaid_setTrade
          (fun t => (hf t).1.positionId) fun t _ h => absurd h (hf t).2.2
        opens := fun durable _ _ _ thresholds cePrice pePrice _ _ _ _ =>
          takes_waits (R := KeepsPaid r₀ log) (Program.along_unitOfWork fun _ =>
            keepsPaid_openPosition durable thresholds cePrice pePrice)
        closes := fun _ _ bo _ hpolled hcomplete haverage hprice =>
          takes_waits (R := KeepsPaid r₀ log) (Program.along_unitOfWork fun _ =>
            keepsPaid_closeTrade ⟨bo, hpolled, hcomplete, haverage⟩ hprice) } }

/-- Every act of a job only adds to the broker's log. -/
private theorem along_grows (ctx : StrategyContext) (job : Job) :
    Prog.Along (Grows (Founds ctx)) (job.program ctx) :=
  allowsCycles_founds.bears.job ctx allowsEntry_founds job

/-- A session that ends within the log keeps the law. -/
theorem paid_session {ctx : StrategyContext} {w : World} (s : Start)
    (hw : PaidIn r₀ log w) (hlog : Within log (w.session ctx s)) :
    PaidIn r₀ log (w.session ctx s) := by
  have hupholds : (s.job.program ctx).Upholds (Prog.Leaves (Within log))
      (PaidIn r₀ log) :=
    bearsCycles_paid.job ctx (allowsEntry_paid ctx) s.job
  exact hupholds.after (along_grows ctx s.job)
    (fun hgrows hbound bo hbo => hbound bo (hgrows.log.subset hbo)) hw hlog

/-- So does any run of any instances. -/
theorem paid_runAll (ss : List (StrategyContext × Start)) :
    ∀ w : World, PaidIn r₀ log w → Within log (w.runAll ss) →
      PaidIn r₀ log (w.runAll ss) := by
  have hgrows : ∀ (ss : List (StrategyContext × Start)) (w : World),
      w.broker.log <:+ (w.runAll ss).broker.log := by
    intro ss
    induction ss with
    | nil => exact fun w => List.suffix_refl _
    | cons s ss ih =>
        exact fun w => ((along_grows s.1 s.2.job).after s.2.moves w).log.trans
          (ih (w.session s.1 s.2))
  induction ss with
  | nil => exact fun _ hw _ => hw
  | cons s ss ih =>
      intro w hw hlog
      refine ih (w.session s.1 s.2) (paid_session s.2 hw fun bo hbo => ?_) hlog
      exact hlog bo ((hgrows ss (w.session s.1 s.2)).subset hbo)

/-- Nothing has been closed yet. -/
theorem Paid.start (r : Rows) (log : List BrokerOrder) : Paid r log r where
  columns := rfl
  legs := List.prefix_refl _
  days := List.prefix_refl _
  bought := fun _ _ ht _ hj =>
    absurd (List.getElem?_eq_some_iff.1 ht).1 (Nat.not_lt.2 hj)

/-- The prices the legs were bought back for. -/
theorem Paid.prices (h : Paid r₀ log r) :
    ∃ paid : Nat → ℚ, ∀ (j : Nat) (t : Trade), r.trades[j]? = some t →
      t.status = .closed → r₀.trades.length ≤ j →
        t.BoughtFor r.money log (paid j) := by
  have hone : ∀ j : Nat, ∃ price : ℚ, ∀ t : Trade, r.trades[j]? = some t →
      t.status = .closed → r₀.trades.length ≤ j →
        t.BoughtFor r.money log price := by
    intro j
    by_cases hany : ∃ t : Trade, r.trades[j]? = some t ∧ t.status = .closed
        ∧ r₀.trades.length ≤ j
    · obtain ⟨t, ht, hstatus, hj⟩ := hany
      obtain ⟨price, hprice⟩ := h.bought j t ht hstatus hj
      refine ⟨price, fun u hu _ _ => ?_⟩
      obtain rfl := Option.some_inj.1 (hu.symm.trans ht)
      exact hprice
    · exact ⟨0, fun t ht hstatus hj => absurd ⟨t, ht, hstatus, hj⟩ hany⟩
  choose paid hpaid using hone
  exact ⟨paid, hpaid⟩

/-- What the rows of a prefix say of themselves. -/
private theorem prefix_map_eq {α β : Type} {f : α → β} {xs ys : List α}
    (h : xs.map f <+: ys.map f) {i : Nat} {x y : α} (hx : xs[i]? = some x)
    (hy : ys[i]? = some y) : f x = f y := by
  obtain ⟨hi, rfl⟩ := List.getElem?_eq_some_iff.1 hx
  have hsame := List.prefix_iff_getElem?.1 h i (by rwa [List.length_map])
  rw [List.getElem?_map, hy, List.getElem_map] at hsame
  exact (Option.some_inj.1 hsame).symm

/-- A leg of a position of the day was closed in the run, if none of the
day's was there before it. -/
theorem Paid.isNew {date : Date} {db : Db} (h : Paid db.rows log r)
    (hnone : ∀ p ∈ db.rows.positions, p.tradeDate ≠ date) {id j : Nat}
    {p : Position} {t : Trade} (hp : r.positions[id]? = some p)
    (hdate : p.tradeDate = date) (ht : r.trades[j]? = some t)
    (hof : t.positionId = id) : db.rows.trades.length ≤ j := by
  refine Nat.not_lt.1 fun hj => ?_
  -- the trade was there, and so was its position, on its day
  obtain ⟨old, hold⟩ : ∃ old, db.rows.trades[j]? = some old :=
    ⟨_, List.getElem?_eq_getElem hj⟩
  obtain ⟨q, hq⟩ : ∃ q, db.rows.positions[old.positionId]? = some q :=
    ⟨_, List.getElem?_eq_getElem
      (db.admitted.linked.trades old (List.mem_of_getElem? hold))⟩
  have hleg : old.positionId = t.positionId := prefix_map_eq h.legs hold ht
  rw [hleg, hof] at hq
  have hday : q.tradeDate = p.tradeDate := prefix_map_eq h.days hq hp
  exact hnone q (List.mem_of_getElem? hq) (hday.trans hdate)

end AlgoPlatform
