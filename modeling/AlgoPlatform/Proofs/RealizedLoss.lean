/-
What the daily-loss check sees of the day's realized loss.

# The law

The figure is summed from the positions' realized P&L, which a completed
exit writes and nothing else does. A leg is bought back in other
positions too: the CE an entry unwinds, and the legs an exit closes
before it gives up. And the exit computes a leg's P&L from the price the
broker reported, while the leg's row has that price as the columns keep
it, so the two differ by what the columns round away (`legRounding`).
The figure is all that was realized exactly when the P&L of the stranded
legs is what the rounding has added to the others.

# The argument

In the books of the day (`DayBooks`) a CLOSED position has the P&L of
its two legs, and no other has any. A sum of kept figures is kept, so
nothing is lost in adding them up. So figure and stranded legs together
are everything, and the rounding.
-/
import AlgoPlatform.Model.DailyLoss
import AlgoPlatform.Proofs.Payments

open Basis Basis.Session

namespace AlgoPlatform

-- ============================================================ bought back

/-- What a leg was sold for: its entry price, which only a completed
entry writes, or else what its entry order filled at. -/
def Rows.soldFor (r : Rows) (tradeId : Nat) (t : Trade) : Option ℚ :=
  t.entryPrice <|> (r.orders.find? fun o => o.tradeId = tradeId
    ∧ o.purpose = .entry ∧ o.averagePrice.isSome).bind (·.averagePrice)

/-- The P&L of a leg bought back at a confirmed price. -/
def Rows.legBack (r : Rows) (tradeId : Nat) (t : Trade) : ℚ :=
  if t.status = .closed ∨ t.status = .unwound then
    match r.soldFor tradeId t, t.exitPrice with
    | some sold, some bought => (sold - bought) * t.quantity
    | _, _ => 0
  else 0

/-- The P&L of a position's legs that were bought back. -/
def Rows.legsBack (r : Rows) (positionId : Nat) : ℚ :=
  ((select (·.positionId = positionId) r.trades).map
    fun x => r.legBack x.1 x.2).sum

/-- All the account realized that day, whatever became of the
positions. -/
def Rows.boughtBackOn (r : Rows) (day : AccountDay) : ℚ :=
  ((select (fun p => day.Covers r p) r.positions).map
    fun x => r.legsBack x.1).sum

/-- What it realized in positions that are not CLOSED. -/
def Rows.strandedOn (r : Rows) (day : AccountDay) : ℚ :=
  ((select (fun p => day.Covers r p && p.state != .closed) r.positions).map
    fun x => r.legsBack x.1).sum

-- =============================================================== rounding

/-- What the columns add to the P&L of a leg that was bought back for
`paid`: it is computed from `paid`, and the leg has what is kept of
that. -/
def Rows.legRounding (r : Rows) (t : Trade) (paid : ℚ) : ℚ :=
  match t.entryPrice with
  | some sold => r.money (computeLegRealizedPnl sold paid t.quantity)
      - computeLegRealizedPnl sold (r.money paid) t.quantity
  | none => 0

/-- What they add to a position's legs, bought back for these prices. -/
def Rows.legsRounding (r : Rows) (paid : Nat → ℚ) (positionId : Nat) : ℚ :=
  ((select (·.positionId = positionId) r.trades).map
    fun x => r.legRounding x.2 (paid x.1)).sum

/-- What they add to the legs of the positions that are CLOSED. -/
def Rows.roundingOn (r : Rows) (paid : Nat → ℚ) (day : AccountDay) : ℚ :=
  ((select (fun p => day.Covers r p && p.state == .closed) r.positions).map
    fun x => r.legsRounding paid x.1).sum

/-- These are the prices the broker reported for the legs of the day's
CLOSED positions. -/
def World.PaidOn (w : World) (day : AccountDay) (paid : Nat → ℚ) : Prop :=
  ∀ (id : Nat) (p : Position), w.db.rows.positions[id]? = some p →
    p.tradeDate = day.tradeDate → p.state = .closed →
    ∀ (j : Nat) (t : Trade), w.db.rows.trades[j]? = some t →
      t.positionId = id → t.BoughtFor w.db.rows.money w.broker.log (paid j)

-- ============================================================= the figure

/-- A sum over what is there is a sum with nothing for the rest. -/
private theorem sum_filterMap {α : Type} (f : α → Option ℚ) (l : List α) :
    (l.filterMap f).sum = (l.map fun x => (f x).getD 0).sum := by
  induction l with
  | nil => rfl
  | cons x l ih =>
      rw [List.map_cons, List.sum_cons, ← ih]
      cases hx : f x with
      | none => rw [List.filterMap_cons_none hx, Option.getD_none, zero_add]
      | some y => rw [List.filterMap_cons_some hx, List.sum_cons,
          Option.getD_some]

/-- A sum over `q`, and one over the rest, are the sum. -/
private theorem sum_add_sum_filter {α : Type} {f g h : α → ℚ} {q : α → Bool}
    (l : List α) (hf : ∀ x ∈ l, f x = if q x then g x + h x else 0) :
    (l.map f).sum + ((l.filter fun x => !q x).map g).sum
      = (l.map g).sum + ((l.filter q).map h).sum := by
  induction l with
  | nil => rfl
  | cons x l ih =>
      obtain ⟨hx, hl⟩ := List.forall_mem_cons.1 hf
      have hrest := ih hl
      rw [List.map_cons, List.sum_cons, List.map_cons, List.sum_cons, hx,
        List.filter_cons, List.filter_cons]
      cases q x with
      | true =>
          simp only [Bool.not_true, Bool.false_eq_true, if_false, if_true,
            List.map_cons, List.sum_cons]
          linarith
      | false =>
          simp only [Bool.not_false, Bool.false_eq_true, if_false, if_true,
            List.map_cons, List.sum_cons]
          linarith

variable {r : Rows} {id : Nat} {p : Position} {log : List BrokerOrder}

/-- A CLOSED leg's stored P&L is the P&L of the prices it has, and what
the rounding adds to it. -/
private theorem legBack_add_legRounding {t : Trade} {sold paid : ℚ} (i : Nat)
    (hstatus : t.status = .closed) (hsold : t.entryPrice = some sold)
    (hpaid : t.BoughtFor r.money log paid) :
    t.realizedPnl = some (r.legBack i t + r.legRounding t paid) := by
  unfold Rows.legBack Rows.legRounding Rows.soldFor
  rw [hpaid.realizedPnl sold hsold, if_pos (.inl hstatus), hsold,
    hpaid.exitPrice]
  exact congrArg some (add_sub_cancel _ _).symm

/-- A CLOSED position has the P&L of its legs, no other has any. -/
private theorem DayBooks.realizedPnl {date : Date} {paid : Nat → ℚ}
    (h : DayBooks date r) (hscaled : r.Scaled)
    (hp : r.positions[id]? = some p) (hdate : p.tradeDate = date)
    (hpaid : p.state = .closed → ∀ (j : Nat) (t : Trade),
      r.trades[j]? = some t → t.positionId = id →
      t.BoughtFor r.money log (paid j)) :
    p.realizedPnl.getD 0
      = if p.state == .closed then r.legsBack id + r.legsRounding paid id
        else 0 := by
  obtain ⟨hsettled, a, b, ce, pe, hlegs, hfigures⟩ := h id p hp hdate
  by_cases hclosed : p.state = .closed
  · have hboughtCe := hpaid hclosed a ce hlegs.trade_ce hlegs.ce_of
    have hboughtPe := hpaid hclosed b pe hlegs.trade_pe hlegs.pe_of
    unfold Figures at hfigures
    rw [hclosed] at hfigures
    obtain ⟨⟨soldCe, soldPe, -, -, hsoldCe, hsoldPe, -⟩, ⟨hce, -⟩, ⟨hpe, -⟩,
      -, -, pnlCe, pnlPe, -, -, hpnlCe, hpnlPe, -, hpnl⟩ := hfigures
    -- the legs' P&L was kept, so their sum is
    have hsum := hscaled.money_pnl (List.forall_mem_cons.2
      ⟨List.mem_of_getElem? hlegs.trade_ce, List.forall_mem_cons.2
        ⟨List.mem_of_getElem? hlegs.trade_pe, List.forall_mem_nil _⟩⟩)
    simp only [List.map_cons, List.map_nil, List.sum_cons, List.sum_nil,
      add_zero, hpnlCe, hpnlPe, Option.getD_some] at hsum
    rw [legBack_add_legRounding a hce hsoldCe hboughtCe] at hpnlCe
    rw [legBack_add_legRounding b hpe hsoldPe hboughtPe] at hpnlPe
    rw [hpnl, Option.getD_some, hsum, if_pos (beq_iff_eq.2 hclosed),
      ← Option.some_inj.1 hpnlCe, ← Option.some_inj.1 hpnlPe]
    unfold Rows.legsBack Rows.legsRounding
    rw [hlegs.legs]
    simp only [List.map_cons, List.map_nil, List.sum_cons, List.sum_nil]
    ring
  · rw [hsettled hclosed, if_neg fun h => hclosed (beq_iff_eq.1 h),
      Option.getD_none]

/-- In the books of the day, the figure and the stranded legs are all
that was realized, and the rounding. -/
private theorem DayBooks.realizedOn_add_strandedOn {day : AccountDay}
    {paid : Nat → ℚ} {w : World} (h : DayBooks day.tradeDate w.db.rows)
    (hpaid : w.PaidOn day paid) :
    w.db.rows.realizedOn day + w.db.rows.strandedOn day
      = w.db.rows.boughtBackOn day + w.db.rows.roundingOn paid day := by
  unfold Rows.realizedOn Rows.strandedOn Rows.boughtBackOn Rows.roundingOn
  rw [sum_filterMap, ← select_map_snd, List.map_map, select_and, select_and]
  refine sum_add_sum_filter _ fun x hx => ?_
  obtain ⟨id, p⟩ := x
  obtain ⟨hp, hcovers⟩ := mem_select.1 hx
  have hdate := (of_decide_eq_true hcovers).1
  exact h.realizedPnl w.db.admitted.scaled hp hdate fun hclosed =>
    hpaid id p hp hdate hclosed

/-- In the books of the day, the legs of a CLOSED position are CLOSED. -/
private theorem DayBooks.leg_closed {date : Date} (h : DayBooks date r)
    (hp : r.positions[id]? = some p) (hdate : p.tradeDate = date)
    (hclosed : p.state = .closed) {j : Nat} {t : Trade}
    (ht : r.trades[j]? = some t) (hof : t.positionId = id) :
    t.status = .closed := by
  obtain ⟨-, a, b, ce, pe, hlegs, hfigures⟩ := h id p hp hdate
  unfold Figures at hfigures
  rw [hclosed] at hfigures
  obtain ⟨-, ⟨hce, -⟩, ⟨hpe, -⟩, -⟩ := hfigures
  have hmem := (mem_select (p := fun t : Trade => t.positionId = id)).2
    ⟨ht, decide_eq_true hof⟩
  rw [hlegs.legs] at hmem
  simp only [List.mem_cons, Prod.mk.injEq, List.not_mem_nil, or_false] at hmem
  rcases hmem with ⟨-, rfl⟩ | ⟨-, rfl⟩
  · exact hce
  · exact hpe

/-- Where the broker reports no more decimals than the columns have, the
rounding adds nothing. -/
private theorem roundingOn_eq_zero {day : AccountDay} {paid : Nat → ℚ}
    (hscaled : r.Scaled) (hpaid : ∀ j, r.money (paid j) = paid j) :
    r.roundingOn paid day = 0 := by
  have hleg : ∀ t ∈ r.trades, ∀ j, r.legRounding t (paid j) = 0 := by
    intro t ht j
    have hsold := (Trade.kept_eq_iff.1 (hscaled.trades t ht)).1
    unfold Rows.legRounding
    cases hentry : t.entryPrice with
    | none => rfl
    | some sold =>
        rw [hentry] at hsold
        dsimp only
        rw [hpaid, sub_eq_zero]
        exact MoneyColumns.keep_sub_mul (Option.some_inj.1 hsold) (hpaid j) _
  refine List.sum_eq_zero fun x hx => ?_
  obtain ⟨⟨id, p⟩, -, rfl⟩ := List.mem_map.1 hx
  refine List.sum_eq_zero fun y hy => ?_
  obtain ⟨⟨j, t⟩, ht, rfl⟩ := List.mem_map.1 hy
  exact hleg t (List.mem_of_getElem? (mem_select.1 ht).1) j

/-- Over every run of entries, exits and recoveries of any instances on
the day, crashed anywhere, with any broker and any pushes: the realized
figure is all that was realized if and only if the legs bought back in
positions that are not CLOSED come to what the columns' rounding, at the
prices the broker reported, adds to the P&L of the others. It adds
nothing where they keep those prices. -/
theorem realizedOn_eq_iff (w : World) (day : AccountDay)
    (hnone : ∀ p ∈ w.db.rows.positions, p.tradeDate ≠ day.tradeDate)
    (ss : List (StrategyContext × Start))
    (hss : ∀ s ∈ ss, s.1.today = day.tradeDate) :
    ∃ paid : Nat → ℚ, (w.runAll ss).PaidOn day paid
      ∧ ((∀ j, (w.runAll ss).db.rows.money (paid j) = paid j) →
        (w.runAll ss).db.rows.roundingOn paid day = 0)
      ∧ ((w.runAll ss).db.rows.realizedOn day
          = (w.runAll ss).db.rows.boughtBackOn day
        ↔ (w.runAll ss).db.rows.strandedOn day
          = (w.runAll ss).db.rows.roundingOn paid day) := by
  have hinit : DayBooks day.tradeDate w.db.rows := fun _ p hp hdate =>
    absurd hdate (hnone p (List.mem_of_getElem? hp))
  have hbooks := dayBooks_runAll ss hss w hinit
  have hrun : Paid w.db.rows (w.runAll ss).broker.log (w.runAll ss).db.rows :=
    paid_runAll ss w (Paid.start _ _) fun _ hbo => hbo
  obtain ⟨paid, hprices⟩ := hrun.prices
  have hpaid : (w.runAll ss).PaidOn day paid :=
    fun id p hp hdate hclosed j t ht hof => hprices j t ht
      (hbooks.leg_closed hp hdate hclosed ht hof)
      (hrun.isNew hnone hp hdate ht hof)
  have htotal := hbooks.realizedOn_add_strandedOn hpaid
  refine ⟨paid, hpaid, roundingOn_eq_zero (w.runAll ss).db.admitted.scaled,
    fun h => ?_, fun h => ?_⟩
  · linarith
  · linarith

namespace SampleDay

/-- The account of the sample day. -/
def accountDay : AccountDay := ⟨1, ctx.today⟩

/-- An entry whose PE the broker turns down, and whose CE, sold at 100, is
bought back at 110. -/
def unwound : Start where
  job := .enter inputs
  moves := [still, still]
    ++ legMoves (snapshot "A1" "E0-240704-CE" .sell .ce .complete lot (some 100))
    ++ [still, { place := .refuse ⟨.orderRejected, "margin"⟩ }, still]
    ++ [still, { place := .ack "U1" },
        { events := [.works (snapshot "U1" "U0-240704-CE" .buy .ce .complete lot
          (some 110))] }, still, still, still]

/-- The entry that fills, and the exit that completes. -/
theorem realizedOn_eq_iff_exit :
    ∃ paid : Nat → ℚ,
      (morning.runAll [(ctx, entry), (ctx, exit)]).PaidOn accountDay paid
      ∧ ((∀ j, (morning.runAll [(ctx, entry), (ctx, exit)]).db.rows.money
            (paid j) = paid j) →
        (morning.runAll [(ctx, entry), (ctx, exit)]).db.rows.roundingOn paid
          accountDay = 0)
      ∧ ((morning.runAll [(ctx, entry), (ctx, exit)]).db.rows.realizedOn
            accountDay
          = (morning.runAll [(ctx, entry), (ctx, exit)]).db.rows.boughtBackOn
            accountDay
        ↔ (morning.runAll [(ctx, entry), (ctx, exit)]).db.rows.strandedOn
            accountDay
          = (morning.runAll [(ctx, entry), (ctx, exit)]).db.rows.roundingOn
            paid accountDay) :=
  realizedOn_eq_iff morning accountDay (by decide)
    [(ctx, entry), (ctx, exit)] (by decide)

/-- A CE the broker reports at five decimals, sold and bought back. -/
def fine : List (StrategyContext × Start) :=
  [(ctx, { job := .enter inputs
           moves := [still, still]
             ++ legMoves (snapshot "A1" "E0-240704-CE" .sell .ce .complete lot
               (some 100.33336))
             ++ legMoves (snapshot "A2" "E0-240704-PE" .sell .pe .complete lot
               (some 80))
             ++ [still] }),
   (ctx, { job := .exit true .target
           moves := [still]
             ++ closeMoves (snapshot "B1" "X0-240704-CE" .buy .ce .complete lot
               (some 60.66668))
             ++ closeMoves (snapshot "B2" "X0-240704-PE" .buy .pe .complete lot
               (some 30))
             ++ [still] })]

-- no leg is stranded, and the two sums differ in the last places
example : (morning.runAll fine).db.rows.realizedOn accountDay = 6725.004
    ∧ (morning.runAll fine).db.rows.boughtBackOn accountDay = 6725.0025
    ∧ (morning.runAll fine).db.rows.strandedOn accountDay = 0 := by
  decide +kernel

/-- The unwound leg lost 750, and the figure has none of it. -/
theorem unwound_unseen :
    (morning.runAll [(ctx, unwound)]).db.rows.boughtBackOn accountDay = -750
      ∧ (morning.runAll [(ctx, unwound)]).db.rows.realizedOn accountDay
        = 0 := by
  decide +kernel

end SampleDay

end AlgoPlatform
