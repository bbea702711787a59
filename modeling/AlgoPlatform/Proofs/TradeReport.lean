/-
Whether the daily report's totals continue from day to day.

# Two queries, two countings

The opening totals of a day count every CLOSED position before it; the
loop over a day's positions leaves out those without an expiry date
before it counts them. What the loop left out, the next day's opening has
all the same: it is the earlier day's closing totals with the amounts
left out added on (`opening_eq`).

# When they continue

Gains and losses are summed apart and never cancel, so the totals
continue exactly when every amount left out is zero
(`opening_eq_closing_iff`); the net after a day is all that was realized
up to it exactly when what the day itself left out sums to zero
(`net_closing_iff`). The order of the positions never matters.
-/
import AlgoPlatform.Model.TradeReport

open Basis

namespace AlgoPlatform.TradeReportExporter

variable {times : FillTimes} {scan : List Nat} {r : Rows} {day earlier : Date}

-- =============================================== statement vocabulary

/-- What CLOSED positions realized, of those that satisfy `q`; NULL is
nothing. -/
def closedPnls (r : Rows) (q : Position → Bool) : List ℚ :=
  (r.positions.filter fun p => p.state = .closed && q p).map
    (·.realizedPnl.getD 0)

/-- The latest day before `day` on which a position was closed. -/
structure LatestEarlier (r : Rows) (day earlier : Date) : Prop where
  before : earlier < day
  closed : ∃ p ∈ r.positions, p.state = .closed ∧ p.tradeDate = earlier
  latest : ∀ p ∈ r.positions, p.state = .closed → p.tradeDate < day →
    p.tradeDate ≤ earlier

/-- The totals of the day continue those of the day before, account for
all that was realized, and depend on no order. -/
structure Continues (times : FillTimes) (scan : List Nat) (r : Rows)
    (day : Date) : Prop where
  opening : ∀ earlier, LatestEarlier r day earlier →
    openingCumulative r day = closingCumulative times scan r earlier
  net : (closingCumulative times scan r day).net
    = (closedPnls r (·.tradeDate ≤ day)).sum
  openingOrder : ∀ pnls, pnls.Perm (earlierPnls r day) →
    accumulate pnls = openingCumulative r day
  closingOrder : ∀ positions, positions.Perm (closedPositions times r day) →
    (collect times scan r (openingCumulative r day) positions).1
      = closingCumulative times scan r day

/-- What the report leaves out for want of an expiry date is nothing: on
the day before no amount, on the day itself none in sum. -/
structure LeavesOutNothing (r : Rows) (day : Date) : Prop where
  earlier : ∀ earlier, LatestEarlier r day earlier → ∀ p ∈ r.positions,
    p.state = .closed → p.tradeDate = earlier → p.expiryDate = none →
    p.realizedPnl.getD 0 = 0
  today : (closedPnls r fun p =>
    p.tradeDate = day && p.expiryDate.isNone).sum = 0

-- ============================================================= the loops

/-- The loop counts the position. -/
def reported (r : Rows) (p : Position) : Bool :=
  (r.instances[p.strategyInstanceId]?).isSome && p.expiryDate.isSome

/-- Under the schema, only the expiry date can be missing. -/
theorem reported_eq {db : Db} {p : Position} (hp : p ∈ db.rows.positions) :
    reported db.rows p = p.expiryDate.isSome := by
  have hlinked := db.admitted.linked.positions p hp
  unfold reported
  rw [List.getElem?_eq_getElem hlinked, Option.isSome_some, Bool.true_and]

/-- One turn adds a reported position's P&L and no other's. -/
theorem collectPosition_fst (acc : Tally ℚ × List LegRow)
    (position : Nat × Position) :
    (collectPosition times scan r acc position).1
      = if reported r position.2 then
          acc.1.add (position.2.realizedPnl.getD 0)
        else acc.1 := by
  unfold collectPosition reported
  cases r.instances[position.2.strategyInstanceId]? with
  | none => rfl
  | some inst =>
      cases position.2.expiryDate with
      | none => rfl
      | some expiry => rfl

/-- The totals after the loop: the reported positions', one by one. -/
theorem collect_fst (opening : Tally ℚ) (positions : List (Nat × Position)) :
    (collect times scan r opening positions).1
      = opening.addAll (((positions.map Prod.snd).filter (reported r)).map
          (·.realizedPnl.getD 0)) := by
  suffices h : ∀ acc : Tally ℚ × List LegRow,
      (positions.foldl (collectPosition times scan r) acc).1
        = acc.1.addAll (((positions.map Prod.snd).filter (reported r)).map
          (·.realizedPnl.getD 0)) from h (opening, [])
  induction positions with
  | nil => intro acc; rfl
  | cons position positions ih =>
      intro acc
      rw [List.foldl_cons, ih, collectPosition_fst, List.map_cons,
        List.filter_cons]
      cases reported r position.2 with
      | false => rfl
      | true => rfl

/-- Passing NULL over is counting it as zero. -/
theorem accumulate_eq (pnls : List (Option ℚ)) :
    accumulate pnls = Tally.addAll ⟨0, 0⟩ (pnls.map (·.getD 0)) := by
  unfold accumulate
  generalize (⟨0, 0⟩ : Tally ℚ) = totals
  induction pnls generalizing totals with
  | nil => rfl
  | cons pnl pnls ih =>
      cases pnl with
      | none => exact ih totals
      | some x => exact ih (totals.add x)

/-- What a day opens with: everything realized before it. -/
theorem openingCumulative_eq (r : Rows) (day : Date) :
    openingCumulative r day
      = Tally.addAll ⟨0, 0⟩ (closedPnls r (·.tradeDate < day)) := by
  have hrows : (earlierPnls r day).map (·.getD 0)
      = closedPnls r (·.tradeDate < day) := by
    unfold earlierPnls closedPnls
    simp only [← Bool.decide_and, ← select_map_snd, List.map_map]
    rfl
  rw [openingCumulative, accumulate_eq, hrows]

/-- What a day closes with: its opening, and what its reported positions
realized. -/
theorem closingCumulative_eq (times : FillTimes) (scan : List Nat) (r : Rows)
    (day : Date) :
    closingCumulative times scan r day
      = (openingCumulative r day).addAll
          (closedPnls r fun p => p.tradeDate = day && reported r p) := by
  have hsorted := ((List.perm_insertionSort
    (fun x y => exitKey times x.1 ≤ exitKey times y.1)
    (select (fun p => p.tradeDate = day ∧ p.state = .closed)
      r.positions)).map Prod.snd).filter (reported r)
  rw [select_map_snd, List.filter_filter] at hsorted
  rw [closingCumulative, collect_fst]
  refine Tally.addAll_perm (List.Perm.map _ (hsorted.trans ?_))
  refine List.Perm.of_eq (List.filter_congr fun p _ => ?_)
  rw [Bool.decide_and]
  beta_reduce
  ac_rfl

-- ============================================================= splitting

/-- CLOSED positions of a kind are of a narrower kind or are not. -/
theorem closedPnls_split {q u v w : Position → Bool}
    (hv : ∀ p ∈ r.positions, p.state = .closed → v p = (q p && u p))
    (hw : ∀ p ∈ r.positions, p.state = .closed → w p = (q p && !u p)) :
    (closedPnls r q).Perm (closedPnls r v ++ closedPnls r w) := by
  have h := List.filter_append_perm u
    (r.positions.filter fun p => p.state = .closed && q p)
  rw [List.filter_filter, List.filter_filter] at h
  unfold closedPnls
  rw [← List.map_append]
  refine List.Perm.map _ (h.symm.trans (List.Perm.of_eq ?_))
  refine congrArg₂ _ (List.filter_congr fun p hp => ?_)
    (List.filter_congr fun p hp => ?_)
  · by_cases hclosed : p.state = .closed
    · rw [hv p hp hclosed]
      ac_rfl
    · rw [decide_eq_false hclosed, Bool.false_and, Bool.and_false,
        Bool.false_and]
  · by_cases hclosed : p.state = .closed
    · rw [hw p hp hclosed]
      ac_rfl
    · rw [decide_eq_false hclosed, Bool.false_and, Bool.and_false,
        Bool.false_and]

/-- The amounts of the day the report leaves out. -/
def leftOut (r : Rows) (day : Date) : List ℚ :=
  closedPnls r fun p => p.tradeDate = day && !reported r p

/-- A day's amounts are reported or left out. -/
theorem closedPnls_day (r : Rows) (day : Date) :
    (closedPnls r (·.tradeDate = day)).Perm
      (closedPnls r (fun p => p.tradeDate = day && reported r p)
        ++ leftOut r day) :=
  closedPnls_split (u := reported r) (fun _ _ _ => rfl) fun _ _ _ => rfl

/-- Up to a day: before it and on it. -/
theorem closedPnls_upTo (r : Rows) (day : Date) :
    (closedPnls r (·.tradeDate ≤ day)).Perm
      (closedPnls r (·.tradeDate < day) ++ closedPnls r (·.tradeDate = day)) := by
  refine closedPnls_split (u := fun p => p.tradeDate < day)
    (fun p _ _ => ?_) fun p _ _ => ?_
  · rw [← Bool.decide_and, decide_eq_decide]
    exact ⟨fun h => ⟨h.le, h⟩, And.right⟩
  · rw [← decide_not, ← Bool.decide_and, decide_eq_decide, not_lt]
    exact le_antisymm_iff

/-- Before a day: up to the latest earlier one. -/
theorem closedPnls_before (h : LatestEarlier r day earlier) :
    (closedPnls r (·.tradeDate < day)).Perm
      (closedPnls r (·.tradeDate < earlier)
        ++ closedPnls r (·.tradeDate = earlier)) := by
  refine closedPnls_split (u := fun p => p.tradeDate < earlier)
    (fun p _ _ => ?_) fun p hp hclosed => ?_
  · rw [← Bool.decide_and, decide_eq_decide]
    exact ⟨fun hlt => ⟨hlt.trans h.before, hlt⟩, And.right⟩
  · rw [← decide_not, ← Bool.decide_and, decide_eq_decide, not_lt]
    constructor
    · intro heq
      exact ⟨heq ▸ h.before, heq.ge⟩
    · intro hon
      exact le_antisymm (h.latest p hp hclosed hon.1) hon.2

-- ============================================================ the totals

/-- A day opens with what the day before closed with, and what that day
left out. -/
theorem opening_eq (h : LatestEarlier r day earlier) :
    openingCumulative r day
      = (closingCumulative times scan r earlier).addAll
          (leftOut r earlier) := by
  rw [closingCumulative_eq, openingCumulative_eq, openingCumulative_eq,
    Tally.addAll_perm (closedPnls_before h), Tally.addAll_append,
    Tally.addAll_perm (closedPnls_day r earlier), Tally.addAll_append]

/-- The totals continue exactly when the day before left out zeros. -/
theorem opening_eq_closing_iff (h : LatestEarlier r day earlier) :
    openingCumulative r day = closingCumulative times scan r earlier
      ↔ ∀ x ∈ leftOut r earlier, x = 0 := by
  have heq : openingCumulative r day
      = (closingCumulative times scan r earlier).addAll (leftOut r earlier) :=
    opening_eq h
  rw [heq, Tally.addAll_eq_self_iff]

/-- The net is what was realized exactly when what the day left out sums
to zero. -/
theorem net_closing_iff :
    (closingCumulative times scan r day).net
        = (closedPnls r (·.tradeDate ≤ day)).sum
      ↔ (leftOut r day).sum = 0 := by
  have hzero : (⟨0, 0⟩ : Tally ℚ).net = 0 := sub_zero 0
  rw [closingCumulative_eq, openingCumulative_eq, Tally.net_addAll,
    Tally.net_addAll, hzero, zero_add, (closedPnls_upTo r day).sum_eq,
    List.sum_append, (closedPnls_day r day).sum_eq, List.sum_append,
    ← add_assoc, left_eq_add]

/-- Under the schema, left out is what has no expiry date. -/
theorem leftOut_eq (db : Db) (day : Date) :
    leftOut db.rows day
      = closedPnls db.rows fun p =>
          p.tradeDate = day && p.expiryDate.isNone := by
  refine congrArg (List.map _) (List.filter_congr fun p hp => ?_)
  beta_reduce
  rw [reported_eq hp, Option.not_isSome]

theorem mem_leftOut {db : Db} {x : ℚ} :
    x ∈ leftOut db.rows day
      ↔ ∃ p ∈ db.rows.positions, p.state = .closed ∧ p.tradeDate = day
        ∧ p.expiryDate = none ∧ p.realizedPnl.getD 0 = x := by
  rw [leftOut_eq]
  simp only [closedPnls, List.mem_map, List.mem_filter, Bool.and_eq_true,
    decide_eq_true_eq, Option.isNone_iff_eq_none, and_assoc]

/-- Whatever the exporter reads, the totals of a day continue those of the
day before, account for all that was realized and depend on no order,
exactly when what has no expiry date realized nothing. -/
theorem report_continues_iff (times : FillTimes) (scan : List Nat) (db : Db)
    (day : Date) :
    Continues times scan db.rows day ↔ LeavesOutNothing db.rows day := by
  constructor
  · intro h
    constructor
    · intro earlier hearlier p hp hclosed hdate hexpiry
      exact (opening_eq_closing_iff hearlier).1 (h.opening earlier hearlier) _
        (mem_leftOut.2 ⟨p, hp, hclosed, hdate, hexpiry, rfl⟩)
    · rw [← leftOut_eq]
      exact net_closing_iff.1 h.net
  · intro h
    refine ⟨fun earlier hearlier => ?_, ?_, fun pnls hperm => ?_,
      fun positions hperm => ?_⟩
    · refine (opening_eq_closing_iff hearlier).2 fun x hx => ?_
      obtain ⟨p, hp, hclosed, hdate, hexpiry, hx⟩ := mem_leftOut.1 hx
      exact hx ▸ h.earlier earlier hearlier p hp hclosed hdate hexpiry
    · rw [net_closing_iff, leftOut_eq]
      exact h.today
    · rw [openingCumulative, accumulate_eq, accumulate_eq]
      exact Tally.addAll_perm (hperm.map _)
    · rw [closingCumulative, collect_fst, collect_fst]
      exact Tally.addAll_perm (((hperm.map _).filter _).map _)

-- ========================================================= the lost amount

namespace Unexpired

/-- A straddle closed at a profit, its expiry date not recorded. -/
def rows : Rows :=
  { instances := [⟨"strategy_1", "NIFTY", 1, .nfo, .active⟩]
    positions := [{ strategyInstanceId := 0
                    tradeDate := { year := 2026, month := 1, day := 5 }
                    state := .closed
                    realizedPnl := some 100 }] }

def db : Db := ⟨rows, by decide +kernel⟩

def fillTimes : FillTimes := ⟨fun _ => none, fun _ => none, fun _ => none⟩

def nextDay : Date := { year := 2026, month := 1, day := 6 }

end Unexpired

/-- The next day opens with a profit the day itself never showed. -/
theorem next_day_opens_higher :
    ¬ Continues Unexpired.fillTimes [] Unexpired.db.rows Unexpired.nextDay := by
  intro h
  have hopening := h.opening { year := 2026, month := 1, day := 5 }
    ⟨by decide, by decide, by decide⟩
  exact absurd hopening (by decide +kernel)

end AlgoPlatform.TradeReportExporter
