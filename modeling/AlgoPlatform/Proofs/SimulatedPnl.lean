/-
What the simulated broker books is what was traded: a position's realized
profit and its open value at any mark are together the value its fills
have at that mark.

`_update_position` has a branch for opening or adding, one for closing in
part or in full, and one for flipping. Each moves the worth of the
position at a mark by the worth of the one fill (`updatePosition_worth`),
so the sum is kept however the branches alternate. That the average price
says whether the position is flat needs the fills' prices to be positive:
an average of positive prices is positive (`updatePosition_priced`).
-/
import Mathlib.Tactic.FieldSimp
import Mathlib.Tactic.Linarith
import Mathlib.Tactic.Positivity
import Mathlib.Tactic.Ring
import AlgoPlatform.Proofs.SimulatedLedger

namespace AlgoPlatform

-- =============================================== statement vocabulary

/-- One fill as `_update_position` receives it. -/
structure PositionFill where
  side : TransactionType
  quantity : Int
  price : ℚ
  quantity_pos : 0 < quantity
  price_pos : 0 < price

namespace PositionFill

/-- The quantity with the sign of its side. -/
def signed (fill : PositionFill) : Int := fill.side.signed fill.quantity

/-- What the fill pays out, negative for a sale. -/
def cost (fill : PositionFill) : ℚ := fill.signed * fill.price

end PositionFill

namespace SimPosition

/-- `_update_position` folded over some fills. -/
def after (position : SimPosition) (fills : List PositionFill) :
    SimPosition :=
  fills.foldl (fun p fill =>
    updatePosition p fill.side fill.quantity fill.price) position

/-- Realized profit and open value at a mark. -/
def worth (position : SimPosition) (mark : ℚ) : ℚ :=
  position.realizedPnl + position.quantity * (mark - position.averagePrice)

/-- The average price is that of an open position, and zero without one. -/
structure Priced (position : SimPosition) : Prop where
  flat : position.quantity = 0 → position.averagePrice = 0
  held : position.quantity ≠ 0 → 0 < position.averagePrice

end SimPosition

-- ============================================================ one fill

variable {position : SimPosition} {side : TransactionType}
  {filledQty : Int} {fillPrice : ℚ}

/-- What the first branch's guard says: the fill adds to its side. -/
private theorem sameSide {q d : Int} (h : q = 0 ∨ (0 < q ↔ 0 < d)) :
    (0 ≤ q ∧ 0 ≤ d) ∨ (q ≤ 0 ∧ d ≤ 0) := by
  rcases h with rfl | h
  · omega
  · by_cases hq : 0 < q
    · have := h.mp hq
      omega
    · have : ¬ 0 < d := fun hd => hq (h.mpr hd)
      omega

/-- What the second branch's guard says: the fill works against a held
side. -/
private theorem otherSide {q d : Int} (h : ¬ (q = 0 ∨ (0 < q ↔ 0 < d))) :
    (0 < q ∧ d ≤ 0) ∨ (q < 0 ∧ 0 < d) := by
  rw [not_or] at h
  obtain ⟨hq, hside⟩ := h
  by_cases hpos : 0 < q
  · have : ¬ 0 < d := fun hd => hside ⟨fun _ => hd, fun _ => hpos⟩
    omega
  · have : 0 < d := by
      by_contra hd
      exact hside ⟨fun h => absurd h hpos, fun h => absurd h hd⟩
    omega

/-- Adding to a side keeps the cost of the whole: the new average over the
new quantity is the old one over the old and the price over the fill. -/
private theorem weighted_cost {q d : Int} (avg price : ℚ)
    (hside : (0 ≤ q ∧ 0 ≤ d) ∨ (q ≤ 0 ∧ d ≤ 0)) (hne : q + d ≠ 0) :
    ((q + d : Int) : ℚ)
        * ((avg * ((|q| : Int) : ℚ) + price * ((|d| : Int) : ℚ))
          / ((|q + d| : Int) : ℚ))
      = q * avg + d * price := by
  have hne' : (q : ℚ) + d ≠ 0 := by exact_mod_cast hne
  rcases hside with ⟨hq, hd⟩ | ⟨hq, hd⟩
  · rw [abs_of_nonneg hq, abs_of_nonneg hd, abs_of_nonneg (by omega)]
    push_cast
    field_simp
  · rw [abs_of_nonpos hq, abs_of_nonpos hd, abs_of_nonpos (by omega)]
    have hneg : -((q : ℚ) + d) ≠ 0 := neg_ne_zero.mpr hne'
    push_cast
    rw [mul_div_assoc', div_eq_iff hneg]
    ring

/-- What the second branch books, both sides in one form: the fill closes
what it covers of the position at the difference of the prices, and opens
what is left of it at its own price. -/
theorem updatePosition_closing
    (h : ¬ (position.quantity = 0
      ∨ (0 < position.quantity ↔ 0 < side.signed filledQty))) :
    updatePosition position side filledQty fillPrice
      = if |side.signed filledQty| ≤ |position.quantity| then
          { quantity := position.quantity + side.signed filledQty
            averagePrice :=
              if position.quantity + side.signed filledQty ≠ 0 then
                position.averagePrice
              else 0
            realizedPnl := position.realizedPnl
              - side.signed filledQty
                * (fillPrice - position.averagePrice) }
        else
          { quantity := position.quantity + side.signed filledQty
            averagePrice := fillPrice
            realizedPnl := position.realizedPnl
              + position.quantity * (fillPrice - position.averagePrice) } := by
  have hside := otherSide h
  unfold updatePosition
  dsimp only
  rw [if_neg h]
  by_cases hle : |side.signed filledQty| ≤ |position.quantity|
  · have hmin : min |position.quantity| |side.signed filledQty|
        = |side.signed filledQty| := min_eq_right hle
    rw [hmin, sub_self, if_pos rfl, if_pos hle]
    congr 1
    rcases hside with ⟨hq, hd⟩ | ⟨hq, hd⟩
    · rw [if_pos hq, abs_of_nonpos hd]
      push_cast
      ring
    · rw [if_neg (by omega), abs_of_pos hd]
      ring
  · have hlt : |position.quantity| < |side.signed filledQty| := not_le.mp hle
    have hmin : min |position.quantity| |side.signed filledQty|
        = |position.quantity| := min_eq_left hlt.le
    rw [hmin, if_neg (sub_pos.mpr hlt).ne', if_neg hle]
    congr 1
    rcases hside with ⟨hq, -⟩ | ⟨hq, -⟩
    · rw [if_pos hq, abs_of_pos hq]
    · rw [if_neg (by omega), abs_of_neg hq]
      push_cast
      ring

/-- Every branch moves the worth of the position by that of the fill. -/
theorem updatePosition_worth (mark : ℚ) :
    (updatePosition position side filledQty fillPrice).worth mark
      = position.worth mark
        + side.signed filledQty * (mark - fillPrice) := by
  by_cases hside : position.quantity = 0
    ∨ (0 < position.quantity ↔ 0 < side.signed filledQty)
  · unfold SimPosition.worth updatePosition
    dsimp only
    rw [if_pos hside]
    split
    · -- nothing held and nothing filled
      rename_i hzero
      have := sameSide hside
      have hq : position.quantity = 0 := by omega
      have hd : side.signed filledQty = 0 := by omega
      simp [hq, hd]
    · rename_i hne
      have hcost := weighted_cost position.averagePrice fillPrice
        (sameSide hside) hne
      dsimp only
      rw [mul_sub, hcost]
      push_cast
      ring
  · rw [updatePosition_closing hside]
    unfold SimPosition.worth
    split
    · dsimp only
      split
      · push_cast
        ring
      · -- closed in full: the average price no longer counts
        rename_i hflat
        have hflat : position.quantity + side.signed filledQty = 0 := by
          omega
        have hd : (side.signed filledQty : ℚ) = -position.quantity := by
          exact_mod_cast eq_neg_of_add_eq_zero_right hflat
        rw [hflat, hd]
        push_cast
        ring
    · dsimp only
      push_cast
      ring

/-- The average price stays that of an open position. -/
theorem updatePosition_priced (h : position.Priced) (hqty : 0 < filledQty)
    (hprice : 0 < fillPrice) :
    (updatePosition position side filledQty fillPrice).Priced := by
  have hd : side.signed filledQty ≠ 0 := by
    cases side <;> simp only [TransactionType.signed] <;> omega
  by_cases hside : position.quantity = 0
    ∨ (0 < position.quantity ↔ 0 < side.signed filledQty)
  · have hsum := sameSide hside
    have hne : position.quantity + side.signed filledQty ≠ 0 := by omega
    unfold updatePosition
    dsimp only
    rw [if_pos hside, if_neg hne]
    refine ⟨fun hflat => absurd hflat hne, fun _ => ?_⟩
    have havg : 0 ≤ position.averagePrice := by
      by_cases hq : position.quantity = 0
      · exact (h.flat hq).ge
      · exact (h.held hq).le
    have habs : (0 : ℚ) < ((|side.signed filledQty| : Int) : ℚ) := by
      exact_mod_cast abs_pos.mpr hd
    have hold : (0 : ℚ) ≤ ((|position.quantity| : Int) : ℚ) := by
      exact_mod_cast abs_nonneg _
    have htotal : (0 : ℚ)
        < ((|position.quantity + side.signed filledQty| : Int) : ℚ) := by
      exact_mod_cast abs_pos.mpr hne
    positivity
  · rw [updatePosition_closing hside]
    have hq : position.quantity ≠ 0 := fun hq => hside (Or.inl hq)
    split
    · refine ⟨fun hflat => ?_, fun hopen => ?_⟩
      · rw [if_neg (by simpa using hflat)]
      · rw [if_pos hopen]
        exact h.held hq
    · rename_i hflip
      refine ⟨fun hflat => ?_, fun _ => hprice⟩
      -- what flips is larger than what was held
      dsimp only at hflat
      have : side.signed filledQty = -position.quantity := by omega
      rw [this, abs_neg] at hflip
      exact absurd (le_refl _) hflip

-- ============================================================ any fills

/-- What any fills leave of what a position had. -/
theorem after_keeps (position : SimPosition) (fills : List PositionFill)
    (h : position.Priced) :
    (position.after fills).quantity
        = position.quantity + (fills.map PositionFill.signed).sum
      ∧ (position.after fills).Priced
      ∧ ∀ mark : ℚ, (position.after fills).worth mark
        = position.worth mark + (fills.map PositionFill.signed).sum * mark
          - (fills.map PositionFill.cost).sum := by
  induction fills generalizing position with
  | nil =>
      refine ⟨by simp [SimPosition.after], h, fun mark => ?_⟩
      simp [SimPosition.after]
  | cons fill fills ih =>
      obtain ⟨hquantity, hpriced, hworth⟩ :=
        ih (updatePosition position fill.side fill.quantity fill.price)
          (updatePosition_priced h fill.quantity_pos fill.price_pos)
      refine ⟨?_, hpriced, fun mark => ?_⟩
      · rw [show position.after (fill :: fills)
          = (updatePosition position fill.side fill.quantity
              fill.price).after fills from rfl,
          hquantity, SimulationBroker.updatePosition_quantity,
          List.map_cons, List.sum_cons, add_assoc]
        rfl
      · rw [show position.after (fill :: fills)
          = (updatePosition position fill.side fill.quantity
              fill.price).after fills from rfl,
          hworth, updatePosition_worth, List.map_cons, List.sum_cons,
          List.map_cons, List.sum_cons]
        show _ + (fill.signed : ℚ) * (mark - fill.price) + _ - _ = _
        unfold PositionFill.cost
        push_cast
        ring

/-- From flat, any fills leave the position they sum up to, an average
price that is zero exactly when it is flat, and at every mark the realized
profit and the open value of the fills' own value at that mark. -/
theorem simulated_pnl_conserved (fills : List PositionFill) :
    (SimPosition.after {} fills).quantity
        = (fills.map PositionFill.signed).sum
      ∧ ((SimPosition.after {} fills).averagePrice = 0
          ↔ (SimPosition.after {} fills).quantity = 0)
      ∧ ∀ mark : ℚ, (SimPosition.after {} fills).realizedPnl
          + (SimPosition.after {} fills).quantity
            * (mark - (SimPosition.after {} fills).averagePrice)
        = (SimPosition.after {} fills).quantity * mark
          - (fills.map PositionFill.cost).sum := by
  have hstart : SimPosition.Priced {} :=
    ⟨fun _ => rfl, fun h => absurd rfl h⟩
  obtain ⟨hquantity, hpriced, hworth⟩ := after_keeps {} fills hstart
  rw [show ({} : SimPosition).quantity = 0 from rfl, zero_add] at hquantity
  refine ⟨hquantity, ⟨fun hzero => ?_, hpriced.flat⟩, fun mark => ?_⟩
  · by_contra hopen
    exact absurd hzero (hpriced.held hopen).ne'
  · have h := hworth mark
    rw [← hquantity] at h
    unfold SimPosition.worth at h
    rw [h]
    simp

/-- Sold short, added to, partly covered, then flipped long. -/
example : (SimPosition.after {}
      [⟨.sell, 75, 100, by decide, by decide⟩,
        ⟨.sell, 25, 120, by decide, by decide⟩,
        ⟨.buy, 50, 90, by decide, by decide⟩,
        ⟨.buy, 80, 110, by decide, by decide⟩])
    = { quantity := 30, averagePrice := 110, realizedPnl := 500 } := by
  decide +kernel

end AlgoPlatform
