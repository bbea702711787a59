/-
A running tally: gains and losses summed apart, each without its sign.
-/
import Mathlib.Algebra.Order.Group.PosPart
import Mathlib.Algebra.Order.BigOperators.Group.List
import Mathlib.Tactic.Abel

namespace Basis

variable {α : Type} [AddCommGroup α] [LinearOrder α]

/-- What was gained so far and what was lost. -/
@[ext]
structure Tally (α : Type) where
  profit : α
  loss : α
  deriving DecidableEq, Repr

namespace Tally

/-- One amount more. -/
def add (t : Tally α) (x : α) : Tally α :=
  if 0 < x then { t with profit := t.profit + x }
  else if x < 0 then { t with loss := t.loss + -x }
  else t

/-- Amounts one after the other. -/
def addAll (t : Tally α) (xs : List α) : Tally α := xs.foldl add t

/-- Gains less losses. -/
def net (t : Tally α) : α := t.profit - t.loss

section Rules

variable [IsOrderedAddMonoid α] {t : Tally α} {x : α} {xs ys : List α}

omit [IsOrderedAddMonoid α] in
theorem addAll_append : t.addAll (xs ++ ys) = (t.addAll xs).addAll ys :=
  List.foldl_append

theorem add_eq : t.add x = ⟨t.profit + x⁺, t.loss + x⁻⟩ := by
  unfold add
  split_ifs with hpos hneg
  · rw [posPart_of_nonneg hpos.le, negPart_of_nonneg hpos.le, add_zero]
  · rw [posPart_of_nonpos hneg.le, negPart_of_nonpos hneg.le, add_zero]
  · have hzero : x = 0 := le_antisymm (not_lt.1 hpos) (not_lt.1 hneg)
    rw [hzero, posPart_zero, negPart_zero, add_zero, add_zero]

theorem addAll_eq : t.addAll xs
    = ⟨t.profit + (xs.map (·⁺)).sum, t.loss + (xs.map (·⁻)).sum⟩ := by
  induction xs generalizing t with
  | nil => simp only [addAll, List.foldl_nil, List.map_nil, List.sum_nil,
      add_zero]
  | cons x xs ih =>
      have hstep : t.addAll (x :: xs) = (t.add x).addAll xs := rfl
      rw [hstep, ih, add_eq]
      simp only [List.map_cons, List.sum_cons, add_assoc]

/-- The order of the amounts does not matter. -/
theorem addAll_perm (h : xs.Perm ys) : t.addAll xs = t.addAll ys := by
  rw [addAll_eq, addAll_eq, (h.map _).sum_eq, (h.map _).sum_eq]

/-- The net moves by the sum of the amounts. -/
theorem net_addAll : (t.addAll xs).net = t.net + xs.sum := by
  induction xs generalizing t with
  | nil => exact (add_zero _).symm
  | cons x xs ih =>
      have hstep : t.addAll (x :: xs) = (t.add x).addAll xs := rfl
      have hnet : (t.add x).net = t.net + x := by
        have hx : x⁺ - x⁻ = x := posPart_sub_negPart x
        rw [add_eq]
        show t.profit + x⁺ - (t.loss + x⁻) = t.profit - t.loss + x
        rw [add_sub_add_comm, hx]
      rw [hstep, ih, hnet, List.sum_cons, add_assoc]

/-- Gains and losses never cancel: only zeros leave a tally as it is. -/
theorem addAll_eq_self_iff : t.addAll xs = t ↔ ∀ x ∈ xs, x = 0 := by
  constructor
  · intro h x hx
    rw [addAll_eq, Tally.ext_iff] at h
    obtain ⟨hprofit, hloss⟩ := h
    have hpos : x⁺ = 0 :=
      List.all_zero_of_le_zero_le_of_sum_eq_zero
        (List.forall_mem_map.2 fun y _ => posPart_nonneg y)
        (add_eq_left.1 hprofit) (List.mem_map_of_mem hx)
    have hneg : x⁻ = 0 :=
      List.all_zero_of_le_zero_le_of_sum_eq_zero
        (List.forall_mem_map.2 fun y _ => negPart_nonneg y)
        (add_eq_left.1 hloss) (List.mem_map_of_mem hx)
    rw [← posPart_sub_negPart x, hpos, hneg, sub_zero]
  · intro h
    induction xs with
    | nil => rfl
    | cons x xs ih =>
        obtain ⟨hx, hxs⟩ := List.forall_mem_cons.1 h
        have hadd : t.add x = t := by
          rw [add_eq, hx, posPart_zero, negPart_zero, add_zero, add_zero]
        calc t.addAll (x :: xs) = (t.add x).addAll xs := rfl
          _ = t := by rw [hadd, ih hxs]

end Rules

end Tally

end Basis
