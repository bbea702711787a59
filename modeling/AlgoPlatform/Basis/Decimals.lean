/-
Decimals of a fixed scale.

A column of a fixed number of decimals keeps multiples of `1 / scale`.
What is handed to it is rounded there, the half away from zero
(`roundHalfAway`). A program that computes on what it stored before needs
four facts: the rounding lands on the grid, it changes nothing that is on
the grid already, it keeps signs, and the grid is closed under sums. The
difference of two prices of which one was rounded and the other not is
on no grid, which is why a total over stored figures and a total over
figures computed anew can disagree in the last place.
-/
import Mathlib.Algebra.BigOperators.Group.List.Basic
import Mathlib.Algebra.Order.Floor.Ring
import Mathlib.Data.Rat.Floor
import Mathlib.Tactic.FieldSimp
import Mathlib.Tactic.Linarith
import Mathlib.Tactic.Positivity
import Mathlib.Tactic.Ring

namespace Basis

/-- The nearest multiple of `1 / scale`, the half away from zero. -/
def roundHalfAway (scale : ℕ) (x : ℚ) : ℚ :=
  if 0 ≤ x then ⌊x * scale + 1 / 2⌋ / scale
  else -(⌊-x * scale + 1 / 2⌋ / scale)

/-- A multiple of `1 / scale`. -/
def OnGrid (scale : ℕ) (x : ℚ) : Prop := ∃ n : ℤ, x = n / scale

variable {scale : ℕ} {x y : ℚ}

-- =============================================================== the grid

theorem onGrid_zero : OnGrid scale 0 := ⟨0, by simp⟩

theorem OnGrid.neg (hx : OnGrid scale x) : OnGrid scale (-x) := by
  obtain ⟨n, rfl⟩ := hx
  exact ⟨-n, by push_cast; ring⟩

theorem OnGrid.add (hx : OnGrid scale x) (hy : OnGrid scale y) :
    OnGrid scale (x + y) := by
  obtain ⟨n, rfl⟩ := hx
  obtain ⟨k, rfl⟩ := hy
  exact ⟨n + k, by push_cast; ring⟩

theorem OnGrid.mul_nat (hx : OnGrid scale x) (n : ℕ) :
    OnGrid scale (x * n) := by
  obtain ⟨k, rfl⟩ := hx
  exact ⟨k * n, by push_cast; ring⟩

theorem onGrid_sum {xs : List ℚ} (h : ∀ x ∈ xs, OnGrid scale x) :
    OnGrid scale xs.sum := by
  induction xs with
  | nil => exact onGrid_zero
  | cons x xs ih =>
      rw [List.sum_cons]
      exact (h x (List.mem_cons_self ..)).add
        (ih fun y hy => h y (List.mem_cons_of_mem _ hy))

-- =========================================================== the rounding

theorem onGrid_round (scale : ℕ) (x : ℚ) :
    OnGrid scale (roundHalfAway scale x) := by
  unfold roundHalfAway
  split_ifs
  · exact ⟨_, rfl⟩
  · exact OnGrid.neg ⟨_, rfl⟩

theorem round_nonneg (hx : 0 ≤ x) : 0 ≤ roundHalfAway scale x := by
  unfold roundHalfAway
  rw [if_pos hx]
  have hfloor : (0 : ℤ) ≤ ⌊x * scale + 1 / 2⌋ := Int.floor_nonneg.2 (by positivity)
  have hcast : (0 : ℚ) ≤ ⌊x * scale + 1 / 2⌋ := by exact_mod_cast hfloor
  positivity

/-- What is on the grid is kept as it is. -/
theorem OnGrid.round_eq (hscale : 0 < scale) (hx : OnGrid scale x) :
    roundHalfAway scale x = x := by
  have hne : (scale : ℚ) ≠ 0 := by positivity
  have hfloor : ∀ n : ℤ, ⌊((n : ℚ) / scale) * scale + 1 / 2⌋ = n := by
    intro n
    rw [div_mul_cancel₀ _ hne, Int.floor_eq_iff]
    constructor <;> linarith
  obtain ⟨n, rfl⟩ := hx
  unfold roundHalfAway
  split_ifs
  · rw [hfloor]
  · have hneg : -((n : ℚ) / scale) = ((-n : ℤ) : ℚ) / scale := by
      push_cast
      ring
    rw [hneg, hfloor]
    push_cast
    ring

/-- A rounding moves a value by half the last place at most. -/
theorem round_bounds (hscale : 0 < scale) (hx : 0 ≤ x) :
    x - 1 / (2 * scale) < roundHalfAway scale x
      ∧ roundHalfAway scale x ≤ x + 1 / (2 * scale) := by
  have hpos : (0 : ℚ) < scale := by exact_mod_cast hscale
  have hle := Int.floor_le (x * scale + 1 / 2)
  have hlt := Int.lt_floor_add_one (x * scale + 1 / 2)
  have hhalf : 1 / (2 * (scale : ℚ)) * scale = 1 / 2 := by field_simp
  unfold roundHalfAway
  rw [if_pos hx]
  constructor
  · rw [lt_div_iff₀ hpos, sub_mul, hhalf]
    linarith
  · rw [div_le_iff₀ hpos, add_mul, hhalf]
    exact hle

end Basis
