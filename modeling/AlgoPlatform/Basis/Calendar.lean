/-
The Gregorian calendar, extended back to year 1.

Days and months are numbered: day 1 is the first of January of year 1, a
Monday, and month 0 is that January. A month is then the stretch of day
numbers from its start to the next month's (`monthOf_eq_iff`), whatever
its year, so that what is said about consecutive months need not tell a
December apart.
-/
import Mathlib.Data.Nat.Find
import Mathlib.Order.Monotone.Basic
import Mathlib.Tactic.Common

namespace Basis.Calendar

-- ============================================================== months

def isLeap (year : Nat) : Bool :=
  year % 4 = 0 && (year % 100 ≠ 0 || year % 400 = 0)

def daysInMonth (year : Nat) : Nat → Nat
  | 2 => if isLeap year then 29 else 28
  | 4 | 6 | 9 | 11 => 30
  | _ => 31

/-- The days of the years before a year. -/
def daysBeforeYear (year : Nat) : Nat :=
  (year - 1) * 365 + (year - 1) / 4 + (year - 1) / 400 - (year - 1) / 100

/-- The days of the first so many months of a year. -/
def daysOfMonths (year : Nat) : Nat → Nat
  | 0 => 0
  | n + 1 => daysOfMonths year n + daysInMonth year (n + 1)

/-- The year of a month. -/
def yearOf (month : Nat) : Nat := month / 12 + 1

/-- A month within its year, from 1 to 12. -/
def monthOfYear (month : Nat) : Nat := month % 12 + 1

/-- The first day of a month. -/
def monthStart (month : Nat) : Nat :=
  daysBeforeYear (yearOf month) + daysOfMonths (yearOf month) (month % 12) + 1

/-- The month a day is in. -/
def monthOf (day : Nat) : Nat :=
  Nat.findGreatest (fun month => monthStart month ≤ day) (day / 28)

/-- The day of the week, from 0 for Monday. -/
def weekday (day : Nat) : Nat := (day + 6) % 7

example : monthStart 24300 + 19 = 739636 ∧ weekday 739636 = 1 := by decide

-- ============================================================= lengths

theorem daysInMonth_bounds (year month : Nat) :
    28 ≤ daysInMonth year month ∧ daysInMonth year month ≤ 31 := by
  unfold daysInMonth
  split
  · split_ifs <;> decide
  all_goals decide

theorem daysOfMonths_year (year : Nat) :
    daysOfMonths year 12 = if isLeap year then 366 else 365 := by
  simp only [daysOfMonths, daysInMonth]
  split_ifs <;> rfl

/-- A year is as long as its months. -/
theorem daysBeforeYear_succ (n : Nat) :
    daysBeforeYear (n + 2)
      = daysBeforeYear (n + 1) + daysOfMonths (n + 1) 12 := by
  have hleap : isLeap (n + 1) = true
      ↔ 4 ∣ n + 1 ∧ (¬ 100 ∣ n + 1 ∨ 400 ∣ n + 1) := by
    simp only [isLeap, Bool.and_eq_true, Bool.or_eq_true, decide_eq_true_eq,
      Nat.dvd_iff_mod_eq_zero, ne_eq]
  have hcentury : 100 ∣ n + 1 → 4 ∣ n + 1 := Nat.dvd_trans (by decide)
  have hfour : 400 ∣ n + 1 → 100 ∣ n + 1 := Nat.dvd_trans (by decide)
  have hle : n / 100 ≤ n / 4 := Nat.div_le_div_left (by decide) (by decide)
  rw [daysOfMonths_year]
  unfold daysBeforeYear
  simp only [Nat.add_sub_cancel, show n + 2 - 1 = n + 1 from rfl, Nat.succ_div,
    hleap]
  generalize n / 4 = q₄ at hle ⊢
  generalize n / 100 = q₁₀₀ at hle ⊢
  generalize n / 400 = q₄₀₀
  by_cases h₄ : 4 ∣ n + 1
  · by_cases h₁₀₀ : 100 ∣ n + 1
    · by_cases h₄₀₀ : 400 ∣ n + 1
      · simp only [h₄, h₁₀₀, h₄₀₀, if_true, not_true, false_or, and_self]
        omega
      · simp only [h₄, h₁₀₀, h₄₀₀, if_true, if_false, not_true, or_self,
          and_false]
        omega
    · simp only [h₄, h₁₀₀, mt hfour h₁₀₀, if_true, if_false, not_false_eq_true,
        true_or, and_self]
      omega
  · simp only [h₄, mt hcentury h₄, mt hfour (mt hcentury h₄), if_false,
      false_and]
    omega

/-- The next month starts when this one is over, in whatever year. -/
theorem monthStart_succ (month : Nat) :
    monthStart (month + 1)
      = monthStart month + daysInMonth (yearOf month) (monthOfYear month) := by
  unfold monthStart yearOf monthOfYear
  rcases Nat.lt_or_ge (month % 12) 11 with hlt | hge
  · have hyear : (month + 1) / 12 = month / 12 := by omega
    have hmonth : (month + 1) % 12 = month % 12 + 1 := by omega
    rw [hyear, hmonth, daysOfMonths]
    omega
  · have hyear : (month + 1) / 12 = month / 12 + 1 := by omega
    have hmonth : (month + 1) % 12 = 0 := by omega
    have hlast : month % 12 = 11 := by omega
    have hsum := daysBeforeYear_succ (month / 12)
    rw [daysOfMonths] at hsum
    rw [hyear, hmonth, hlast, daysOfMonths, hsum]
    omega

theorem monthStart_lt_succ (month : Nat) :
    monthStart month < monthStart (month + 1) := by
  have hlength := (daysInMonth_bounds (yearOf month) (monthOfYear month)).1
  rw [monthStart_succ]
  omega

theorem monthStart_strictMono : StrictMono monthStart :=
  strictMono_nat_of_lt_succ monthStart_lt_succ

theorem le_monthStart (month : Nat) : 28 * month + 1 ≤ monthStart month := by
  induction month with
  | zero => decide
  | succ month ih =>
      have hlength := (daysInMonth_bounds (yearOf month) (monthOfYear month)).1
      rw [monthStart_succ]
      omega

-- ================================================================= days

variable {day month : Nat}

/-- A month is the days from its start up to the next month's. -/
theorem monthOf_eq_iff (hday : 1 ≤ day) :
    monthOf day = month
      ↔ monthStart month ≤ day ∧ day < monthStart (month + 1) := by
  have hstart : monthStart (monthOf day) ≤ day :=
    Nat.findGreatest_spec (P := fun month => monthStart month ≤ day)
      (Nat.zero_le _) hday
  have hend : day < monthStart (monthOf day + 1) := by
    by_contra hle
    have hbound := le_monthStart (monthOf day + 1)
    have hfound : monthOf day + 1 ≤ monthOf day :=
      Nat.le_findGreatest (P := fun month => monthStart month ≤ day)
        (by omega) (not_lt.1 hle)
    omega
  constructor
  · intro h
    rw [← h]
    exact ⟨hstart, hend⟩
  · intro ⟨hge, hlt⟩
    have hle := monthStart_strictMono.lt_iff_lt.1 (hstart.trans_lt hlt)
    have hle' := monthStart_strictMono.lt_iff_lt.1 (hge.trans_lt hend)
    omega

theorem monthStart_monthOf (hday : 1 ≤ day) : monthStart (monthOf day) ≤ day :=
  ((monthOf_eq_iff hday).1 rfl).1

theorem lt_monthStart_monthOf (hday : 1 ≤ day) :
    day < monthStart (monthOf day + 1) :=
  ((monthOf_eq_iff hday).1 rfl).2

/-- Later days are in later months or the same. -/
theorem monthOf_mono {day' : Nat} (hday : 1 ≤ day) (h : day ≤ day') :
    monthOf day ≤ monthOf day' := by
  have hstart := monthStart_monthOf hday
  have hend := lt_monthStart_monthOf (hday.trans h)
  have hlt := monthStart_strictMono.lt_iff_lt.1
    (hstart.trans_lt (h.trans_lt hend))
  omega

end Basis.Calendar
