/-
The current expiry of an instrument (`ConfigExpiryService`) over the
exchange holidays (`HolidayService`).

`date` arithmetic goes by day numbers and is refused outside the years
`date` covers. `_require`'s look-up of the instrument is left out: the
configuration it finds is an argument.
-/
import Mathlib.Order.Basic
import AlgoPlatform.Basis.Calendar
import AlgoPlatform.Model.Dates

open Basis

namespace AlgoPlatform

-- ================================================================= days

/-- A `date`, by its `toordinal()`. -/
structure Day where
  ordinal : Nat
  valid : 1 ≤ ordinal ∧ ordinal ≤ 3652059 := by decide
  deriving DecidableEq

/-- What date arithmetic raises: `ValueError`, `OverflowError`. -/
inductive DateError
  | value
  | overflow
  deriving DecidableEq

namespace Day

theorem ordinal_injective : Function.Injective ordinal := by
  intro a b h
  cases a
  cases b
  cases h
  rfl

instance : LinearOrder Day := LinearOrder.lift' ordinal ordinal_injective

variable (d : Day)

/-- The months from January of year 1 to the day's. -/
def monthIndex : Nat := Calendar.monthOf d.ordinal

def year : Nat := Calendar.yearOf d.monthIndex

def month : Nat := Calendar.monthOfYear d.monthIndex

/-- The day of the month. -/
def day : Nat := d.ordinal - Calendar.monthStart d.monthIndex + 1

/-- `weekday()`: 0 is Monday. -/
def weekday : Nat := Calendar.weekday d.ordinal

theorem monthStart_le : Calendar.monthStart d.monthIndex ≤ d.ordinal :=
  Calendar.monthStart_monthOf d.valid.1

theorem lt_monthStart : d.ordinal < Calendar.monthStart (d.monthIndex + 1) :=
  Calendar.lt_monthStart_monthOf d.valid.1

/-- January of year 10000 is out of range. -/
theorem monthIndex_lt : d.monthIndex < 119988 := by
  have hend : Calendar.monthStart 119988 = 3652060 := by decide
  refine Calendar.monthStart_strictMono.lt_iff_lt.1 ?_
  have hstart := d.monthStart_le
  have hvalid := d.valid.2
  omega

/-- The year, month and day. -/
def date : Date where
  year := d.year
  month := d.month
  day := d.day
  valid := by
    have hmonth := d.monthIndex_lt
    have hend := d.lt_monthStart
    rw [Calendar.monthStart_succ] at hend
    have hlength := (Calendar.daysInMonth_bounds
      (Calendar.yearOf d.monthIndex) (Calendar.monthOfYear d.monthIndex)).2
    unfold year month day Calendar.yearOf Calendar.monthOfYear
    omega

/-- `d + timedelta(days=…)`. -/
def addDays (days : Int) : Except DateError Day :=
  if h : 1 ≤ (d.ordinal : Int) + days ∧ (d.ordinal : Int) + days ≤ 3652059 then
    .ok ⟨((d.ordinal : Int) + days).toNat, by omega⟩
  else .error .overflow

/-- `date(year, month, 1)`. -/
def firstOfMonth (year month : Nat) : Except DateError Day :=
  if h : (1 ≤ year ∧ year ≤ 9999) ∧ 1 ≤ month ∧ month ≤ 12 then
    .ok
      { ordinal := Calendar.monthStart (12 * (year - 1) + (month - 1))
        valid := by
          have hfirst := Calendar.le_monthStart (12 * (year - 1) + (month - 1))
          have hlast := Calendar.monthStart_strictMono.monotone
            (show 12 * (year - 1) + (month - 1) ≤ 119987 by omega)
          have hend : Calendar.monthStart 119987 = 3652029 := by decide
          omega }
  else .error .value

end Day

-- ============================================================= holidays

/-- The holiday calendars, by key; one that is not there is empty. -/
structure HolidayService where
  holidays : String → List Date

namespace HolidayService

variable (service : HolidayService) (day : Day) (exchange : Exchange)

/-- `_CALENDAR_KEY`: a derivatives segment follows its cash exchange. -/
def calendarKey : Exchange → String
  | .nfo | .nse => "NSE"
  | .bfo | .bse => "BSE"

/-- `_dates_for`. -/
def datesFor : List Date := service.holidays (calendarKey exchange)

/-- `is_holiday`. -/
def isHoliday : Bool := day.date ∈ service.datesFor exchange

/-- `is_trading_day`. -/
def isTradingDay : Bool := day.weekday < 5 && !service.isHoliday day exchange

end HolidayService

-- =============================================================== expiry

inductive ExpiryCadence
  | weekly
  | monthly
  deriving DecidableEq

/-- One instrument's configuration, as far as its expiry reads it. -/
structure InstrumentConfig where
  exchange : Exchange
  expiryWeekday : Nat
  expiryCadence : ExpiryCadence := .weekly
  weekday_le : expiryWeekday ≤ 6 := by decide

namespace ConfigExpiryService

/-- The `next_month` of `_last_weekday_of_month`. -/
def firstOfNextMonth (year month : Nat) : Except DateError Day :=
  if month = 12 then Day.firstOfMonth (year + 1) 1
  else Day.firstOfMonth year (month + 1)

/-- `_last_weekday_of_month`. -/
def lastWeekdayOfMonth (year month weekday : Nat) : Except DateError Day := do
  let nextMonth ← firstOfNextMonth year month
  let lastDay ← nextMonth.addDays (-1)
  lastDay.addDays (-(((lastDay.weekday : Int) - weekday) % 7))

/-- `_monthly_expiry_on_or_after`. -/
def monthlyExpiryOnOrAfter (asOf : Day) (weekday : Nat) :
    Except DateError Day := do
  let expiry ← lastWeekdayOfMonth asOf.year asOf.month weekday
  if expiry < asOf then
    let year := if asOf.month = 12 then asOf.year + 1 else asOf.year
    let month := if asOf.month = 12 then 1 else asOf.month + 1
    lastWeekdayOfMonth year month weekday
  else pure expiry

/-- The expiry by the cadence, holidays aside. -/
def nominalExpiry (cfg : InstrumentConfig) (asOf : Day) :
    Except DateError Day :=
  match cfg.expiryCadence with
  | .monthly => monthlyExpiryOnOrAfter asOf cfg.expiryWeekday
  | .weekly => asOf.addDays (((cfg.expiryWeekday : Int) - asOf.weekday) % 7)

/-- The walk back to a trading day, with so many steps left. -/
def shiftEarlier (holidays : HolidayService) (exchange : Exchange) :
    Nat → Day → Except DateError Day
  | 0, expiry => .ok expiry
  | guard + 1, expiry =>
      if holidays.isTradingDay expiry exchange then .ok expiry
      else do shiftEarlier holidays exchange guard (← expiry.addDays (-1))

/-- `get_current_weekly_expiry`. -/
def getCurrentWeeklyExpiry (holidays : HolidayService)
    (cfg : InstrumentConfig) (asOf : Day) : Except DateError Day := do
  shiftEarlier holidays cfg.exchange 14 (← nominalExpiry cfg asOf)

end ConfigExpiryService

end AlgoPlatform
