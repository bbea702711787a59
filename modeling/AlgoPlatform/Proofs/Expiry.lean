/-
The expiry the platform trades: the last trading day up to the nominal
expiry.

# The nominal expiry

By day numbers a month is a stretch of days, so the last such weekday of
a month is the one in its last seven days (`expires_iff`), and of two
such days the one in the earlier month is the earlier (`lastOf_le`). The
code tries the month of `asOf` and then the next; what it arrives at is
the least expiry not before `asOf` (`nominalExpiry_eq`).

# The walk back

It stops at the first trading day it meets (`shiftEarlier_eq`). `asOf` is
one, so no expiry is in the past; that fourteen steps are enough is the
bound on consecutive days without trading. As both the nominal expiry and
the last trading day before it only move forward with `asOf`, so does the
result.

# The end of the calendar

`date` ends with the year 9999. In its last week, or from the last
monthly expiry before December 9999 on, the nominal expiry is refused.
-/
import Mathlib.Order.Bounds.Basic
import AlgoPlatform.Model.Expiry

open Basis

namespace AlgoPlatform.ConfigExpiryService

variable {holidays : HolidayService} {exchange : Exchange}
  {cfg : InstrumentConfig} {asOf d e : Day} {month weekday : Nat}

-- =============================================== statement vocabulary

/-- The day is an expiry by the cadence: its weekday, and in a month the
last. -/
def Expires (cfg : InstrumentConfig) (d : Day) : Prop :=
  d.weekday = cfg.expiryWeekday
    ∧ (cfg.expiryCadence = .monthly → ∀ e : Day, e.year = d.year →
      e.month = d.month → e.weekday = cfg.expiryWeekday → e ≤ d)

/-- The first expiry by the cadence on or after a day. -/
def Nominal (cfg : InstrumentConfig) (asOf d : Day) : Prop :=
  IsLeast {d | asOf ≤ d ∧ Expires cfg d} d

/-- The calendar goes on to an expiry by the cadence, and for a monthly
one to the month after it. -/
def Representable (cfg : InstrumentConfig) (asOf : Day) : Prop :=
  ∃ d, asOf ≤ d ∧ Expires cfg d
    ∧ (cfg.expiryCadence = .monthly → ¬ (d.year = 9999 ∧ d.month = 12))

/-- No more than 14 days in a row are without trading. -/
def NoLongBreak (holidays : HolidayService) (exchange : Exchange) : Prop :=
  ∀ first last : Day,
    (∀ d, first ≤ d → d ≤ last → holidays.isTradingDay d exchange = false) →
    last.ordinal < first.ordinal + 14

/-- The last trading day up to a day. -/
def LastTradingDay (holidays : HolidayService) (exchange : Exchange)
    (nominal d : Day) : Prop :=
  IsGreatest {d | holidays.isTradingDay d exchange ∧ d ≤ nominal} d

-- ================================================================= days

theorem addDays_eq_ok {days : Int} :
    d.addDays days = .ok e ↔ (e.ordinal : Int) = d.ordinal + days := by
  unfold Day.addDays
  constructor
  · intro h
    split_ifs at h with hvalid
    cases h
    exact Int.toNat_of_nonneg (by omega)
  · intro h
    have hvalid := e.valid
    rw [dif_pos (by omega)]
    refine congrArg _ (Day.ordinal_injective ?_)
    show ((d.ordinal : Int) + days).toNat = e.ordinal
    omega

theorem le_iff : d ≤ e ↔ d.ordinal ≤ e.ordinal := Iff.rfl

theorem lt_iff : d < e ↔ d.ordinal < e.ordinal := Iff.rfl

theorem weekday_eq : d.weekday = (d.ordinal + 6) % 7 := rfl

theorem monthIndex_eq_iff : d.monthIndex = month
    ↔ Calendar.monthStart month ≤ d.ordinal
      ∧ d.ordinal < Calendar.monthStart (month + 1) :=
  Calendar.monthOf_eq_iff d.valid.1

theorem monthIndex_mono (h : d ≤ e) : d.monthIndex ≤ e.monthIndex :=
  Calendar.monthOf_mono d.valid.1 h

/-- Year and month of year name the month. -/
theorem same_month_iff :
    e.year = d.year ∧ e.month = d.month ↔ e.monthIndex = d.monthIndex := by
  unfold Day.year Day.month Calendar.yearOf Calendar.monthOfYear
  omega

/-- Two days seven or more apart where the weekday is the same. -/
theorem eq_of_weekday_eq (hweekday : d.weekday = e.weekday)
    (hd : d.ordinal < e.ordinal + 7) (he : e.ordinal < d.ordinal + 7) :
    d = e := by
  rw [weekday_eq, weekday_eq] at hweekday
  exact Day.ordinal_injective (by omega)

theorem firstOfMonth_eq {year : Nat} (hyear : 1 ≤ year ∧ year ≤ 9999)
    (hmonth : 1 ≤ month ∧ month ≤ 12) :
    ∃ d : Day, Day.firstOfMonth year month = .ok d
      ∧ d.ordinal = Calendar.monthStart (12 * (year - 1) + (month - 1)) := by
  unfold Day.firstOfMonth
  rw [dif_pos ⟨hyear, hmonth⟩]
  exact ⟨_, rfl, rfl⟩

/-- The first of the next month, in whatever year. -/
theorem firstOfNextMonth_eq (h : month < 119987) :
    ∃ d : Day, firstOfNextMonth (Calendar.yearOf month)
        (Calendar.monthOfYear month) = .ok d
      ∧ d.ordinal = Calendar.monthStart (month + 1) := by
  unfold firstOfNextMonth Calendar.monthOfYear Calendar.yearOf
  split_ifs with hlast
  · have hindex : 12 * (month / 12 + 1 + 1 - 1) + (1 - 1) = month + 1 := by
      omega
    rw [← hindex]
    exact firstOfMonth_eq (by omega) (by omega)
  · have hindex : 12 * (month / 12 + 1 - 1) + (month % 12 + 1 + 1 - 1)
        = month + 1 := by
      omega
    rw [← hindex]
    exact firstOfMonth_eq (by omega) (by omega)

-- ============================================================== months

/-- The last day of a month with a weekday. -/
structure LastOf (month weekday : Nat) (d : Day) : Prop where
  monthIndex : d.monthIndex = month
  weekday : d.weekday = weekday
  last : Calendar.monthStart (month + 1) ≤ d.ordinal + 7

/-- Of two such days the one in the earlier month is the earlier. -/
theorem LastOf.le {month' : Nat} (hd : LastOf month weekday d)
    (he : LastOf month' weekday e) (h : month ≤ month') : d ≤ e := by
  have hend := (monthIndex_eq_iff.1 hd.monthIndex).2
  have hend' := (monthIndex_eq_iff.1 he.monthIndex).2
  rcases Nat.eq_or_lt_of_le h with rfl | hlt
  · have hlast := hd.last
    have hlast' := he.last
    exact (eq_of_weekday_eq (hd.weekday.trans he.weekday.symm) (by omega)
      (by omega)).le
  · have hstart := (monthIndex_eq_iff.1 he.monthIndex).1
    have hmono := Calendar.monthStart_strictMono.monotone
      (show month + 1 ≤ month' by omega)
    rw [le_iff]
    omega

/-- A monthly expiry is in the last seven days of its month. -/
theorem expires_monthly_iff (hcadence : cfg.expiryCadence = .monthly) :
    Expires cfg d ↔ LastOf d.monthIndex cfg.expiryWeekday d := by
  have hend := (monthIndex_eq_iff (d := d).1 rfl).2
  constructor
  · intro ⟨hweekday, hlast⟩
    refine ⟨rfl, hweekday, ?_⟩
    by_contra hlater
    -- a week later is still in the month
    have hmonth := d.monthIndex_lt
    have hmax := Calendar.monthStart_strictMono.monotone
      (show d.monthIndex + 1 ≤ 119988 by omega)
    have hyearEnd : Calendar.monthStart 119988 = 3652060 := by decide
    let e : Day := ⟨d.ordinal + 7, by omega⟩
    have hstart := (monthIndex_eq_iff (d := d).1 rfl).1
    have he : e.monthIndex = d.monthIndex :=
      monthIndex_eq_iff.2 ⟨Nat.le_add_right_of_le hstart, not_le.1 hlater⟩
    obtain ⟨hyear, hmonth⟩ := same_month_iff.2 he
    have hle := hlast hcadence e hyear hmonth (by
      rw [← hweekday, weekday_eq, weekday_eq]
      show (d.ordinal + 7 + 6) % 7 = (d.ordinal + 6) % 7
      omega)
    have hlt : d.ordinal + 7 ≤ d.ordinal := hle
    omega
  · intro h
    refine ⟨h.weekday, fun _ e hyear hmonth hweekday => ?_⟩
    have he := same_month_iff.1 ⟨hyear, hmonth⟩
    have hend' := (monthIndex_eq_iff.1 he).2
    have hlast := h.last
    rcases le_or_gt e d with hle | hlt
    · exact hle
    · rw [lt_iff] at hlt
      exact (eq_of_weekday_eq (hweekday.trans h.weekday.symm) (by omega)
        (by omega)).le

/-- `_last_weekday_of_month`, before December 9999. -/
theorem lastWeekdayOfMonth_eq (hmonth : month < 119987)
    (hweekday : weekday ≤ 6) :
    ∃ d, lastWeekdayOfMonth (Calendar.yearOf month)
        (Calendar.monthOfYear month) weekday = .ok d
      ∧ LastOf month weekday d := by
  obtain ⟨nextMonth, hnext, hstart⟩ := firstOfNextMonth_eq hmonth
  have hfirst := Calendar.le_monthStart month
  have hlength := Calendar.monthStart_succ month
  have hdays := (Calendar.daysInMonth_bounds (Calendar.yearOf month)
    (Calendar.monthOfYear month)).1
  have hvalid := nextMonth.valid
  let lastDay : Day := ⟨nextMonth.ordinal - 1, by omega⟩
  have hlastDay : nextMonth.addDays (-1) = .ok lastDay :=
    addDays_eq_ok.2 (by
      show ((nextMonth.ordinal - 1 : Nat) : Int) = nextMonth.ordinal + -1
      omega)
  have hordinal : lastDay.ordinal + 1 = nextMonth.ordinal :=
    Nat.sub_add_cancel (by omega)
  have hwd := weekday_eq (d := lastDay)
  -- how far back the weekday lies
  obtain ⟨back, hback, hbackWeekday⟩ :
      ∃ back : Nat, back < 7
        ∧ (back : Int) = ((lastDay.weekday : Int) - weekday) % 7 :=
    ⟨(lastDay.weekday + 7 - weekday) % 7, by omega, by omega⟩
  let d : Day := ⟨lastDay.ordinal - back, by omega⟩
  have hd : d.ordinal + back = lastDay.ordinal := Nat.sub_add_cancel (by omega)
  refine ⟨d, ?_, monthIndex_eq_iff.2 (by omega), ?_, by omega⟩
  · unfold lastWeekdayOfMonth
    rw [hnext]
    show (nextMonth.addDays (-1)).bind _ = _
    rw [hlastDay]
    refine addDays_eq_ok.2 ?_
    rw [← hbackWeekday]
    omega
  · rw [weekday_eq]
    omega

theorem nextMonth_eq (d : Day) :
    (if d.month = 12 then 1 else d.month + 1)
      = Calendar.monthOfYear (d.monthIndex + 1) := by
  unfold Day.month Calendar.monthOfYear
  split_ifs <;> omega

theorem nextYear_eq (d : Day) :
    (if d.month = 12 then d.year + 1 else d.year)
      = Calendar.yearOf (d.monthIndex + 1) := by
  unfold Day.month Day.year Calendar.monthOfYear Calendar.yearOf
  split_ifs <;> omega

-- =============================================================== nominal

theorem expires_weekly_iff (hcadence : cfg.expiryCadence = .weekly) :
    Expires cfg d ↔ d.weekday = cfg.expiryWeekday :=
  ⟨And.left, fun h => ⟨h, fun hmonthly => by
    rw [hcadence] at hmonthly
    cases hmonthly⟩⟩

/-- A week on from any day the weekday has come up. -/
theorem weekly_eq (hcadence : cfg.expiryCadence = .weekly)
    (h : Representable cfg asOf) :
    ∃ nominal, nominalExpiry cfg asOf = .ok nominal
      ∧ Nominal cfg asOf nominal := by
  obtain ⟨d, hle, hd, -⟩ := h
  rw [expires_weekly_iff hcadence, weekday_eq] at hd
  rw [le_iff] at hle
  have hweekday := cfg.weekday_le
  have hwd := weekday_eq (d := asOf)
  have hvalid := d.valid
  have hvalid' := asOf.valid
  obtain ⟨ahead, hahead, haheadWeekday⟩ :
      ∃ ahead : Nat, ahead < 7
        ∧ (ahead : Int) = ((cfg.expiryWeekday : Int) - asOf.weekday) % 7 :=
    ⟨(cfg.expiryWeekday + 7 - asOf.weekday) % 7, by omega, by omega⟩
  let nominal : Day := ⟨asOf.ordinal + ahead, by omega⟩
  have hnominal : nominal.ordinal = asOf.ordinal + ahead := rfl
  refine ⟨nominal, ?_, ⟨?_, ?_⟩, fun e ⟨hle', he⟩ => ?_⟩
  · unfold nominalExpiry
    rw [hcadence]
    refine addDays_eq_ok.2 ?_
    omega
  · rw [le_iff]
    omega
  · rw [expires_weekly_iff hcadence, weekday_eq]
    omega
  · rw [expires_weekly_iff hcadence, weekday_eq] at he
    rw [le_iff] at hle' ⊢
    omega

/-- Monthly expiries before December 9999. -/
theorem month_lt (hcadence : cfg.expiryCadence = .monthly)
    (h : cfg.expiryCadence = .monthly → ¬ (d.year = 9999 ∧ d.month = 12)) :
    d.monthIndex < 119987 := by
  have hmonth := d.monthIndex_lt
  have hnot := h hcadence
  unfold Day.year Day.month Calendar.yearOf Calendar.monthOfYear at hnot
  omega

/-- This month's expiry if it is still to come, else the next month's. -/
theorem monthly_run {this : Day} (hcadence : cfg.expiryCadence = .monthly)
    (hthis : lastWeekdayOfMonth (Calendar.yearOf asOf.monthIndex)
      (Calendar.monthOfYear asOf.monthIndex) cfg.expiryWeekday = .ok this) :
    nominalExpiry cfg asOf
      = if this < asOf then
          lastWeekdayOfMonth (Calendar.yearOf (asOf.monthIndex + 1))
            (Calendar.monthOfYear (asOf.monthIndex + 1)) cfg.expiryWeekday
        else .ok this := by
  rw [← nextYear_eq, ← nextMonth_eq]
  unfold nominalExpiry
  rw [hcadence]
  show monthlyExpiryOnOrAfter asOf cfg.expiryWeekday = _
  unfold monthlyExpiryOnOrAfter
  rw [show lastWeekdayOfMonth asOf.year asOf.month cfg.expiryWeekday
    = .ok this from hthis]
  rfl

theorem LastOf.expires (hcadence : cfg.expiryCadence = .monthly)
    (h : LastOf month cfg.expiryWeekday d) : Expires cfg d := by
  rw [expires_monthly_iff hcadence, h.monthIndex]
  exact h

/-- Of the two candidates the first that is not past is the nominal
expiry. -/
theorem monthly_eq (hcadence : cfg.expiryCadence = .monthly)
    (h : Representable cfg asOf) :
    ∃ nominal, nominalExpiry cfg asOf = .ok nominal
      ∧ Nominal cfg asOf nominal := by
  obtain ⟨d, hle, hd, hyear⟩ := h
  rw [expires_monthly_iff hcadence] at hd
  have hmonth := month_lt hcadence hyear
  have hmono := monthIndex_mono hle
  obtain ⟨this, hthis, hlast⟩ := lastWeekdayOfMonth_eq
    (hmono.trans_lt hmonth) cfg.weekday_le
  rw [monthly_run hcadence hthis]
  split_ifs with hpast
  · -- this month's is over
    have hlater : asOf.monthIndex < d.monthIndex := by
      refine lt_of_le_of_ne hmono fun heq => ?_
      have hsame := hd.le hlast heq.ge
      exact absurd (hsame.trans_lt hpast) (not_lt.2 hle)
    obtain ⟨next, hnext, hlastNext⟩ := lastWeekdayOfMonth_eq
      (show asOf.monthIndex + 1 < 119987 by omega) cfg.weekday_le
    refine ⟨next, hnext, ⟨?_, hlastNext.expires hcadence⟩, fun e ⟨hle', he⟩ => ?_⟩
    · have hend := (monthIndex_eq_iff (d := asOf).1 rfl).2
      have hstart := (monthIndex_eq_iff.1 hlastNext.monthIndex).1
      exact (hend.trans_le hstart).le
    · rw [expires_monthly_iff hcadence] at he
      refine hlastNext.le he (lt_of_le_of_ne (monthIndex_mono hle') ?_)
      intro heq
      have hsame := he.le hlast heq.ge
      exact absurd (hsame.trans_lt hpast) (not_lt.2 hle')
  · refine ⟨this, rfl, ⟨not_lt.1 hpast, hlast.expires hcadence⟩,
      fun e ⟨hle', he⟩ => ?_⟩
    rw [expires_monthly_iff hcadence] at he
    exact hlast.le he (monthIndex_mono hle')

theorem nominalExpiry_eq (h : Representable cfg asOf) :
    ∃ nominal, nominalExpiry cfg asOf = .ok nominal
      ∧ Nominal cfg asOf nominal := by
  cases hcadence : cfg.expiryCadence with
  | weekly => exact weekly_eq hcadence h
  | monthly => exact monthly_eq hcadence h

-- ============================================ the end of the calendar

/-- The month after December 9999 has no first day. -/
theorem lastWeekdayOfMonth_error :
    lastWeekdayOfMonth (Calendar.yearOf 119987) (Calendar.monthOfYear 119987)
      weekday = .error .value := rfl

/-- Past the last weekday the calendar has, the days ahead run out. -/
theorem weekly_error (hcadence : cfg.expiryCadence = .weekly)
    (h : ¬ Representable cfg asOf) :
    ∃ err, nominalExpiry cfg asOf = .error err := by
  cases hrun : nominalExpiry cfg asOf with
  | error err => exact ⟨err, rfl⟩
  | ok d =>
      refine absurd ⟨d, ?_, ?_, fun hmonthly => ?_⟩ h
      · unfold nominalExpiry at hrun
        rw [hcadence] at hrun
        have hordinal := addDays_eq_ok.1 hrun
        rw [le_iff]
        omega
      · unfold nominalExpiry at hrun
        rw [hcadence] at hrun
        have hordinal := addDays_eq_ok.1 hrun
        have hweekday := cfg.weekday_le
        rw [expires_weekly_iff hcadence]
        rw [weekday_eq] at hordinal ⊢
        omega
      · rw [hcadence] at hmonthly
        cases hmonthly

/-- Past the last monthly expiry before December 9999 the code asks for the
month after it. -/
theorem monthly_error (hcadence : cfg.expiryCadence = .monthly)
    (h : ¬ Representable cfg asOf) :
    ∃ err, nominalExpiry cfg asOf = .error err := by
  have hno {month : Nat} {e : Day} (hmonth : month < 119987)
      (he : LastOf month cfg.expiryWeekday e) : e < asOf := by
    by_contra hle
    refine h ⟨e, not_lt.1 hle, he.expires hcadence, fun _ hyear => ?_⟩
    have hindex := he.monthIndex
    unfold Day.year Day.month Calendar.yearOf Calendar.monthOfYear at hyear
    omega
  have hmax := asOf.monthIndex_lt
  rcases Nat.lt_or_ge asOf.monthIndex 119987 with hlt | hge
  · obtain ⟨this, hthis, hlast⟩ := lastWeekdayOfMonth_eq hlt cfg.weekday_le
    rw [monthly_run hcadence hthis, if_pos (hno hlt hlast)]
    rcases Nat.lt_or_ge (asOf.monthIndex + 1) 119987 with hlt' | hge'
    · obtain ⟨next, -, hlastNext⟩ := lastWeekdayOfMonth_eq hlt' cfg.weekday_le
      have hpast := monthIndex_mono (hno hlt' hlastNext).le
      rw [hlastNext.monthIndex] at hpast
      omega
    · rw [show asOf.monthIndex + 1 = 119987 by omega]
      exact ⟨.value, lastWeekdayOfMonth_error⟩
  · have hindex : asOf.monthIndex = 119987 := by omega
    refine ⟨.value, ?_⟩
    unfold nominalExpiry
    rw [hcadence]
    show (lastWeekdayOfMonth (Calendar.yearOf asOf.monthIndex)
      (Calendar.monthOfYear asOf.monthIndex) cfg.expiryWeekday).bind _ = _
    rw [hindex, lastWeekdayOfMonth_error]
    rfl

theorem nominalExpiry_error (h : ¬ Representable cfg asOf) :
    ∃ err, nominalExpiry cfg asOf = .error err := by
  cases hcadence : cfg.expiryCadence with
  | weekly => exact weekly_error hcadence h
  | monthly => exact monthly_error hcadence h

-- ========================================================= the walk back

/-- With a trading day in reach, the walk ends at the last one. -/
theorem shiftEarlier_eq {guard : Nat} {expiry trading : Day}
    (htrading : holidays.isTradingDay trading exchange)
    (hle : trading ≤ expiry) (hreach : expiry.ordinal ≤ trading.ordinal + guard) :
    ∃ d, shiftEarlier holidays exchange guard expiry = .ok d
      ∧ LastTradingDay holidays exchange expiry d := by
  induction guard generalizing expiry with
  | zero =>
      have heq : trading = expiry :=
        Day.ordinal_injective (Nat.le_antisymm hle hreach)
      subst heq
      exact ⟨trading, rfl, ⟨htrading, le_rfl⟩, fun d hd => hd.2⟩
  | succ guard ih =>
      unfold shiftEarlier
      split_ifs with hopen
      · exact ⟨expiry, rfl, ⟨hopen, le_rfl⟩, fun d hd => hd.2⟩
      · have hclosed {d : Day} (hd : holidays.isTradingDay d exchange)
            (hle : d ≤ expiry) : d < expiry :=
          lt_of_le_of_ne hle fun heq => hopen (heq ▸ hd)
        have hlt := lt_iff.1 (hclosed htrading hle)
        have hvalid := trading.valid
        have hvalid' := expiry.valid
        let before : Day := ⟨expiry.ordinal - 1, by omega⟩
        have hbefore : before.ordinal + 1 = expiry.ordinal :=
          Nat.sub_add_cancel (by omega)
        have hstep : expiry.addDays (-1) = .ok before :=
          addDays_eq_ok.2 (by omega)
        have hle' : trading ≤ before := by
          rw [le_iff]
          omega
        obtain ⟨d, hrun, ⟨hd, hdle⟩, hlast⟩ := ih hle' (by omega)
        rw [hstep]
        refine ⟨d, hrun, ⟨hd, ?_⟩, fun e ⟨he, hele⟩ => hlast ⟨he, ?_⟩⟩
        · rw [le_iff] at hdle ⊢
          omega
        · have hlt' := lt_iff.1 (hclosed he hele)
          rw [le_iff]
          omega

/-- A trading day before the nominal expiry is followed by one that is in
reach of it. -/
theorem exists_trading (hbreak : NoLongBreak holidays exchange)
    {nominal : Day} (htrading : holidays.isTradingDay asOf exchange)
    (hle : asOf ≤ nominal) :
    ∃ d, holidays.isTradingDay d exchange ∧ d ≤ nominal
      ∧ nominal.ordinal ≤ d.ordinal + 14 := by
  by_contra hnone
  have hfar : asOf.ordinal + 14 < nominal.ordinal := by
    by_contra hnear
    exact hnone ⟨asOf, htrading, hle, not_lt.1 hnear⟩
  have hvalid := nominal.valid
  let first : Day := ⟨nominal.ordinal - 14, by omega⟩
  have hfirst : first.ordinal + 14 = nominal.ordinal :=
    Nat.sub_add_cancel (by omega)
  have hlong := hbreak first nominal fun d hge hdle => by
    rw [← Bool.not_eq_true]
    intro hd
    rw [le_iff] at hge
    exact hnone ⟨d, hd, hdle, by omega⟩
  omega

-- ============================================================ the expiry

/-- What the code answers: the last trading day up to the nominal expiry. -/
theorem getCurrentWeeklyExpiry_eq (hbreak : NoLongBreak holidays cfg.exchange)
    (htrading : holidays.isTradingDay asOf cfg.exchange)
    (hrep : Representable cfg asOf) :
    ∃ nominal expiry, getCurrentWeeklyExpiry holidays cfg asOf = .ok expiry
      ∧ Nominal cfg asOf nominal
      ∧ LastTradingDay holidays cfg.exchange nominal expiry := by
  obtain ⟨nominal, hrun, hnominal⟩ := nominalExpiry_eq hrep
  obtain ⟨trading, htrading, hle, hreach⟩ :=
    exists_trading hbreak htrading hnominal.1.1
  obtain ⟨expiry, hshift, hlast⟩ := shiftEarlier_eq htrading hle hreach
  refine ⟨nominal, expiry, ?_, hnominal, hlast⟩
  unfold getCurrentWeeklyExpiry
  rw [hrun]
  exact hshift

/-- The nominal expiry only moves forward. -/
theorem Nominal.mono {asOf' : Day} (hd : Nominal cfg asOf d)
    (he : Nominal cfg asOf' e) (h : asOf ≤ asOf') : d ≤ e :=
  hd.2 ⟨h.trans he.1.1, he.1.2⟩

/-- And so does the last trading day up to it. -/
theorem LastTradingDay.mono {nominal nominal' : Day}
    (hd : LastTradingDay holidays exchange nominal d)
    (he : LastTradingDay holidays exchange nominal' e)
    (h : nominal ≤ nominal') : d ≤ e :=
  he.2 ⟨hd.1.1, hd.1.2.trans h⟩

theorem Representable.mono {asOf' : Day} (h : asOf ≤ asOf')
    (hrep : Representable cfg asOf') : Representable cfg asOf := by
  obtain ⟨d, hle, hd⟩ := hrep
  exact ⟨d, h.trans hle, hd⟩

/-- The expiry of a trading day is the last trading day up to the nominal
expiry and not before it, and a later day has no earlier one. Where the
calendar ends first, there is none. -/
theorem expiry_is_last_trading_day (holidays : HolidayService)
    (cfg : InstrumentConfig) (hbreak : NoLongBreak holidays cfg.exchange) :
    (∀ asOf, holidays.isTradingDay asOf cfg.exchange → Representable cfg asOf →
      ∃ nominal expiry, getCurrentWeeklyExpiry holidays cfg asOf = .ok expiry
        ∧ Nominal cfg asOf nominal
        ∧ holidays.isTradingDay expiry cfg.exchange
        ∧ asOf ≤ expiry ∧ expiry ≤ nominal
        ∧ ∀ d, holidays.isTradingDay d cfg.exchange → expiry < d →
          nominal < d)
    ∧ (∀ asOf asOf', holidays.isTradingDay asOf cfg.exchange →
      holidays.isTradingDay asOf' cfg.exchange → asOf ≤ asOf' →
      Representable cfg asOf' →
      ∃ expiry expiry', getCurrentWeeklyExpiry holidays cfg asOf = .ok expiry
        ∧ getCurrentWeeklyExpiry holidays cfg asOf' = .ok expiry'
        ∧ expiry ≤ expiry')
    ∧ ∀ asOf, ¬ Representable cfg asOf →
      ∃ err, getCurrentWeeklyExpiry holidays cfg asOf = .error err := by
  refine ⟨?_, ?_, ?_⟩
  · intro asOf htrading hrep
    obtain ⟨nominal, expiry, hrun, hnominal, hlast⟩ :=
      getCurrentWeeklyExpiry_eq hbreak htrading hrep
    refine ⟨nominal, expiry, hrun, hnominal, hlast.1.1,
      hlast.2 ⟨htrading, hnominal.1.1⟩, hlast.1.2, fun d hd hlt => ?_⟩
    by_contra hle
    exact absurd (hlast.2 ⟨hd, not_lt.1 hle⟩) (not_le.2 hlt)
  · intro asOf asOf' htrading htrading' hle hrep
    obtain ⟨nominal, expiry, hrun, hnominal, hlast⟩ :=
      getCurrentWeeklyExpiry_eq hbreak htrading (hrep.mono hle)
    obtain ⟨nominal', expiry', hrun', hnominal', hlast'⟩ :=
      getCurrentWeeklyExpiry_eq hbreak htrading' hrep
    exact ⟨expiry, expiry', hrun, hrun',
      hlast.mono hlast' (hnominal.mono hnominal' hle)⟩
  · intro asOf hrep
    obtain ⟨err, herr⟩ := nominalExpiry_error hrep
    refine ⟨err, ?_⟩
    unfold getCurrentWeeklyExpiry
    rw [herr]
    rfl

-- ============================================================= a calendar

/-- Year, month and day tell the days apart. -/
theorem date_injective : Function.Injective Day.date := by
  intro a b h
  obtain ⟨hyear, hmonth, hday⟩ := Date.mk.inj h
  have hindex := same_month_iff.1 ⟨hyear, hmonth⟩
  have ha := a.monthStart_le
  have hb := b.monthStart_le
  have hdays : a.ordinal - Calendar.monthStart a.monthIndex + 1
      = b.ordinal - Calendar.monthStart b.monthIndex + 1 := hday
  rw [hindex] at ha hdays
  exact Day.ordinal_injective (by omega)

/-- With one holiday at most there is no long break. -/
theorem noLongBreak_of_holiday (h : ∀ d e : Day,
    holidays.isHoliday d exchange → holidays.isHoliday e exchange → d = e) :
    NoLongBreak holidays exchange := by
  intro first last hclosed
  by_contra hlong
  have hvalid := last.valid
  have hvalid' := first.valid
  -- of three days one is no weekend, and so is the day a week later
  obtain ⟨i, hi, hweekday⟩ : ∃ i, i < 3 ∧ (first.ordinal + i + 6) % 7 < 5 := by
    rcases Nat.lt_or_ge ((first.ordinal + 6) % 7) 5 with hlt | hge
    · exact ⟨0, by omega, hlt⟩
    · exact ⟨2, by omega, by omega⟩
  have hholiday {d : Day} (hle : first.ordinal ≤ d.ordinal)
      (hle' : d.ordinal ≤ last.ordinal) (hd : (d.ordinal + 6) % 7 < 5) :
      holidays.isHoliday d exchange := by
    have hno := hclosed d hle hle'
    unfold HolidayService.isTradingDay at hno
    rw [weekday_eq, decide_eq_true hd, Bool.true_and, Bool.not_eq_false'] at hno
    exact hno
  let d : Day := ⟨first.ordinal + i, by omega⟩
  let e : Day := ⟨first.ordinal + i + 7, by omega⟩
  have heq : d = e := h d e
    (hholiday (Nat.le_add_right _ _) (by show first.ordinal + i ≤ _; omega)
      hweekday)
    (hholiday (by show _ ≤ first.ordinal + i + 7; omega)
      (by show first.ordinal + i + 7 ≤ _; omega)
      (by show (first.ordinal + i + 7 + 6) % 7 < 5; omega))
  have hordinal : first.ordinal + i = first.ordinal + i + 7 :=
    congrArg Day.ordinal heq
  omega

namespace Sample

/-- One holiday, Tuesday the third of March 2026. -/
def oneHoliday : HolidayService :=
  ⟨fun _ => [{ year := 2026, month := 3, day := 3 }]⟩

def noHoliday : HolidayService := ⟨fun _ => []⟩

/-- Options that expire on Tuesdays. -/
def tuesdays : InstrumentConfig := { exchange := .nfo, expiryWeekday := 1 }

theorem oneHoliday_breaks : NoLongBreak oneHoliday .nfo := by
  refine noLongBreak_of_holiday fun d e hd he => date_injective ?_
  have hdate := List.mem_singleton.1 (of_decide_eq_true hd)
  exact hdate.trans (List.mem_singleton.1 (of_decide_eq_true he)).symm

theorem noHoliday_breaks : NoLongBreak noHoliday .nfo :=
  noLongBreak_of_holiday fun _ _ hd => absurd hd Bool.false_ne_true

/-- Friday the 27th of February 2026. -/
def friday : Day := ⟨739674, by decide⟩

theorem friday_trading : oneHoliday.isTradingDay friday .nfo := by
  decide +kernel

theorem friday_representable : Representable tuesdays friday :=
  ⟨⟨739678, by decide⟩, by decide, ⟨by decide, nofun⟩, nofun⟩

/-- Wednesday the 4th of March 2026, the day after the holiday. -/
def wednesday : Day := ⟨739679, by decide⟩

theorem wednesday_trading : oneHoliday.isTradingDay wednesday .nfo := by
  decide +kernel

theorem wednesday_representable : Representable tuesdays wednesday :=
  ⟨⟨739685, by decide⟩, by decide, ⟨by decide, nofun⟩, nofun⟩

/-- Friday the 31st of December 9999. -/
def lastDay : Day := ⟨3652059, by decide⟩

theorem lastDay_not_representable : ¬ Representable tuesdays lastDay := by
  intro ⟨d, hle, ⟨hweekday, _⟩, _⟩
  have hlast : 3652059 ≤ d.ordinal := hle
  have htuesday : (d.ordinal + 6) % 7 = 1 := hweekday
  have hvalid := d.valid
  omega

end Sample

open Sample

/-- From a Friday, over a weekend and a holiday; and from the Wednesday
after them, for the week that follows. -/
theorem expiry_before_holiday :
    (∃ nominal expiry, getCurrentWeeklyExpiry oneHoliday tuesdays friday
        = .ok expiry
      ∧ Nominal tuesdays friday nominal
      ∧ oneHoliday.isTradingDay expiry .nfo
      ∧ friday ≤ expiry ∧ expiry ≤ nominal
      ∧ ∀ d, oneHoliday.isTradingDay d .nfo → expiry < d → nominal < d)
    ∧ (∃ expiry expiry',
        getCurrentWeeklyExpiry oneHoliday tuesdays friday = .ok expiry
        ∧ getCurrentWeeklyExpiry oneHoliday tuesdays wednesday = .ok expiry'
        ∧ expiry ≤ expiry')
    ∧ ∃ err, getCurrentWeeklyExpiry oneHoliday tuesdays lastDay
        = .error err :=
  ⟨(expiry_is_last_trading_day oneHoliday tuesdays oneHoliday_breaks).1 friday
      friday_trading friday_representable,
    (expiry_is_last_trading_day oneHoliday tuesdays oneHoliday_breaks).2.1
      friday wednesday friday_trading wednesday_trading
      (by decide : (739674 : Nat) ≤ 739679) wednesday_representable,
    (expiry_is_last_trading_day oneHoliday tuesdays oneHoliday_breaks).2.2
      lastDay lastDay_not_representable⟩

/-- On the last day of all there is no expiry to be had. -/
theorem no_expiry_on_last_day :
    NoLongBreak noHoliday tuesdays.exchange
      ∧ noHoliday.isTradingDay lastDay tuesdays.exchange
      ∧ ¬ ∃ expiry, getCurrentWeeklyExpiry noHoliday tuesdays lastDay
        = .ok expiry := by
  refine ⟨noHoliday_breaks, by decide +kernel, fun ⟨expiry, h⟩ => ?_⟩
  have herror : getCurrentWeeklyExpiry noHoliday tuesdays lastDay
      = .error .overflow := by decide +kernel
  rw [herror] at h
  cases h

end AlgoPlatform.ConfigExpiryService
