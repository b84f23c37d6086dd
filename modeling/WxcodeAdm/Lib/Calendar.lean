import Mathlib.Data.Nat.Basic
import Mathlib.Data.String.Basic
import Mathlib.Order.Monotone.Basic
import WxcodeAdm.Lib.Numeral

/-! Datetimes in UTC, as Python has them: the fields of the proleptic Gregorian calendar, the instant
that they name, and the text of `isoformat`, whose order is the order of the instants. -/

namespace WxcodeAdm.Lib

/-! ### Days -/

def isLeap (year : Nat) : Bool := year % 4 = 0 && (year % 100 ≠ 0 || year % 400 = 0)

def daysInMonth (leap : Bool) : Nat → Nat
  | 2 => if leap then 29 else 28
  | 4 | 6 | 9 | 11 => 30
  | _ => 31

/-- The days of the year before a month, the first of which is 1. -/
def daysBeforeMonth (leap : Bool) : Nat → Nat
  | 0 | 1 => 0
  | month + 2 => daysBeforeMonth leap (month + 1) + daysInMonth leap (month + 1)

/-- The days before a year, the first of which is 1. -/
def daysBeforeYear (year : Nat) : Nat :=
  let y := year - 1
  y * 365 + y / 4 - y / 100 + y / 400

def daysInYear (leap : Bool) : Nat := if leap then 366 else 365

theorem daysBeforeYear_succ {year : Nat} (h : 1 ≤ year) :
    daysBeforeYear (year + 1) = daysBeforeYear year + daysInYear (isLeap year) := by
  obtain ⟨y, rfl⟩ : ∃ y, year = y + 1 := ⟨year - 1, by omega⟩
  have h4 : (y + 1) / 4 = y / 4 + if (y + 1) % 4 = 0 then 1 else 0 := by split <;> omega
  have h100 : (y + 1) / 100 = y / 100 + if (y + 1) % 100 = 0 then 1 else 0 := by split <;> omega
  have h400 : (y + 1) / 400 = y / 400 + if (y + 1) % 400 = 0 then 1 else 0 := by split <;> omega
  have hLe : y / 100 ≤ y / 4 := Nat.div_le_div_left (by decide) (by decide)
  have hCentury : (y + 1) % 100 = 0 → (y + 1) % 4 = 0 := by omega
  have hCycle : (y + 1) % 400 = 0 → (y + 1) % 100 = 0 := by omega
  simp only [daysBeforeYear, Nat.add_sub_cancel, h4, h100, h400, daysInYear, isLeap]
  by_cases hLeap4 : (y + 1) % 4 = 0 <;> by_cases hLeap100 : (y + 1) % 100 = 0 <;>
    by_cases hLeap400 : (y + 1) % 400 = 0 <;>
    simp only [hLeap4, hLeap100, hLeap400, if_true, if_false, decide_true, decide_false,
      Bool.true_and, Bool.false_and, Bool.or_true, Bool.or_false, ne_eq, not_true, not_false_iff,
      Bool.false_eq_true] <;>
    omega

theorem daysBeforeYear_mono {year year' : Nat} (h : 1 ≤ year) (hLt : year < year') :
    daysBeforeYear year + daysInYear (isLeap year) ≤ daysBeforeYear year' := by
  rw [← daysBeforeYear_succ h]
  refine monotone_nat_of_le_succ (f := daysBeforeYear) (fun y => ?_) hLt
  rcases Nat.eq_zero_or_pos y with rfl | hPos
  · decide
  · rw [daysBeforeYear_succ hPos]
    exact Nat.le_add_right _ _

theorem daysBeforeMonth_mono (leap : Bool) : ∀ month' ≤ 12, ∀ month < month', 1 ≤ month →
    daysBeforeMonth leap month + daysInMonth leap month ≤ daysBeforeMonth leap month' := by
  cases leap <;> decide

theorem daysBeforeMonth_le (leap : Bool) : ∀ month ≤ 12, 1 ≤ month →
    daysBeforeMonth leap month + daysInMonth leap month ≤ daysInYear leap := by
  cases leap <;> decide

/-! ### Datetimes -/

/-- A `datetime` with `tzinfo=timezone.utc`. -/
structure DateTime where
  year : Nat
  month : Nat
  day : Nat
  hour : Nat
  minute : Nat
  second : Nat
  microsecond : Nat
  yearRange : 1 ≤ year ∧ year ≤ 9999
  monthRange : 1 ≤ month ∧ month ≤ 12
  dayRange : 1 ≤ day ∧ day ≤ daysInMonth (isLeap year) month
  hourRange : hour < 24
  minuteRange : minute < 60
  secondRange : second < 60
  microsecondRange : microsecond < 1000000
  deriving DecidableEq

namespace DateTime

variable {d e : DateTime}

/-- `toordinal()` -/
def ordinal (d : DateTime) : Nat :=
  daysBeforeYear d.year + daysBeforeMonth (isLeap d.year) d.month + d.day

/-- The microseconds since the day before the first. -/
def instant (d : DateTime) : Nat :=
  (((d.ordinal * 24 + d.hour) * 60 + d.minute) * 60 + d.second) * 1000000 + d.microsecond

/-- The fields differ, and the first that do are in order. -/
def Before (d e : DateTime) : Prop :=
  d.year < e.year ∨ d.year = e.year ∧ (d.month < e.month ∨ d.month = e.month ∧ (d.day < e.day ∨
    d.day = e.day ∧ (d.hour < e.hour ∨ d.hour = e.hour ∧ (d.minute < e.minute ∨
      d.minute = e.minute ∧ (d.second < e.second ∨ d.second = e.second ∧
        d.microsecond < e.microsecond)))))

theorem before_trichotomy (d e : DateTime) : d.Before e ∨ d = e ∨ e.Before d := by
  by_cases hSame : d.year = e.year ∧ d.month = e.month ∧ d.day = e.day ∧ d.hour = e.hour ∧
    d.minute = e.minute ∧ d.second = e.second ∧ d.microsecond = e.microsecond
  · refine .inr (.inl ?_)
    cases d
    cases e
    simpa using hSame
  · unfold Before
    omega

theorem ordinal_lt_of_year (h : d.year < e.year) : d.ordinal < e.ordinal := by
  have hYears := daysBeforeYear_mono d.yearRange.1 h
  have hMonth := daysBeforeMonth_le (isLeap d.year) d.month d.monthRange.2 d.monthRange.1
  have hDay := d.dayRange
  have hDay' := e.dayRange
  unfold ordinal
  omega

theorem ordinal_lt_of_month (hYear : d.year = e.year) (h : d.month < e.month) :
    d.ordinal < e.ordinal := by
  have hMonths := daysBeforeMonth_mono (isLeap d.year) e.month e.monthRange.2 d.month h
    d.monthRange.1
  have hDay := d.dayRange
  have hDay' := e.dayRange
  rw [ordinal, ordinal, ← hYear]
  omega

theorem Before.instant_lt (h : d.Before e) : d.instant < e.instant := by
  have hRanges := And.intro d.hourRange (And.intro d.minuteRange (And.intro d.secondRange
    d.microsecondRange))
  have hOrdinal : d.ordinal < e.ordinal ∨ d.ordinal = e.ordinal ∧ (d.hour < e.hour ∨
      d.hour = e.hour ∧ (d.minute < e.minute ∨ d.minute = e.minute ∧ (d.second < e.second ∨
        d.second = e.second ∧ d.microsecond < e.microsecond))) := by
    rcases h with hYear | ⟨hYear, hMonth | ⟨hMonth, hDay | ⟨hDay, hTime⟩⟩⟩
    · exact .inl (ordinal_lt_of_year hYear)
    · exact .inl (ordinal_lt_of_month hYear hMonth)
    · refine .inl ?_
      rw [ordinal, ordinal, hYear, hMonth]
      omega
    · refine .inr ⟨?_, hTime⟩
      rw [ordinal, ordinal, hYear, hMonth, hDay]
  unfold instant
  omega

end DateTime

/-! ### Texts -/

namespace DateTime

variable {d e : DateTime}

/-- The microseconds and the offset. -/
def zoneText (microsecond : Nat) : List Char :=
  if microsecond = 0 then "+00:00".toList else '.' :: (padded 10 6 microsecond ++ "+00:00".toList)

/-- `isoformat()`, which leaves out a fraction of zero. -/
def isoformat (d : DateTime) : String :=
  .ofList (padded 10 4 d.year ++ '-' :: (padded 10 2 d.month ++ '-' :: (padded 10 2 d.day ++ 'T' ::
    (padded 10 2 d.hour ++ ':' :: (padded 10 2 d.minute ++ ':' :: (padded 10 2 d.second ++
      zoneText d.microsecond))))))

/-- A whole second comes before its fractions, as `+` comes before `.`. -/
theorem zoneText_lt {a b : Nat} (h : a < b) (hFits : b < 1000000) : zoneText a < zoneText b := by
  have hPos : b ≠ 0 := by omega
  rw [zoneText, zoneText, if_neg hPos]
  split
  · exact List.cons_lt_cons_iff.mpr (.inl (by decide))
  · exact cons_lt (padded_append_lt (by decide) hFits (.inl h))

theorem Before.isoformat_lt (h : d.Before e) : d.isoformat < e.isoformat := by
  have hYear : e.year < 10 ^ 4 := by have := e.yearRange; omega
  have hMonth : e.month < 10 ^ 2 := by have := e.monthRange; omega
  have hDay : e.day < 10 ^ 2 := by
    have hMonths : ∀ leap, ∀ month ≤ 12, daysInMonth leap month < 100 := by decide
    have hLength := hMonths (isLeap e.year) e.month e.monthRange.2
    have := e.dayRange
    omega
  have hHour : e.hour < 10 ^ 2 := by have := e.hourRange; omega
  have hMinute : e.minute < 10 ^ 2 := by have := e.minuteRange; omega
  have hSecond : e.second < 10 ^ 2 := by have := e.secondRange; omega
  rw [isoformat, isoformat, String.lt_iff_toList_lt, String.toList_ofList, String.toList_ofList]
  refine padded_append_lt (by decide) hYear (h.imp_right (.imp_right fun h => cons_lt ?_))
  refine padded_append_lt (by decide) hMonth (h.imp_right (.imp_right fun h => cons_lt ?_))
  refine padded_append_lt (by decide) hDay (h.imp_right (.imp_right fun h => cons_lt ?_))
  refine padded_append_lt (by decide) hHour (h.imp_right (.imp_right fun h => cons_lt ?_))
  refine padded_append_lt (by decide) hMinute (h.imp_right (.imp_right fun h => cons_lt ?_))
  refine padded_append_lt (by decide) hSecond (h.imp_right (.imp_right fun h => ?_))
  exact zoneText_lt h e.microsecondRange

/-- The order of the texts is the order of the instants. -/
theorem isoformat_lt_iff (d e : DateTime) : d.isoformat < e.isoformat ↔ d.instant < e.instant := by
  rcases before_trichotomy d e with hBefore | rfl | hAfter
  · exact iff_of_true hBefore.isoformat_lt hBefore.instant_lt
  · exact iff_of_false (lt_irrefl _) (lt_irrefl _)
  · exact iff_of_false (not_lt_of_gt hAfter.isoformat_lt) (not_lt_of_gt hAfter.instant_lt)

theorem isoformat_le_iff (d e : DateTime) : d.isoformat ≤ e.isoformat ↔ d.instant ≤ e.instant := by
  rw [← not_lt, ← not_lt, isoformat_lt_iff]

theorem isoformat_pos (d : DateTime) : "" < d.isoformat := by
  have hText : d.isoformat.toList.length ≠ 0 := by
    rw [isoformat, String.toList_ofList, List.length_append, length_padded]
    omega
  rw [String.lt_iff_toList_lt]
  obtain ⟨c, rest, hCons⟩ := List.exists_cons_of_length_pos (Nat.pos_of_ne_zero hText)
  rw [hCons]
  exact List.nil_lt_cons c rest

end DateTime

end WxcodeAdm.Lib
