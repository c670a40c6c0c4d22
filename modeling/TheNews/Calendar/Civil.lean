/- TheNews/Calendar/Civil
   digest: The civil calendar, Julian before 15 October 1582 and Gregorian from then on,
   as day numbers and back. -/

import Mathlib.Tactic.Ring
import Mathlib.Tactic.SplitIfs

set_option autoImplicit false
set_option relaxedAutoImplicit false

namespace TheNews.Calendar.Civil

/-- Years are counted through 0, so that 0 is 1 BC. -/
def leap (year : Int) : Bool :=
  year % 4 == 0 && (year < 1582 || year % 100 != 0 || year % 400 == 0)

def monthLengths (leap : Bool) : List Nat :=
  [31, if leap then 29 else 28, 31, 30, 31, 30, 31, 31, 30, 31, 30, 31]

/-- The days of the year before a month; months count from 0. -/
def daysBefore (leap : Bool) (month : Nat) : Nat := ((monthLengths leap).take month).sum

/-- The days from 1 January of the year 1 to that of a year, in the Julian calendar. -/
def julianStart (year : Int) : Int := 365 * (year - 1) + (year - 1) / 4

/-- The same in the Gregorian calendar, counted from the Julian 1 January of the year 1. -/
def gregorianStart (year : Int) : Int :=
  julianStart year - (year - 1) / 100 + (year - 1) / 400 + 2

/-- The number of 15 October 1582. -/
def cutover : Int := 577737

/-- A date of the calendar. -/
structure Date where
  year : Int
  /-- From 0. -/
  month : Nat
  /-- From 1. -/
  day : Nat
  deriving DecidableEq

/-- The days between the Julian 1 January of the year 1 and a date. -/
def Date.number (date : Date) : Int :=
  let dayOfYear : Int := daysBefore (leap date.year) date.month + date.day - 1
  if cutover ≤ gregorianStart date.year + dayOfYear then gregorianStart date.year + dayOfYear
  else julianStart date.year + dayOfYear

/-- The day of the week, 0 for Sunday. -/
def weekday (number : Int) : Fin 7 := Fin.ofNat 7 ((number + 6) % 7).toNat

example : weekday (Date.mk 2026 0 5).number = 1 := by decide

def julianYear (number : Int) : Int := (4 * number + 3) / 1461 + 1

/-- The mean length of a year gives the year or one next to it. -/
def gregorianYear (number : Int) : Int :=
  let year := 400 * (number - 2) / 146097 + 1
  if number < gregorianStart year then year - 1
  else if gregorianStart (year + 1) ≤ number then year + 1
  else year

/-- The month and the day of the month of a day of the year, the first being 0. -/
def monthDay : List Nat → Nat → Nat × Nat
  | [], rest => (0, rest + 1)
  | length :: lengths, rest =>
    if rest < length then (0, rest + 1)
    else ((monthDay lengths (rest - length)).1 + 1, (monthDay lengths (rest - length)).2)

def yearOf (number : Int) : Int :=
  if cutover ≤ number then gregorianYear number else julianYear number

/-- The number of the first of January of a day's year. -/
def newYear (number : Int) : Int :=
  if cutover ≤ number then gregorianStart (yearOf number) else julianStart (yearOf number)

def dateOf (number : Int) : Date :=
  let found := monthDay (monthLengths (leap (yearOf number))) (number - newYear number).toNat
  ⟨yearOf number, found.1, found.2⟩

/-- Its month has its day, in the years that have such a February. -/
def Date.Valid (date : Date) : Prop :=
  1 ≤ date.day ∧ date.day ≤ (monthLengths (leap date.year)).getD date.month 0

instance (date : Date) : Decidable date.Valid := inferInstanceAs (Decidable (_ ∧ _))

private theorem julianYear_spec (number : Int) :
    julianStart (julianYear number) ≤ number ∧ number < julianStart (julianYear number + 1) := by
  simp only [julianStart, julianYear]
  omega

private theorem gregorianYear_spec (number : Int) :
    gregorianStart (gregorianYear number) ≤ number ∧
      number < gregorianStart (gregorianYear number + 1) := by
  simp only [gregorianYear]
  split_ifs with early late
  · simp only [gregorianStart, julianStart] at *
    omega
  · simp only [gregorianStart, julianStart] at *
    omega
  · exact ⟨by omega, by omega⟩

private theorem sum_monthLengths (leap : Bool) :
    (monthLengths leap).sum = if leap then 366 else 365 := by
  cases leap <;> rfl

theorem monthDay_spec (lengths : List Nat) (rest : Nat) (inside : rest < lengths.sum) :
    1 ≤ (monthDay lengths rest).2 ∧
      (monthDay lengths rest).2 ≤ lengths.getD (monthDay lengths rest).1 0 ∧
      (lengths.take (monthDay lengths rest).1).sum + (monthDay lengths rest).2 = rest + 1 := by
  induction lengths generalizing rest with
  | nil => exact absurd inside (Nat.not_lt_zero rest)
  | cons length lengths ih =>
    rw [List.sum_cons] at inside
    simp only [monthDay]
    split_ifs with here
    · simp only [List.getD_cons_zero, List.take_zero, List.sum_nil]
      exact ⟨by omega, here, by omega⟩
    · obtain ⟨first, last, sum⟩ := ih (rest - length) (by omega)
      simp only [List.getD_cons_succ, List.take_succ_cons, List.sum_cons]
      exact ⟨first, last, by omega⟩

private theorem leap_iff {year : Int} :
    leap year = true ↔ year % 4 = 0 ∧ (year < 1582 ∨ year % 100 ≠ 0 ∨ year % 400 = 0) := by
  simp only [leap, Bool.and_eq_true, Bool.or_eq_true, beq_iff_eq, bne_iff_ne, decide_eq_true_eq,
    or_assoc]

private theorem inside_year (number : Int) :
    newYear number ≤ number ∧
      number < newYear number + (monthLengths (leap (yearOf number))).sum := by
  rw [sum_monthLengths]
  by_cases after : cutover ≤ number
  · have inside := gregorianYear_spec number
    simp only [newYear, yearOf, if_pos after, leap_iff]
    generalize gregorianYear number = year at *
    simp only [gregorianStart, julianStart, cutover] at *
    exact ⟨inside.1, by split_ifs with long <;> omega⟩
  · have inside := julianYear_spec number
    simp only [newYear, yearOf, if_neg after, leap_iff]
    generalize julianYear number = year at *
    simp only [julianStart, cutover] at *
    exact ⟨inside.1, by split_ifs with long <;> omega⟩

private theorem before_cutover {number : Int} (before : ¬ cutover ≤ number) :
    ¬ cutover ≤ gregorianStart (julianYear number) + (number - julianStart (julianYear number)) :=
  by
  have inside := julianYear_spec number
  generalize julianYear number = year at *
  simp only [gregorianStart, julianStart, cutover] at *
  omega

private theorem dateOf_spec (number : Int) :
    (dateOf number).Valid ∧
      (daysBefore (leap (yearOf number)) (dateOf number).month : Int) + (dateOf number).day - 1 =
        number - newYear number := by
  obtain ⟨started, ends⟩ := inside_year number
  obtain ⟨first, last, sum⟩ :=
    monthDay_spec (monthLengths (leap (yearOf number))) (number - newYear number).toNat (by omega)
  refine ⟨⟨first, last⟩, ?_⟩
  simp only [daysBefore, dateOf]
  omega

theorem valid_dateOf (number : Int) : (dateOf number).Valid := (dateOf_spec number).1

theorem number_dateOf (number : Int) : (dateOf number).number = number := by
  have dayOfYear := (dateOf_spec number).2
  have year : (dateOf number).year = yearOf number := rfl
  simp only [Date.number, year, dayOfYear]
  by_cases after : cutover ≤ number
  · have start : newYear number = gregorianStart (yearOf number) := if_pos after
    rw [start, if_pos (by omega)]
    omega
  · have start : newYear number = julianStart (yearOf number) := if_neg after
    have julian : yearOf number = julianYear number := if_neg after
    rw [start, julian, if_neg (before_cutover after)]
    omega

example : dateOf (cutover - 1) = ⟨1582, 9, 4⟩ := by decide
example : dateOf cutover = ⟨1582, 9, 15⟩ := by decide

private theorem daysBefore_lt (leap : Bool) {month month' : Nat} (order : month < month')
    (inside : month' < 12) :
    daysBefore leap month + 28 ≤ daysBefore leap month' ∧
      daysBefore leap month' ≤ daysBefore leap month + 335 := by
  have table : ∀ leap, ∀ later : Fin 12, ∀ earlier : Fin 12, earlier < later →
      daysBefore leap earlier + 28 ≤ daysBefore leap later ∧
        daysBefore leap later ≤ daysBefore leap earlier + 335 := by decide
  exact table leap ⟨month', inside⟩ ⟨month, order.trans inside⟩ order

private theorem daysBefore_leap (leap : Bool) {month : Nat} (inside : month < 12) :
    daysBefore false month ≤ daysBefore leap month ∧
      daysBefore leap month ≤ daysBefore false month + 1 ∧ daysBefore leap month ≤ 335 := by
  have table : ∀ leap, ∀ month : Fin 12, daysBefore false month ≤ daysBefore leap month ∧
      daysBefore leap month ≤ daysBefore false month + 1 ∧
        daysBefore leap month ≤ 335 := by decide
  exact table leap ⟨month, inside⟩

theorem Date.Valid.month_lt {date : Date} (valid : date.Valid) : date.month < 12 := by
  by_contra late
  have none : (monthLengths (leap date.year)).getD date.month 0 = 0 := by
    rw [List.getD_eq_getElem?_getD, List.getElem?_eq_none (Nat.le_of_not_lt late)]
    rfl
  have first := valid.1
  have last := valid.2
  omega

theorem Date.Valid.day_le {date : Date} (valid : date.Valid) : date.day ≤ 31 := by
  have table : ∀ leap, ∀ month : Fin 12, (monthLengths leap).getD month 0 ≤ 31 := by decide
  exact valid.2.trans (table _ ⟨date.month, valid.month_lt⟩)

private theorem number_of_month_lt {earlier later : Date} (valid : earlier.Valid)
    (valid' : later.Valid) (year : later.year = earlier.year) (day : later.day = earlier.day)
    (order : earlier.month < later.month) :
    earlier.number + 18 ≤ later.number ∧ later.number ≤ earlier.number + 335 := by
  have apart := daysBefore_lt (leap earlier.year) order valid'.month_lt
  have early := (daysBefore_leap (leap earlier.year) valid.month_lt).2.2
  have short := valid.day_le
  have first := valid.1
  simp only [Date.number, year, day]
  generalize daysBefore (leap earlier.year) earlier.month = before at *
  generalize daysBefore (leap earlier.year) later.month = before' at *
  simp only [gregorianStart, julianStart, cutover]
  split_ifs <;> omega

private theorem number_of_year_lt {earlier later : Date} (valid : earlier.Valid)
    (month : later.month = earlier.month) (day : later.day = earlier.day)
    (order : earlier.year < later.year) : earlier.number + 354 ≤ later.number := by
  have early := daysBefore_leap (leap earlier.year) valid.month_lt
  have late := daysBefore_leap (leap later.year) valid.month_lt
  have short := valid.day_le
  have first := valid.1
  simp only [Date.number, month, day]
  generalize daysBefore (leap earlier.year) earlier.month = before at *
  generalize daysBefore (leap later.year) earlier.month = before' at *
  simp only [gregorianStart, julianStart, cutover]
  split_ifs <;> omega

theorem number_of_month_ne {date date' : Date} (valid : date.Valid) (valid' : date'.Valid)
    (year : date'.year = date.year) (day : date'.day = date.day)
    (other : date'.month ≠ date.month) :
    18 ≤ (date'.number - date.number).natAbs ∧ (date'.number - date.number).natAbs ≤ 335 := by
  rcases Nat.lt_or_gt_of_ne other with before | after
  · have apart := number_of_month_lt valid' valid year.symm day.symm before
    omega
  · have apart := number_of_month_lt valid valid' year day after
    omega

theorem number_of_year_ne {date date' : Date} (valid : date.Valid) (valid' : date'.Valid)
    (month : date'.month = date.month) (day : date'.day = date.day)
    (other : date'.year ≠ date.year) :
    354 ≤ (date'.number - date.number).natAbs := by
  rcases Int.lt_or_gt_of_ne other with before | after
  · have apart := number_of_year_lt valid' month.symm day.symm before
    omega
  · have apart := number_of_year_lt valid month day after
    omega

end TheNews.Calendar.Civil
