/-!
# Dates and times

Wall-clock moments of the proleptic Gregorian calendar, with any year and with
leap seconds, and their texts. A leap second is written as second 60 of its
minute; it is kept as second 59 with a nanosecond part of a whole second more,
so that moments are ordered by their fields.

* `LocalClock` — what is shown somewhere at a moment of universal time;
* `Moment.sqlText` — the text of a moment in a statement;
* `Moment.text` — its full text, with the fraction of the second.
-/

namespace SqlBuilder

/-- Whether a year has a 29th of February. -/
def isLeapYear (year : Int) : Bool :=
  year % 4 = 0 && (year % 100 ≠ 0 || year % 400 = 0)

/-- The number of days of a month. -/
def daysInMonth (year : Int) (month : Nat) : Nat :=
  if month = 2 then if isLeapYear year then 29 else 28
  else if month = 4 ∨ month = 6 ∨ month = 9 ∨ month = 11 then 30
  else 31

/-- Every month has a day. -/
theorem one_le_daysInMonth (year : Int) (month : Nat) : 1 ≤ daysInMonth year month := by
  unfold daysInMonth
  repeat' split
  all_goals decide

/-- A day of the calendar. -/
structure Date where
  year : Int
  month : Nat
  day : Nat
  month_bounds : 1 ≤ month ∧ month ≤ 12 := by decide
  day_bounds : 1 ≤ day ∧ day ≤ daysInMonth year month := by decide
  deriving DecidableEq

/-- A time of day. Only second 59 can have a nanosecond part of a second or
more: that is the leap second after it. -/
structure TimeOfDay where
  hour : Nat
  minute : Nat
  second : Nat
  nanosecond : Nat
  hour_lt : hour < 24 := by decide
  minute_lt : minute < 60 := by decide
  second_lt : second < 60 := by decide
  nanosecond_lt : nanosecond < 1000000000 ∨ second = 59 ∧ nanosecond < 2000000000 := by decide
  deriving DecidableEq

/-- A date with a time of day. -/
structure Moment where
  date : Date
  time : TimeOfDay
  deriving DecidableEq

/-! ## Fields -/

/-- The date with the given fields, if there is one. -/
def Date.ofFields? (year : Int) (month day : Nat) : Option Date :=
  if h : (1 ≤ month ∧ month ≤ 12) ∧ 1 ≤ day ∧ day ≤ daysInMonth year month then
    some ⟨year, month, day, h.1, h.2⟩
  else none

/-- The time with the given fields, if there is one. -/
def TimeOfDay.ofFields? (hour minute second nanosecond : Nat) : Option TimeOfDay :=
  if h : hour < 24 ∧ minute < 60 ∧ second < 60 ∧
      (nanosecond < 1000000000 ∨ second = 59 ∧ nanosecond < 2000000000) then
    some ⟨hour, minute, second, nanosecond, h.1, h.2.1, h.2.2.1, h.2.2.2⟩
  else none

/-- The first instant of a day. -/
def TimeOfDay.midnight : TimeOfDay where
  hour := 0
  minute := 0
  second := 0
  nanosecond := 0

/-- The day after. -/
def Date.next (d : Date) : Date :=
  if h : d.day < daysInMonth d.year d.month then
    ⟨d.year, d.month, d.day + 1, d.month_bounds, by omega, h⟩
  else if h : d.month < 12 then
    ⟨d.year, d.month + 1, 1, by omega, by decide, one_le_daysInMonth ..⟩
  else ⟨d.year + 1, 1, 1, by decide, by decide, one_le_daysInMonth ..⟩

/-! ## Local clocks -/

/-- What a local clock shows at each moment of universal time. -/
abbrev LocalClock := Moment → Moment

namespace LocalClock

/-- The clock that shows universal time. -/
def universal : LocalClock := id

/-- The clock that is ahead of universal time by some minutes, less than a day.
The second and its parts stay. -/
def ahead (offset : Fin (24 * 60)) : LocalClock := fun m =>
  let minutes := 60 * m.time.hour + m.time.minute + offset.val
  let time : TimeOfDay :=
    ⟨minutes / 60 % 24, minutes % 60, m.time.second, m.time.nanosecond,
      Nat.mod_lt _ (by decide), Nat.mod_lt _ (by decide), m.time.second_lt, m.time.nanosecond_lt⟩
  ⟨if minutes < 24 * 60 then m.date else m.date.next, time⟩

end LocalClock

/-! ## Texts -/

/-- The decimal digits of a number, with zeros in front up to a width. -/
def paddedDigits (width n : Nat) : String :=
  let digits := Nat.toDigits 10 n
  String.ofList (List.replicate (width - digits.length) '0' ++ digits)

/-- A year: four digits from 0 to 9999, with a sign before or after that. -/
def yearText (year : Int) : String :=
  if year < 0 then "-" ++ paddedDigits 4 year.natAbs
  else if year ≤ 9999 then paddedDigits 4 year.natAbs
  else "+" ++ paddedDigits 4 year.natAbs

/-- A date as `YYYY-MM-DD`. -/
def Date.text (d : Date) : String :=
  yearText d.year ++ "-" ++ paddedDigits 2 d.month ++ "-" ++ paddedDigits 2 d.day

/-- The second as a clock shows it: 60 in a leap second. -/
def TimeOfDay.shownSecond (t : TimeOfDay) : Nat := t.second + t.nanosecond / 1000000000

/-- A time as `HH:MM:SS`, without the parts of a second. -/
def TimeOfDay.clockText (t : TimeOfDay) : String :=
  paddedDigits 2 t.hour ++ ":" ++ paddedDigits 2 t.minute ++ ":" ++ paddedDigits 2 t.shownSecond

/-- The parts of a second with three, six or nine digits, whichever is enough,
and nothing at a whole second. -/
def TimeOfDay.fractionText (t : TimeOfDay) : String :=
  let n := t.nanosecond % 1000000000
  if n = 0 then ""
  else if n % 1000000 = 0 then "." ++ paddedDigits 3 (n / 1000000)
  else if n % 1000 = 0 then "." ++ paddedDigits 6 (n / 1000)
  else "." ++ paddedDigits 9 n

/-- Whether the time is exactly midnight. -/
def TimeOfDay.isMidnight (t : TimeOfDay) : Bool :=
  t.hour = 0 && t.minute = 0 && t.second = 0 && t.nanosecond = 0

namespace Moment

/-- The moment in a statement: the date alone at exact midnight, the date and
the time in whole seconds otherwise. -/
def sqlText (m : Moment) : String :=
  if m.time.isMidnight then m.date.text else m.date.text ++ " " ++ m.time.clockText

/-- The whole moment, with a separator between date and time. -/
def textWith (separator : String) (m : Moment) : String :=
  m.date.text ++ separator ++ m.time.clockText ++ m.time.fractionText

/-- The whole moment. -/
def text (m : Moment) : String := m.textWith " "

/-- An instant of universal time in a statement, in universal time or on a local
clock. -/
def instantText (clock : LocalClock) (useUtc : Bool) (m : Moment) : String :=
  if useUtc then m.sqlText else (clock m).sqlText

end Moment

end SqlBuilder
