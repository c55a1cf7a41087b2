import Mathlib.Data.Prod.Lex
import Mathlib.Order.Monotone.Defs
import SqlBuilder.Moment

/-!
# Earlier and later

Dates, times of day and moments are ordered by their fields, from the year down
to the nanosecond. A leap second comes after second 59 and before the next
minute, since it is kept as a second 59 with a greater nanosecond part.

* `Date.lt_iff`, `TimeOfDay.le_iff`, `Moment.le_iff` — the orders;
* `Date.lt_next`, `Date.next_le_of_lt` — the day after is the next one;
* `TimeOfDay.minuteOfDay`, `TimeOfDay.le_iff_minuteOfDay` — times by the minute;
* `LocalClock.ahead_mono` — a clock ahead of universal time keeps the order.
-/

namespace SqlBuilder

/-! ## Dates -/

namespace Date

/-- What dates are ordered by. -/
def key (d : Date) : ℤ ×ₗ ℕ ×ₗ ℕ := toLex (d.year, toLex (d.month, d.day))

theorem key_injective : Function.Injective key := by
  intro d d' h
  cases d
  cases d'
  simpa [key] using h

instance : LinearOrder Date := LinearOrder.lift' key key_injective

variable {d d' : Date}

theorem lt_iff : d < d' ↔
    d.year < d'.year ∨ d.year = d'.year ∧
      (d.month < d'.month ∨ d.month = d'.month ∧ d.day < d'.day) := by
  show d.key < d'.key ↔ _
  simp only [key, Prod.Lex.toLex_lt_toLex]

theorem le_iff : d ≤ d' ↔
    d.year < d'.year ∨ d.year = d'.year ∧
      (d.month < d'.month ∨ d.month = d'.month ∧ d.day ≤ d'.day) := by
  show d.key ≤ d'.key ↔ _
  simp only [key, Prod.Lex.toLex_le_toLex]

theorem lt_next (d : Date) : d < d.next := by
  rw [lt_iff, next]
  -- a later day of the month, or the first of the next month or year
  split
  · simp
  · split
    · simp
    · exact .inl (Int.lt_succ d.year)

/-- No day comes between a day and the one after it. -/
theorem next_le_of_lt (h : d < d') : d.next ≤ d' := by
  rw [lt_iff] at h
  rw [le_iff, next]
  have hmonth := d'.month_bounds
  have hday := d'.day_bounds
  split
  · -- the days of a month are numbered without gaps
    show d.year < d'.year ∨ d.year = d'.year ∧ (d.month < d'.month ∨ d.month = d'.month ∧
      d.day + 1 ≤ d'.day)
    omega
  · next hlast =>
    -- on the last day of a month, a later day of that month is none
    have hlater : d.year < d'.year ∨ d.year = d'.year ∧ d.month < d'.month := by
      rcases h with hyear | ⟨hyear, hmonth' | ⟨hmonth', hday'⟩⟩
      · exact .inl hyear
      · exact .inr ⟨hyear, hmonth'⟩
      · rw [hyear, hmonth'] at hlast
        omega
    split
    · show d.year < d'.year ∨ d.year = d'.year ∧ (d.month + 1 < d'.month ∨
        d.month + 1 = d'.month ∧ 1 ≤ d'.day)
      omega
    · show d.year + 1 < d'.year ∨ d.year + 1 = d'.year ∧ (1 < d'.month ∨
        1 = d'.month ∧ 1 ≤ d'.day)
      omega

end Date

/-! ## Times of day -/

namespace TimeOfDay

/-- What times of day are ordered by. -/
def key (t : TimeOfDay) : ℕ ×ₗ ℕ ×ₗ ℕ ×ₗ ℕ :=
  toLex (t.hour, toLex (t.minute, toLex (t.second, t.nanosecond)))

theorem key_injective : Function.Injective key := by
  intro t t' h
  cases t
  cases t'
  simpa [key] using h

instance : LinearOrder TimeOfDay := LinearOrder.lift' key key_injective

variable {t t' : TimeOfDay}

theorem le_iff : t ≤ t' ↔
    t.hour < t'.hour ∨ t.hour = t'.hour ∧
      (t.minute < t'.minute ∨ t.minute = t'.minute ∧
        (t.second < t'.second ∨ t.second = t'.second ∧ t.nanosecond ≤ t'.nanosecond)) := by
  show t.key ≤ t'.key ↔ _
  simp only [key, Prod.Lex.toLex_le_toLex]

/-- The number of the minute in the day. -/
def minuteOfDay (t : TimeOfDay) : Nat := 60 * t.hour + t.minute

theorem minuteOfDay_lt (t : TimeOfDay) : t.minuteOfDay < 24 * 60 := by
  have hhour := t.hour_lt
  have hminute := t.minute_lt
  unfold minuteOfDay
  omega

/-- Times are ordered by their minutes, and within a minute by what is left. -/
theorem le_iff_minuteOfDay : t ≤ t' ↔
    t.minuteOfDay < t'.minuteOfDay ∨ t.minuteOfDay = t'.minuteOfDay ∧
      (t.second < t'.second ∨ t.second = t'.second ∧ t.nanosecond ≤ t'.nanosecond) := by
  have hminute := t.minute_lt
  have hminute' := t'.minute_lt
  rw [le_iff, minuteOfDay, minuteOfDay]
  omega

end TimeOfDay

/-! ## Moments -/

namespace Moment

/-- What moments are ordered by. -/
def key (m : Moment) : Date ×ₗ TimeOfDay := toLex (m.date, m.time)

theorem key_injective : Function.Injective key := by
  intro m m' h
  cases m
  cases m'
  simpa [key] using h

instance : LinearOrder Moment := LinearOrder.lift' key key_injective

variable {m m' : Moment}

theorem le_iff : m ≤ m' ↔ m.date < m'.date ∨ m.date = m'.date ∧ m.time ≤ m'.time :=
  Prod.Lex.toLex_le_toLex

end Moment

/-! ## Clocks ahead of universal time -/

namespace LocalClock

variable {offset : Fin (24 * 60)} {m m' : Moment}

/-- The minute that a clock ahead of universal time shows, counted on beyond
midnight. -/
def minuteAhead (offset : Fin (24 * 60)) (m : Moment) : Nat := m.time.minuteOfDay + offset.val

theorem minuteOfDay_ahead (offset : Fin (24 * 60)) (m : Moment) :
    (ahead offset m).time.minuteOfDay = minuteAhead offset m % (24 * 60) := by
  have hhour : (ahead offset m).time.hour = minuteAhead offset m / 60 % 24 := rfl
  have hminute : (ahead offset m).time.minute = minuteAhead offset m % 60 := rfl
  rw [TimeOfDay.minuteOfDay, hhour, hminute]
  omega

@[simp] theorem second_ahead (offset : Fin (24 * 60)) (m : Moment) :
    (ahead offset m).time.second = m.time.second := rfl

@[simp] theorem nanosecond_ahead (offset : Fin (24 * 60)) (m : Moment) :
    (ahead offset m).time.nanosecond = m.time.nanosecond := rfl

/-- A moment that the clock leaves on its day. -/
theorem ahead_of_lt (h : minuteAhead offset m < 24 * 60) :
    (ahead offset m).date = m.date ∧
      (ahead offset m).time.minuteOfDay = minuteAhead offset m := by
  refine ⟨if_pos h, ?_⟩
  rw [minuteOfDay_ahead, Nat.mod_eq_of_lt h]

/-- A moment that the clock carries over midnight. -/
theorem ahead_of_le (h : 24 * 60 ≤ minuteAhead offset m) :
    (ahead offset m).date = m.date.next ∧
      (ahead offset m).time.minuteOfDay + 24 * 60 = minuteAhead offset m := by
  have hminute := m.time.minuteOfDay_lt
  have hoffset := offset.isLt
  refine ⟨if_neg h.not_gt, ?_⟩
  rw [minuteOfDay_ahead]
  rw [minuteAhead] at h ⊢
  omega

/-- **A clock ahead of universal time keeps the order** of moments. It is ahead by
less than a day, so what it carries over midnight comes before all that it does
not carry. -/
theorem ahead_mono (offset : Fin (24 * 60)) : Monotone (ahead offset) := by
  intro m m' h
  have hminute := m.time.minuteOfDay_lt
  have hoffset := offset.isLt
  have hminute_ahead : minuteAhead offset m = m.time.minuteOfDay + offset.val := rfl
  have hminute_ahead' : minuteAhead offset m' = m'.time.minuteOfDay + offset.val := rfl
  have hnext := m'.date.lt_next
  rw [Moment.le_iff, TimeOfDay.le_iff_minuteOfDay] at h
  rw [Moment.le_iff, TimeOfDay.le_iff_minuteOfDay]
  simp only [second_ahead, nanosecond_ahead]
  rcases h with hdate | ⟨hdate, htime⟩
  · have hfollows : m.date.next ≤ m'.date := Date.next_le_of_lt hdate
    rcases Nat.lt_or_ge (minuteAhead offset m) (24 * 60) with hstays | hcarried
    · -- the second shows its own day or a later one
      rw [(ahead_of_lt hstays).1]
      rcases Nat.lt_or_ge (minuteAhead offset m') (24 * 60) with hstays' | hcarried'
      · rw [(ahead_of_lt hstays').1]
        exact .inl hdate
      · rw [(ahead_of_le hcarried').1]
        exact .inl (hdate.trans hnext)
    · obtain ⟨hday, hshown⟩ := ahead_of_le hcarried
      rw [hday]
      rcases Nat.lt_or_ge (minuteAhead offset m') (24 * 60) with hstays' | hcarried'
      · -- carried over to the day of the second at most, and then to its first hours
        obtain ⟨hday', hshown'⟩ := ahead_of_lt hstays'
        rw [hday']
        rcases hfollows.lt_or_eq with hlater | hsame
        · exact .inl hlater
        · exact .inr ⟨hsame, .inl (by omega)⟩
      · rw [(ahead_of_le hcarried').1]
        exact .inl (hfollows.trans_lt hnext)
  · rcases Nat.lt_or_ge (minuteAhead offset m) (24 * 60) with hstays | hcarried
    · obtain ⟨hday, hshown⟩ := ahead_of_lt hstays
      rw [hday, hdate]
      rcases Nat.lt_or_ge (minuteAhead offset m') (24 * 60) with hstays' | hcarried'
      · obtain ⟨hday', hshown'⟩ := ahead_of_lt hstays'
        exact .inr ⟨hday'.symm, by omega⟩
      · rw [(ahead_of_le hcarried').1]
        exact .inl hnext
    · -- on one day the first is carried over only if the second is
      have hcarried' : 24 * 60 ≤ minuteAhead offset m' := by omega
      obtain ⟨hday, hshown⟩ := ahead_of_le hcarried
      obtain ⟨hday', hshown'⟩ := ahead_of_le hcarried'
      rw [hday, hday', hdate]
      exact .inr ⟨rfl, by omega⟩

end LocalClock

end SqlBuilder
